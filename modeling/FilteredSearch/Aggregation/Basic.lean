import FilteredSearch.Aggregation.Metric
import FilteredSearch.FilterTree.Compose

/-!
# Aggregations

An aggregation computes a metric over a field, or it is a bucket with an optional filter and
further aggregations by name.  Setting a metric discards the bucket and configuring a bucket
discards the metric, and a warning is logged when something is discarded.  Every aggregation
knows its path, the names from the outermost aggregation down to itself.
-/

namespace FilteredSearch

/-- A metric set on an aggregation, over the field that an accessor leads to. -/
structure MetricSetting where
  kind : MetricKind
  field : Except PathFault FieldPath

namespace MetricSetting

/-- The metric over the field that an accessor leads to. -/
def ofAccessor (kind : MetricKind) (field : Accessor) : MetricSetting :=
  ⟨kind, FieldPath.resolve field⟩

/-- The document of a metric over a field. -/
def document (kind : MetricKind) (field : FieldPath) : Json :=
  .singleton kind.key (.singleton "field" (.string field.dotted))

/-- What a metric composes to. -/
def compose (setting : MetricSetting) : Except SearchError Json :=
  match setting.field with
  | .ok field => .ok (document setting.kind field)
  | .error fault => .error (.ofPathFault fault)

end MetricSetting

/-- An aggregation with its path, a metric or none, and the filter and the further aggregations
of a bucket. -/
structure Aggregation where
  path : List String
  metric : Option MetricSetting
  filter : Option FilterTree
  children : List (String × Aggregation)

namespace Aggregation

/-- An aggregation that was not configured. -/
def unconfigured (path : List String) : Aggregation := ⟨path, none, none, []⟩

/-- The name of an aggregation. -/
def name (aggregation : Aggregation) : String := aggregation.path.getLast?.getD ""

/-- The aggregation has a filter or further aggregations. -/
def isBucket (aggregation : Aggregation) : Bool :=
  aggregation.filter.isSome || !aggregation.children.isEmpty

/-- Discards the bucket in favour of a metric. -/
def clearBucket (aggregation : Aggregation) (kind : MetricKind) : Logged Aggregation :=
  if aggregation.isBucket then
    ⟨{ aggregation with filter := none, children := [] }, [.replacedBucket aggregation.path kind]⟩
  else pure aggregation

/-- Discards the metric in favour of a bucket. -/
def clearMetric (aggregation : Aggregation) : Logged Aggregation :=
  match aggregation.metric with
  | some setting =>
    ⟨{ aggregation with metric := none }, [.replacedMetric aggregation.path setting.kind]⟩
  | none => pure aggregation

/-- Sets a metric, in place of a bucket or another metric. -/
def withMetric (aggregation : Aggregation) (kind : MetricKind) (field : Accessor) :
    Logged Aggregation := do
  let cleared ← aggregation.clearBucket kind
  return { cleared with metric := some (.ofAccessor kind field) }

/-- The further aggregation with a name, not configured when there is none. -/
def child (aggregation : Aggregation) (name : String) : Aggregation :=
  (Keyed.find? name aggregation.children).getD (.unconfigured (aggregation.path ++ [name]))

/-- The aggregation in which a further one is kept under a name. -/
def putChild (aggregation : Aggregation) (name : String) (child : Aggregation) : Aggregation :=
  { aggregation with children := Keyed.insert name child aggregation.children }

/-- The bucket with a further aggregation of the name, created when there is none. -/
def openChild (aggregation : Aggregation) (name : String) : Logged Aggregation := do
  let bucket ← aggregation.clearMetric
  return bucket.putChild name (bucket.child name)

/-- The handle on the metric of an aggregation. -/
def handle (aggregation : Aggregation) (kind : MetricKind) : Metric := ⟨aggregation.path, kind⟩

/-- The member for the filter of a bucket, if it has one, with the log. -/
def composedFilter : Option FilterTree → Composed (List (String × Json))
  | some tree => return [("filter", ← tree.composed)]
  | none => return []

/-- The member that holds documents by name, unless there are none. -/
def membersIfAny (name : String) (documents : List (String × Json)) : List (String × Json) :=
  if documents.isEmpty then [] else [(name, .object documents)]

mutual

/-- What an aggregation composes to, with the log.  A metric goes before a bucket. -/
def composed : Aggregation → Composed Json
  | ⟨_, some setting, _, _⟩ => Composed.ofExcept setting.compose
  | ⟨_, none, filter, children⟩ => do
    let filterMember ← composedFilter filter
    let documents ← composedMembers children
    return .ofMembers (filterMember ++ membersIfAny "aggs" documents)

/-- What aggregations compose to, by name, with the log. -/
def composedMembers : List (String × Aggregation) → Composed (List (String × Json))
  | [] => return []
  | (name, aggregation) :: rest => do
    let document ← composed aggregation
    return (name, document) :: (← composedMembers rest)

end

/-- What an aggregation composes to. -/
def compose (aggregation : Aggregation) : Except SearchError Json := aggregation.composed.result

/-- The member for the filter of a bucket, if it has one. -/
def composeFilter (filter : Option FilterTree) : Except SearchError (List (String × Json)) :=
  (composedFilter filter).result

/-- What aggregations compose to, by name. -/
def composeMembers (aggregations : List (String × Aggregation)) :
    Except SearchError (List (String × Json)) :=
  (composedMembers aggregations).result

theorem composeFilter_some (tree : FilterTree) :
  composeFilter (some tree) = tree.compose.map fun document => [("filter", document)]
  := by
  simp only [composeFilter, composedFilter, Composed.result_bind, Composed.result_pure,
    FilterTree.compose]
  cases tree.composed.result <;> rfl

theorem compose_of_metric {aggregation : Aggregation} {setting : MetricSetting}
    (h : aggregation.metric = some setting) :
  aggregation.compose = setting.compose
  := by
  obtain ⟨path, metric, filter, children⟩ := aggregation
  obtain rfl : metric = some setting := h
  rw [compose, composed, Composed.result_ofExcept]

/-- The filter of a bucket is composed before its further aggregations. -/
theorem compose_of_no_metric {aggregation : Aggregation} (h : aggregation.metric = none) :
  aggregation.compose = do
    let filterMember ← composeFilter aggregation.filter
    let documents ← composeMembers aggregation.children
    return .ofMembers (filterMember ++ membersIfAny "aggs" documents)
  := by
  obtain ⟨path, metric, filter, children⟩ := aggregation
  obtain rfl : metric = none := h
  simp only [compose, composed, Composed.result_bind, Composed.result_pure, composeFilter,
    composeMembers]
  rfl

/-- Aggregations are composed in the order in which they stand. -/
theorem composeMembers_cons (name : String) (aggregation : Aggregation)
    (rest : List (String × Aggregation)) :
  composeMembers ((name, aggregation) :: rest) = do
    let document ← aggregation.compose
    let documents ← composeMembers rest
    return (name, document) :: documents
  := by
  simp only [compose, composeMembers, composedMembers, Composed.result_bind,
    Composed.result_pure]
  rfl

end Aggregation

end FilteredSearch
