import FilteredSearch.Proofs.Aggregation.Runs
import FilteredSearch.Proofs.Results

/-!
# Reading back what was asked for

The path of an aggregation is the chain of names that leads to it.  A request composes to a
document in which the metric of an aggregation stands below `aggs` and each of these names in
turn, and a handle follows the same names in a response.  It finds no result exactly when one of
the names does not lead on, and otherwise reads what stands where the names lead.
-/

namespace FilteredSearch

open Aggregation

/-! ### Following names in a document -/

namespace Json

/-- The names lead from the document to the value, each to a member of the object reached. -/
inductive Leads : Json → List String → Json → Prop
  | here {document : Json} : Leads document [] document
  | member {members : List (String × Json)} {name : String} {names : List String}
    {value target : Json} (hvalue : Keyed.find? name members = some value)
    (hleads : Leads value names target) :
    Leads (.object members) (name :: names) target

/-- One of the names does not lead on: what was reached is not an object, or has no such
member. -/
inductive Breaks : Json → List String → Prop
  | notObject {document : Json} {name : String} {names : List String}
    (hdocument : ∀ members, document ≠ .object members) : Breaks document (name :: names)
  | missing {members : List (String × Json)} {name : String} {names : List String}
    (hmember : Keyed.find? name members = none) : Breaks (.object members) (name :: names)
  | later {members : List (String × Json)} {name : String} {names : List String} {value : Json}
    (hvalue : Keyed.find? name members = some value) (hbreaks : Breaks value names) :
    Breaks (.object members) (name :: names)

end Json

namespace Metric

variable {document value : Json} {names : List String}

theorem follow?_cons (document : Json) (name : String) (names : List String) :
  follow? document (name :: names)
    = (document.member? name).bind fun document => follow? document names
  := by
  rw [follow?]

theorem leads_of_follow? (h : follow? document names = some value) :
  document.Leads names value
  := by
  induction names generalizing document with
  | nil =>
    obtain rfl := Option.some.inj h
    apply Json.Leads.here
  | cons name names ih =>
    rw [follow?_cons, Option.bind_eq_some_iff] at h
    obtain ⟨next, hnext, h⟩ := h
    cases document with
    | object members => apply Json.Leads.member hnext (ih h)
    | null | bool | number | string | array => simp [Json.member?] at hnext

/-- Following names finds nothing exactly when they break off. -/
theorem follow?_eq_none_iff :
  follow? document names = none ↔ document.Breaks names
  := by
  constructor
  · intro h
    induction names generalizing document with
    | nil => simp [follow?] at h
    | cons name names ih =>
      rw [follow?_cons, Option.bind_eq_none_iff] at h
      cases document with
      | object members =>
        cases hvalue : Keyed.find? name members with
        | none => apply Json.Breaks.missing hvalue
        | some next => apply Json.Breaks.later hvalue (ih (h next hvalue))
      | null | bool | number | string | array => exact .notObject (by simp)
  · intro h
    induction h with
    | @notObject document name names hdocument =>
      cases document with
      | object members => exact absurd rfl (hdocument members)
      | null | bool | number | string | array => rfl
    | missing hmember => rw [follow?_cons, Json.member?, hmember, Option.bind_none]
    | later hvalue _ ih => rw [follow?_cons, Json.member?, hvalue, Option.bind_some, ih]

/-! ### Reading -/

variable {α : Type} {metric : Metric} {response : SearchResponse α}

/-- A handle follows its path in the results of the aggregations. -/
theorem find?_eq (hpath : metric.path ≠ []) :
  metric.find? response = follow? (.object response.aggregations) metric.path
  := by
  obtain ⟨path, kind⟩ := metric
  cases path with
  | nil => exact absurd rfl hpath
  | cons name names => rfl

/-- A handle finds no result exactly when its path breaks off in the response. -/
theorem read_eq_noAggregationResult_iff (hpath : metric.path ≠ []) (name : String) :
  metric.read response = .error (.noAggregationResult name)
    ↔ (Json.object response.aggregations).Breaks metric.path ∧ name = Text.joinDots metric.path
  := by
  rw [← follow?_eq_none_iff, ← find?_eq hpath, read]
  cases metric.find? response with
  | none => simp [eq_comm]
  | some document =>
    simp only [ResultShape.parse]
    cases metric.kind.shape.read document <;> simp [Except.mapError]

/-- A handle whose path does not break off reads what the path leads to. -/
theorem exists_read_eq (hpath : metric.path ≠ [])
    (hbreaks : ¬(Json.object response.aggregations).Breaks metric.path) :
  ∃ value, (Json.object response.aggregations).Leads metric.path value
    ∧ metric.read response
      = (metric.kind.shape.read value).mapError fun error => .unreadableResult error.message
  := by
  rw [← follow?_eq_none_iff, ← Ne, Option.ne_none_iff_exists'] at hbreaks
  obtain ⟨value, hvalue⟩ := hbreaks
  use value, leads_of_follow? hvalue
  rw [read, find?_eq hpath, hvalue]
  rfl

end Metric

/-! ### Composing -/

section Compose

variable {top node child : Aggregation} {name : String} {names : List String}
  {children : List (String × Aggregation)} {documents : List (String × Json)} {document : Json}
  {setting : MetricSetting}

/-- When aggregations compose, each of them composes to the document under its name. -/
theorem Aggregation.find?_composeMembers (h : composeMembers children = .ok documents)
    (hchild : Keyed.find? name children = some child) :
  ∃ document, child.compose = .ok document ∧ Keyed.find? name documents = some document
  := by
  induction children generalizing documents with
  | nil => simp [Keyed.find?] at hchild
  | cons entry rest ih =>
    obtain ⟨key, first⟩ := entry
    simp only [composeMembers_cons, Results.bind_eq_ok_iff] at h
    obtain ⟨document, hdocument, others, hothers, h⟩ := h
    obtain rfl := Except.ok.inj h
    rw [Keyed.find?] at hchild ⊢
    split at hchild
    · next heq =>
      obtain rfl := Option.some.inj hchild
      exact ⟨document, hdocument, if_pos heq⟩
    · next hne =>
      obtain ⟨found, hcompose, hfound⟩ := ih hothers hchild
      exact ⟨found, hcompose, (if_neg hne).trans hfound⟩

/-- What further documents lead to is led to below the member that holds them. -/
theorem Json.Leads.aggs {members : List (String × Json)} {inner target : Json}
    (haggs : Keyed.find? "aggs" members = some (.object documents))
    (hinner : Keyed.find? name documents = some inner) (hleads : inner.Leads names target) :
  (Json.object members).Leads ("aggs" :: name :: names) target
  := .member haggs (.member hinner hleads)

theorem Aggregation.membersIfAny_of_find? {inner : Json}
    (hinner : Keyed.find? name documents = some inner) :
  membersIfAny "aggs" documents = [("aggs", .object documents)]
  := by
  cases documents with
  | nil => simp [Keyed.find?] at hinner
  | cons entry rest => rfl

/-- What a further aggregation of a bucket composes to stands below `aggs` and its name. -/
theorem Aggregation.leads_of_child (hmetric : top.metric = none) (h : top.compose = .ok document)
    (hchild : Keyed.find? name top.children = some child) :
  ∃ inner, child.compose = .ok inner ∧ ∀ names target, inner.Leads names target →
    document.Leads ("aggs" :: name :: names) target
  := by
  simp only [compose_of_no_metric hmetric, Results.bind_eq_ok_iff] at h
  obtain ⟨filterMember, -, documents, hdocuments, h⟩ := h
  obtain rfl := Except.ok.inj h
  obtain ⟨inner, hcompose, hinner⟩ := find?_composeMembers hdocuments hchild
  use inner, hcompose
  intro names target hleads
  apply Json.Leads.aggs _ hinner hleads
  rw [membersIfAny_of_find? hinner, Keyed.find?_ofList_append]
  rfl

theorem SearchRequest.ne_of_mem_composeSize {limit : PageLimit} {size : Int64}
    {members : List (String × Json)} (h : composeSize limit size = .ok members) :
  ∀ entry ∈ members, "aggs" ≠ entry.1
  := by
  rw [composeSize] at h
  split at h
  · obtain ⟨_, -, rfl⟩ := Results.map_eq_ok_iff.mp h
    simp
  · obtain rfl := Except.ok.inj h
    simp

theorem SearchRequest.ne_of_mem_startMember (start : Int64) :
  ∀ entry ∈ startMember start, "aggs" ≠ entry.1
  := by
  rw [startMember]
  split <;> simp

theorem SearchRequest.ne_of_mem_composeSort {sort : List SortKey}
    {members : List (String × Json)} (h : composeSort sort = .ok members) :
  ∀ entry ∈ members, "aggs" ≠ entry.1
  := by
  rw [composeSort] at h
  split at h
  · obtain rfl := Except.ok.inj h
    simp
  · obtain ⟨_, -, rfl⟩ := Results.map_eq_ok_iff.mp h
    simp

/-- What an aggregation of a request composes to stands below `aggs` and its name. -/
theorem SearchRequest.leads_of_aggregation {request : SearchRequest}
    (h : request.compose = .ok document)
    (hchild : Keyed.find? name request.aggregations = some child) :
  ∃ inner, child.compose = .ok inner ∧ ∀ names target, inner.Leads names target →
    document.Leads ("aggs" :: name :: names) target
  := by
  simp only [compose_eq, Results.bind_eq_ok_iff] at h
  obtain ⟨_, -, _, -, documents, hdocuments, size, hsize, sort, hsort, h⟩ := h
  obtain rfl := Except.ok.inj h
  obtain ⟨inner, hcompose, hinner⟩ := find?_composeMembers hdocuments hchild
  use inner, hcompose
  intro names target hleads
  apply Json.Leads.aggs _ hinner hleads
  rw [membersIfAny_of_find? hinner, Keyed.find?_ofList_append, Keyed.find?_ofList_append,
    Keyed.find?_ofList_append, Keyed.find?_ofList_eq_none (ne_of_mem_composeSort hsort),
    Keyed.find?_ofList_eq_none (ne_of_mem_startMember _),
    Keyed.find?_ofList_eq_none (ne_of_mem_composeSize hsize)]
  rfl

/-- The metric of an aggregation composes to its document below the names that lead to the
aggregation. -/
theorem Aggregation.leads_of_compose (hwf : top.WellFormed) (hnode : top.at? names = some node)
    (hmetric : node.metric = some setting) (h : top.compose = .ok document) :
  ∃ field, setting.field = .ok field ∧ document.Leads (names.flatMap fun name => ["aggs", name])
    (MetricSetting.document setting.kind field)
  := by
  induction names generalizing top document with
  | nil =>
    obtain rfl : top = node := by simpa using hnode
    rw [compose_of_metric hmetric, MetricSetting.compose] at h
    split at h
    · next field hfield =>
      obtain rfl := Except.ok.inj h
      exact ⟨field, hfield, .here⟩
    · cases h
  | cons name names ih =>
    rw [at?_cons, Option.bind_eq_some_iff] at hnode
    obtain ⟨child, hchild, hnode⟩ := hnode
    obtain ⟨inner, hinner, hleads⟩ := leads_of_child (hwf.hasOneMode.metric_eq_none hchild) h hchild
    obtain ⟨field, hfield, hinside⟩ :=
      ih (hwf.of_mem (Keyed.mem_of_find?_eq_some hchild)).1 hnode hinner
    exact ⟨field, hfield, hleads _ _ hinside⟩

/-- The metric of an aggregation of a request composes to its document below the names that lead
to the aggregation. -/
theorem SearchRequest.leads_of_compose {request : SearchRequest}
    (hwf : request.outermost.WellFormed) (hne : names ≠ [])
    (hnode : request.outermost.at? names = some node) (hmetric : node.metric = some setting)
    (h : request.compose = .ok document) :
  ∃ field, setting.field = .ok field ∧ document.Leads (names.flatMap fun name => ["aggs", name])
    (MetricSetting.document setting.kind field)
  := by
  cases names with
  | nil => exact absurd rfl hne
  | cons name names =>
    rw [at?_cons, Option.bind_eq_some_iff] at hnode
    obtain ⟨child, hchild, hnode⟩ := hnode
    obtain ⟨inner, hinner, hleads⟩ := leads_of_aggregation h hchild
    obtain ⟨field, hfield, hinside⟩ :=
      Aggregation.leads_of_compose (hwf.of_mem (Keyed.mem_of_find?_eq_some hchild)).1 hnode hmetric
        hinner
    exact ⟨field, hfield, hleads _ _ hinside⟩

end Compose

/-! ### Handles -/

/-- A script makes its calls on its aggregation and on those below it. -/
theorem AggregationScript.prefix_of_mem_calls {script : AggregationScript} {names : List String}
    {made : CallAt} (h : made ∈ script.calls names) :
  names <+: made.names
  := by
  induction script generalizing names with
  | done => simp [calls] at h
  | metric _ _ rest ih | bucketFilter _ rest ih =>
    rw [calls, List.mem_cons] at h
    rcases h with rfl | h
    · apply List.prefix_rfl
    · apply ih h
  | subAggregate child body rest hbody hrest =>
    rw [calls, List.mem_cons, List.mem_append] at h
    rcases h with rfl | h | h
    · apply List.prefix_rfl
    · apply (List.prefix_append names [child]).trans (hbody h)
    · apply hrest h
  | name rest ih | isBucket rest ih | compose rest ih | unknown _ rest ih =>
    rw [calls] at h
    apply ih h

/-- Metrics are set below the aggregation without a name. -/
theorem RequestCall.ne_nil_of_mem_calls {call : RequestCall} {names : List String}
    {kind : MetricKind} {field : Accessor} (h : ⟨names, .metric kind field⟩ ∈ call.calls) :
  names ≠ []
  := by
  cases call with
  | aggregate name body =>
    rw [calls, List.mem_cons] at h
    rcases h with h | h
    · simp at h
    · rintro rfl
      simpa using AggregationScript.prefix_of_mem_calls h
  | filter | tryFilter | query | take | skip | sort | compose | toText | execute | unknown =>
    simp [calls] at h

/-- A handle that a run gives has a path. -/
theorem RequestCall.path_ne_nil_of_mem_handles {script : List RequestCall} {limit : PageLimit}
    {metric : Metric}
    (h : metric ∈ CallAt.handles (script.flatMap RequestCall.calls)
      (SearchRequest.empty limit).outermost) :
  metric.path ≠ []
  := by
  obtain ⟨before, ⟨names, call⟩, later, hcalls, hmade⟩ := CallAt.exists_of_mem_handles h
  obtain ⟨hwf, hpath⟩ := SearchRequest.wellFormed_runAll_empty limit before
  rw [CallAt.path_of_handle hwf hmade, hpath, List.nil_append]
  cases call with
  | metric kind field =>
    have hmem : ⟨names, .metric kind field⟩ ∈ script.flatMap RequestCall.calls := by
      rw [hcalls]
      simp
    obtain ⟨request, -, hmem⟩ := List.mem_flatMap.mp hmem
    apply RequestCall.ne_nil_of_mem_calls hmem
  | subAggregate | bucketFilter => simp [CallAt.handle?] at hmade

/-- The path of every aggregation of a request after any run is the chain of the names that lead
to it, so no two aggregations have the same path.  If the aggregation at the path of a handle has
a metric, and the request composes, then the document of the metric stands in that of the request
below `aggs` and each of the names.  In any response, the handle finds no result exactly when its
path breaks off among the results of the aggregations, and otherwise reads what its path leads
to. -/
theorem RequestCall.paths_and_reads_runAll (script : List RequestCall) (limit : PageLimit) :
  let reached := RequestCall.runAll script (.empty limit) .empty
  let top := reached.1.outermost
  (∀ names node, top.NodeAt names node → node.path = names)
  ∧ (∀ names others node other, top.NodeAt names node → top.NodeAt others other →
      node.path = other.path → names = others ∧ node = other)
  ∧ ∀ metric ∈ reached.2.metrics, metric.path ≠ []
    ∧ (∀ node setting document, top.NodeAt metric.path node → node.metric = some setting →
        reached.1.compose = .ok document →
        ∃ field, setting.field = .ok field
          ∧ document.Leads (metric.path.flatMap fun name => ["aggs", name])
            (MetricSetting.document setting.kind field))
    ∧ ∀ (α : Type) (response : SearchResponse α),
      let results := Json.object response.aggregations
      (∀ name, metric.read response = .error (.noAggregationResult name)
        ↔ results.Breaks metric.path ∧ name = Text.joinDots metric.path)
      ∧ (¬results.Breaks metric.path → ∃ value, results.Leads metric.path value
          ∧ metric.read response
            = (metric.kind.shape.read value).mapError fun error => .unreadableResult error.message)
  := by
  intro reached top
  have hretraces : Retraces (script.flatMap RequestCall.calls) (SearchRequest.empty limit).outermost
      top .empty reached.2 := RequestCall.retraces_runAll ..
  obtain ⟨hwf, hpath⟩ : top.WellFormed ∧ top.path = [] := by
    rw [← hretraces.value]
    apply SearchRequest.wellFormed_runAll_empty
  have hpaths : ∀ names node, top.NodeAt names node → node.path = names := by
    intro names node hnode
    rw [(hwf.of_at? ((nodeAt_iff hwf).mp hnode)).2, hpath, List.nil_append]
  refine ⟨hpaths, ?_, ?_⟩
  · intro names others node other hnode hother heq
    obtain rfl : names = others := by rw [← hpaths _ _ hnode, heq, hpaths _ _ hother]
    rw [nodeAt_iff hwf] at hnode hother
    exact ⟨rfl, Option.some.inj (hnode.symm.trans hother)⟩
  · intro metric hmetric
    have hne : metric.path ≠ [] := by
      rw [← Array.mem_toList_iff, hretraces.metrics] at hmetric
      apply RequestCall.path_ne_nil_of_mem_handles hmetric
    refine ⟨hne, ?_, ?_⟩
    · intro node setting document hnode hsetting hdocument
      apply SearchRequest.leads_of_compose hwf hne ((nodeAt_iff hwf).mp hnode) hsetting hdocument
    · intro α response results
      exact ⟨Metric.read_eq_noAggregationResult_iff hne, Metric.exists_read_eq hne⟩

/-- A metric is set two names below the request. -/
def nestedMetric : List RequestCall :=
  [.aggregate "ages" (.subAggregate "oldest" (.metric .max [.member "age"] .done) .done)]

def oldest : Metric := ⟨["ages", "oldest"], .max⟩

/-- A response with an empty object for the metric. -/
def withOldest : SearchResponse Json :=
  { aggregations := [("ages", .object [("oldest", .object [])])] }

theorem paths_and_reads_runAll_nestedMetric :
  let reached := RequestCall.runAll nestedMetric (.empty .standard) .empty
  oldest ∈ reached.2.metrics
    ∧ (∃ document field, reached.1.compose = .ok document
      ∧ document.Leads ["aggs", "ages", "aggs", "oldest"] (MetricSetting.document .max field))
    ∧ (∃ value, oldest.read withOldest
        = (oldest.kind.shape.read value).mapError fun error => .unreadableResult error.message)
    ∧ oldest.read ({} : SearchResponse Json) = .error (.noAggregationResult "ages.oldest")
  := by
  intro reached
  obtain ⟨-, -, hmetrics⟩ := RequestCall.paths_and_reads_runAll nestedMetric .standard
  have holdest : oldest ∈ reached.2.metrics := by
    show oldest ∈ #[oldest]
    simp
  obtain ⟨-, hcompose, hread⟩ := hmetrics oldest holdest
  obtain ⟨document, hdocument⟩ : ∃ document, reached.1.compose = .ok document := ⟨_, rfl⟩
  have hnode : reached.1.outermost.NodeAt ["ages", "oldest"]
      ⟨["ages", "oldest"], some (.ofAccessor .max [.member "age"]), none, []⟩ :=
    .child (.child .top (.head _)) (.head _)
  obtain ⟨field, -, hleads⟩ := hcompose _ _ document hnode rfl hdocument
  obtain ⟨-, hfound⟩ := hread Json withOldest
  obtain ⟨hmissing, -⟩ := hread Json {}
  have hkept : ¬(Json.object withOldest.aggregations).Breaks oldest.path := by
    rw [← Metric.follow?_eq_none_iff]
    simp [Metric.follow?, oldest, withOldest, Json.member?, Keyed.find?]
  obtain ⟨value, -, hvalue⟩ := hfound hkept
  exact ⟨holdest, ⟨document, field, hdocument, hleads⟩, ⟨value, hvalue⟩,
    (hmissing _).mpr ⟨.missing rfl, rfl⟩⟩

end FilteredSearch
