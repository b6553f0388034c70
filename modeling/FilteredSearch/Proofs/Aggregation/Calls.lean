import FilteredSearch.Proofs.Aggregation.Nodes
import FilteredSearch.Proofs.Warnings

/-!
# Calls on aggregations

A call sets the metric of an aggregation, opens a further aggregation, or configures the filter.
Each call discards what the aggregation is if that is of the other mode, warns exactly when it
does so, and leaves a well-formed aggregation with the same path.  So a row of calls, each made on
a node of a well-formed tree, leaves a well-formed tree.
-/

namespace FilteredSearch

namespace Aggregation

variable (node : Aggregation) (kind : MetricKind) (field : Accessor) (name : String)

@[simp]
theorem value_clearMetric :
  node.clearMetric.value = { node with metric := none }
  := by
  obtain ⟨path, metric, filter, children⟩ := node
  cases metric <;> rfl

/-- A metric leaves nothing of the bucket that it is set on. -/
@[simp]
theorem value_withMetric :
  (node.withMetric kind field).value = ⟨node.path, some (.ofAccessor kind field), none, []⟩
  := by
  rw [withMetric, Logged.value_bind, Logged.value_pure, clearBucket]
  split
  · rfl
  · next hbucket =>
    obtain ⟨hfilter, hchildren⟩ := isBucket_eq_false_iff.mp (Bool.not_eq_true _ ▸ hbucket)
    rw [Logged.value_pure, hfilter, hchildren]

@[simp]
theorem value_openChild :
  (node.openChild name).value = { node with metric := none }.putChild name (node.child name)
  := by
  rw [openChild, Logged.value_bind, Logged.value_pure, value_clearMetric]
  rfl

/-- The further aggregation that was opened is kept. -/
theorem putChild_child_openChild {node : Aggregation} {name : String} :
  (node.openChild name).value.putChild name ((node.openChild name).value.child name)
    = (node.openChild name).value
  := by
  rw [value_openChild, child_putChild, putChild_putChild]

/-- Discarding a metric warns when there is one. -/
theorem clearMetric_warns_iff :
  (∃ entry ∈ node.clearMetric.entries, entry.level = .warn) ↔ node.metric.isSome = true
  := by
  rw [clearMetric]
  split
  · next setting hmetric => simp [hmetric, LogEntry.level]
  · next hnone => simp [hnone]

/-- Setting a metric warns when it discards a bucket. -/
theorem withMetric_warns_iff :
  (∃ entry ∈ (node.withMetric kind field).entries, entry.level = .warn) ↔ node.isBucket = true
  := by
  simp only [withMetric, Logged.entries_bind, Logged.entries_pure, List.append_nil, clearBucket]
  split
  · next hbucket => simp [hbucket, LogEntry.level]
  · next hbucket => simp [hbucket]

theorem WellFormed.withoutMetric {node : Aggregation} (h : node.WellFormed) :
  { node with metric := none }.WellFormed
  := .node (Or.inl rfl) h.ascending (fun _ _ hmem => (h.of_mem hmem).2)
    (fun _ _ hmem => (h.of_mem hmem).1)

end Aggregation

open Aggregation

/-- A call that changes an aggregation. -/
inductive AggregationCall where
  /-- Sets a metric. -/
  | metric (kind : MetricKind) (field : Accessor)
  /-- Opens a further aggregation, which is created when there is none of the name. -/
  | subAggregate (name : String)
  /-- Configures the filter of the bucket. -/
  | bucketFilter (body : FilterScript)

namespace AggregationCall

/-- What a call makes of an aggregation, with the log. -/
def run : AggregationCall → Aggregation → Logged Aggregation
  | .metric kind field, node => node.withMetric kind field
  | .subAggregate name, node => node.openChild name
  | .bucketFilter body, node => do
    let bucket ← node.clearMetric
    let (tree, session, _) :=
      MetricSession.empty.configure "bucket_filter" false body bucket.filter
    ⟨{ bucket with filter := some tree }, session.transcript.entries.toList⟩

/-- The aggregation is of the other mode: the call sets a metric on a bucket, or configures a
bucket on a metric. -/
def EndsMode : AggregationCall → Aggregation → Prop
  | .metric _ _, node => node.isBucket = true
  | .subAggregate _, node | .bucketFilter _, node => node.metric.isSome = true

variable (call : AggregationCall) {node : Aggregation}

theorem value_run_bucketFilter (body : FilterScript) :
  ((AggregationCall.bucketFilter body).run node).value
    = { node with
        metric := none
        filter := some
          (MetricSession.empty.configure "bucket_filter" false body node.filter).1 }
  := by
  rw [run, Logged.value_bind, value_clearMetric]

theorem entries_run_bucketFilter (body : FilterScript) :
  ((AggregationCall.bucketFilter body).run node).entries
    = node.clearMetric.entries
      ++ (MetricSession.empty.configure "bucket_filter" false body
          node.filter).2.1.transcript.entries.toList
  := by
  rw [run, Logged.entries_bind, value_clearMetric]

/-- The filter does not depend on the session in which it is configured. -/
theorem value_run_bucketFilter_session (body : FilterScript) (session : MetricSession) :
  ((AggregationCall.bucketFilter body).run node).value
    = { node.clearMetric.value with
        filter := some
          (session.configure "bucket_filter" false body node.clearMetric.value.filter).1 }
  := by
  rw [MetricSession.configure_eq]
  rfl

/-- Configuring the filter warns of nothing but the metric that it discards. -/
theorem warnings_run_bucketFilter (body : FilterScript) :
  LogEntry.warnings ((AggregationCall.bucketFilter body).run node).entries
    = LogEntry.warnings node.clearMetric.entries
  := by
  have hquiet := MetricSession.warnings_configure_empty "bucket_filter" false body node.filter
  rw [entries_run_bucketFilter, LogEntry.warnings_append, ← MetricSession.warnings, hquiet,
    List.append_nil]

/-- A call warns exactly when it ends the mode of the aggregation. -/
theorem run_warns_iff :
  (∃ entry ∈ (call.run node).entries, entry.level = .warn) ↔ call.EndsMode node
  := by
  cases call with
  | metric kind field => apply withMetric_warns_iff
  | subAggregate name =>
    rw [run, openChild, Logged.entries_bind, Logged.entries_pure, List.append_nil]
    apply clearMetric_warns_iff
  | bucketFilter body =>
    rw [← LogEntry.warnings_ne_nil_iff, warnings_run_bucketFilter, LogEntry.warnings_ne_nil_iff]
    apply clearMetric_warns_iff

/-- An aggregation keeps its path. -/
@[simp]
theorem path_run :
  (call.run node).value.path = node.path
  := by
  cases call with
  | metric kind field => rw [run, value_withMetric]
  | subAggregate name =>
    rw [run, value_openChild]
    rfl
  | bucketFilter body => rw [value_run_bucketFilter]

theorem wellFormed_run (h : node.WellFormed) :
  (call.run node).value.WellFormed
  := by
  cases call with
  | metric kind field =>
    rw [run, value_withMetric]
    exact .node (Or.inr ⟨rfl, rfl⟩) List.Pairwise.nil (by simp) (by simp)
  | subAggregate name =>
    obtain ⟨hchild, hpath⟩ := h.of_child name
    rw [run, value_openChild]
    apply h.withoutMetric.putChild rfl hchild hpath
  | bucketFilter body =>
    rw [value_run_bucketFilter]
    apply h.withoutMetric.withFilter rfl

end AggregationCall

/-- A call on the aggregation to which names lead. -/
structure CallAt where
  names : List String
  call : AggregationCall

namespace CallAt

/-- What a call makes of a tree, with the log. -/
def run (made : CallAt) (top : Aggregation) : Logged Aggregation :=
  match top.at? made.names with
  | some node => do return top.putAt made.names (← made.call.run node)
  | none => pure top

/-- The handle that a call gives: setting a metric gives one. -/
def handle? (made : CallAt) (top : Aggregation) : Option Metric :=
  match made.call with
  | .metric kind _ => (top.at? made.names).map fun node => node.handle kind
  | _ => none

/-- The call warns. -/
def Warns (made : CallAt) (top : Aggregation) : Prop :=
  ∃ entry ∈ (made.run top).entries, entry.level = .warn

/-- What a row of calls makes of a tree, with the log. -/
def runAll : List CallAt → Aggregation → Logged Aggregation
  | [], top => pure top
  | made :: later, top => do runAll later (← made.run top)

/-- The handles that a row of calls gives. -/
def handles : List CallAt → Aggregation → List Metric
  | [], _ => []
  | made :: later, top => (made.handle? top).toList ++ handles later (made.run top).value

/-- Every call of the row finds its aggregation. -/
def Found : List CallAt → Aggregation → Prop
  | [], _ => True
  | made :: later, top =>
    (∃ node, top.at? made.names = some node) ∧ Found later (made.run top).value

variable {made : CallAt} {calls more : List CallAt} {top node : Aggregation}

theorem run_of_at? (h : top.at? made.names = some node) :
  made.run top = do return top.putAt made.names (← made.call.run node)
  := by
  rw [run, h]

theorem value_run (h : top.at? made.names = some node) :
  (made.run top).value = top.putAt made.names (made.call.run node).value
  := by
  rw [run_of_at? h, Logged.value_bind, Logged.value_pure]

theorem entries_run (h : top.at? made.names = some node) :
  (made.run top).entries = (made.call.run node).entries
  := by
  rw [run_of_at? h, Logged.entries_bind, Logged.entries_pure, List.append_nil]

theorem warns_iff (h : top.at? made.names = some node) :
  made.Warns top ↔ made.call.EndsMode node
  := by
  rw [Warns, entries_run h, AggregationCall.run_warns_iff]

/-- A call keeps a tree well formed, and keeps its path. -/
theorem wellFormed_run (hwf : top.WellFormed) :
  (made.run top).value.WellFormed ∧ (made.run top).value.path = top.path
  := by
  cases hnode : top.at? made.names with
  | none =>
    rw [run, hnode]
    exact ⟨hwf, rfl⟩
  | some node =>
    rw [value_run hnode]
    apply hwf.putAt hnode (made.call.wellFormed_run (hwf.of_at? hnode).1) made.call.path_run

/-- A handle has the names of its call as its path. -/
theorem path_of_handle {metric : Metric} (hwf : top.WellFormed)
    (hhandle : made.handle? top = some metric) :
  metric.path = top.path ++ made.names
  := by
  obtain ⟨names, call⟩ := made
  cases call with
  | metric kind field =>
    obtain ⟨node, hnode, rfl⟩ := Option.map_eq_some_iff.mp hhandle
    apply (hwf.of_at? hnode).2
  | subAggregate | bucketFilter => simp [handle?] at hhandle

/-! ### Rows of calls -/

theorem value_runAll_cons :
  (runAll (made :: calls) top).value = (runAll calls (made.run top).value).value
  := rfl

theorem value_runAll_append :
  (runAll (calls ++ more) top).value = (runAll more (runAll calls top).value).value
  := by
  induction calls generalizing top with
  | nil => rfl
  | cons made calls ih => rw [List.cons_append, value_runAll_cons, value_runAll_cons, ih]

theorem entries_runAll_append :
  (runAll (calls ++ more) top).entries
    = (runAll calls top).entries ++ (runAll more (runAll calls top).value).entries
  := by
  induction calls generalizing top with
  | nil => rfl
  | cons made calls ih =>
    show (made.run top).entries ++ (runAll (calls ++ more) (made.run top).value).entries = _
    rw [ih, ← List.append_assoc]
    rfl

theorem handles_append :
  handles (calls ++ more) top = handles calls top ++ handles more (runAll calls top).value
  := by
  induction calls generalizing top with
  | nil => rfl
  | cons made calls ih =>
    rw [List.cons_append, handles, handles, ih, List.append_assoc, value_runAll_cons]

/-- Every handle was given by one of the calls. -/
theorem exists_of_mem_handles {metric : Metric} (h : metric ∈ handles calls top) :
  ∃ before made later, calls = before ++ made :: later
    ∧ made.handle? (runAll before top).value = some metric
  := by
  induction calls generalizing top with
  | nil => simp [handles] at h
  | cons first calls ih =>
    rw [handles, List.mem_append, Option.mem_toList] at h
    rcases h with h | h
    · exact ⟨[], first, calls, rfl, h⟩
    · obtain ⟨before, made, later, rfl, hmade⟩ := ih h
      exact ⟨first :: before, made, later, rfl, hmade⟩

theorem found_append_iff :
  Found (calls ++ more) top ↔ Found calls top ∧ Found more (runAll calls top).value
  := by
  induction calls generalizing top with
  | nil => simp [Found, runAll]
  | cons made calls ih => simp [Found, ih, value_runAll_cons, and_assoc]

/-- A row of calls keeps a tree well formed, and keeps its path. -/
theorem wellFormed_runAll (hwf : top.WellFormed) :
  (runAll calls top).value.WellFormed ∧ (runAll calls top).value.path = top.path
  := by
  induction calls generalizing top with
  | nil => exact ⟨hwf, rfl⟩
  | cons made calls ih =>
    obtain ⟨hrun, hpath⟩ : (made.run top).value.WellFormed ∧ (made.run top).value.path = top.path :=
      wellFormed_run hwf
    obtain ⟨hall, hallpath⟩ := ih hrun
    exact ⟨hall, hallpath.trans hpath⟩

end CallAt

end FilteredSearch
