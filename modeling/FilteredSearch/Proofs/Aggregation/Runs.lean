import FilteredSearch.Proofs.Aggregation.Calls
import FilteredSearch.SearchRequest.Script

/-!
# Runs as rows of calls

The scripts of a request configure aggregations inside one another.  The aggregations of a
request are those below one without a name, and a run of scripts makes one row of calls on it:
the row leaves the aggregations that the run leaves, and the warnings and the handles of the run
are those of the row, in the same order.
-/

namespace FilteredSearch

open Aggregation

/-- The calls that a script makes on aggregations, when it runs on the aggregation to which the
names lead. -/
def AggregationScript.calls : AggregationScript → List String → List CallAt
  | .done, _ => []
  | .metric kind field rest, names => ⟨names, .metric kind field⟩ :: rest.calls names
  | .subAggregate child body rest, names =>
    ⟨names, .subAggregate child⟩ :: (body.calls (names ++ [child]) ++ rest.calls names)
  | .bucketFilter body rest, names => ⟨names, .bucketFilter body⟩ :: rest.calls names
  | .name rest, names | .isBucket rest, names | .compose rest, names | .unknown _ rest, names =>
    rest.calls names

/-- The calls that a call on a request makes on aggregations. -/
def RequestCall.calls : RequestCall → List CallAt
  | .aggregate name body => ⟨[], .subAggregate name⟩ :: body.calls [name]
  | _ => []

/-- The aggregation without a name that the aggregations of a request are below. -/
def SearchRequest.outermost (request : SearchRequest) : Aggregation :=
  ⟨[], none, none, request.aggregations⟩

/-- The row of calls leads from one tree to the other, and gives the warnings and the handles
that a session gained. -/
structure Retraces (calls : List CallAt) (top left : Aggregation)
    (session later : MetricSession) : Prop where
  value : (CallAt.runAll calls top).value = left
  warnings : later.warnings
    = session.warnings ++ LogEntry.warnings (CallAt.runAll calls top).entries
  metrics : later.metrics.toList = session.metrics.toList ++ CallAt.handles calls top
  found : CallAt.Found calls top

namespace Retraces

variable {calls more : List CallAt} {top left last : Aggregation}
  {session later latest : MetricSession}

/-- No calls leave everything in place. -/
theorem nil (hwarnings : later.warnings = session.warnings)
    (hmetrics : later.metrics = session.metrics) :
  Retraces [] top top session later
  where
  value := rfl
  warnings := by simp [hwarnings, CallAt.runAll]
  metrics := by simp [hmetrics, CallAt.handles]
  found := trivial

theorem append (first : Retraces calls top left session later)
    (second : Retraces more left last later latest) :
  Retraces (calls ++ more) top last session latest
  where
  value := by rw [CallAt.value_runAll_append, first.value, second.value]
  warnings := by
    rw [CallAt.entries_runAll_append, LogEntry.warnings_append, ← List.append_assoc,
      ← first.warnings, first.value, second.warnings]
  metrics := by
    rw [CallAt.handles_append, ← List.append_assoc, ← first.metrics, first.value, second.metrics]
  found := by
    rw [CallAt.found_append_iff, first.value]
    exact ⟨first.found, second.found⟩

/-- What a session goes through without warnings and handles counts for nothing. -/
theorem of_quiet (hwarnings : later.warnings = session.warnings)
    (hmetrics : later.metrics = session.metrics) (rest : Retraces calls top left later latest) :
  Retraces calls top left session latest
  := (nil hwarnings hmetrics).append rest

theorem cons {made : CallAt} (first : Retraces [made] top left session later)
    (second : Retraces more left last later latest) :
  Retraces (made :: more) top last session latest
  := first.append second

/-- One call leads to the tree with its outcome in the place of its node. -/
theorem of_call {names : List String} {node outcome : Aggregation} (call : AggregationCall)
    (hvalue : (call.run node).value = outcome)
    (hwarnings : later.warnings = session.warnings ++ LogEntry.warnings (call.run node).entries)
    (hmetrics : later.metrics.toList = session.metrics.toList
      ++ (CallAt.handle? ⟨[], call⟩ node).toList) :
  Retraces [⟨names, call⟩] (top.putAt names node) (top.putAt names outcome) session later
  := by
  have hnode : (top.putAt names node).at? (CallAt.mk names call).names = some node := at?_putAt
  constructor
  case value =>
    rw [CallAt.value_runAll_cons, CallAt.value_run hnode, putAt_putAt, hvalue]
    rfl
  case warnings =>
    rw [hwarnings, CallAt.runAll, Logged.entries_bind, CallAt.entries_run hnode,
      LogEntry.warnings_append]
    simp [CallAt.runAll]
  case metrics =>
    rw [hmetrics, CallAt.handles, CallAt.handles, List.append_nil]
    cases call <;> simp [CallAt.handle?]
  case found => exact ⟨⟨node, hnode⟩, trivial⟩

/-- Calls on a further aggregation of a node change the node. -/
theorem of_child {names : List String} {name : String} {node child : Aggregation}
    (hnode : node.putChild name (node.child name) = node)
    (h : Retraces calls ((top.putAt names node).putAt (names ++ [name]) (node.child name))
      ((top.putAt names node).putAt (names ++ [name]) child) session later) :
  Retraces calls (top.putAt names node) (top.putAt names (node.putChild name child)) session later
  := by
  rwa [putAt_append_singleton, putAt_append_singleton, hnode] at h

end Retraces

/-- A script on an aggregation of a tree makes its row of calls. -/
theorem AggregationScript.retraces_run (script : AggregationScript) (names : List String)
    (top node : Aggregation) (session : MetricSession) :
  Retraces (script.calls names) (top.putAt names node)
    (top.putAt names (script.run node session).1) session (script.run node session).2
  := by
  induction script generalizing names top node session with
  | done =>
    rw [calls, run]
    apply Retraces.nil rfl rfl
  | metric kind field rest ih =>
    rw [calls, run]
    apply Retraces.cons (Retraces.of_call (.metric kind field) rfl _ _) (ih ..)
    · simp [AggregationCall.run]
    · simp [MetricSession.metrics_keep, CallAt.handle?, handle]
  | subAggregate name body rest hbody hrest =>
    rw [calls, run]
    apply Retraces.cons (Retraces.of_call (.subAggregate name) rfl _ _)
      (Retraces.append (Retraces.of_child putChild_child_openChild (hbody ..)) (hrest ..))
    · simp [AggregationCall.run]
    · simp [CallAt.handle?]
  | bucketFilter body rest ih =>
    rw [calls, run]
    apply Retraces.cons (Retraces.of_call (.bucketFilter body) _ _ _) (ih ..)
    · apply AggregationCall.value_run_bucketFilter_session
    · rw [AggregationCall.warnings_run_bucketFilter, ← MetricSession.warnings_log]
      apply MetricSession.warnings_configure
    · simp [CallAt.handle?]
  | name _ ih | isBucket _ ih | unknown _ _ ih | compose _ ih =>
    rw [calls, run]
    apply Retraces.of_quiet _ _ (ih ..)
    · simp [warnings_composed]
    · simp

/-- Configuring a query neither warns nor gives handles. -/
theorem QueryCall.quiet_foldl (body : List QueryCall) (query : Query) (session : MetricSession) :
  let later := (body.foldl (fun (current, session) call => call.run current session)
    (query, session)).2
  later.warnings = session.warnings ∧ later.metrics = session.metrics
  := by
  induction body generalizing query session with
  | nil => exact ⟨rfl, rfl⟩
  | cons call body ih => cases call <;> apply ih

/-- A call on a request makes its row of calls on the aggregations. -/
theorem RequestCall.retraces_run (call : RequestCall) (request : SearchRequest)
    (session : MetricSession) :
  Retraces call.calls request.outermost (call.run request session).1.outermost session
    (call.run request session).2
  := by
  cases call with
  | aggregate name body =>
    have hopen : Retraces [⟨[], .subAggregate name⟩] request.outermost
        (request.outermost.putChild name (request.outermost.child name)) session
        (session.report (.enteredAggregation "aggregate" name)) := by
      show Retraces _ (request.outermost.putAt [] _) (request.outermost.putAt [] _) _ _
      apply Retraces.of_call (.subAggregate name) (value_openChild _ _)
      · simp [AggregationCall.run, openChild, clearMetric]
      · simp [CallAt.handle?]
    have hbody := body.retraces_run [name]
      (request.outermost.putChild name (request.outermost.child name))
      (request.outermost.child name) (session.report (.enteredAggregation "aggregate" name))
    simp only [putAt_cons, putAt_nil, putChild_putChild] at hbody
    exact hopen.cons hbody
  | query body =>
    obtain ⟨hwarnings, hmetrics⟩ := QueryCall.quiet_foldl body (request.query.getD {}) session
    exact .nil hwarnings hmetrics
  | filter body | tryFilter body => exact .nil (session.warnings_configure ..) rfl
  | compose | toText => exact .nil (by simp [run, request.warnings_composed]) rfl
  | execute executor => exact .nil (by simp [run, request.warnings_execute]) rfl
  | take _ | skip _ | sort _ _ | unknown _ => exact .nil rfl rfl

/-- A row of calls on a request makes its row of calls on the aggregations. -/
theorem RequestCall.retraces_runAll (script : List RequestCall) (request : SearchRequest)
    (session : MetricSession) :
  Retraces (script.flatMap RequestCall.calls) request.outermost
    (RequestCall.runAll script request session).1.outermost session
    (RequestCall.runAll script request session).2
  := by
  induction script generalizing request session with
  | nil => apply Retraces.nil rfl rfl
  | cons call script ih => exact (call.retraces_run request session).append (ih ..)

/-- Calls on the aggregations of a request leave a well-formed tree. -/
theorem SearchRequest.wellFormed_runAll_empty (limit : PageLimit) (calls : List CallAt) :
  (CallAt.runAll calls (empty limit).outermost).value.WellFormed
    ∧ (CallAt.runAll calls (empty limit).outermost).value.path = []
  := CallAt.wellFormed_runAll (WellFormed.unconfigured [])

end FilteredSearch
