import FilteredSearch.Proofs.Aggregation.Runs

/-!
# Modes and what ends them

No aggregation is a metric and a bucket at once, and a call warns exactly when it finds its
aggregation in the other mode.  So the metric on which there is a handle stays in its place, or
gives way to one set there later, until a call on its aggregation or on one above it warns.
-/

namespace FilteredSearch

open Aggregation

namespace CallAt

/-- The metric that a call sets at a path, if it sets one there. -/
def setting? (path : List String) : CallAt → Option MetricSetting
  | ⟨names, .metric kind field⟩ => if names = path then some (.ofAccessor kind field) else none
  | _ => none

/-- The last metric that a row of calls sets at a path, if it sets one there. -/
def latest? (path : List String) : List CallAt → Option MetricSetting
  | [] => none
  | made :: later => (latest? path later).or (made.setting? path)

/-- No call of the row that warns is on the aggregation at the path or on one above it. -/
def Undisturbed (path : List String) : List CallAt → Aggregation → Prop
  | [], _ => True
  | made :: later, top =>
    (made.names <+: path → ¬made.Warns top) ∧ Undisturbed path later (made.run top).value

variable {made : CallAt} {calls later : List CallAt} {top node : Aggregation}
  {names path : List String} {setting : MetricSetting}

theorem setting?_of_ne (h : made.names ≠ path) :
  made.setting? path = none
  := by
  obtain ⟨names, call⟩ := made
  cases call with
  | metric => apply if_neg h
  | subAggregate | bucketFilter => rfl

/-- A call that does not warn keeps what stands below its aggregation. -/
theorem at?_run_of_quiet {call : AggregationCall} {name : String}
    (hnode : top.at? (name :: names) = some node) (hquiet : ¬call.EndsMode top) :
  (call.run top).value.at? (name :: names) = some node
  := by
  rw [at?_cons, Option.bind_eq_some_iff] at hnode
  obtain ⟨child, hfind, hnode⟩ := hnode
  have hkept : Keyed.find? name (call.run top).value.children = some child := by
    cases call with
    | metric kind field => exact absurd (isBucket_of_find? hfind) hquiet
    | subAggregate other =>
      rw [AggregationCall.run, value_openChild]
      apply find?_putChild_child hfind
    | bucketFilter body =>
      rw [AggregationCall.value_run_bucketFilter]
      apply hfind
  rw [at?_cons, hkept, Option.bind_some, hnode]

/-- A call on a metric that does not warn sets a metric. -/
theorem metric_run_of_quiet {call : AggregationCall} (hmetric : node.metric = some setting)
    (hquiet : ¬call.EndsMode node) :
  (call.run node).value.metric = some ((setting? names ⟨names, call⟩).getD setting)
  := by
  have hsome : node.metric.isSome = true := by rw [hmetric, Option.isSome_some]
  cases call with
  | metric kind field => simp [AggregationCall.run, setting?]
  | subAggregate other => exact absurd hsome hquiet
  | bucketFilter body => exact absurd hsome hquiet

/-- A call that does not warn at a metric or above it keeps the metric or sets another one. -/
theorem metric_run (hwf : top.WellFormed) (hfound : ∃ other, top.at? made.names = some other)
    (hnode : top.at? path = some node) (hmetric : node.metric = some setting)
    (hquiet : made.names <+: path → ¬made.Warns top) :
  ∃ left, (made.run top).value.at? path = some left
    ∧ left.metric = some ((made.setting? path).getD setting)
  := by
  obtain ⟨names, call⟩ := made
  obtain ⟨other, hother⟩ := hfound
  rw [value_run hother]
  by_cases habove : names <+: path
  · -- The call is on the metric or above it.
    have hends : ¬call.EndsMode other := (warns_iff hother).not.mp (hquiet habove)
    obtain ⟨below, rfl⟩ := habove
    rw [at?_append, hother, Option.bind_some] at hnode
    rw [at?_append, at?_putAt, Option.bind_some]
    cases below with
    | nil =>
      obtain rfl : other = node := by simpa using hnode
      rw [List.append_nil]
      exact ⟨_, at?_nil, metric_run_of_quiet hmetric hends⟩
    | cons name below =>
      use node, at?_run_of_quiet hnode hends
      rw [setting?_of_ne (by simp), Option.getD_none, hmetric]
  · have hne : names ≠ path := by
      rintro rfl
      exact habove List.prefix_rfl
    have hbelow : ¬path <+: names := by
      rintro ⟨below, rfl⟩
      rw [at?_append, hnode, Option.bind_some] at hother
      obtain rfl := (hwf.of_at? hnode).1.eq_nil_of_metric hmetric hother
      simp at hne
    use node
    rw [at?_putAt_of_apart habove hbelow, setting?_of_ne hne, Option.getD_none]
    exact ⟨hnode, hmetric⟩

/-- A row of calls that does not disturb a metric keeps it or sets others. -/
theorem metric_runAll (hwf : top.WellFormed) (hfound : Found calls top)
    (hnode : top.at? path = some node) (hmetric : node.metric = some setting)
    (hquiet : Undisturbed path calls top) :
  ∃ left, (runAll calls top).value.at? path = some left
    ∧ left.metric = some ((latest? path calls).getD setting)
  := by
  induction calls generalizing top node setting with
  | nil => exact ⟨node, hnode, hmetric⟩
  | cons made calls ih =>
    obtain ⟨next, hnext, hset⟩ := metric_run hwf hfound.1 hnode hmetric hquiet.1
    obtain ⟨left, hleft, hlatest⟩ := ih (wellFormed_run hwf).1 hfound.2 hnext hset hquiet.2
    use left, hleft
    rw [hlatest, latest?, Option.getD_or]

/-- A call that gives a handle sets a metric on the aggregation at the path of the handle. -/
theorem metric_run_of_handle {metric : Metric} (hwf : top.WellFormed) (htop : top.path = [])
    (hhandle : made.handle? top = some metric) :
  ∃ node setting, (made.run top).value.at? metric.path = some node
    ∧ node.metric = some setting ∧ made.setting? metric.path = some setting
  := by
  have hpath : metric.path = made.names := by
    rw [path_of_handle hwf hhandle, htop, List.nil_append]
  obtain ⟨names, call⟩ := made
  cases call with
  | metric kind field =>
    obtain ⟨node, hnode, -⟩ := Option.map_eq_some_iff.mp hhandle
    use (node.withMetric kind field).value, .ofAccessor kind field
    rw [hpath, value_run hnode, at?_putAt]
    exact ⟨rfl, by rw [value_withMetric], if_pos rfl⟩
  | subAggregate | bucketFilter => simp [handle?] at hhandle

end CallAt

open CallAt in
/-- The aggregations of a request after any run are those that the row of calls of the run
leaves, and the warnings and the handles are those of the row.  After any part of the row no
aggregation is a metric and a bucket at once.  Every call is on an aggregation that is there, and
it warns exactly when it finds the aggregation in the other mode.  If it gives a handle, then the
metric last set at the path of the handle is there until a call on the aggregation at the path,
or on one above it, warns. -/
theorem RequestCall.modes_and_handles_runAll (script : List RequestCall) (limit : PageLimit) :
  let calls := script.flatMap RequestCall.calls
  let start := (SearchRequest.empty limit).outermost
  let reached := RequestCall.runAll script (.empty limit) .empty
  (reached.1.outermost = (CallAt.runAll calls start).value
    ∧ reached.2.warnings = LogEntry.warnings (CallAt.runAll calls start).entries
    ∧ reached.2.metrics.toList = handles calls start)
  ∧ (∀ before, before <+: calls →
      ∀ names node, (CallAt.runAll before start).value.NodeAt names node → node.HasOneMode)
  ∧ ∀ before made later, calls = before ++ made :: later →
    let top := (CallAt.runAll before start).value
    (∃ node, top.NodeAt made.names node ∧ (made.Warns top ↔ made.call.EndsMode node))
    ∧ ∀ metric next, made.handle? top = some metric → next <+: later →
      Undisturbed metric.path next (made.run top).value →
      ∃ node setting, (CallAt.runAll next (made.run top).value).value.NodeAt metric.path node
        ∧ node.metric = some setting ∧ latest? metric.path (made :: next) = some setting
  := by
  intro calls start reached
  have hretraces : Retraces calls start reached.1.outermost .empty reached.2 :=
    RequestCall.retraces_runAll ..
  have hfound := hretraces.found
  constructor
  · exact ⟨hretraces.value.symm, hretraces.warnings,
      by simpa [MetricSession.empty] using hretraces.metrics⟩
  constructor
  · intro before _ names node hnode
    obtain ⟨htop, -⟩ := SearchRequest.wellFormed_runAll_empty limit before
    apply (htop.of_at? ((nodeAt_iff htop).mp hnode)).1.hasOneMode
  intro before made later hcalls top
  obtain ⟨htop, hpath⟩ : top.WellFormed ∧ top.path = [] :=
    SearchRequest.wellFormed_runAll_empty limit before
  obtain ⟨hrun, -⟩ : (made.run top).value.WellFormed ∧ _ := CallAt.wellFormed_run htop
  rw [hcalls, found_append_iff] at hfound
  obtain ⟨-, ⟨node, hnode⟩, hlater⟩ := hfound
  constructor
  · exact ⟨node, (nodeAt_iff htop).mpr hnode, warns_iff hnode⟩
  · rintro metric next hhandle ⟨rest, rfl⟩ hquiet
    rw [found_append_iff] at hlater
    obtain ⟨node, setting, hnode, hmetric, hset⟩ := metric_run_of_handle htop hpath hhandle
    obtain ⟨left, hleft, hlatest⟩ := metric_runAll hrun hlater.1 hnode hmetric hquiet
    use left, (latest? metric.path next).getD setting
    rw [nodeAt_iff (CallAt.wellFormed_runAll hrun).1, latest?, hset, Option.or_some]
    exact ⟨hleft, hlatest, rfl⟩

/-- A metric is set below an aggregation, which then gets a filter and at last a metric. -/
def agesScript : List RequestCall :=
  [.aggregate "ages"
    (.subAggregate "oldest" (.metric .max [.member "age"] .done)
      (.bucketFilter .done (.metric .avg [.member "age"] .done)))]

def openAges : List CallAt := [⟨[], .subAggregate "ages"⟩, ⟨["ages"], .subAggregate "oldest"⟩]

def setOldest : CallAt := ⟨["ages", "oldest"], .metric .max [.member "age"]⟩

def filterAges : CallAt := ⟨["ages"], .bucketFilter .done⟩

def setAverage : CallAt := ⟨["ages"], .metric .avg [.member "age"]⟩

open CallAt in
theorem modes_and_handles_runAll_agesScript :
  let start := (SearchRequest.empty .standard).outermost
  let top := (CallAt.runAll openAges start).value
  let filtered := (CallAt.runAll [filterAges] (setOldest.run top).value).value
  agesScript.flatMap RequestCall.calls = openAges ++ setOldest :: [filterAges, setAverage]
    ∧ setOldest.handle? top = some ⟨["ages", "oldest"], .max⟩
    ∧ ∃ node setting, filtered.NodeAt ["ages", "oldest"] node ∧ node.metric = some setting
      ∧ latest? ["ages", "oldest"] [setOldest, filterAges] = some setting
  := by
  intro start top filtered
  have hcalls : agesScript.flatMap RequestCall.calls
      = openAges ++ setOldest :: [filterAges, setAverage] := rfl
  have hhandle : setOldest.handle? top = some ⟨["ages", "oldest"], .max⟩ := rfl
  have hquiet : Undisturbed ["ages", "oldest"] [filterAges] (setOldest.run top).value := by
    have hentries : (filterAges.run (setOldest.run top).value).entries = [] := rfl
    simp [Undisturbed, Warns, hentries]
  obtain ⟨-, -, hsplit⟩ := RequestCall.modes_and_handles_runAll agesScript .standard
  obtain ⟨-, hkept⟩ := hsplit _ _ _ hcalls
  exact ⟨hcalls, hhandle, hkept _ _ hhandle ⟨[setAverage], rfl⟩ hquiet⟩

end FilteredSearch
