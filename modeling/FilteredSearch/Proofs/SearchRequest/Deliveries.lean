import FilteredSearch.Proofs.SearchRequest.Composed

/-!
# What reaches an executor

The calls that compose, write or execute a request leave it as it is, so every execution in a row of
calls is about what the calls before it built.  An executor is handed the document of that request,
if there is one, and comes back with the result; the failure of a request that does not compose is
the result without any executor.  Every execution names its executor, so answers may change from one
execution to the next.
-/

namespace FilteredSearch

/-- What becomes of an execution, given what the request comes to. -/
def Delivery.ofComposed (composed : Except SearchError Json) (executor : Executor) : Delivery :=
  match composed with
  | .ok body => ⟨some body, executor.answer body⟩
  | .error error => ⟨none, .error error⟩

/-- An execution in a row of calls, with the calls before it. -/
structure Execution where
  before : List RequestCall
  executor : Executor

namespace RequestCall

/-- What becomes of the request when the call executes it. -/
def delivery? (request : SearchRequest) : RequestCall → Option Delivery
  | .execute executor => some (request.execute executor).value
  | _ => none

/-- What becomes of the executions while a row of calls is run, in their order. -/
def deliveries : List RequestCall → SearchRequest → MetricSession → List Delivery
  | [], _, _ => []
  | call :: calls, request, session =>
    let left := call.run request session
    (call.delivery? request).toList ++ deliveries calls left.1 left.2

/-- The execution that the call is, after the calls before it. -/
def execution? (before : List RequestCall) : RequestCall → Option Execution
  | .execute executor => some ⟨before, executor⟩
  | _ => none

/-- The executions in a row of calls that is made after other calls. -/
def executionsAfter (before : List RequestCall) : List RequestCall → List Execution
  | [] => []
  | call :: calls =>
    (call.execution? before).toList ++ executionsAfter (before ++ [call]) calls

/-- The executions in a row of calls, in their order. -/
def executions : List RequestCall → List Execution := executionsAfter []

/-- The calls that configure a part of the request. -/
def configuring (calls : List RequestCall) : List RequestCall :=
  calls.filter fun call => call.part?.isSome

/-- The request that the configuring calls build from the request for everything. -/
def built (limit : PageLimit) (calls : List RequestCall) : SearchRequest :=
  (runAll (configuring calls) (.empty limit) .empty).1

variable {call : RequestCall} {calls before after : List RequestCall} {request : SearchRequest}
  {limit : PageLimit} {session : MetricSession} {executor : Executor}

/-! ### Executions -/

theorem mem_executionsAfter_iff {earlier : List RequestCall} :
  ⟨before, executor⟩ ∈ executionsAfter earlier calls
    ↔ ∃ middle after, before = earlier ++ middle ∧ calls = middle ++ .execute executor :: after
  := by
  induction calls generalizing earlier with
  | nil => simp [executionsAfter]
  | cons call calls ih =>
    rw [executionsAfter, List.mem_append, ih]
    constructor
    · rintro (hcall | ⟨middle, after, rfl, rfl⟩)
      · cases call with
        | execute other =>
          simp only [execution?, Option.toList_some, List.mem_singleton, Execution.mk.injEq] at hcall
          obtain ⟨rfl, rfl⟩ := hcall
          exact ⟨[], calls, by simp, rfl⟩
        | _ => simp [execution?] at hcall
      · exact ⟨call :: middle, after, by simp, rfl⟩
    · rintro ⟨_ | ⟨other, middle⟩, after, rfl, heq⟩
      · obtain ⟨rfl, rfl⟩ := List.cons_eq_cons.mp heq
        simp [execution?]
      · obtain ⟨rfl, rfl⟩ := List.cons_eq_cons.mp heq
        exact Or.inr ⟨middle, after, by simp, rfl⟩

/-- The executions are the calls that execute, each with the calls before it. -/
theorem mem_executions_iff :
  ⟨before, executor⟩ ∈ executions calls ↔ ∃ after, calls = before ++ .execute executor :: after
  := by
  rw [executions, mem_executionsAfter_iff]
  simp

/-! ### Deliveries -/

/-- Calls that configure nothing leave the request as it is. -/
theorem results_configuring (calls : List RequestCall) (request : SearchRequest) :
  results (configuring calls) request = results calls request
  := by
  induction calls generalizing request with
  | nil => rfl
  | cons call calls ih =>
    cases call with
    | compose | toText | execute _ | unknown _ => apply ih
    | _ => apply ih

/-- What a row of calls leaves is what its configuring calls build. -/
theorem fst_runAll_empty (calls : List RequestCall) (limit : PageLimit) (session : MetricSession) :
  (runAll calls (.empty limit) session).1 = built limit calls
  := by
  rw [built, fst_runAll, fst_runAll, results_configuring]

theorem value_execute (request : SearchRequest) (executor : Executor) :
  (request.execute executor).value = .ofComposed request.compose executor
  := by
  rw [SearchRequest.execute, SearchRequest.compose]
  cases request.composed.result <;> rfl

/-- Each execution is about what the calls before it leave. -/
theorem deliveries_eq (calls earlier : List RequestCall) (request : SearchRequest)
    (session : MetricSession) :
  deliveries calls (results earlier request) session
    = (executionsAfter earlier calls).map fun execution =>
      .ofComposed (results execution.before request).compose execution.executor
  := by
  induction calls generalizing earlier session with
  | nil => rfl
  | cons call calls ih =>
    have hleft : (call.run (results earlier request) session).1
        = results (earlier ++ [call]) request := by
      rw [fst_run, results_append]
      rfl
    rw [deliveries, executionsAfter, List.map_append, hleft, ih]
    congr 1
    cases call with
    | execute executor => simp [delivery?, execution?, value_execute]
    | _ => rfl

theorem runAll_append (calls more : List RequestCall) (request : SearchRequest)
    (session : MetricSession) :
  runAll (calls ++ more) request session
    = runAll more (runAll calls request session).1 (runAll calls request session).2
  := List.foldl_append

/-- A request that is composed after a row of calls is the one that the calls built. -/
theorem snd_runAll_compose (calls : List RequestCall) (limit : PageLimit)
    (session : MetricSession) :
  ∃ entries, (runAll (calls ++ [.compose]) (.empty limit) session).2
    = ((runAll calls (.empty limit) session).2.log entries).report
      (.document "compose" (built limit calls).compose)
  := by
  rw [runAll_append, ← fst_runAll_empty calls limit session]
  exact ⟨_, rfl⟩

/-- A request that is executed after a row of calls is the one that the calls built. -/
theorem snd_runAll_execute (calls : List RequestCall) (executor : Executor) (limit : PageLimit)
    (session : MetricSession) :
  let delivery := Delivery.ofComposed (built limit calls).compose executor
  ∃ entries reads, (runAll (calls ++ [.execute executor]) (.empty limit) session).2
    = ((runAll calls (.empty limit) session).2.log entries).report
      (.execution "execute" (delivery.recorded executor)
        (delivery.result.map (SearchResponse.codec .document).encode) reads)
  := by
  rw [runAll_append, ← fst_runAll_empty calls limit session, ← value_execute]
  exact ⟨_, _, rfl⟩

end RequestCall

/-! ### The length of the page -/

/-- A document that says how long the page is says a positive length that the limit allows. -/
theorem SearchRequest.HasDocument.size {request : SearchRequest} {document size : Json}
    (h : request.HasDocument document) (hsize : document.member? "size" = some size) :
  ∃ amount, size = .ofInt64 amount ∧ 0 < amount
    ∧ ∀ max, request.limit.max = some max → amount ≤ max
  := by
  cases h with
  | intro hfilter hquery haggregations hlimit hsort =>
    have hpositive : positive? request.size = some size := by
      rw [assembled, Json.member?_record_eq_some_iff (by simp only [List.map_cons]; decide)]
        at hsize
      simpa [eq_comm] using hsize
    rw [positive?] at hpositive
    split_ifs at hpositive with hpos
    exact ⟨request.size, (Option.some.inj hpositive).symm, hpos, hlimit hpos⟩

namespace RequestCall

/-- Whatever calls are made on a request, and in whatever order, each execution is about the request
that the configuring calls before it build.  If that request does not compose, then nothing is handed
over and its error is the result; otherwise its document is handed over and the executor's answer is
the result.  A document handed over that says how long the page is says a positive length that the
limit allows. -/
theorem only_composed_handed_over (calls : List RequestCall) (limit : PageLimit)
    (session : MetricSession) :
  let delivered := deliveries calls (.empty limit) session
  delivered = (executions calls).map (fun execution =>
      .ofComposed (built limit execution.before).compose execution.executor)
    ∧ delivered.filterMap Delivery.handed = (executions calls).filterMap (fun execution =>
      (built limit execution.before).compose.toOption)
    ∧ (∀ body ∈ delivered.filterMap Delivery.handed, ∀ size, body.member? "size" = some size →
      ∃ amount, size = .ofInt64 amount ∧ 0 < amount ∧ ∀ max, limit.max = some max → amount ≤ max)
    ∧ (∀ before executor after, calls = before ++ .execute executor :: after →
      let delivery := Delivery.ofComposed (built limit before).compose executor
      ∃ entries reads, (runAll (before ++ [.execute executor]) (.empty limit) session).2
        = ((runAll before (.empty limit) session).2.log entries).report
          (.execution "execute" (delivery.recorded executor)
            (delivery.result.map (SearchResponse.codec .document).encode) reads))
    ∧ ∀ before after, calls = before ++ .compose :: after →
      ∃ entries, (runAll (before ++ [.compose]) (.empty limit) session).2
        = ((runAll before (.empty limit) session).2.log entries).report
          (.document "compose" (built limit before).compose)
  := by
  intro delivered
  have hdelivered : delivered = (executions calls).map fun execution =>
      .ofComposed (built limit execution.before).compose execution.executor := by
    simp only [built, fst_runAll, results_configuring]
    apply deliveries_eq calls []
  have hhanded : delivered.filterMap Delivery.handed = (executions calls).filterMap fun execution =>
      (built limit execution.before).compose.toOption := by
    rw [hdelivered, List.filterMap_map]
    apply List.filterMap_congr
    intro execution _
    simp only [Function.comp_apply, Delivery.ofComposed]
    cases (built limit execution.before).compose <;> rfl
  refine ⟨hdelivered, hhanded, ?_, ?_, ?_⟩
  · intro body hbody size hsize
    rw [hhanded] at hbody
    obtain ⟨execution, -, hcompose⟩ := List.mem_filterMap.mp hbody
    have hdocument : (built limit execution.before).HasDocument body :=
      SearchRequest.compose_eq_ok_iff.mp (Results.toOption_eq_some_iff.mp hcompose)
    have hlimit : (built limit execution.before).limit = limit := by
      rw [built, fst_runAll]
      apply SearchRequest.limit_results
    simpa only [hlimit] using hdocument.size hsize
  · intro before executor after _
    apply snd_runAll_execute
  · intro before after _
    apply snd_runAll_compose

end RequestCall

end FilteredSearch
