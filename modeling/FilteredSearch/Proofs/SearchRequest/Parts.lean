import FilteredSearch.Proofs.Aggregation.Calls
import FilteredSearch.SearchRequest.Script

/-!
# The parts of a request

A call configures one part of a request: the filter, the query, the aggregation with a name, the
length or the start of the page, or the sort directives.  What it makes of its part depends only on
the part, and it leaves the other parts alone.  The session in which the calls are made counts for
nothing.
-/

namespace FilteredSearch

/-! ### What calls make of their parts -/

/-- What a script makes of a filter, when it configures the top scope. -/
def FilterScript.filtered (body : FilterScript) (strict : Bool) (filter : Option FilterTree) :
    FilterTree :=
  (body.configure FilterTree.root (filter.getD .empty) strict).tree

theorem MetricSession.fst_configure (session : MetricSession) (call : String) (strict : Bool)
    (body : FilterScript) (filter : Option FilterTree) :
  (session.configure call strict body filter).1 = body.filtered strict filter
  := by
  simp only [configure, FilterScript.run_start, FilterBuild.tree_after]
  rfl

/-- What a script makes of an aggregation. -/
def AggregationScript.result : AggregationScript → Aggregation → Aggregation
  | .done, aggregation => aggregation
  | .metric kind field rest, aggregation => rest.result (aggregation.withMetric kind field).value
  | .subAggregate childName body rest, aggregation =>
    let bucket := aggregation.clearMetric.value
    rest.result (bucket.putChild childName (body.result (bucket.child childName)))
  | .bucketFilter body rest, aggregation =>
    let bucket := aggregation.clearMetric.value
    rest.result { bucket with filter := some (body.filtered false bucket.filter) }
  | .name rest, aggregation | .isBucket rest, aggregation | .compose rest, aggregation
  | .unknown _ rest, aggregation => rest.result aggregation

theorem AggregationScript.fst_run (script : AggregationScript) (aggregation : Aggregation)
    (session : MetricSession) :
  (script.run aggregation session).1 = script.result aggregation
  := by
  induction script generalizing aggregation session with
  | done => rfl
  | metric kind field rest ih => apply ih
  | subAggregate name body rest hbody hrest =>
    simp only [run, result, hrest, hbody, Aggregation.value_openChild,
      Aggregation.value_clearMetric, Aggregation.child_putChild, Aggregation.putChild_putChild]
    rfl
  | bucketFilter body rest ih => simp only [run, result, ih, MetricSession.fst_configure]
  | name rest ih | isBucket rest ih | compose rest ih | unknown name rest ih => apply ih

/-- The document that a call gives for a query. -/
def QueryCall.body? : QueryCall → Option Json
  | .raw body => some body
  | .compose | .unknown _ => none

/-- Of the documents that calls give for a query the last counts. -/
theorem QueryCall.fst_foldl (calls : List QueryCall) (query : Query) (session : MetricSession) :
  (calls.foldl (fun (current, session) call => QueryCall.run current session call)
      (query, session)).1
    = ⟨(calls.filterMap QueryCall.body?).getLast?.or query.body⟩
  := by
  induction calls generalizing query session with
  | nil => rfl
  | cons call calls ih =>
    rw [List.foldl_cons]
    cases call with
    | raw body =>
      apply (ih _ _).trans
      simp only [List.filterMap_cons, body?, List.getLast?_cons]
      cases (calls.filterMap body?).getLast? <;> rfl
    | compose | unknown _ => apply ih

namespace RequestCall

/-- What a call makes of a request. -/
def result : RequestCall → SearchRequest → SearchRequest
  | .filter body, request => { request with filter := some (body.filtered false request.filter) }
  | .tryFilter body, request => { request with filter := some (body.filtered true request.filter) }
  | .query calls, request =>
    { request with
      query := some ⟨(calls.filterMap QueryCall.body?).getLast?.or (request.query.getD {}).body⟩ }
  | .aggregate name body, request =>
    let aggregation := (Keyed.find? name request.aggregations).getD (.unconfigured [name])
    { request with
      aggregations := Keyed.insert name (body.result aggregation) request.aggregations }
  | .take amount, request => { request with size := amount }
  | .skip amount, request => { request with start := amount }
  | .sort field order, request =>
    { request with sort := request.sort ++ [.ofAccessor field order] }
  | .compose, request | .toText, request | .execute _, request | .unknown _, request => request

/-- What a row of calls makes of a request. -/
def results (calls : List RequestCall) (request : SearchRequest) : SearchRequest :=
  calls.foldl (fun current call => call.result current) request

theorem fst_run (call : RequestCall) (request : SearchRequest) (session : MetricSession) :
  (call.run request session).1 = call.result request
  := by
  cases call with
  | filter body | tryFilter body => simp only [run, result, MetricSession.fst_configure]
  | query calls => simp only [run, result, QueryCall.fst_foldl]
  | aggregate name body => simp only [run, result, AggregationScript.fst_run]
  | _ => rfl

theorem fst_runAll (calls : List RequestCall) (request : SearchRequest) (session : MetricSession) :
  (runAll calls request session).1 = results calls request
  := by
  induction calls generalizing request session with
  | nil => rfl
  | cons call calls ih =>
    rw [results, List.foldl_cons, ← fst_run call request session]
    apply ih

theorem results_append (calls more : List RequestCall) (request : SearchRequest) :
  results (calls ++ more) request = results more (results calls request)
  := List.foldl_append

end RequestCall

/-! ### Parts -/

/-- A part of a request that calls configure. -/
inductive RequestPart where
  | filter
  | query
  | aggregation (name : String)
  | size
  | start
  | sort
deriving DecidableEq

/-- The part that a call configures. -/
def RequestCall.part? : RequestCall → Option RequestPart
  | .filter _ | .tryFilter _ => some .filter
  | .query _ => some .query
  | .aggregate name _ => some (.aggregation name)
  | .take _ => some .size
  | .skip _ => some .start
  | .sort _ _ => some .sort
  | .compose | .toText | .execute _ | .unknown _ => none

/-- The calls that configure a part, in their order. -/
def RequestCall.on (part : RequestPart) (calls : List RequestCall) : List RequestCall :=
  calls.filter fun call => call.part? = some part

/-- The requests are the same in a part. -/
def SearchRequest.AgreeOn (request request' : SearchRequest) : RequestPart → Prop
  | .filter => request.filter = request'.filter
  | .query => request.query = request'.query
  | .aggregation name =>
    Keyed.find? name request.aggregations = Keyed.find? name request'.aggregations
  | .size => request.size = request'.size
  | .start => request.start = request'.start
  | .sort => request.sort = request'.sort

namespace SearchRequest

variable {request request' request'' : SearchRequest} {part : RequestPart} {call : RequestCall}
  {calls : List RequestCall}

theorem AgreeOn.refl (request : SearchRequest) (part : RequestPart) :
  request.AgreeOn request part
  := by
  cases part <;> rfl

theorem AgreeOn.symm (h : request.AgreeOn request' part) :
  request'.AgreeOn request part
  := by
  cases part <;> exact Eq.symm h

theorem AgreeOn.trans (h : request.AgreeOn request' part) (h' : request'.AgreeOn request'' part) :
  request.AgreeOn request'' part
  := by
  cases part <;> exact Eq.trans h h'

/-- A call leaves the other parts alone. -/
theorem agreeOn_result_of_ne (hpart : call.part? ≠ some part) :
  (call.result request).AgreeOn request part
  := by
  cases call with
  | aggregate name body =>
    cases part with
    | aggregation other =>
      have hne : other ≠ name := by
        rintro rfl
        apply hpart rfl
      apply Keyed.find?_insert_of_ne _ _ hne
    | _ => rfl
  | _ => cases part <;> first | rfl | exact absurd rfl hpart

/-- What a call makes of its part depends only on the part. -/
theorem AgreeOn.result (h : request.AgreeOn request' part) (hpart : call.part? = some part) :
  (call.result request).AgreeOn (call.result request') part
  := by
  cases call with
  | compose | toText | execute _ | unknown _ => cases hpart
  | aggregate name body =>
    cases hpart
    simp only [AgreeOn] at h ⊢
    simp only [RequestCall.result, Keyed.find?_insert_self, h]
  | _ =>
    cases hpart
    simp only [AgreeOn] at h ⊢
    simp only [RequestCall.result, h]

/-- What a row of calls makes of a part is what the calls on the part make of it. -/
theorem AgreeOn.results (h : request.AgreeOn request' part) (calls : List RequestCall) :
  (RequestCall.results calls request).AgreeOn
    (RequestCall.results (RequestCall.on part calls) request') part
  := by
  induction calls generalizing request request' with
  | nil => apply h
  | cons call calls ih =>
    by_cases hpart : call.part? = some part
    · rw [RequestCall.on, List.filter_cons_of_pos (by simpa using hpart)]
      apply ih (h.result hpart)
    · rw [RequestCall.on, List.filter_cons_of_neg (by simpa using hpart)]
      apply ih ((agreeOn_result_of_ne hpart).trans h)

/-! ### Requests as their parts -/

theorem limit_results :
  (RequestCall.results calls request).limit = request.limit
  := by
  induction calls generalizing request with
  | nil => rfl
  | cons call calls ih =>
    rw [RequestCall.results, List.foldl_cons]
    apply ih.trans
    cases call <;> rfl

/-- The names of the aggregations stay ascending. -/
theorem ascending_results (h : Keyed.Ascending request.aggregations) :
  Keyed.Ascending (RequestCall.results calls request).aggregations
  := by
  induction calls generalizing request with
  | nil => apply h
  | cons call calls ih =>
    apply ih
    cases call with
    | aggregate name body => apply Keyed.ascending_insert _ _ h
    | _ => apply h

/-- Requests with the same parts are the same. -/
theorem eq_of_agreeOn (hlimit : request.limit = request'.limit)
    (h : Keyed.Ascending request.aggregations) (h' : Keyed.Ascending request'.aggregations)
    (hagree : ∀ part, request.AgreeOn request' part) :
  request = request'
  := by
  have hfilter := hagree .filter
  have hquery := hagree .query
  have haggregations := Keyed.eq_of_find?_eq h h' fun name => hagree (.aggregation name)
  have hsize := hagree .size
  have hstart := hagree .start
  have hsort := hagree .sort
  obtain ⟨limit, filter, query, aggregations, size, start, sort⟩ := request
  obtain ⟨limit', filter', query', aggregations', size', start', sort'⟩ := request'
  simp only [AgreeOn] at hlimit hfilter hquery haggregations hsize hstart hsort
  subst hlimit hfilter hquery haggregations hsize hstart hsort
  rfl

end SearchRequest

end FilteredSearch
