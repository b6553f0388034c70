import FilteredSearch.Proofs.Aggregation.Documents
import FilteredSearch.Proofs.Aggregation.Runs
import FilteredSearch.Proofs.SearchRequest.Parts
import FilteredSearch.Proofs.Text.ByteOrder

/-!
# What requests compose to

A request composes to its document exactly when each of its parts does, and otherwise fails with the
first of its errors: that of the filter, of the query, of the aggregations by name, of the length of
the page, and of the sort directives in their order.  What the parts are is said by the calls that
configured them.
-/

namespace FilteredSearch

open Results

/-! ### What the calls say -/

namespace RequestCall

/-- The documents that a call gives for the query. -/
def bodies : RequestCall → List Json
  | .query calls => calls.filterMap QueryCall.body?
  | _ => []

/-- The length of the page that a call sets. -/
def size? : RequestCall → Option Int64
  | .take amount => some amount
  | _ => none

/-- The start of the page that a call sets. -/
def start? : RequestCall → Option Int64
  | .skip amount => some amount
  | _ => none

/-- The sort directive that a call adds. -/
def sortKey? : RequestCall → Option SortKey
  | .sort field order => some (.ofAccessor field order)
  | _ => none

end RequestCall

namespace SearchRequest

open RequestCall (results)

variable {request : SearchRequest} {call : RequestCall} {calls : List RequestCall}
  {part : RequestPart} {limit : PageLimit}

/-- The part of the request is there.  The page and the sort directives always are. -/
def Has (request : SearchRequest) : RequestPart → Prop
  | .filter => request.filter.isSome = true
  | .query => request.query.isSome = true
  | .aggregation name => (Keyed.find? name request.aggregations).isSome = true
  | .size | .start | .sort => True

/-- The request holds what the calls gave for its parts. -/
structure BuiltBy (request : SearchRequest) (limit : PageLimit) (calls : List RequestCall) :
    Prop where
  limit_eq : request.limit = limit
  filter_iff : request.filter.isSome = true ↔ ∃ call ∈ calls, call.part? = some .filter
  query_iff : request.query.isSome = true ↔ ∃ call ∈ calls, call.part? = some .query
  /-- Of the documents given for the query the last counts. -/
  body_eq : ∀ query, request.query = some query →
    query.body = (calls.flatMap RequestCall.bodies).getLast?
  aggregation_iff : ∀ name, (∃ aggregation, (name, aggregation) ∈ request.aggregations)
    ↔ ∃ call ∈ calls, call.part? = some (.aggregation name)
  /-- Aggregations stand in the order of the bytes of their names, at the top and below. -/
  ascending : ∀ names node, request.outermost.NodeAt names node →
    node.children.Pairwise fun entry other => Text.bytes entry.1 < Text.bytes other.1
  size_eq : request.size = (calls.filterMap RequestCall.size?).getLast?.getD 0
  start_eq : request.start = (calls.filterMap RequestCall.start?).getLast?.getD 0
  sort_eq : request.sort = calls.filterMap RequestCall.sortKey?

theorem has_result_iff :
  (call.result request).Has part ↔ request.Has part ∨ call.part? = some part
  := by
  cases call with
  | aggregate name body =>
    cases part with
    | aggregation other =>
      by_cases heq : other = name
      · subst heq
        simp [Has, RequestCall.result, RequestCall.part?]
      · simp [Has, RequestCall.result, RequestCall.part?, Keyed.find?_insert_of_ne _ _ heq,
          Ne.symm heq]
    | _ => simp [Has, RequestCall.result, RequestCall.part?]
  | _ => cases part <;> simp [Has, RequestCall.result, RequestCall.part?]

/-- A part is there when a call configured it. -/
theorem has_results_iff :
  (results calls request).Has part ↔ request.Has part ∨ ∃ call ∈ calls, call.part? = some part
  := by
  induction calls generalizing request with
  | nil => simp [results]
  | cons call calls ih =>
    rw [results, List.foldl_cons, ← results, ih, has_result_iff]
    simp [or_assoc]

/-- Of the values that calls set, the last counts. -/
theorem last_results {α : Type} {field : SearchRequest → α} {given? : RequestCall → Option α}
    (h : ∀ call request, field (RequestCall.result call request)
      = (given? call).getD (field request)) :
  field (results calls request) = (calls.filterMap given?).getLast?.getD (field request)
  := by
  induction calls generalizing request with
  | nil => rfl
  | cons call calls ih =>
    rw [results, List.foldl_cons, ← results, ih, h, List.filterMap_cons]
    cases given? call with
    | none => rfl
    | some value => simp [List.getLast?_cons]

theorem body_results :
  ((results calls request).query.getD {}).body
    = (calls.flatMap RequestCall.bodies).getLast?.or (request.query.getD {}).body
  := by
  induction calls generalizing request with
  | nil => rfl
  | cons call calls ih =>
    rw [results, List.foldl_cons, ← results, ih, List.flatMap_cons, List.getLast?_append,
      Option.or_assoc]
    cases call <;> rfl

theorem sort_results :
  (results calls request).sort = request.sort ++ calls.filterMap RequestCall.sortKey?
  := by
  induction calls generalizing request with
  | nil => simp [results]
  | cons call calls ih =>
    rw [results, List.foldl_cons, ← results, ih, List.filterMap_cons]
    cases call <;> simp [RequestCall.result, RequestCall.sortKey?]

/-- A row of calls on the request for everything leaves what it gave. -/
theorem builtBy_results (limit : PageLimit) (calls : List RequestCall)
    (hwf : (results calls (.empty limit)).outermost.WellFormed) :
  (results calls (.empty limit)).BuiltBy limit calls
  := by
  have hascending : Keyed.Ascending (results calls (empty limit)).aggregations := hwf.ascending
  have hhas : ∀ part, ¬(empty limit).Has part →
      ((results calls (empty limit)).Has part ↔ ∃ call ∈ calls, call.part? = some part) := by
    intro part hnot
    rw [has_results_iff, or_iff_right hnot]
  exact {
    limit_eq := limit_results
    filter_iff := hhas .filter (by simp [Has, empty])
    query_iff := hhas .query (by simp [Has, empty])
    body_eq := by
      intro query hquery
      have hbody := @body_results (empty limit) calls
      rw [hquery] at hbody
      simpa [empty] using hbody
    aggregation_iff := by
      intro name
      rw [← hhas (.aggregation name) (by simp [Has, empty, Keyed.find?]), Has,
        Option.isSome_iff_exists]
      apply exists_congr
      intro aggregation
      exact ⟨Keyed.find?_eq_some_of_mem hascending, Keyed.mem_of_find?_eq_some⟩
    ascending := by
      intro names node hnode
      have hbelow : node.WellFormed := (hwf.of_at? ((Aggregation.nodeAt_iff hwf).mp hnode)).1
      apply hbelow.ascending.imp Text.lt_iff_bytes_lt.mp
    size_eq := last_results (by rintro (_ | _) <;> simp [RequestCall.result, RequestCall.size?])
    start_eq := last_results (by rintro (_ | _) <;> simp [RequestCall.result, RequestCall.start?])
    sort_eq := sort_results }

theorem wellFormed_outermost_runAll (calls : List RequestCall) (limit : PageLimit)
    (session : MetricSession) :
  (RequestCall.runAll calls (.empty limit) session).1.outermost.WellFormed
  := by
  rw [← (RequestCall.retraces_runAll calls (.empty limit) session).value]
  apply (wellFormed_runAll_empty limit _).1

/-! ### Documents -/

/-- The page is not longer than the limit allows, if a length was asked for. -/
def WithinLimit (request : SearchRequest) : Prop :=
  0 < request.size → ∀ max, request.limit.max = some max → request.size ≤ max

/-- The amount as a number, if it is positive. -/
def positive? (amount : Int64) : Option Json := if 0 < amount then some (.ofInt64 amount) else none

/-- The array of the documents, if there are any. -/
def arrayIfAny (documents : List Json) : Option Json :=
  if documents.isEmpty then none else some (.array documents)

/-- The documents of sort directives, in their order. -/
def SortDocuments : List SortKey → List Json → Prop :=
  List.Forall₂ fun key document => ∃ path, key.field = .ok path
    ∧ document = .singleton path.dotted (.singleton "order" (.string key.order.name))

/-- The document of a request, from those of its parts. -/
def assembled (request : SearchRequest) (filter? query? : Option Json)
    (aggregations : List (String × Json)) (directives : List Json) : Json :=
  .record
    [("aggs", Json.objectIfAny aggregations),
      ("from", positive? request.start),
      ("query", some (.singleton "filtered" (.record [("filter", filter?), ("query", query?)]))),
      ("size", positive? request.size),
      ("sort", arrayIfAny directives)]

/-- A request has the document that is assembled from those of its parts. -/
inductive HasDocument (request : SearchRequest) : Json → Prop
  | intro {filter? query? : Option Json} {aggregations : List (String × Json)}
    {directives : List Json}
    (hfilter : Option.Rel (fun tree document => tree.compose = .ok document) request.filter filter?)
    (hquery : Option.Rel (fun query document => query.body = some document) request.query query?)
    (haggregations : Aggregation.HaveDocuments request.aggregations aggregations)
    (hsize : request.WithinLimit) (hsort : SortDocuments request.sort directives) :
    HasDocument request (request.assembled filter? query? aggregations directives)

theorem composeQuery_eq (query : Option Query) :
  composeQuery query = composePart "query" Query.compose query
  := by
  cases query <;> rfl

theorem queryCompose_eq_ok_iff {query : Query} {document : Json} :
  query.compose = .ok document ↔ query.body = some document
  := by
  rw [Query.compose]
  cases query.body <;> simp

theorem exists_sortCompose_eq_ok_iff {key : SortKey} :
  (∃ document, key.compose = .ok document) ↔ ∃ path, key.field = .ok path
  := by
  rw [SortKey.compose]
  cases key.field <;> simp

theorem sortCompose_eq_ok_iff {key : SortKey} {document : Json} :
  key.compose = .ok document ↔ ∃ path, key.field = .ok path
    ∧ document = .singleton path.dotted (.singleton "order" (.string key.order.name))
  := by
  rw [SortKey.compose]
  cases key.field <;> simp [eq_comm]

theorem composeSize_eq_ok_iff {members : List (String × Json)} :
  composeSize request.limit request.size = .ok members
    ↔ request.WithinLimit
      ∧ members = [("size", positive? request.size)].filterMap Json.presentMember
  := by
  rw [composeSize, WithinLimit, positive?]
  split
  · next hpos =>
    rw [map_eq_ok_iff]
    constructor
    · rintro ⟨⟨⟩, hcheck, rfl⟩
      exact ⟨fun _ => PageLimit.check_eq_ok_iff.mp hcheck, rfl⟩
    · rintro ⟨hlimit, rfl⟩
      exact ⟨(), PageLimit.check_eq_ok_iff.mpr (hlimit hpos), rfl⟩
  · next hpos =>
    rw [Except.ok.injEq, eq_comm, and_iff_right fun h => absurd h hpos]
    rfl

theorem composeSort_eq_ok_iff {sort : List SortKey} {members : List (String × Json)} :
  composeSort sort = .ok members
    ↔ ∃ directives, SortDocuments sort directives
      ∧ members = [("sort", arrayIfAny directives)].filterMap Json.presentMember
  := by
  simp only [SortDocuments, ← sortCompose_eq_ok_iff, ← mapM_eq_ok_iff]
  cases sort with
  | nil =>
    constructor
    · intro h
      cases h
      exact ⟨[], rfl, rfl⟩
    · rintro ⟨_, ⟨⟩, rfl⟩
      rfl
  | cons key keys =>
    rw [composeSort, if_neg (by simp), map_eq_ok_iff]
    apply exists_congr
    intro directives
    apply and_congr_right
    intro hdirectives
    cases mapM_eq_ok_iff.mp hdirectives
    rfl

theorem startMember_eq (start : Int64) :
  startMember start = [("from", positive? start)].filterMap Json.presentMember
  := by
  rw [startMember, positive?]
  split <;> rfl

/-- The members of a request come in ascending order. -/
theorem document_eq (filter? query? : Option Json) (aggregations : List (String × Json))
    (directives : List Json) :
  request.document ([("filter", filter?)].filterMap Json.presentMember)
      ([("query", query?)].filterMap Json.presentMember) aggregations
      ([("size", positive? request.size)].filterMap Json.presentMember)
      ([("sort", arrayIfAny directives)].filterMap Json.presentMember)
    = request.assembled filter? query? aggregations directives
  := by
  have hfiltered : Json.ofMembers ([("filter", filter?)].filterMap Json.presentMember
      ++ [("query", query?)].filterMap Json.presentMember)
      = .record [("filter", filter?), ("query", query?)] := by
    rw [← List.filterMap_append]
    apply Json.ofMembers_eq_record (.refl _)
    simp only [List.cons_append, List.nil_append, List.map_cons, List.map_nil]
    decide
  rw [document, hfiltered, Aggregation.membersIfAny_eq, startMember_eq]
  let query := Json.singleton "filtered" (.record [("filter", filter?), ("query", query?)])
  have hquery : [("query", query)] = [("query", some query)].filterMap Json.presentMember := rfl
  rw [← List.singleton_append, hquery]
  simp only [← List.filterMap_append, List.cons_append, List.nil_append]
  apply Json.ofMembers_eq_record
  · apply (List.Perm.swap _ _ _).trans (List.Perm.cons _ _)
    apply @List.perm_middle _ _ [_, _]
  · simp only [List.map_cons, List.map_nil]
    decide

theorem compose_eq_ok_iff {document : Json} :
  request.compose = .ok document ↔ request.HasDocument document
  := by
  have hqueries : ∀ query?, Option.Rel (fun query document => Query.compose query = .ok document)
      request.query query?
      ↔ Option.Rel (fun query document => query.body = some document) request.query query? := by
    simp only [queryCompose_eq_ok_iff, implies_true]
  rw [compose_eq, Aggregation.composeFilter_eq, composeQuery_eq]
  constructor
  · intro h
    obtain ⟨filterPart, hfilterPart, h⟩ := bind_eq_ok_iff.mp h
    obtain ⟨queryPart, hqueryPart, h⟩ := bind_eq_ok_iff.mp h
    obtain ⟨aggregations, haggregations, h⟩ := bind_eq_ok_iff.mp h
    obtain ⟨sizePart, hsizePart, h⟩ := bind_eq_ok_iff.mp h
    obtain ⟨sortPart, hsortPart, h⟩ := bind_eq_ok_iff.mp h
    obtain ⟨filter?, hfilter, rfl⟩ := composePart_eq_ok_iff.mp hfilterPart
    obtain ⟨query?, hquery, rfl⟩ := composePart_eq_ok_iff.mp hqueryPart
    obtain ⟨hlimit, rfl⟩ := composeSize_eq_ok_iff.mp hsizePart
    obtain ⟨directives, hsort, rfl⟩ := composeSort_eq_ok_iff.mp hsortPart
    cases h
    rw [document_eq]
    apply HasDocument.intro hfilter ((hqueries _).mp hquery)
      ((Aggregation.composeMembers_eq_ok_iff _ _).mp haggregations) hlimit hsort
  · intro h
    cases h with
    | @intro filter? query? aggregations directives hfilter hquery haggregations hlimit hsort =>
      refine bind_eq_ok_iff.mpr ⟨_, composePart_eq_ok_iff.mpr ⟨filter?, hfilter, rfl⟩, ?_⟩
      refine bind_eq_ok_iff.mpr
        ⟨_, composePart_eq_ok_iff.mpr ⟨query?, (hqueries _).mpr hquery, rfl⟩, ?_⟩
      refine bind_eq_ok_iff.mpr
        ⟨_, (Aggregation.composeMembers_eq_ok_iff _ _).mpr haggregations, ?_⟩
      refine bind_eq_ok_iff.mpr ⟨_, composeSize_eq_ok_iff.mpr ⟨hlimit, rfl⟩, ?_⟩
      refine bind_eq_ok_iff.mpr ⟨_, composeSort_eq_ok_iff.mpr ⟨directives, hsort, rfl⟩, ?_⟩
      rw [document_eq]
      rfl

/-! ### Errors -/

/-- The error of a page that is too long. -/
def sizeFaults (request : SearchRequest) : List SearchError :=
  match request.limit.max with
  | some max =>
    if 0 < request.size ∧ max < request.size then [.pageTooLong request.size max] else []
  | none => []

/-- The errors of a request, in the order of its parts. -/
def faults (request : SearchRequest) : List SearchError :=
  partErrors FilterTree.compose request.filter ++ partErrors Query.compose request.query
    ++ Aggregation.childFaults request.aggregations ++ request.sizeFaults
    ++ request.sort.flatMap fun key => errors key.compose

theorem error?_composeSize :
  error? (composeSize request.limit request.size) = request.sizeFaults.head?
  := by
  rw [composeSize, sizeFaults, PageLimit.check]
  cases request.limit.max with
  | none => split <;> rfl
  | some max =>
    by_cases hpos : 0 < request.size
    · by_cases hlong : max < request.size
      · simp [hpos, hlong, error?, Except.map]
      · simp [hpos, hlong, error?, Except.map]
    · simp [hpos, error?]

theorem error?_composeSort {sort : List SortKey} :
  error? (composeSort sort) = (sort.flatMap fun key => errors key.compose).head?
  := by
  rw [composeSort, ← error?_mapM]
  split
  · next hempty =>
    rw [List.isEmpty_iff.mp hempty]
    rfl
  · apply error?_map

/-- A request fails with the first of its errors. -/
theorem error?_compose :
  error? request.compose = request.faults.head?
  := by
  rw [compose_eq, Aggregation.composeFilter_eq, composeQuery_eq, faults]
  simp only [List.append_assoc]
  apply error?_bind error?_composePart
  intro _ _
  apply error?_bind error?_composePart
  intro _ _
  apply error?_bind (Aggregation.error?_composeMembers _)
  intro _ _
  apply error?_bind error?_composeSize
  intro _ _
  rw [← error?_composeSort]
  apply error?_map

/-- No part of the request fails to compose. -/
structure IsFine (request : SearchRequest) : Prop where
  filter : ∀ tree, request.filter = some tree → ∃ document, tree.compose = .ok document
  query : ∀ query, request.query = some query → ∃ document, query.body = some document
  aggregations : ∀ names node, request.outermost.NodeAt names node → node.IsFine
  size : request.WithinLimit
  sort : ∀ key ∈ request.sort, ∃ path, key.field = .ok path

theorem sizeFaults_eq_nil_iff :
  request.sizeFaults = [] ↔ request.WithinLimit
  := by
  rw [sizeFaults, WithinLimit]
  cases request.limit.max with
  | none => simp
  | some max => simp [Int64.not_lt]

theorem faults_eq_nil_iff (h : request.outermost.WellFormed) :
  request.faults = [] ↔ request.IsFine
  := by
  have haggregations : Aggregation.childFaults request.aggregations = []
      ↔ ∀ names node, request.outermost.NodeAt names node → node.IsFine := h.faults_eq_nil_iff
  simp only [faults, List.append_eq_nil_iff, partErrors_eq_nil_iff, haggregations,
    sizeFaults_eq_nil_iff, List.flatMap_eq_nil_iff, errors_eq_nil_iff, queryCompose_eq_ok_iff,
    exists_sortCompose_eq_ok_iff]
  constructor
  · rintro ⟨⟨⟨⟨hfilter, hquery⟩, haggregations⟩, hsize⟩, hsort⟩
    exact ⟨hfilter, hquery, haggregations, hsize, hsort⟩
  · rintro ⟨hfilter, hquery, haggregations, hsize, hsort⟩
    exact ⟨⟨⟨⟨hfilter, hquery⟩, haggregations⟩, hsize⟩, hsort⟩

end SearchRequest

/-- A request composes exactly when each of its parts does, and then to its document; otherwise it
fails with the first of its errors. -/
theorem RequestCall.compose_runAll (calls : List RequestCall) (limit : PageLimit)
    (session : MetricSession) :
  let request := (runAll calls (.empty limit) session).1
  request.BuiltBy limit calls
    ∧ ((∃ document, request.compose = .ok document) ↔ request.IsFine)
    ∧ (∀ document, request.compose = .ok document ↔ request.HasDocument document)
    ∧ ∀ error, request.compose = .error error ↔ request.faults.head? = some error
  := by
  intro request
  have hwf : request.outermost.WellFormed :=
    SearchRequest.wellFormed_outermost_runAll calls limit session
  have hbuilt : request.BuiltBy limit calls := by
    have hrequest : request = results calls (.empty limit) := fst_runAll ..
    rw [hrequest] at hwf ⊢
    apply SearchRequest.builtBy_results limit calls hwf
  refine ⟨hbuilt, ?_, fun document => SearchRequest.compose_eq_ok_iff, ?_⟩
  · rw [← SearchRequest.faults_eq_nil_iff hwf, ← List.head?_eq_none_iff,
      ← SearchRequest.error?_compose, error?_eq_none_iff]
  · intro error
    rw [← SearchRequest.error?_compose, error?_eq_some_iff]

/-- A query that was given no document fails before a page that is too long. -/
example : (RequestCall.runAll [.take 20000, .query []] (.empty .standard) .empty).1.compose
    = .error (.notImplemented "query composition")
  := by
  rfl

end FilteredSearch
