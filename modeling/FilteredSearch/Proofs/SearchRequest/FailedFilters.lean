import FilteredSearch.Proofs.FilterScript.Back
import FilteredSearch.Proofs.FilterScript.Cuts
import FilteredSearch.Proofs.SearchRequest.Composed
import FilteredSearch.Proofs.SearchRequest.Rearranged

/-!
# Filters that fail to be configured

A call that configures the filter of a request until the first failure takes nothing back when it
fails.  The request is left as by a call that configures the filter only up to the failure, and
every request that a call leaves that does not fail, one that fails leaves as well.  A request that
had no filter, and composed, does not compose to the same document after a failure.
-/

namespace FilteredSearch

open FilterTree

/-! ### What is reported of a call -/

namespace SearchRequest

variable {request left : SearchRequest} {session : MetricSession} {body : FilterScript}
  {calls : List RequestCall} {tree : FilterTree} {document : Json}

/-- The request that is left by the call that configures the filter until the first failure. -/
def tried (request : SearchRequest) (session : MetricSession) (body : FilterScript) :
    SearchRequest :=
  ((RequestCall.tryFilter body).run request session).1

/-- The call that configures the filter until the first failure comes to the result. -/
def TriesTo (request : SearchRequest) (session : MetricSession) (body : FilterScript)
    (result : Except SearchError Unit) : Prop :=
  ((RequestCall.tryFilter body).run request session).2.transcript.events.back?
    = some (.outcome "try_filter" result)

/-- The build of the filter of the request by the script, until the first failure. -/
def tryBuild (request : SearchRequest) (body : FilterScript) : FilterBuild :=
  body.configure root (request.filter.getD .empty) true

theorem tried_eq (request : SearchRequest) (session : MetricSession) (body : FilterScript) :
  request.tried session body = { request with filter := some (request.tryBuild body).tree }
  := RequestCall.fst_run _ _ _

theorem stopped_configure (request : SearchRequest) (session : MetricSession)
    (body : FilterScript) :
  (session.configure "try_filter" true body request.filter).2.2 = (request.tryBuild body).stopped
  := by
  simp only [MetricSession.configure, FilterScript.run_start, FilterBuild.stopped_after]
  rfl

theorem triesTo_iff {result : Except SearchError Unit} :
  request.TriesTo session body result
    ↔ (match (request.tryBuild body).stopped with
      | some error => .error error
      | none => .ok ()) = result
  := by
  have hstopped := stopped_configure request session body
  cases h : (request.tryBuild body).stopped <;>
    simp [TriesTo, RequestCall.run, MetricSession.report, Transcript.report, hstopped, h]

theorem triesTo_error_iff {error : SearchError} :
  request.TriesTo session body (.error error) ↔ (request.tryBuild body).stopped = some error
  := by
  rw [triesTo_iff]
  cases (request.tryBuild body).stopped <;> simp

theorem triesTo_ok_iff :
  request.TriesTo session body (.ok ()) ↔ (request.tryBuild body).stopped = none
  := by
  rw [triesTo_iff]
  cases (request.tryBuild body).stopped <;> simp

/-! ### What a failure leaves -/

/-- Calls leave a filter that filter scripts build when it was so before. -/
theorem reachable_results (hrequest : ∀ tree, request.filter = some tree → tree.Reachable)
    (h : (RequestCall.results calls request).filter = some tree) :
  tree.Reachable
  := by
  induction calls generalizing request with
  | nil => apply hrequest tree h
  | cons call calls ih =>
    apply ih _ h
    intro filter hfilter
    cases call with
    | filter body | tryFilter body =>
      have hbefore : (request.filter.getD .empty).Reachable := by
        cases hgiven : request.filter with
        | none => exact .empty
        | some given => apply hrequest given hgiven
      cases hfilter
      exact .run body .empty _ hbefore
    | _ => apply hrequest filter hfilter

/-- The tree that a request configures its filter in. -/
theorem reachable_filter_runAll (calls : List RequestCall) (limit : PageLimit)
    (session : MetricSession) :
  ((RequestCall.runAll calls (.empty limit) session).1.filter.getD .empty).Reachable
  := by
  rw [RequestCall.fst_runAll]
  cases h : (RequestCall.results calls (empty limit)).filter with
  | none => exact .empty
  | some tree => exact reachable_results (fun _ hnone => by cases hnone) h

/-- Whatever a call leaves, one that makes the calls of the script up to a failure leaves too, and
does not fail. -/
theorem exists_cut_triesTo (request : SearchRequest) (session : MetricSession)
    (body : FilterScript) :
  ∃ cut ∈ body.cuts, request.TriesTo session cut (.ok ())
    ∧ request.tried session cut = request.tried session body
  := by
  obtain ⟨cut, hcut, hleft⟩ :=
    body.isCutShort (.scope root) (.start (request.filter.getD .empty) .empty true) rfl
  have htree : (request.tryBuild cut).tree = (request.tryBuild body).tree := hleft.tree_eq
  refine ⟨cut, hcut, triesTo_ok_iff.mpr hleft.going, ?_⟩
  rw [tried_eq, tried_eq, htree]

/-- When a script did not fail, one that goes back from the top after it does, and leaves the
same. -/
theorem triesTo_append_back (htree : (request.filter.getD .empty).Reachable)
    (h : request.TriesTo session body (.ok ())) :
  let failing := body.append (.back .done .done)
  request.TriesTo session failing (.error .noEnclosingFamily)
    ∧ request.tried session failing = request.tried session body
  := by
  have hgoing : (request.tryBuild body).stopped = none := triesTo_ok_iff.mp h
  have hstrict : (request.tryBuild body).strict = true := FilterScript.strict_run ..
  have hwf : (request.tryBuild body).tree.WellFormed :=
    (Reachable.run body .empty true htree).wellFormed
  have hroot := familyRootAround_root hwf
  have hfailing : request.tryBuild (body.append (.back .done .done))
      = (request.tryBuild body).fail "back" .noEnclosingFamily := by
    rw [tryBuild, FilterScript.configure, FilterScript.run_append _ _ rfl]
    apply FilterScript.run_back_of_error .done hroot
  constructor
  · rw [triesTo_error_iff, hfailing]
    simp [FilterBuild.fail, hgoing, hstrict]
  · rw [tried_eq, tried_eq, hfailing, FilterBuild.tree_fail]

/-- The part of a document that holds the filter and the query of the request. -/
theorem HasDocument.exists_filtered (h : request.HasDocument document) :
  ∃ filter? query?, filter?.isSome = request.filter.isSome
    ∧ document.member? "query"
      = some (.singleton "filtered" (.record [("filter", filter?), ("query", query?)]))
  := by
  cases h with
  | @intro filter? query? aggregations directives hfilter =>
    use filter?, query?
    constructor
    · generalize request.filter = filter at hfilter ⊢
      cases hfilter <;> rfl
    · rw [assembled, Json.member?_record_eq_some_iff]
      · simp
      · simp only [List.map_cons, List.map_nil]
        decide

/-- A request without a filter does not have the document of one with a filter. -/
theorem compose_ne_of_filter (hnone : request.filter = none) (hsome : left.filter.isSome = true)
    (h : request.compose = .ok document) :
  left.compose ≠ .ok document
  := by
  intro h'
  obtain ⟨filter?, query?, hfilter, hfiltered⟩ := (compose_eq_ok_iff.mp h).exists_filtered
  obtain ⟨filter?', query?', hfilter', hfiltered'⟩ := (compose_eq_ok_iff.mp h').exists_filtered
  rw [hnone, Option.isSome_none, Option.isSome_eq_false_iff, Option.isNone_iff_eq_none] at hfilter
  rw [hsome, Option.isSome_iff_exists] at hfilter'
  obtain ⟨filter, rfl⟩ := hfilter'
  subst hfilter
  have hnames : ∀ filter? query? : Option Json,
      ([("filter", filter?), ("query", query?)].map Prod.fst).Pairwise (· < ·) := by
    intro filter? query?
    simp only [List.map_cons, List.map_nil]
    decide
  -- The member for the filter is in one of the two parts only.
  have hrecord : Json.record [("filter", none), ("query", query?)]
      = .record [("filter", some filter), ("query", query?')] := by
    rw [hfiltered] at hfiltered'
    simpa [Json.singleton] using hfiltered'
  have hmember : (Json.record [("filter", none), ("query", query?)]).member? "filter"
      = some filter := by
    rw [hrecord, Json.member?_record_eq_some_iff (hnames _ _)]
    simp
  rw [Json.member?_record_eq_some_iff (hnames _ _)] at hmember
  simp at hmember

/-- A call that configures the filter until the first failure, and fails, leaves the request as it
is left by a call that makes only the calls of the script before the failure: the other parts stay,
and the filter has grown from what it was, or from nothing.  A request that had no filter does not
compose to its document any more.  Whatever a call leaves that does not fail, a call that fails
leaves too. -/
theorem tried_of_failure (calls : List RequestCall) (limit : PageLimit)
    (session session' : MetricSession) :
  let request := (RequestCall.runAll calls (.empty limit) session).1
  (∀ body error, request.TriesTo session' body (.error error) →
    let left := request.tried session' body
    (∃ cut ∈ body.cuts, request.TriesTo session' cut (.ok ()) ∧ request.tried session' cut = left)
      ∧ (∀ part, part ≠ .filter → left.AgreeOn request part)
      ∧ (∃ tree, left.filter = some tree ∧ Grows (request.filter.getD .empty) tree)
      ∧ (request.filter = none → ∀ document, request.compose = .ok document →
        left.compose ≠ .ok document))
    ∧ ∀ body, request.TriesTo session' body (.ok ()) →
      ∃ failing, request.TriesTo session' failing (.error .noEnclosingFamily)
        ∧ request.tried session' failing = request.tried session' body
  := by
  intro request
  have htree : (request.filter.getD .empty).Reachable := reachable_filter_runAll calls limit session
  constructor
  · intro body error _ left
    have hfilter : left.filter = some (request.tryBuild body).tree := by
      rw [show left = _ from tried_eq request session' body]
    refine ⟨exists_cut_triesTo request session' body, ?_, ⟨_, hfilter, ?_⟩, ?_⟩
    · intro part hpart
      rw [show left = _ from RequestCall.fst_run (.tryFilter body) request session']
      apply agreeOn_result_of_ne
      rintro ⟨⟩
      apply hpart rfl
    · have hwf := htree.wellFormed
      apply body.makesGrow _ (.start _ .empty true) hwf
      exact ⟨_, hwf.kind_root, by simp⟩
    · intro hnone document hdocument
      apply compose_ne_of_filter hnone (by rw [hfilter]; rfl) hdocument
  · intro body hbody
    use body.append (.back .done .done)
    apply triesTo_append_back htree hbody

/-- A script that puts a leaf into the filter and goes back from it, where no family is around. -/
def leafThenBack : FilterScript :=
  .leaf (.term [.member "a"] (.ofInt64 1)) (.back .done .done) .done

theorem triesTo_leafThenBack :
  (empty .standard).TriesTo .empty leafThenBack (.error .noEnclosingFamily)
  := by
  let build := (FilterBuild.start .empty .empty true).put "term" root
    (Leaf.term [.member "a"] (.ofInt64 1)).kind
  have hscope : build.tree.kind? root = some .scope := rfl
  have hroot : build.tree.familyRootFrom root = .error .noEnclosingFamily :=
    (familyRootFrom_eq hscope).trans rfl
  have hback : build.tree.familyRootAround (Handle.leaf 1).id = .error .noEnclosingFamily := hroot
  have hbuild : (empty .standard).tryBuild leafThenBack
      = build.fail "back" .noEnclosingFamily :=
    FilterScript.run_back_of_error .done hback
  rw [triesTo_error_iff, hbuild]
  rfl

theorem tried_of_failure_leafThenBack :
  (empty .standard).TriesTo .empty leafThenBack (.error .noEnclosingFamily)
    ∧ ∃ cut ∈ leafThenBack.cuts, (empty .standard).TriesTo .empty cut (.ok ())
      ∧ (empty .standard).tried .empty cut = (empty .standard).tried .empty leafThenBack
  := by
  have hfailed := triesTo_leafThenBack
  obtain ⟨hfailure, -⟩ := tried_of_failure [] .standard .empty .empty
  exact ⟨hfailed, (hfailure leafThenBack _ hfailed).1⟩

/-- After the failure the request does not compose to the document that it composed to before. -/
theorem compose_tried_ne_leafThenBack :
  (empty .standard).TriesTo .empty leafThenBack (.error .noEnclosingFamily)
    ∧ ((empty .standard).tried .empty leafThenBack).compose ≠ (empty .standard).compose
  := by
  have hbefore : (empty .standard).compose
      = .ok (.singleton "query" (.singleton "filtered" (.object []))) := rfl
  constructor
  · exact triesTo_leafThenBack
  · rw [hbefore]
    apply compose_ne_of_filter rfl _ hbefore
    rw [tried_eq]
    rfl

end SearchRequest

end FilteredSearch
