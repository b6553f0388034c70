import FilteredSearch.Proofs.FilterScript.Moved
import FilteredSearch.Proofs.SearchRequest.Parts

/-!
# Calls in another order, and in halves

Calls on different parts of a request may be made in any order, and a part may be configured in one
call or in two, one after the other: the request is the same, and so is what it composes to.
-/

namespace FilteredSearch

/-! ### Scripts in two halves -/

namespace FilterScript

/-- The calls of a script, and then those of another, on the same handle. -/
def append : FilterScript → FilterScript → FilterScript
  | .done, more => more
  | .leaf test next rest, more => .leaf test next (rest.append more)
  | .scope opened next rest, more => .scope opened next (rest.append more)
  | .nested field body next rest, more => .nested field body next (rest.append more)
  | .chain connective body next rest, more => .chain connective body next (rest.append more)
  | .bool next rest, more => .bool next (rest.append more)
  | .clause part body next rest, more => .clause part body next (rest.append more)
  | .back next rest, more => .back next (rest.append more)
  | .asBool next rest, more => .asBool next (rest.append more)
  | .number rest, more => .number (rest.append more)
  | .compose rest, more => .compose (rest.append more)
  | .toText rest, more => .toText (rest.append more)
  | .unknown name rest, more => .unknown name (rest.append more)

/-- On a node that takes filters both scripts run, one after the other. -/
theorem run_append (first second : FilterScript) {handle : Handle} {id : Nat}
    (hhandle : handle.scope? = some id) (build : FilterBuild) :
  (first.append second).run handle build = second.run handle (first.run handle build)
  := by
  induction first generalizing build with
  | done => rfl
  | clause part body next rest _ _ hrest =>
    cases handle <;> simp only [append, run, hrest]
  | back next rest _ hrest =>
    cases handle with
    | leaf _ => cases hhandle
    | scope _ | bool _ _ => simp only [append, run, hrest]
  | leaf _ _ _ _ hrest | scope _ _ _ _ hrest | nested _ _ _ _ _ _ hrest
  | chain _ _ _ _ _ _ hrest | bool _ _ _ hrest | asBool _ _ _ hrest | number _ hrest
  | compose _ hrest | toText _ hrest | unknown _ _ hrest =>
    simp only [append, run, hhandle, hrest]

/-- A filter that is configured in two halves is configured as in one go, when failures do not stop
the first half. -/
theorem filtered_append (first second : FilterScript) (filter : Option FilterTree) :
  (first.append second).filtered false filter
    = second.filtered false (some (first.filtered false filter))
  := by
  let build := first.configure FilterTree.root (filter.getD .empty) false
  have hstart : build = .start build.tree build.transcript false := by
    have hstrict : build.strict = false := strict_run ..
    have hstopped : build.stopped = none := stopped_run_of_lenient _ _ rfl rfl
    rw [FilterBuild.start, ← hstrict, ← hstopped]
  have happend : (first.append second).configure FilterTree.root (filter.getD .empty) false
      = second.run (.scope FilterTree.root) build := run_append _ _ rfl _
  rw [filtered, happend, hstart, run_start, FilterBuild.tree_after]
  rfl

end FilterScript

namespace AggregationScript

/-- The calls of a script, and then those of another, on the same aggregation. -/
def append : AggregationScript → AggregationScript → AggregationScript
  | .done, more => more
  | .metric kind field rest, more => .metric kind field (rest.append more)
  | .subAggregate childName body rest, more => .subAggregate childName body (rest.append more)
  | .bucketFilter body rest, more => .bucketFilter body (rest.append more)
  | .name rest, more => .name (rest.append more)
  | .isBucket rest, more => .isBucket (rest.append more)
  | .compose rest, more => .compose (rest.append more)
  | .unknown call rest, more => .unknown call (rest.append more)

theorem result_append (first second : AggregationScript) (aggregation : Aggregation) :
  (first.append second).result aggregation = second.result (first.result aggregation)
  := by
  induction first generalizing aggregation with
  | done => rfl
  | _ => simp only [append, result, *]

/-- The scripts configure the same, but for what one configures in one call and the other in two. -/
inductive Splits : AggregationScript → AggregationScript → Prop
  /-- The filter of the bucket is configured in two halves. -/
  | bucketFilter (first second : FilterScript) (rest : AggregationScript) :
    Splits (.bucketFilter (first.append second) rest)
      (.bucketFilter first (.bucketFilter second rest))
  /-- A further aggregation is configured in two halves. -/
  | subAggregate (childName : String) (first second rest : AggregationScript) :
    Splits (.subAggregate childName (first.append second) rest)
      (.subAggregate childName first (.subAggregate childName second rest))
  /-- Something that a further aggregation is configured with is split. -/
  | within (childName : String) {body body' : AggregationScript} (rest : AggregationScript)
    (h : Splits body body') :
    Splits (.subAggregate childName body rest) (.subAggregate childName body' rest)
  /-- Something is split after other calls. -/
  | after (before : AggregationScript) {script script' : AggregationScript}
    (h : Splits script script') : Splits (before.append script) (before.append script')

/-- A split changes nothing. -/
theorem Splits.result_eq {script script' : AggregationScript} (h : script.Splits script')
    (aggregation : Aggregation) :
  script.result aggregation = script'.result aggregation
  := by
  induction h generalizing aggregation with
  | bucketFilter first second rest =>
    simp only [result, FilterScript.filtered_append, Aggregation.value_clearMetric]
  | subAggregate childName first second rest =>
    let bucket := aggregation.clearMetric.value
    let half := bucket.putChild childName (first.result (bucket.child childName))
    have hcleared : half.clearMetric.value = half := by
      simp [half, bucket, Aggregation.putChild]
    show rest.result (bucket.putChild childName
      ((first.append second).result (bucket.child childName))) = rest.result
        (half.clearMetric.value.putChild childName
          (second.result (half.clearMetric.value.child childName)))
    rw [hcleared, result_append, Aggregation.child_putChild, Aggregation.putChild_putChild]
  | within childName rest h ih => simp only [result, ih]
  | after before h ih => rw [result_append, result_append, ih]

end AggregationScript

namespace RequestCall

/-- The rows of calls configure the same parts of a request, in another order of the parts or in
other portions. -/
inductive Rearranges : List RequestCall → List RequestCall → Prop
  /-- The calls on every part are the same, in the same order. -/
  | interleaved {calls calls' : List RequestCall} (h : ∀ part, on part calls = on part calls') :
    Rearranges calls calls'
  /-- The filter is configured in two halves. -/
  | filter (before after : List RequestCall) (first second : FilterScript) :
    Rearranges (before ++ .filter (first.append second) :: after)
      (before ++ .filter first :: .filter second :: after)
  /-- An aggregation is configured in two halves. -/
  | aggregate (before after : List RequestCall) (name : String) (first second : AggregationScript) :
    Rearranges (before ++ .aggregate name (first.append second) :: after)
      (before ++ .aggregate name first :: .aggregate name second :: after)
  /-- Something that an aggregation is configured with is split. -/
  | within (before after : List RequestCall) (name : String) {body body' : AggregationScript}
    (h : body.Splits body') :
    Rearranges (before ++ .aggregate name body :: after) (before ++ .aggregate name body' :: after)
  | symm {calls calls' : List RequestCall} (h : Rearranges calls calls') : Rearranges calls' calls
  | trans {calls calls' calls'' : List RequestCall} (h : Rearranges calls calls')
    (h' : Rearranges calls' calls'') : Rearranges calls calls''

/-- Calls on the parts in another order, or in other portions, leave the same request. -/
theorem Rearranges.results_eq {calls calls' : List RequestCall} (h : Rearranges calls calls')
    (limit : PageLimit) :
  results calls (.empty limit) = results calls' (.empty limit)
  := by
  have hmiddle : ∀ {middle middle' : List RequestCall} (before after : List RequestCall),
      (∀ request, results middle request = results middle' request) →
      results (before ++ (middle ++ after)) (.empty limit)
        = results (before ++ (middle' ++ after)) (.empty limit) := by
    intro middle middle' before after hsame
    simp only [results_append, hsame]
  induction h with
  | @interleaved calls calls' hon =>
    have hascending : Keyed.Ascending (SearchRequest.empty limit).aggregations :=
      List.Pairwise.nil
    apply SearchRequest.eq_of_agreeOn
    · rw [SearchRequest.limit_results, SearchRequest.limit_results]
    · apply SearchRequest.ascending_results hascending
    · apply SearchRequest.ascending_results hascending
    · intro part
      have hself := SearchRequest.AgreeOn.refl (.empty limit) part
      have hleft := hself.results calls
      rw [hon part] at hleft
      apply hleft.trans (hself.results calls').symm
  | filter before after first second =>
    have hsame : ∀ request, results [.filter (first.append second)] request
        = results [.filter first, .filter second] request := by
      intro request
      simp only [results, List.foldl_cons, List.foldl_nil, result, FilterScript.filtered_append]
    apply hmiddle before after hsame
  | aggregate before after name first second =>
    have hsame : ∀ request, results [.aggregate name (first.append second)] request
        = results [.aggregate name first, .aggregate name second] request := by
      intro request
      simp only [results, List.foldl_cons, List.foldl_nil, result,
        AggregationScript.result_append, Keyed.find?_insert_self, Option.getD_some,
        Keyed.insert_insert]
    apply hmiddle before after hsame
  | @within before after name body body' h =>
    have hsame : ∀ request, results [.aggregate name body] request
        = results [.aggregate name body'] request := by
      intro request
      simp only [results, List.foldl_cons, List.foldl_nil, result, h.result_eq]
    apply hmiddle before after hsame
  | symm _ ih => apply ih.symm
  | trans _ _ ih ih' => apply ih.trans ih'

/-- The requests that rearranged calls leave compose to the same document or fail as the same, and
so do their texts. -/
theorem compose_runAll_of_rearranges {calls calls' : List RequestCall}
    (h : Rearranges calls calls') (limit : PageLimit) (session session' : MetricSession) :
  let request := (runAll calls (.empty limit) session).1
  let request' := (runAll calls' (.empty limit) session').1
  request.compose = request'.compose
    ∧ request.compose.map Json.toText = request'.compose.map Json.toText
  := by
  simp only [fst_runAll, h.results_eq limit, and_self]

/-- A script for the filter of a bucket. -/
def filterAll : AggregationScript := .bucketFilter (.leaf .matchAll .done .done) .done

/-- A script for a metric below a bucket. -/
def oldestAge : AggregationScript :=
  .subAggregate "oldest" (.metric .max [.member "age"] .done) .done

/-- An aggregation is configured in one go, after the page. -/
def agesInOne : List RequestCall := [.take 10, .aggregate "ages" (filterAll.append oldestAge)]

/-- The aggregation is configured in two halves, before the page. -/
def agesInTwo : List RequestCall :=
  [.aggregate "ages" filterAll, .aggregate "ages" oldestAge, .take 10]

theorem rearranges_agesInOne_agesInTwo :
  Rearranges agesInOne agesInTwo
  := by
  apply (Rearranges.aggregate [.take 10] [] "ages" filterAll oldestAge).trans
  apply Rearranges.interleaved
  intro part
  cases part with
  | aggregation name => by_cases h : "ages" = name <;> simp [agesInTwo, on, part?, h]
  | _ => rfl

theorem compose_runAll_of_rearranges_agesInOne :
  Rearranges agesInOne agesInTwo
    ∧ (runAll agesInOne (.empty .standard) .empty).1.compose
      = (runAll agesInTwo (.empty .standard) .empty).1.compose
  := by
  have h := rearranges_agesInOne_agesInTwo
  exact ⟨h, (compose_runAll_of_rearranges h .standard .empty .empty).1⟩

end RequestCall

end FilteredSearch
