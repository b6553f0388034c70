import FilteredSearch.Proofs.SearchRequest.Parts

/-!
# The last period of an aggregation

The changes made on an aggregation fall into periods: a metric that is set ends the bucket before
it, and a change of the bucket ends the metric before it.  Only the last period counts.  It is the
last metric alone, or the changes of the bucket that were made after it, and it makes of an
aggregation that was not configured what all the changes made of it.
-/

namespace FilteredSearch

/-- A change of an aggregation, with all that is done to the further aggregation or to the filter
that it configures. -/
inductive AggregationChange where
  /-- Sets a metric. -/
  | metric (kind : MetricKind) (field : Accessor)
  /-- Configures a further aggregation of the bucket. -/
  | subAggregate (name : String) (body : AggregationScript)
  /-- Configures the filter of the bucket. -/
  | bucketFilter (body : FilterScript)

namespace AggregationChange

/-- The change sets a metric. -/
def IsMetric : AggregationChange → Prop
  | .metric _ _ => True
  | .subAggregate _ _ | .bucketFilter _ => False

/-- The first row of changes is the last period of the second one. -/
inductive IsLastPeriod : List AggregationChange → List AggregationChange → Prop
  /-- No metric was set. -/
  | bucket {changes : List AggregationChange}
    (hbucket : ∀ change ∈ changes, ¬change.IsMetric) : IsLastPeriod changes changes
  /-- Nothing was changed after the last metric. -/
  | metric (before : List AggregationChange) (kind : MetricKind) (field : Accessor) :
    IsLastPeriod [.metric kind field] (before ++ [.metric kind field])
  /-- The bucket was changed after the last metric. -/
  | bucketAfter (before : List AggregationChange) (kind : MetricKind) (field : Accessor)
    {after : List AggregationChange} (hafter : after ≠ [])
    (hbucket : ∀ change ∈ after, ¬change.IsMetric) :
    IsLastPeriod after (before ++ .metric kind field :: after)

/-- Every row of changes has a last period. -/
theorem exists_isLastPeriod (changes : List AggregationChange) :
  ∃ period, IsLastPeriod period changes
  := by
  induction changes using List.reverseRecOn with
  | nil => exact ⟨[], .bucket (by simp)⟩
  | append_singleton changes change ih =>
    have hlast : ∀ {after : List AggregationChange}, (∀ other ∈ after, ¬other.IsMetric) →
        ¬change.IsMetric → ∀ other ∈ after ++ [change], ¬other.IsMetric := by
      intro after hafter hchange other hother
      rcases List.mem_append.mp hother with hother | hother
      · apply hafter other hother
      · rwa [List.mem_singleton.mp hother]
    cases change with
    | metric kind field => exact ⟨_, .metric changes kind field⟩
    | subAggregate | bucketFilter =>
      obtain ⟨period, hperiod⟩ := ih
      cases hperiod with
      | bucket hbucket => exact ⟨_, .bucket (hlast hbucket (fun h => h))⟩
      | metric before kind field =>
        rw [List.append_assoc]
        exact ⟨_, .bucketAfter before kind field (by simp) (hlast (by simp) (fun h => h))⟩
      | bucketAfter before kind field hafter hbucket =>
        rw [List.append_assoc]
        exact ⟨_, .bucketAfter before kind field (by simp) (hlast hbucket (fun h => h))⟩

end AggregationChange

open AggregationChange

namespace AggregationScript

/-- The changes that a script makes on the aggregation itself. -/
def changes : AggregationScript → List AggregationChange
  | .done => []
  | .metric kind field rest => .metric kind field :: rest.changes
  | .subAggregate childName body rest => .subAggregate childName body :: rest.changes
  | .bucketFilter body rest => .bucketFilter body :: rest.changes
  | .name rest | .isBucket rest | .compose rest | .unknown _ rest => rest.changes

/-- The script that makes the changes and nothing else. -/
def ofChanges : List AggregationChange → AggregationScript
  | [] => .done
  | .metric kind field :: later => .metric kind field (ofChanges later)
  | .subAggregate childName body :: later => .subAggregate childName body (ofChanges later)
  | .bucketFilter body :: later => .bucketFilter body (ofChanges later)

variable (script : AggregationScript) (node : Aggregation)
  {before after period : List AggregationChange}

/-- Only the changes that a script makes count for what it leaves. -/
theorem result_ofChanges_changes :
  (ofChanges script.changes).result node = script.result node
  := by
  induction script generalizing node with
  | done => rfl
  | _ => simp only [changes, ofChanges, result, *]

theorem result_ofChanges_append :
  (ofChanges (before ++ after)).result node
    = (ofChanges after).result ((ofChanges before).result node)
  := by
  induction before generalizing node with
  | nil => rfl
  | cons change before ih => cases change <;> apply ih

/-- An aggregation keeps its path. -/
theorem path_result :
  (script.result node).path = node.path
  := by
  induction script generalizing node with
  | done => rfl
  | metric kind field rest ih => rw [result, ih, Aggregation.value_withMetric]
  | subAggregate childName body rest _ ih =>
    rw [result, ih, Aggregation.value_clearMetric]
    rfl
  | bucketFilter body rest ih => rw [result, ih, Aggregation.value_clearMetric]
  | name _ ih | isBucket _ ih | compose _ ih | unknown _ _ ih => apply ih

/-- A metric leaves nothing of what was there before but the path. -/
theorem result_after_metric (kind : MetricKind) (field : Accessor) :
  (ofChanges (before ++ .metric kind field :: after)).result node
    = (ofChanges after).result ⟨node.path, some (.ofAccessor kind field), none, []⟩
  := by
  rw [result_ofChanges_append, ofChanges, result, Aggregation.value_withMetric, path_result]

/-- A change of the bucket leaves nothing of a metric. -/
theorem result_of_metric (hafter : after ≠ []) (hbucket : ∀ change ∈ after, ¬change.IsMetric) :
  (ofChanges after).result node = (ofChanges after).result { node with metric := none }
  := by
  cases after with
  | nil => exact absurd rfl hafter
  | cons change after =>
    cases change with
    | metric kind field => exact absurd trivial (hbucket _ (List.mem_cons_self ..))
    | subAggregate | bucketFilter => simp only [ofChanges, result, Aggregation.value_clearMetric]

/-- The last period makes of an aggregation that was not configured what all changes make of it. -/
theorem result_of_isLastPeriod {changes : List AggregationChange} {path : List String}
    (h : IsLastPeriod period changes) :
  (ofChanges changes).result (.unconfigured path) = (ofChanges period).result (.unconfigured path)
  := by
  cases h with
  | bucket hbucket => rfl
  | metric before kind field =>
    rw [result_after_metric, ← List.nil_append [AggregationChange.metric kind field],
      result_after_metric]
  | bucketAfter before kind field hafter hbucket =>
    rw [result_after_metric, result_of_metric _ hafter hbucket]
    rfl

/-- Whatever calls were made on an aggregation, it is what the last period of their changes makes of
an aggregation with the same path that was not configured.  So no later call can tell the two
apart. -/
theorem run_eq_run_of_isLastPeriod (history : AggregationScript) (path : List String)
    (session session' : MetricSession) :
  (∃ period, IsLastPeriod period history.changes)
    ∧ ∀ period, IsLastPeriod period history.changes →
      (history.run (.unconfigured path) session).1
        = ((ofChanges period).run (.unconfigured path) session').1
  := by
  use exists_isLastPeriod history.changes
  intro period hperiod
  rw [fst_run, fst_run, ← result_ofChanges_changes, result_of_isLastPeriod hperiod]

/-- A script for a bucket with a metric in it. -/
def youngestBelow : AggregationScript :=
  .subAggregate "youngest" (.metric .min [.member "age"] .done) .done

/-- A script that configures a bucket, then sets a metric, and then configures another bucket. -/
def bucketAgain : AggregationScript :=
  .bucketFilter (.leaf .matchAll .done .done)
    (.metric .max [.member "age"] (.isBucket youngestBelow))

theorem run_eq_run_of_isLastPeriod_bucketAgain :
  IsLastPeriod youngestBelow.changes bucketAgain.changes
    ∧ (bucketAgain.run (.unconfigured ["people"]) .empty).1
      = (youngestBelow.run (.unconfigured ["people"]) .empty).1
  := by
  have hlast : IsLastPeriod youngestBelow.changes bucketAgain.changes :=
    .bucketAfter [.bucketFilter (.leaf .matchAll .done .done)] .max [.member "age"]
      (by simp [changes, youngestBelow]) (by simp [changes, youngestBelow, IsMetric])
  obtain ⟨-, hrun⟩ := bucketAgain.run_eq_run_of_isLastPeriod ["people"] .empty .empty
  exact ⟨hlast, hrun _ hlast⟩

end AggregationScript

end FilteredSearch
