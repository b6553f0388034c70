import FilteredSearch.MetricResult
import FilteredSearch.Proofs.Decode.Widened
import FilteredSearch.Response

/-!
# Reading responses back

Responses and the results of metrics are read back from the documents they are written to, and also
when the search engine puts members of its own into the objects that stand for records.
-/

namespace FilteredSearch

open Record Widening

/-! ### Responses -/

namespace Shards

/-- Shards with further members. -/
def widening : Widening := .record (plain ["total", "successful", "failed"])

theorem readsBack (shards : Shards) :
  Shards.codec.ReadsBack widening shards
  := by
  apply ReadsBack.codec _ rfl (by decide)
  change ReadsBack _ _ shards (mk shards.total shards.successful shards.failed)
  refine (ReadsBack.map mk ?_).seq ?_ |>.seq ?_
  all_goals
    apply readsBack_plainField
    apply Codec.unsigned_decodesTo

end Shards

section Sources

variable {α : Type} {source : Codec α}

namespace Hit

/-- A document found with further members, but with the same source. -/
def widening : Widening := .record (plain ["_index", "_type", "_id", "_source"])

theorem readsBack {hit : Hit α} (hsource : source.DecodesTo hit.source) :
  (Hit.codec source).ReadsBack widening hit
  := by
  apply ReadsBack.codec _ rfl (by decide)
  change ReadsBack _ _ hit (mk hit.index hit.type hit.id hit.source)
  refine (ReadsBack.map mk ?_).seq ?_ |>.seq ?_ |>.seq (readsBack_plainField hsource)
  all_goals
    apply readsBack_plainField
    apply Codec.string_decodesTo

end Hit

namespace Hits

/-- Documents found with further members, around them and in each of them. -/
def widening : Widening := .record [("total", .exact), ("hits", .rows Hit.widening)]

theorem readsBack {hits : Hits α} (hsources : ∀ hit ∈ hits.hits, source.DecodesTo hit.source) :
  (Hits.codec source).ReadsBack widening hits
  := by
  have hhits : (Codec.list (Hit.codec source)).ReadsBack (.rows Hit.widening) hits.hits :=
    Codec.list_readsBack fun hit hhit => Hit.readsBack (hsources hit hhit)
  apply ReadsBack.codec _ rfl (by decide)
  change ReadsBack _ _ hits (mk hits.total hits.hits)
  refine (ReadsBack.map mk (readsBack_field ?_)).seq (readsBack_field ?_)
  · simpa using (Codec.unsigned_decodesTo hits.total).readsBack
  · simpa using hhits

end Hits

namespace SearchResponse

/-- A response with further members at any depth, but with the same sources and results of
aggregations. -/
def widening : Widening :=
  .record [("_shards", Shards.widening), ("hits", Hits.widening), ("aggregations", .exact)]

theorem readsBack {response : SearchResponse α}
    (hsources : ∀ hit ∈ response.hits.hits, source.DecodesTo hit.source)
    (haggregations : (Json.object response.aggregations).IsCanonical) :
  (SearchResponse.codec source).ReadsBack widening response
  := by
  apply ReadsBack.codec _ rfl (by decide)
  change ReadsBack _ _ response (mk response.shards response.hits response.aggregations)
  refine (ReadsBack.map mk (readsBack_field ?_)).seq (readsBack_field ?_)
    |>.seq (readsBack_field ?_)
  · simpa using response.shards.readsBack
  · simpa using Hits.readsBack hsources
  · simpa using (Codec.members_decodesTo haggregations).readsBack

end SearchResponse

end Sources

/-! ### Results of metrics -/

/-- The double is finite, if it is there. -/
def FiniteIfAny (value : Option Float) : Prop := ∀ number, value = some number → number.isFinite = true

theorem optionalDouble_readsBack {σ : Type} {names : List String} {name : String}
    {get : σ → Option Float} {record : σ} (h : FiniteIfAny (get record)) :
  (optionalDouble name get).ReadsBack (plain names) record (get record)
  := by
  apply readsBack_plainField
  cases hget : get record with
  | none => rfl
  | some number =>
    apply Codec.nullable_decodesTo (Codec.double_decodesTo (h number hget))
    simp [Codec.double, Codec.scalar, Json.ofFloat, Number.ofFloat?, h number hget]

namespace SingleValueMetric

/-- A single value with further members. -/
def widening : Widening := .record (plain ["value"])

theorem readsBack {result : SingleValueMetric} (h : FiniteIfAny result.value) :
  SingleValueMetric.codec.ReadsBack widening result
  := by
  apply ReadsBack.codec _ rfl (by decide)
  apply ReadsBack.map mk (optionalDouble_readsBack h)

end SingleValueMetric

namespace StatsResult

/-- Every number of the result is finite. -/
structure IsFinite (result : StatsResult) : Prop where
  min : FiniteIfAny result.min
  max : FiniteIfAny result.max
  avg : FiniteIfAny result.avg
  sum : result.sum.isFinite = true

/-- A `stats` result with further members. -/
def widening : Widening := .record (plain ["count", "min", "max", "avg", "sum"])

theorem readsBack {result : StatsResult} (h : result.IsFinite) :
  StatsResult.codec.ReadsBack widening result
  := by
  apply ReadsBack.codec _ rfl (by decide)
  change ReadsBack _ _ result (mk result.count result.min result.max result.avg result.sum)
  refine (ReadsBack.map mk (readsBack_plainField (Codec.unsigned_decodesTo _))).seq
    (optionalDouble_readsBack h.min) |>.seq (optionalDouble_readsBack h.max)
    |>.seq (optionalDouble_readsBack h.avg)
    |>.seq (readsBack_plainField (Codec.double_decodesTo h.sum))

end StatsResult

namespace ExtendedStatsResult

/-- Every number of the result is finite. -/
structure IsFinite (result : ExtendedStatsResult) : Prop where
  min : FiniteIfAny result.min
  max : FiniteIfAny result.max
  avg : FiniteIfAny result.avg
  sum : result.sum.isFinite = true
  sumOfSquares : FiniteIfAny result.sumOfSquares
  variance : FiniteIfAny result.variance
  stdDeviation : FiniteIfAny result.stdDeviation
  upper : FiniteIfAny result.upper
  lower : FiniteIfAny result.lower

/-- An `extended_stats` result with further members. -/
def widening : Widening :=
  .record (plain ["count", "min", "max", "avg", "sum", "sum_of_squares", "variance",
    "std_deviation", "upper", "lower"])

theorem readsBack {result : ExtendedStatsResult} (h : result.IsFinite) :
  ExtendedStatsResult.codec.ReadsBack widening result
  := by
  apply ReadsBack.codec _ rfl (by decide)
  change ReadsBack _ _ result (mk result.count result.min result.max result.avg result.sum
    result.sumOfSquares result.variance result.stdDeviation result.upper result.lower)
  refine (ReadsBack.map mk (readsBack_plainField (Codec.unsigned_decodesTo _))).seq
    (optionalDouble_readsBack h.min) |>.seq (optionalDouble_readsBack h.max)
    |>.seq (optionalDouble_readsBack h.avg)
    |>.seq (readsBack_plainField (Codec.double_decodesTo h.sum))
    |>.seq (optionalDouble_readsBack h.sumOfSquares)
    |>.seq (optionalDouble_readsBack h.variance)
    |>.seq (optionalDouble_readsBack h.stdDeviation)
    |>.seq (optionalDouble_readsBack h.upper)
    |>.seq (optionalDouble_readsBack h.lower)

end ExtendedStatsResult

/-! ### All of them -/

end FilteredSearch
