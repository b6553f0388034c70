import FilteredSearch.Decode.Record

/-!
# Metric results

What a search engine reports for the metrics of an aggregation.  A metric over an empty bucket
has no value.
-/

namespace FilteredSearch

/-- The result of a metric with a single value. -/
structure SingleValueMetric where
  value : Option Float := none

/-- The result of a `stats` metric. -/
structure StatsResult where
  count : UInt64 := 0
  min : Option Float := none
  max : Option Float := none
  avg : Option Float := none
  sum : Float := 0

/-- The result of an `extended_stats` metric. -/
structure ExtendedStatsResult where
  count : UInt64 := 0
  min : Option Float := none
  max : Option Float := none
  avg : Option Float := none
  sum : Float := 0
  sumOfSquares : Option Float := none
  variance : Option Float := none
  stdDeviation : Option Float := none
  upper : Option Float := none
  lower : Option Float := none

/-- A double that may be missing or null. -/
def optionalDouble {σ : Type} (name : String) (get : σ → Option Float) :
    Record σ (Option Float) :=
  .field name (.nullable .double) get .optional

/-- The codec of results with a single value. -/
def SingleValueMetric.codec : Codec SingleValueMetric :=
  Record.codec (SingleValueMetric.mk <$> optionalDouble "value" (·.value)) "SingleValueMetric"

/-- The codec of `stats` results. -/
def StatsResult.codec : Codec StatsResult :=
  Record.codec
    (StatsResult.mk
      <$> .field "count" .unsigned (·.count)
      <*> optionalDouble "min" (·.min)
      <*> optionalDouble "max" (·.max)
      <*> optionalDouble "avg" (·.avg)
      <*> .field "sum" .double (·.sum))
    "StatsResult"

namespace ExtendedStatsResult

/-- The codec of `extended_stats` results with the bounds beside the other fields. -/
def codec : Codec ExtendedStatsResult :=
  Record.codec
    (ExtendedStatsResult.mk
      <$> .field "count" .unsigned (·.count)
      <*> optionalDouble "min" (·.min)
      <*> optionalDouble "max" (·.max)
      <*> optionalDouble "avg" (·.avg)
      <*> .field "sum" .double (·.sum)
      <*> optionalDouble "sum_of_squares" (·.sumOfSquares)
      <*> optionalDouble "variance" (·.variance)
      <*> optionalDouble "std_deviation" (·.stdDeviation)
      <*> optionalDouble "upper" (·.upper)
      <*> optionalDouble "lower" (·.lower))
    "ExtendedStatsResult"

/-- The bounds of a standard deviation. -/
structure DeviationBounds where
  upper : Option Float
  lower : Option Float

/-- The codec of the bounds of a standard deviation. -/
def DeviationBounds.codec : Codec DeviationBounds :=
  Record.codec
    (DeviationBounds.mk <$> optionalDouble "upper" (·.upper) <*> optionalDouble "lower" (·.lower))
    "Bounds"

/-- The result with the bounds that a search engine reports apart. -/
def ofEngine (count : UInt64) (min max avg : Option Float) (sum : Float)
    (sumOfSquares variance stdDeviation : Option Float) (bounds : Option DeviationBounds) :
    ExtendedStatsResult :=
  ⟨count, min, max, avg, sum, sumOfSquares, variance, stdDeviation, bounds.bind (·.upper),
    bounds.bind (·.lower)⟩

/-- The codec of `extended_stats` results with the bounds in an object of their own, as a search
engine reports them. -/
def engineCodec : Codec ExtendedStatsResult :=
  Record.codec
    (ofEngine
      <$> .field "count" .unsigned (·.count)
      <*> optionalDouble "min" (·.min)
      <*> optionalDouble "max" (·.max)
      <*> optionalDouble "avg" (·.avg)
      <*> .field "sum" .double (·.sum)
      <*> optionalDouble "sum_of_squares" (·.sumOfSquares)
      <*> optionalDouble "variance" (·.variance)
      <*> optionalDouble "std_deviation" (·.stdDeviation)
      <*> .field "std_deviation_bounds" (.nullable DeviationBounds.codec)
        (fun result => some ⟨result.upper, result.lower⟩) .optional)
    "RawExtendedStats"

end ExtendedStatsResult

/-- The shapes of metric results. -/
inductive ResultShape where
  | single
  | stats
  | extended
deriving DecidableEq

/-- The results of a shape. -/
abbrev ResultShape.Result : ResultShape → Type
  | .single => SingleValueMetric
  | .stats => StatsResult
  | .extended => ExtendedStatsResult

/-- The codec in which results of a shape are answered. -/
def ResultShape.codec : (shape : ResultShape) → Codec shape.Result
  | .single => SingleValueMetric.codec
  | .stats => StatsResult.codec
  | .extended => ExtendedStatsResult.codec

/-- Reads a result of a shape as a search engine reports it. -/
def ResultShape.read : (shape : ResultShape) → Json → Except DecodeError shape.Result
  | .single => SingleValueMetric.codec.decode
  | .stats => StatsResult.codec.decode
  | .extended => ExtendedStatsResult.engineCodec.decode

end FilteredSearch
