/-!
# Metric kinds

The metrics that an aggregation computes over a field, with their names in a document.
-/

namespace FilteredSearch

/-- A metric computed over a field. -/
inductive MetricKind where
  | min
  | max
  | sum
  | avg
  | count
  | stats
  | extendedStats
deriving DecidableEq

namespace MetricKind

/-- The name of a metric in a document. -/
def key : MetricKind → String
  | .min => "min"
  | .max => "max"
  | .sum => "sum"
  | .avg => "avg"
  | .count => "value_count"
  | .stats => "stats"
  | .extendedStats => "extended_stats"

/-- All metrics. -/
def all : List MetricKind := [.min, .max, .sum, .avg, .count, .stats, .extendedStats]

theorem mem_all (kind : MetricKind) :
  kind ∈ all
  := by
  cases kind <;> decide

end MetricKind

end FilteredSearch
