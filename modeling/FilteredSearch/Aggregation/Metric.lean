import FilteredSearch.MetricKind
import FilteredSearch.MetricResult
import FilteredSearch.Response
import FilteredSearch.SearchError

/-!
# Metric handles

Setting a metric gives a handle on it, which reads the result of the metric from a response.
The handle holds the names of the aggregations from the outermost one to that of the metric,
and the result is found by following them in the response.
-/

namespace FilteredSearch

/-- The shape of the results of a metric. -/
def MetricKind.shape : MetricKind → ResultShape
  | .min | .max | .sum | .avg | .count => .single
  | .stats => .stats
  | .extendedStats => .extended

/-- Reads a result of a shape; a result of another shape is an error. -/
def ResultShape.parse (shape : ResultShape) (document : Json) :
    Except SearchError shape.Result :=
  (shape.read document).mapError fun error => .unreadableResult error.message

/-- A handle on a metric. -/
structure Metric where
  path : List String
  kind : MetricKind

namespace Metric

/-- The name of the aggregation of the metric. -/
def name (metric : Metric) : String := metric.path.getLast?.getD ""

/-- The document found by following names from a document. -/
def follow? (document : Json) : List String → Option Json
  | [] => some document
  | name :: names => (document.member? name).bind fun document => follow? document names

/-- The document that a response holds for the metric. -/
def find? {α : Type} (metric : Metric) (response : SearchResponse α) : Option Json :=
  match metric.path with
  | [] => none
  | name :: names => (response.aggregation? name).bind fun document => follow? document names

/-- Reads the result of the metric from a response. -/
def read {α : Type} (metric : Metric) (response : SearchResponse α) :
    Except SearchError metric.kind.shape.Result :=
  match metric.find? response with
  | some document => metric.kind.shape.parse document
  | none => .error (.noAggregationResult (Text.joinDots metric.path))

/-- Reads the result of the metric from a response, as a document. -/
def readDocument {α : Type} (metric : Metric) (response : SearchResponse α) :
    Except SearchError Json :=
  (metric.read response).map metric.kind.shape.codec.encode

end Metric

end FilteredSearch
