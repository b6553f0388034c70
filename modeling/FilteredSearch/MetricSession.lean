import FilteredSearch.Aggregation.Metric
import FilteredSearch.FilterScript.Run

/-!
# Metric sessions

The scripts of aggregations and of requests run in a session, which keeps the transcript and
the handles on the metrics that were set.  A handle reads its result in any later response, so
the session keeps every handle: `reads` lists what they read, in the order in which the metrics
were set.
-/

namespace FilteredSearch

/-- The name by which scripts set a metric. -/
def MetricKind.call : MetricKind → String
  | .count => "count"
  | kind => kind.key

/-- A transcript and the handles on the metrics set so far. -/
structure MetricSession where
  transcript : Transcript
  metrics : Array Metric

namespace MetricSession

/-- Nothing was run yet. -/
def empty : MetricSession := ⟨.empty, #[]⟩

/-- Reports an event. -/
def report (session : MetricSession) (event : Event) : MetricSession :=
  { session with transcript := session.transcript.report event }

/-- Adds entries of the log. -/
def log (session : MetricSession) (entries : List LogEntry) : MetricSession :=
  { session with transcript := session.transcript.log entries }

/-- Keeps a handle on a metric and reports it. -/
def keep (session : MetricSession) (metric : Metric) : MetricSession :=
  { session with metrics := session.metrics.push metric }.report
    (.metric metric.kind.call session.metrics.size metric.name)

/-- What the metrics read in a response. -/
def reads {α : Type} (session : MetricSession) (response : SearchResponse α) :
    List (Except SearchError Json) :=
  session.metrics.toList.map fun metric => metric.readDocument response

/-- Configures the top scope of a filter, which is created when there is none. -/
def configure (session : MetricSession) (call : String) (strict : Bool) (body : FilterScript)
    (filter : Option FilterTree) : FilterTree × MetricSession × Option SearchError :=
  let session := session.report (.entered call FilterTree.root)
  let build := body.run (.scope FilterTree.root)
    (.start (filter.getD .empty) session.transcript strict)
  (build.tree, { session with transcript := build.transcript }, build.stopped)

theorem metrics_keep (session : MetricSession) (metric : Metric) :
  (session.keep metric).metrics = session.metrics.push metric
  := rfl

end MetricSession

end FilteredSearch
