import FilteredSearch.Aggregation.Basic
import FilteredSearch.MetricSession

/-!
# Aggregation scripts

An aggregation script is the row of calls made on an aggregation.  Running it changes the
aggregation and the transcript, and collects the handles on the metrics that were set.  A
further aggregation that is configured by name is created when there is none of that name, and
the filter of a bucket is created when it is first configured.
-/

namespace FilteredSearch

/-- A row of calls on an aggregation. -/
inductive AggregationScript where
  | done
  /-- Sets a metric. -/
  | metric (kind : MetricKind) (field : Accessor) (rest : AggregationScript)
  /-- Configures a further aggregation. -/
  | subAggregate (name : String) (body rest : AggregationScript)
  /-- Configures the filter of the bucket. -/
  | bucketFilter (body : FilterScript) (rest : AggregationScript)
  /-- Asks for the name. -/
  | name (rest : AggregationScript)
  /-- Asks whether the aggregation is a bucket. -/
  | isBucket (rest : AggregationScript)
  /-- Composes the aggregation. -/
  | compose (rest : AggregationScript)
  /-- Makes a call that no aggregation has. -/
  | unknown (name : String) (rest : AggregationScript)
deriving Inhabited

namespace AggregationScript

/-- Makes the calls of a script on an aggregation. -/
def run : AggregationScript → Aggregation → MetricSession → Aggregation × MetricSession
  | .done, aggregation, session => (aggregation, session)
  | .metric kind field rest, aggregation, session =>
    let set := aggregation.withMetric kind field
    rest.run set.value ((session.log set.entries).keep (set.value.handle kind))
  | .subAggregate childName body rest, aggregation, session =>
    let opened := aggregation.openChild childName
    let child := opened.value.child childName
    let session := (session.log opened.entries).report (.aggregation "sub_aggregate" child.name)
    let (child, session) := body.run child session
    rest.run (opened.value.putChild childName child) session
  | .bucketFilter body rest, aggregation, session =>
    let bucket := aggregation.clearMetric
    let (tree, session, _) :=
      (session.log bucket.entries).configure "bucket_filter" false body bucket.value.filter
    rest.run { bucket.value with filter := some tree }
      (session.report (.aggregation "bucket_filter" aggregation.name))
  | .name rest, aggregation, session =>
    rest.run aggregation (session.report (.aggregation "name" aggregation.name))
  | .isBucket rest, aggregation, session =>
    rest.run aggregation (session.report (.isBucket "is_bucket" aggregation.isBucket))
  | .compose rest, aggregation, session =>
    let composed := aggregation.composed
    rest.run aggregation
      ((session.log composed.entries).report (.document "compose" composed.result))
  | .unknown call rest, aggregation, session =>
    rest.run aggregation (session.report (.unsupported call))

end AggregationScript

end FilteredSearch
