import FilteredSearch.Aggregation.Script
import FilteredSearch.SearchRequest.Executor

/-!
# Request scripts

A call on a request configures one of its parts, composes it or executes it.  A filter that is
configured with a possible failure keeps what was built before the failure.
-/

namespace FilteredSearch

/-- A call on a query. -/
inductive QueryCall where
  /-- Gives the query as a document. -/
  | raw (body : Json)
  /-- Composes the query. -/
  | compose
  /-- Makes a call that no query has. -/
  | unknown (name : String)

/-- A call on a request. -/
inductive RequestCall where
  /-- Configures the filter. -/
  | filter (body : FilterScript)
  /-- Configures the filter until the first failure. -/
  | tryFilter (body : FilterScript)
  /-- Configures the query. -/
  | query (body : List QueryCall)
  /-- Configures the aggregation with a name. -/
  | aggregate (name : String) (body : AggregationScript)
  /-- Sets the length of the page. -/
  | take (amount : Int64)
  /-- Sets the start of the page. -/
  | skip (amount : Int64)
  /-- Sorts by a field, after the fields sorted by before. -/
  | sort (field : Accessor) (order : SortOrder)
  /-- Composes the request. -/
  | compose
  /-- Composes the request and writes the text. -/
  | toText
  /-- Executes the request. -/
  | execute (executor : Executor)
  /-- Makes a call that no request has. -/
  | unknown (name : String)

/-- Makes a call on a query. -/
def QueryCall.run (query : Query) (session : MetricSession) :
    QueryCall → Query × MetricSession
  | .raw body => (⟨some body⟩, session)
  | .compose => (query, session.report (.document "compose" query.compose))
  | .unknown name => (query, session.report (.unsupported name))

/-- Makes a call on a request. -/
def RequestCall.run (request : SearchRequest) (session : MetricSession) :
    RequestCall → SearchRequest × MetricSession
  | .filter body =>
    let (tree, session, _) := session.configure "filter" false body request.filter
    ({ request with filter := some tree }, session)
  | .tryFilter body =>
    let (tree, session, stopped) := session.configure "try_filter" true body request.filter
    let result := match stopped with
      | some error => .error error
      | none => .ok ()
    ({ request with filter := some tree }, session.report (.outcome "try_filter" result))
  | .query body =>
    let (configured, session) :=
      body.foldl (fun (current, session) call => call.run current session)
        (request.query.getD {}, session)
    ({ request with query := some configured }, session)
  | .aggregate name body =>
    let aggregation := (Keyed.find? name request.aggregations).getD (.unconfigured [name])
    let (aggregation, session) :=
      body.run aggregation (session.report (.enteredAggregation "aggregate" name))
    ({ request with aggregations := Keyed.insert name aggregation request.aggregations },
      session)
  | .take amount => ({ request with size := amount }, session)
  | .skip amount => ({ request with start := amount }, session)
  | .sort field order =>
    ({ request with sort := request.sort ++ [.ofAccessor field order] }, session)
  | .compose =>
    let composed := request.composed
    (request, (session.log composed.entries).report (.document "compose" composed.result))
  | .toText =>
    let composed := request.composed
    (request, (session.log composed.entries).report
      (.text "to_json" (composed.result.map Json.toText)))
  | .execute executor =>
    let delivery := request.execute executor
    let session := session.log delivery.entries
    let result := delivery.value.result
    (request, session.report
      (.execution "execute" (delivery.value.recorded executor)
        (result.map (SearchResponse.codec .document).encode)
        (result.toOption.map session.reads)))
  | .unknown name => (request, session.report (.unsupported name))

/-- Makes calls on a request, one after the other. -/
def RequestCall.runAll (calls : List RequestCall) (request : SearchRequest)
    (session : MetricSession) : SearchRequest × MetricSession :=
  calls.foldl (fun (current, session) call => call.run current session) (request, session)

end FilteredSearch
