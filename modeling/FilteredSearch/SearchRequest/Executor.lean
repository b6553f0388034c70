import FilteredSearch.SearchRequest.Basic

/-!
# Executing requests

An executor takes the document of a request to a search engine and comes back with a response
or an error.  Only the document of a request that composes reaches an executor, and what the
executor comes back with is the result.
-/

namespace FilteredSearch

/-- A way to a search engine, which may keep a record of the documents that it takes there. -/
structure Executor where
  answer : Json → Except SearchError (SearchResponse Json)
  records : Bool

namespace Executor

/-- The executor that has no search engine. -/
def unavailable : Executor := ⟨fun _ => .error (.notImplemented "execute"), false⟩

/-- The executor that answers every request with the response in a document. -/
def replaying (response : Json) : Executor where
  answer _ :=
    ((SearchResponse.codec .document).decode response).mapError fun error =>
      .engineFailed error.message
  records := true

/-- The executor that fails on every request. -/
def failing (reason : String) : Executor := ⟨fun _ => .error (.engineFailed reason), true⟩

end Executor

/-- What became of the execution of a request: the document handed over, if it came to that,
and the response. -/
structure Delivery where
  handed : Option Json
  result : Except SearchError (SearchResponse Json)

/-- The documents handed over of which an executor keeps a record. -/
def Delivery.recorded (delivery : Delivery) (executor : Executor) : List Json :=
  if executor.records then delivery.handed.toList else []

namespace SearchRequest

/-- Composes a request and hands the document to an executor. -/
def execute (request : SearchRequest) (executor : Executor) : Logged Delivery :=
  match request.composed.result with
  | .ok body =>
    ⟨⟨some body, executor.answer body⟩, request.composed.entries ++ [.executing]⟩
  | .error error => ⟨⟨none, .error error⟩, request.composed.entries⟩

end SearchRequest

end FilteredSearch
