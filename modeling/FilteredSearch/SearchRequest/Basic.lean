import FilteredSearch.Aggregation.Basic
import FilteredSearch.SearchRequest.PageLimit
import FilteredSearch.SortOrder

/-!
# Search requests

A request holds at most one filter and one query, aggregations by name, the length and the
start of the page asked for, and the sort directives.  It composes to one document, or to the
first error in the order: filter, query, aggregations by name, page length, sort directives.
The length and the start of the page appear in the document only when they are positive, and
only then is the length held against the limit.
-/

namespace FilteredSearch

/-- A query, given as a document. -/
structure Query where
  body : Option Json := none

/-- What a query composes to. -/
def Query.compose (query : Query) : Except SearchError Json :=
  match query.body with
  | some body => .ok body
  | none => .error (.notImplemented "query composition")

/-- A sort directive: a field to sort by, and the direction. -/
structure SortKey where
  field : Except PathFault FieldPath
  order : SortOrder

/-- The directive to sort by the field that an accessor leads to. -/
def SortKey.ofAccessor (field : Accessor) (order : SortOrder) : SortKey :=
  ⟨FieldPath.resolve field, order⟩

/-- What a sort directive composes to. -/
def SortKey.compose (directive : SortKey) : Except SearchError Json :=
  match directive.field with
  | .ok path => .ok (.singleton path.dotted (.singleton "order" (.string directive.order.name)))
  | .error fault => .error (.ofPathFault fault)

/-- A search request. -/
structure SearchRequest where
  limit : PageLimit := .standard
  filter : Option FilterTree := none
  query : Option Query := none
  aggregations : List (String × Aggregation) := []
  size : Int64 := 0
  start : Int64 := 0
  sort : List SortKey := []

namespace SearchRequest

/-- The request for everything, under a page limit. -/
def empty (limit : PageLimit) : SearchRequest := { limit }

/-- The member for the query, if there is one. -/
def composeQuery : Option Query → Except SearchError (List (String × Json))
  | some query => query.compose.map fun document => [("query", document)]
  | none => .ok []

/-- The member for the length of the page, if it is positive. -/
def composeSize (limit : PageLimit) (size : Int64) : Except SearchError (List (String × Json)) :=
  if 0 < size then (limit.check size).map fun _ => [("size", .ofInt64 size)] else .ok []

/-- The member for the start of the page, if it is positive. -/
def startMember (start : Int64) : List (String × Json) :=
  if 0 < start then [("from", .ofInt64 start)] else []

/-- The member for the sort directives, if there are any. -/
def composeSort (sort : List SortKey) : Except SearchError (List (String × Json)) :=
  if sort.isEmpty then .ok []
  else (sort.mapM SortKey.compose).map fun documents => [("sort", .array documents)]

/-- The document of a request, from what its parts compose to. -/
def document (request : SearchRequest) (filter query aggregations size sort :
    List (String × Json)) : Json :=
  .ofMembers
    (("query", .singleton "filtered" (.ofMembers (filter ++ query)))
      :: Aggregation.membersIfAny "aggs" aggregations ++ size ++ startMember request.start ++ sort)

/-- What a request composes to, with the log. -/
def composed (request : SearchRequest) : Composed Json := do
  let filter ← Aggregation.composedFilter request.filter
  let query ← Composed.ofExcept (composeQuery request.query)
  let aggregations ← Aggregation.composedMembers request.aggregations
  let size ← Composed.ofExcept (composeSize request.limit request.size)
  let sort ← Composed.ofExcept (composeSort request.sort)
  Composed.write (.composedRequest request.filter.isSome request.query.isSome
    request.aggregations.length request.sort.length)
  return request.document filter query aggregations size sort

/-- What a request composes to. -/
def compose (request : SearchRequest) : Except SearchError Json := request.composed.result

/-- The parts of a request are composed in one order, and the first error is the result. -/
theorem compose_eq (request : SearchRequest) :
  request.compose = do
    let filter ← Aggregation.composeFilter request.filter
    let query ← composeQuery request.query
    let aggregations ← Aggregation.composeMembers request.aggregations
    let size ← composeSize request.limit request.size
    let sort ← composeSort request.sort
    return request.document filter query aggregations size sort
  := by
  simp only [compose, composed, Composed.result_bind, Composed.result_pure,
    Composed.result_ofExcept, Composed.result_write, Aggregation.composeFilter,
    Aggregation.composeMembers]
  rfl

end SearchRequest

end FilteredSearch
