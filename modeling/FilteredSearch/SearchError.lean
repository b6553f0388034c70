import FilteredSearch.Family
import FilteredSearch.FieldPath

/-!
# Search errors

The ways in which building, composing, running and reading a search fails, each with its
wording.
-/

namespace FilteredSearch

/-- A failure of a search. -/
inductive SearchError where
  /-- No filter of a family encloses the filter. -/
  | noEnclosingFamily
  /-- A filter that composes at most so many filters has more. -/
  | tooManyFilters (allowed found : Nat)
  /-- A member of a family that is not its root was to be composed. -/
  | notFamilyRoot (family : Family)
  /-- Filters were put on a bool filter itself and not on one of its clauses. -/
  | misplacedFilters (found : Nat)
  /-- The tree has no node of that number. -/
  | unknownNode (node : Nat)
  /-- An accessor does not lead to a field. -/
  | noFieldPath (reason : String)
  /-- An operation has no implementation. -/
  | notImplemented (operation : String)
  /-- The requested page is longer than the longest one allowed. -/
  | pageTooLong (size max : Int64)
  /-- The response has no result for the aggregation. -/
  | noAggregationResult (aggregation : String)
  /-- The result of an aggregation has another shape. -/
  | unreadableResult (reason : String)
  /-- A value could not be carried between a document and its text. -/
  | conversion (reason : String)
  /-- The search engine failed. -/
  | engineFailed (reason : String)
deriving DecidableEq

namespace SearchError

/-- More than one filter where at most one is composed. -/
def moreThanOne (found : Nat) : SearchError := .tooManyFilters 1 found

/-- The failure of a filter whose accessor has a fault. -/
def ofPathFault (fault : PathFault) : SearchError := .noFieldPath fault.message

/-- The wording of a failure. -/
def message : SearchError → String
  | .noEnclosingFamily => "Navigation error: no enclosing rooted filter found"
  | .tooManyFilters allowed found =>
    "Composition arity error: expected at most " ++ toString allowed
      ++ " child filter(s), found " ++ toString found
  | .notFamilyRoot family =>
    "Unsupported root composition: only the root of a " ++ family.key
      ++ " filter may be composed"
  | .misplacedFilters found =>
    "Misplaced bool filter: " ++ toString found
      ++ " filter(s) outside must, must_not and should"
  | .unknownNode node => "Unknown filter node: " ++ toString node
  | .noFieldPath reason => "Unresolvable property path: " ++ reason
  | .notImplemented operation => "Not implemented: " ++ operation
  | .pageTooLong size max =>
    "Page size " ++ toString size.toInt ++ " exceeds maximum " ++ toString max.toInt
  | .noAggregationResult aggregation => "Aggregation not found: " ++ aggregation
  | .unreadableResult reason => "Result parse error: " ++ reason
  | .conversion reason => "Serialization error: " ++ reason
  | .engineFailed reason => "Execution error: " ++ reason

end SearchError

end FilteredSearch
