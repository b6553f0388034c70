/-!
# Filter families

Some filters are built from several nodes and composed as one: a bool filter with its clauses,
and a chain of and-filters or of or-filters, which are put one below the other and composed as
one list of conditions.  The nodes are a family, and only one of them, the root, is composed on
its own.
-/

namespace FilteredSearch

/-- What joins the conditions of a chain. -/
inductive Connective where
  | and
  | or
deriving DecidableEq

/-- The name of a connective in a filter document. -/
def Connective.key : Connective → String
  | .and => "and"
  | .or => "or"

/-- A kind of family. -/
inductive Family where
  | bool
  | chain (connective : Connective)
deriving DecidableEq

/-- The name of a family in a filter document. -/
def Family.key : Family → String
  | .bool => "bool"
  | .chain connective => connective.key

end FilteredSearch
