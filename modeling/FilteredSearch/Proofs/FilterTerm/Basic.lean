import FilteredSearch.FilterScript.Basic

/-!
# Filter terms

A filter term is a filter as a term: filters stand within filters, in order, and nothing has a
number.  A term evaluates to a filter document or to an error, and a scope, a clause or a member
of a group evaluates at most one filter.  An and-filter directly within an and-filter joins its
group, and so does an or-filter within an or-filter; a group evaluates to one array.
-/

namespace FilteredSearch

/-- A filter with the filters within it. -/
inductive FilterTerm where
  | leaf (test : Leaf)
  | wrap (filters : List FilterTerm)
  | negation (filters : List FilterTerm)
  | nested (field : Accessor) (filters : List FilterTerm)
  /-- A bool filter, with the filters put on the bool filter itself and in its clauses. -/
  | bool (own must mustNot should : List FilterTerm)
  | chain (connective : Connective) (filters : List FilterTerm)

namespace FilterTerm

/-- What at most one filter came to; more than one is an arity error. -/
def sole? : List (Except SearchError Json) → Except SearchError (Option Json)
  | [] => .ok none
  | [only] => only.map some
  | many => .error (.moreThanOne many.length)

/-- What at most one filter came to, or the empty object without a filter. -/
def only (results : List (Except SearchError Json)) : Except SearchError Json :=
  (sole? results).map fun document? => document?.getD (.object [])

/-- What a bool filter comes to from what its clauses hold, the first error counting. -/
def ofClauses (must mustNot should : List (Except SearchError Json)) :
    Except SearchError Json := do
  let must? ← sole? must
  let mustNot? ← sole? mustNot
  let should? ← sole? should
  let members := [("must", must?), ("must_not", mustNot?), ("should", should?)]
  return .singleton "bool" (.ofMembers (members.filterMap fun member =>
    member.2.map fun document => (member.1, document)))

/-- What a group comes to from what its members hold, the first error counting. -/
def ofMembers (connective : Connective) (members : List (List (Except SearchError Json))) :
    Except SearchError Json := do
  let documents ← members.mapM sole?
  return .singleton connective.key (.array documents.reduceOption)

/-- The filter joins the group of the filter around it, given by its connective. -/
def joins (around : Option Connective) : FilterTerm → Bool
  | .chain connective _ => around = some connective
  | _ => false

theorem joins_none (term : FilterTerm) :
  term.joins none = false
  := by
  cases term <;> rfl

mutual

/-- What a filter evaluates to. -/
def eval : FilterTerm → Except SearchError Json
  | .leaf test => test.fragment.mapError .ofPathFault
  | .wrap filters => only (evalApart none filters)
  | .negation filters =>
    (only (evalApart none filters)).map fun document => .singleton "not" document
  | .nested field filters =>
    match FieldPath.resolve field with
    | .ok path => (only (evalApart none filters)).map fun document =>
      .singleton "nested" (.ofMembers [("path", .string path.dotted), ("filter", document)])
    | .error fault => .error (.ofPathFault fault)
  | .bool own must mustNot should =>
    if 0 < own.length then .error (.misplacedFilters own.length)
    else ofClauses (evalApart none must) (evalApart none mustNot) (evalApart none should)
  | .chain connective filters =>
    ofMembers connective
      (evalApart (some connective) filters :: evalMembers connective filters)

/-- What the filters evaluate to, in order, without those that join the group around them. -/
def evalApart (around : Option Connective) : List FilterTerm → List (Except SearchError Json)
  | [] => []
  | filter :: filters =>
    if filter.joins around then evalApart around filters
    else eval filter :: evalApart around filters

/-- What the members of a group hold that a filter adds to the group: first the filter itself,
then the members within it. -/
def evalMember (connective : Connective) : FilterTerm → List (List (Except SearchError Json))
  | .chain own filters =>
    if own = connective then
      evalApart (some connective) filters :: evalMembers connective filters
    else []
  | _ => []

/-- What the members of a group hold that the filters add to the group, in order. -/
def evalMembers (connective : Connective) :
    List FilterTerm → List (List (Except SearchError Json))
  | [] => []
  | filter :: filters => evalMember connective filter ++ evalMembers connective filters

end

end FilterTerm

end FilteredSearch
