import FilteredSearch.Proofs.FilterTerm.Basic

/-!
# The filters of a script

A filter script whose calls only go forward says which filters are put where: below a scope, or
on a bool filter and in its clauses.  The filters are terms, so this is the script read as syntax,
without a tree.
-/

namespace FilteredSearch

/-- Filters by their place: on a bool filter itself or below a scope, or in a clause. -/
abbrev Contents := Option Clause → List FilterTerm

namespace Contents

/-- No filters. -/
def nothing : Contents := fun _ => []

/-- Filters in one place. -/
def single (place : Option Clause) (filters : List FilterTerm) : Contents :=
  fun other => if other = place then filters else []

/-- Filters followed by others in every place. -/
def append (contents more : Contents) : Contents := fun place => contents place ++ more place

@[simp]
theorem single_self {place : Option Clause} {filters : List FilterTerm} :
  single place filters place = filters
  := if_pos rfl

/-- The bool filter with the contents. -/
def toTerm (contents : Contents) : FilterTerm :=
  .bool (contents none) (contents (some .must)) (contents (some .mustNot))
    (contents (some .should))

end Contents

/-- What a handle is on: a leaf, a scope, or a place of a bool filter. -/
inductive Grip where
  | leaf
  | scope
  | bool (place : Option Clause)

/-- Filters put in place through a handle. -/
def Grip.put : Grip → List FilterTerm → Contents
  | .leaf, _ => .nothing
  | .scope, filters => .single none filters
  | .bool place, filters => .single place filters

/-- The scope with the filters below it, unless a caller composes it. -/
def Scope.toTerm : Scope → List FilterTerm → FilterTerm
  | .negation, filters => .negation filters
  | .wrap, filters | .custom _, filters => .wrap filters

namespace FilterScript

/-- The calls go forward only: none goes back, none takes a node for a part of a bool filter,
and no scope is composed by a caller. -/
def Forward : FilterScript → Prop
  | .done => True
  | .leaf _ next rest | .bool next rest => next.Forward ∧ rest.Forward
  | .scope opened next rest =>
    (∀ composer, opened ≠ .custom composer) ∧ next.Forward ∧ rest.Forward
  | .nested _ body next rest | .chain _ body next rest | .clause _ body next rest =>
    body.Forward ∧ next.Forward ∧ rest.Forward
  | .back _ _ | .asBool _ _ => False
  | .number rest | .compose rest | .toText rest | .unknown _ rest => rest.Forward

/-- The filters that the calls of a script put in place through a handle. -/
def contents : FilterScript → Grip → Contents
  | .done, _ => .nothing
  | .leaf test _ rest, grip => (grip.put [.leaf test]).append (rest.contents grip)
  | .scope opened next rest, grip =>
    (grip.put [opened.toTerm (next.contents .scope none)]).append (rest.contents grip)
  | .nested field body next rest, grip =>
    (grip.put (.nested field (body.contents .scope none) :: next.contents .scope none)).append
      (rest.contents grip)
  | .chain connective body next rest, grip =>
    (grip.put [.chain connective
      (body.contents .scope none ++ next.contents .scope none)]).append (rest.contents grip)
  | .bool next rest, grip =>
    (grip.put [(next.contents (.bool none)).toTerm]).append (rest.contents grip)
  | .clause part body next rest, .bool place =>
    ((Contents.single (some part) (body.contents .scope none)).append
      (next.contents (.bool (some part)))).append (rest.contents (.bool place))
  | .clause _ _ _ rest, grip | .back _ rest, grip | .asBool _ rest, grip | .number rest, grip
  | .compose rest, grip | .toText rest, grip | .unknown _ rest, grip => rest.contents grip

/-- The script as a term: the filters that it puts below the top scope. -/
def toTerm (script : FilterScript) : FilterTerm := .wrap (script.contents .scope none)

end FilterScript

end FilteredSearch
