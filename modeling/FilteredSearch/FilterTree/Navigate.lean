import FilteredSearch.FilterTree.Basic

/-!
# Finding the way in a filter tree

From a node the way leads up through its parents to the nearest one that belongs to a family,
and from there to the root of that family.  A parent has a smaller number than its child, so
the way ends.
-/

namespace FilteredSearch.FilterTree

/-- The clauses of the bool filter to which a node belongs. -/
def clausesOf? (tree : FilterTree) (id : Nat) : Option Clauses :=
  let bool? := match tree.kind? id with
    | some (.bool _) => some id
    | some (.clause bool _) => some bool
    | _ => none
  match bool?.bind tree.kind? with
  | some (.bool clauses) => some clauses
  | _ => none

/-- The root of the family to which a node belongs, or else its nearest ancestor in one. -/
def familyRootFrom (tree : FilterTree) (id : Nat) : Except SearchError Nat := do
  let node ← tree.node id
  match node.kind.rootOfFamily? id, node.parent with
  | some familyRoot, _ => .ok familyRoot
  | none, some parent =>
    if parent < id then tree.familyRootFrom parent else .error .noEnclosingFamily
  | none, none => .error .noEnclosingFamily
termination_by id

/-- The root of the nearest family around a node. -/
def familyRootAround (tree : FilterTree) (id : Nat) : Except SearchError Nat := do
  match ← tree.parent id with
  | some parent => tree.familyRootFrom parent
  | none => .error .noEnclosingFamily

end FilteredSearch.FilterTree
