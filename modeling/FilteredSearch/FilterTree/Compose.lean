import FilteredSearch.FilterTree.Basic
import FilteredSearch.Json.Writer
import FilteredSearch.Log

/-!
# Composing a filter tree

A node composes to a filter document, or to the first error met on the walk below it.  A scope
composes at most one child.  A bool filter composes at most one filter in each of its clauses
and none outside them; the root of a chain composes at most one filter in each of its
conditions, where a member of the same chain does not count as a filter.  A clause, and a
member of a chain besides its root, are composed only as parts of their families.

The walk may be taken in any monad with search errors, so that a walk that keeps a record of
what it does is the same walk.  Every node that is composed on behalf of a node has a greater
number, so the walk ends.
-/

namespace FilteredSearch

section

variable {m : Type → Type} [Monad m] [MonadExcept SearchError m]

/-- What at most one of the nodes composes to; more than one is an arity error. -/
def composeSole? (compose : Nat → m Json) : List Nat → m (Option Json)
  | [] => return none
  | [only] => return some (← compose only)
  | many => throw (.moreThanOne many.length)

/-- What a computation came to, as a value. -/
def outcome (x : m Json) : m (Except SearchError Json) :=
  tryCatch (do return .ok (← x)) fun error => return .error error

end

namespace FilterTree

section

variable {m : Type → Type} [Monad m] [MonadExcept SearchError m]

/-- What at most one of the nodes composes to, or the empty object without a node. -/
def composeOnly (compose : Nat → m Json) (ids : List Nat) : m Json := do
  return (← composeSole? compose ids).getD (.object [])

/-- The number of children that are none of the clauses. -/
def misplaced (clauses : Clauses) (children : List Nat) : Nat :=
  children.countP fun child => !clauses.contains child

/-- What a bool filter composes to. -/
def composeClauses (tree : FilterTree) (compose : Nat → m Json) (children : List Nat)
    (clauses : Clauses) : m Json := do
  let found := misplaced clauses children
  if 0 < found then throw (.misplacedFilters found)
  else
    let members ← Clause.all.mapM fun clause => do
      let children ← MonadExcept.ofExcept (tree.children (clauses.get clause))
      let document? ← composeSole? compose children
      return document?.map fun document => (clause.key, document)
    return .singleton "bool" (.ofMembers (members.filterMap id))

/-- The node is a member of the chain. -/
def isMember (tree : FilterTree) (chain : Chain) (id : Nat) : Bool :=
  match tree.kind? id with
  | some (.chain other) => other.connective = chain.connective && other.root = chain.root
  | _ => false

/-- What the root of a chain composes to. -/
def composeConditions (tree : FilterTree) (compose : Nat → m Json) (chain : Chain) : m Json := do
  let documents ← chain.conditions.mapM fun condition => do
    let children ← MonadExcept.ofExcept (tree.children condition)
    composeSole? compose (children.filter fun child => !tree.isMember chain child)
  return .singleton chain.connective.key (.array (documents.filterMap id))

/-- What a node composes to, given what the nodes after it compose to. -/
def composeUsing (tree : FilterTree) (compose : Nat → m Json) (id : Nat) (node : Node) :
    m Json :=
  match node.kind with
  | .scope => composeOnly compose node.children
  | .fragment document => return document
  | .faulty fault => throw (.ofPathFault fault)
  | .negation => return .singleton "not" (← composeOnly compose node.children)
  | .custom composer => do
    let parts ← node.children.mapM fun child => outcome (compose child)
    MonadExcept.ofExcept (composer ⟨id, node.parent, node.children, tree.size, parts⟩)
  | .nested path => do
    let document ← composeOnly compose node.children
    return .singleton "nested"
      (.ofMembers [("path", .string path.dotted), ("filter", document)])
  | .bool clauses => tree.composeClauses compose node.children clauses
  | .clause _ _ => throw (.notFamilyRoot .bool)
  | .chain membership =>
    if membership.root = id then tree.composeConditions compose membership
    else throw (.notFamilyRoot (.chain membership.connective))

end

/-- What a node composes to.  A node that is not after the one on whose behalf it is composed
is unknown to it. -/
def composeAt (tree : FilterTree) (id : Nat) : Except SearchError Json :=
  match _h : tree.nodes[id]? with
  | none => .error (.unknownNode id)
  | some node =>
    tree.composeUsing (fun later => if id < later then tree.composeAt later
      else .error (.unknownNode later)) id node
termination_by tree.size - id
decreasing_by
  have := (Array.getElem?_eq_some_iff.1 _h).1
  simp only [size]
  omega

/-- What the nodes after a node compose to; to the node, the others are unknown. -/
def composeAfter (tree : FilterTree) (id later : Nat) : Except SearchError Json :=
  if id < later then tree.composeAt later else .error (.unknownNode later)

theorem composeAt_of_node {tree : FilterTree} {id : Nat} {node : Node}
    (h : tree.nodes[id]? = some node) :
  tree.composeAt id = tree.composeUsing (tree.composeAfter id) id node
  := by
  rw [composeAt]
  split
  · next hnone => simp [h] at hnone
  · next node' hsome =>
    obtain rfl : node = node' := Option.some.inj (h.symm.trans hsome)
    rfl

theorem composeAt_of_size_le {tree : FilterTree} {id : Nat} (h : tree.size ≤ id) :
  tree.composeAt id = .error (.unknownNode id)
  := by
  rw [composeAt]
  split
  · rfl
  · next node hsome =>
    have := (Array.getElem?_eq_some_iff.1 hsome).1
    exact absurd h (Nat.not_le.2 this)

/-- What the only child of a node composes to: the empty object without a child, and an arity
error with more than one. -/
def composeOnlyChild (tree : FilterTree) (id : Nat) : Except SearchError Json := do
  composeOnly tree.composeAt (← tree.children id)

/-- What the children of a node compose to, or the first error among them. -/
def composeEachChild (tree : FilterTree) (id : Nat) : Except SearchError (List Json) := do
  (← tree.children id).mapM tree.composeAt

/-- What the top scope composes to, with the log. -/
def composed (tree : FilterTree) : Composed Json := do
  Composed.write (.composingTree tree.size)
  Composed.ofExcept (tree.composeAt root)

/-- What the top scope composes to. -/
def compose (tree : FilterTree) : Except SearchError Json := tree.composed.result

/-- The text of what the top scope composes to. -/
def toText (tree : FilterTree) : Except SearchError String := tree.compose.map Json.toText

theorem compose_eq (tree : FilterTree) :
  tree.compose = tree.composeAt root
  := by
  rw [compose, composed, Composed.result_bind]
  rfl

end FilterTree

end FilteredSearch
