import FilteredSearch.FilterTree.Basic
import FilteredSearch.Log

/-!
# Growing a filter tree

Nodes are only ever put at the end of the tree and below a node that is there already, so the
number of a node and its parent never change.  Every node put into the tree is logged.
-/

namespace FilteredSearch

/-- Puts a child behind the children of a node. -/
def Node.adopt (node : Node) (child : Nat) : Node :=
  { node with children := node.children ++ [child] }

/-- Puts a condition behind the conditions of a chain. -/
def Node.register (node : Node) (condition : Nat) : Node :=
  match node.kind with
  | .chain membership =>
    { node with
      kind := .chain { membership with conditions := membership.conditions ++ [condition] } }
  | _ => node

namespace FilterTree

/-- The tree with one more node, the last child of its parent. -/
def append (tree : FilterTree) (parent : Nat) (kind : NodeKind) : FilterTree :=
  ⟨(tree.nodes.modify parent fun node => node.adopt tree.size).push
    ⟨some parent, [], kind⟩⟩

/-- Puts a node below a parent. -/
def addNode (tree : FilterTree) (parent : Nat) (kind : NodeKind) : Logged FilterTree :=
  ⟨tree.append parent kind, [.attached tree.size parent]⟩

/-- The clauses of the bool filter that is put into the tree next. -/
def nextClauses (tree : FilterTree) : Clauses :=
  ⟨tree.size + 1, tree.size + 2, tree.size + 3⟩

/-- Puts a bool filter with its three clauses below a parent. -/
def addBool (tree : FilterTree) (parent : Nat) : Logged FilterTree := do
  let bool := tree.size
  let tree ← tree.addNode parent (.bool tree.nextClauses)
  let tree ← tree.addNode bool (.clause bool .must)
  let tree ← tree.addNode bool (.clause bool .mustNot)
  tree.addNode bool (.clause bool .should)

/-- The root of the chain that an and-filter or or-filter below a parent joins: that of the
parent, if it is in a chain with the same connective. -/
def joinedRoot? (tree : FilterTree) (parent : Nat) (connective : Connective) : Option Nat :=
  match tree.kind? parent with
  | some (.chain membership) =>
    if membership.connective = connective then some membership.root else none
  | _ => none

/-- The tree in which a condition is registered with the root of its chain. -/
def addCondition (tree : FilterTree) (chainRoot condition : Nat) : FilterTree :=
  ⟨tree.nodes.modify chainRoot fun node => node.register condition⟩

/-- Puts an and-filter or or-filter below a parent, as the next condition of the chain that it
joins or as the first condition of its own chain. -/
def addChain (tree : FilterTree) (parent : Nat) (connective : Connective) :
    Logged FilterTree := do
  let id := tree.size
  let chainRoot := (tree.joinedRoot? parent connective).getD id
  let tree ← tree.addNode parent (.chain ⟨connective, chainRoot, []⟩)
  return tree.addCondition chainRoot id

@[simp]
theorem size_append (tree : FilterTree) (parent : Nat) (kind : NodeKind) :
  (tree.append parent kind).size = tree.size + 1
  := by
  simp [append, size]

@[simp]
theorem size_addCondition (tree : FilterTree) (chainRoot condition : Nat) :
  (tree.addCondition chainRoot condition).size = tree.size
  := by
  simp [addCondition, size]

@[simp]
theorem size_addNode (tree : FilterTree) (parent : Nat) (kind : NodeKind) :
  (tree.addNode parent kind).value.size = tree.size + 1
  := size_append tree parent kind

@[simp]
theorem size_addBool (tree : FilterTree) (parent : Nat) :
  (tree.addBool parent).value.size = tree.size + 4
  := by
  simp [addBool]

@[simp]
theorem size_addChain (tree : FilterTree) (parent : Nat) (connective : Connective) :
  (tree.addChain parent connective).value.size = tree.size + 1
  := by
  simp [addChain]

/-- A node put into the tree is found under its number, an older one has at most gained a
child. -/
theorem getElem?_append (tree : FilterTree) (parent : Nat) (kind : NodeKind) (id : Nat) :
  (tree.append parent kind).nodes[id]? =
    if id = tree.size then some ⟨some parent, [], kind⟩
    else if id = parent then tree.nodes[id]?.map fun node => node.adopt tree.size
    else tree.nodes[id]?
  := by
  simp only [append, Array.getElem?_push, Array.size_modify, Array.getElem?_modify, size]
  by_cases hnew : id = tree.nodes.size
  · simp [hnew]
  · by_cases hparent : parent = id
    · simp [hnew, hparent]
    · simp [hnew, hparent, Ne.symm hparent]

end FilterTree

end FilteredSearch
