import FilteredSearch.Leaf
import FilteredSearch.SearchError

/-!
# Filter trees

A filter tree is an array of nodes, numbered in the order in which they were put into it.  Node
zero is the top scope.  Every node knows its parent and its children, and its kind says what it
composes to.  The three clauses of a bool filter are nodes of their own and point back to the
bool; the members of an and-chain or or-chain point to the first of them, its root, and the root
lists the members as conditions, itself included, in the order in which they joined.
-/

namespace FilteredSearch

/-- A clause of a bool filter. -/
inductive Clause where
  | must
  | mustNot
  | should
deriving DecidableEq

namespace Clause

/-- The name of a clause in a filter document. -/
def key : Clause → String
  | .must => "must"
  | .mustNot => "must_not"
  | .should => "should"

/-- All clauses, in the order in which they are composed. -/
def all : List Clause := [.must, .mustNot, .should]

theorem mem_all (clause : Clause) :
  clause ∈ all
  := by
  cases clause <;> decide

end Clause

/-- The nodes of the clauses of a bool filter. -/
structure Clauses where
  must : Nat
  mustNot : Nat
  should : Nat
deriving DecidableEq

namespace Clauses

/-- The node of a clause. -/
def get (clauses : Clauses) : Clause → Nat
  | .must => clauses.must
  | .mustNot => clauses.mustNot
  | .should => clauses.should

/-- The node is one of the clauses. -/
def contains (clauses : Clauses) (id : Nat) : Bool :=
  Clause.all.any fun clause => clauses.get clause = id

end Clauses

/-- The place of a node in a chain of and-filters or or-filters.  Only the root of the chain
lists its conditions. -/
structure Chain where
  connective : Connective
  root : Nat
  conditions : List Nat
deriving DecidableEq

/-- What a caller's own composition of a node is given: the node's place in the tree and what
its children compose to. -/
structure Site where
  node : Nat
  parent : Option Nat
  children : List Nat
  treeSize : Nat
  parts : List (Except SearchError Json)

/-- A caller's own composition of a node. -/
abbrev Composer := Site → Except SearchError Json

namespace Site

/-- What the only child composes to: the empty object without a child, and an arity error with
more than one. -/
def composeOnlyChild (site : Site) : Except SearchError Json :=
  match site.parts with
  | [] => .ok (.object [])
  | [only] => only
  | many => .error (.moreThanOne many.length)

/-- What the children compose to, or the first error among them. -/
def composeEachChild (site : Site) : Except SearchError (List Json) := site.parts.mapM id

end Site

/-- What a node is. -/
inductive NodeKind where
  /-- A scope that composes to what its only child composes to. -/
  | scope
  /-- A leaf with the document it composes to. -/
  | fragment (document : Json)
  /-- A node whose accessor does not lead to a field. -/
  | faulty (fault : PathFault)
  /-- A scope that negates its only child. -/
  | negation
  /-- A scope that a caller composes. -/
  | custom (composer : Composer)
  /-- A scope for the nested documents of a field. -/
  | nested (path : FieldPath)
  /-- A bool filter with its clauses. -/
  | bool (clauses : Clauses)
  /-- A clause of a bool filter. -/
  | clause (root : Nat) (clause : Clause)
  /-- A member of a chain. -/
  | chain (membership : Chain)

/-- The kind of the node of a leaf. -/
def Leaf.kind (leaf : Leaf) : NodeKind :=
  match leaf.fragment with
  | .ok document => .fragment document
  | .error fault => .faulty fault

/-- The kind of a scope for the nested documents of a field. -/
def NodeKind.ofNested (field : Accessor) : NodeKind :=
  match FieldPath.resolve field with
  | .ok path => .nested path
  | .error fault => .faulty fault

/-- The root of the family to which a node with the given number belongs. -/
def NodeKind.rootOfFamily? (own : Nat) : NodeKind → Option Nat
  | .bool _ => some own
  | .clause root _ => some root
  | .chain membership => some membership.root
  | _ => none

/-- A node of a filter tree. -/
structure Node where
  parent : Option Nat
  children : List Nat
  kind : NodeKind

/-- A filter tree. -/
structure FilterTree where
  nodes : Array Node

namespace FilterTree

/-- The number of the top scope. -/
def root : Nat := 0

/-- The tree with nothing in its top scope. -/
def empty : FilterTree := ⟨#[⟨none, [], .scope⟩]⟩

/-- The number of nodes, which is also the number of the next node. -/
def size (tree : FilterTree) : Nat := tree.nodes.size

/-- A node by its number. -/
def node (tree : FilterTree) (id : Nat) : Except SearchError Node :=
  match tree.nodes[id]? with
  | some node => .ok node
  | none => .error (.unknownNode id)

/-- The kind of a node. -/
def kind? (tree : FilterTree) (id : Nat) : Option NodeKind :=
  tree.nodes[id]?.map Node.kind

/-- The children of a node in the order in which they were put there. -/
def children (tree : FilterTree) (id : Nat) : Except SearchError (List Nat) :=
  (tree.node id).map Node.children

/-- The parent of a node; the top scope has none. -/
def parent (tree : FilterTree) (id : Nat) : Except SearchError (Option Nat) :=
  (tree.node id).map Node.parent

theorem node_eq_ok_iff {tree : FilterTree} {id : Nat} {node : Node} :
  tree.node id = .ok node ↔ tree.nodes[id]? = some node
  := by
  rw [FilterTree.node]
  split <;> simp_all

theorem node_eq_error_iff {tree : FilterTree} {id : Nat} {error : SearchError} :
  tree.node id = .error error ↔ tree.size ≤ id ∧ error = .unknownNode id
  := by
  rw [FilterTree.node, size]
  split
  · next node h =>
    have := (Array.getElem?_eq_some_iff.1 h).1
    simp
    omega
  · next h => simp [Array.getElem?_eq_none_iff.1 h, eq_comm]

end FilterTree

end FilteredSearch
