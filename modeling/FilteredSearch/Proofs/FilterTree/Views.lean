import FilteredSearch.FilterTree.Compose
import FilteredSearch.FilterTree.Growth
import Mathlib.Logic.Relation
import Mathlib.Tactic.Common

/-!
# Views of a filter tree

A filter tree is seen through three views: the kind of a node, its children and its parent.  The
statements about the operations that grow a tree say what they do to each of the views; after
that no proof looks into the array of nodes.
-/

namespace FilteredSearch

namespace FilterTree

/-- The parent of a node, if the node is there and has one. -/
def parent? (tree : FilterTree) (id : Nat) : Option Nat := tree.nodes[id]?.bind Node.parent

/-- The children of a node, none if the node is not there. -/
def childrenOf (tree : FilterTree) (id : Nat) : List Nat :=
  (tree.nodes[id]?.map Node.children).getD []

/-- The node is a member of the chain with the connective and the root. -/
def InChain (tree : FilterTree) (connective : Connective) (chainRoot id : Nat) : Prop :=
  ∃ conditions, tree.kind? id = some (.chain ⟨connective, chainRoot, conditions⟩)

/-- The first node is the second one or one of its ancestors. -/
def IsOver (tree : FilterTree) : Nat → Nat → Prop :=
  Relation.ReflTransGen fun parent child => tree.parent? child = some parent

variable {tree : FilterTree} {id parent chainRoot condition : Nat} {kind : NodeKind}
  {connective : Connective}

/-! ### The views and the nodes -/

theorem kind?_eq_some_iff :
  tree.kind? id = some kind ↔ ∃ node, tree.nodes[id]? = some node ∧ node.kind = kind
  := by
  simp [kind?]

theorem lt_size_of_kind? (h : tree.kind? id = some kind) :
  id < tree.size
  := by
  obtain ⟨node, hnode, -⟩ := kind?_eq_some_iff.mp h
  apply (Array.getElem?_eq_some_iff.mp hnode).1

theorem exists_kind?_of_lt (h : id < tree.size) :
  ∃ kind, tree.kind? id = some kind
  := by
  have hnode := Array.getElem?_eq_getElem (show id < tree.nodes.size from h)
  exact ⟨_, kind?_eq_some_iff.mpr ⟨_, hnode, rfl⟩⟩

theorem kind?_of_size_le (h : tree.size ≤ id) :
  tree.kind? id = none
  := by
  simp [kind?, Array.getElem?_eq_none_iff.mpr h]

theorem parent?_of_size_le (h : tree.size ≤ id) :
  tree.parent? id = none
  := by
  simp [parent?, Array.getElem?_eq_none_iff.mpr h]

theorem childrenOf_of_size_le (h : tree.size ≤ id) :
  tree.childrenOf id = []
  := by
  simp [childrenOf, Array.getElem?_eq_none_iff.mpr h]

theorem lt_size_of_parent? (h : tree.parent? id = some parent) :
  id < tree.size
  := by
  by_contra hlt
  simp [parent?_of_size_le (Nat.le_of_not_lt hlt)] at h

/-- The children that a node of the tree lists are those of the view. -/
theorem children_eq (h : id < tree.size) :
  tree.children id = .ok (tree.childrenOf id)
  := by
  have hnode := Array.getElem?_eq_getElem (show id < tree.nodes.size from h)
  simp [children, node, childrenOf, hnode, Except.map]

/-- The parent that a node of the tree gives is that of the view. -/
theorem parent_eq (h : id < tree.size) :
  tree.parent id = .ok (tree.parent? id)
  := by
  have hnode := Array.getElem?_eq_getElem (show id < tree.nodes.size from h)
  simp [FilterTree.parent, node, parent?, hnode, Except.map]

/-- A node counts as a member of a chain exactly when it is in the chain. -/
theorem isMember_iff {conditions : List Nat} :
  tree.isMember ⟨connective, chainRoot, conditions⟩ id = true
    ↔ tree.InChain connective chainRoot id
  := by
  rw [isMember, InChain]
  split
  · next other h =>
    obtain ⟨otherConnective, otherRoot, otherConditions⟩ := other
    simp [h]
  · next h =>
    simp only [Bool.false_eq_true, false_iff]
    rintro ⟨conditions, hk⟩
    apply h _ hk

/-- The chain that a node below a parent joins is the chain of the parent. -/
theorem joinedRoot?_eq_some_iff :
  tree.joinedRoot? parent connective = some chainRoot
    ↔ tree.InChain connective chainRoot parent
  := by
  rw [joinedRoot?, InChain]
  split
  · next membership h =>
    obtain ⟨otherConnective, otherRoot, otherConditions⟩ := membership
    simp [h]
  · next h =>
    simp only [reduceCtorEq, false_iff]
    rintro ⟨conditions, hk⟩
    apply h _ hk

theorem joinedRoot?_eq_none_iff :
  tree.joinedRoot? parent connective = none
    ↔ ∀ chainRoot, ¬tree.InChain connective chainRoot parent
  := by
  simp only [← joinedRoot?_eq_some_iff, Option.eq_none_iff_forall_ne_some, ne_eq]

/-- A node is in one chain at most. -/
theorem InChain.unique {other : Connective} {otherRoot : Nat}
    (h : tree.InChain connective chainRoot id) (h' : tree.InChain other otherRoot id) :
  connective = other ∧ chainRoot = otherRoot
  := by
  obtain ⟨conditions, h⟩ := h
  obtain ⟨conditions', h'⟩ := h'
  simp only [h, Option.some.injEq, NodeKind.chain.injEq, Chain.mk.injEq] at h'
  exact ⟨h'.1, h'.2.1⟩

theorem InChain.lt_size (h : tree.InChain connective chainRoot id) :
  id < tree.size
  := by
  obtain ⟨conditions, h⟩ := h
  apply lt_size_of_kind? h

/-! ### The empty tree -/

theorem kind?_empty :
  FilterTree.empty.kind? id = if id = root then some .scope else none
  := by
  cases id <;> simp [kind?, FilterTree.empty, root]

theorem parent?_empty :
  FilterTree.empty.parent? id = none
  := by
  cases id <;> simp [parent?, FilterTree.empty]

theorem childrenOf_empty :
  FilterTree.empty.childrenOf id = []
  := by
  cases id <;> simp [childrenOf, FilterTree.empty]

/-! ### Putting a node below a parent -/

@[grind =]
theorem kind?_append :
  (tree.append parent kind).kind? id = if id = tree.size then some kind else tree.kind? id
  := by
  rw [kind?, getElem?_append]
  split
  · rfl
  · split
    · simp [kind?, Node.adopt, Function.comp_def]
    · rfl

@[grind =]
theorem parent?_append :
  (tree.append parent kind).parent? id
    = if id = tree.size then some parent else tree.parent? id
  := by
  rw [parent?, getElem?_append]
  split
  · rfl
  · split
    · rw [parent?]
      cases tree.nodes[id]? <;> rfl
    · rfl

theorem childrenOf_append (h : parent < tree.size) :
  (tree.append parent kind).childrenOf id
    = if id = parent then tree.childrenOf id ++ [tree.size] else tree.childrenOf id
  := by
  rw [childrenOf, getElem?_append]
  split
  · next hid =>
    rw [if_neg (by omega), childrenOf_of_size_le (by omega)]
    rfl
  · split
    · next hid =>
      have hnode := Array.getElem?_eq_getElem (show id < tree.nodes.size from hid ▸ h)
      simp [childrenOf, Node.adopt, hnode]
    · rfl

theorem childrenOf_append_self (hparent : parent < tree.size) :
  (tree.append parent kind).childrenOf tree.size = []
  := by
  rw [childrenOf_append hparent, if_neg (Nat.ne_of_gt hparent),
    childrenOf_of_size_le (Nat.le_refl _)]

theorem childrenOf_prefix_append (hparent : parent < tree.size) (id : Nat) :
  tree.childrenOf id <+: (tree.append parent kind).childrenOf id
  := by
  rw [childrenOf_append hparent]
  split
  · apply List.prefix_append _ _
  · apply List.prefix_refl _

theorem kind?_append_eq_some_iff {other : NodeKind} (hkind : other ≠ kind) :
  (tree.append parent other).kind? id = some kind ↔ tree.kind? id = some kind
  := by
  rw [kind?_append]
  split
  · next hid => simp [hid, hkind, kind?_of_size_le]
  · rfl

theorem parent?_append_of_parent? {child : Nat} (hparent : tree.parent? child = some id) :
  (tree.append parent kind).parent? child = some id
  := by
  rw [parent?_append, if_neg (Nat.ne_of_lt (lt_size_of_parent? hparent)), hparent]

/-! ### Registering a condition -/

@[grind =]
theorem parent?_addCondition :
  (tree.addCondition chainRoot condition).parent? id = tree.parent? id
  := by
  unfold parent? addCondition
  rw [Array.getElem?_modify]
  split
  · cases tree.nodes[id]? with
    | none => rfl
    | some node =>
      unfold Node.register
      simp only [Option.map_some, Option.bind_some]
      split <;> rfl
  · rfl

@[grind =]
theorem childrenOf_addCondition :
  (tree.addCondition chainRoot condition).childrenOf id = tree.childrenOf id
  := by
  unfold childrenOf addCondition
  rw [Array.getElem?_modify]
  split
  · cases tree.nodes[id]? with
    | none => rfl
    | some node =>
      unfold Node.register
      simp only [Option.map_some, Option.getD_some]
      split <;> rfl
  · rfl

theorem kind?_addCondition_of_ne (h : id ≠ chainRoot) :
  (tree.addCondition chainRoot condition).kind? id = tree.kind? id
  := by
  simp [kind?, addCondition, Array.getElem?_modify, Ne.symm h]

theorem kind?_addCondition_self {root : Nat} {conditions : List Nat}
    (h : tree.kind? chainRoot = some (.chain ⟨connective, root, conditions⟩)) :
  (tree.addCondition chainRoot condition).kind? chainRoot
    = some (.chain ⟨connective, root, conditions ++ [condition]⟩)
  := by
  obtain ⟨node, hnode, hkind⟩ := kind?_eq_some_iff.mp h
  simp [kind?, addCondition, Array.getElem?_modify, hnode, Node.register, hkind]

/-- Registering a condition changes no kind but that of the root of a chain, and of that only
the conditions. -/
theorem kind?_addCondition_eq_some_iff (hkind : ∀ membership, kind ≠ .chain membership) :
  (tree.addCondition chainRoot condition).kind? id = some kind ↔ tree.kind? id = some kind
  := by
  by_cases hid : id = chainRoot
  · subst hid
    cases hk : tree.kind? id with
    | none =>
      have hsize : tree.size ≤ id := by
        by_contra hlt
        obtain ⟨kind', hk'⟩ := exists_kind?_of_lt (Nat.lt_of_not_le hlt)
        simp [hk] at hk'
      rw [kind?_of_size_le (by simpa using hsize)]
    | some old =>
      obtain ⟨node, hnode, hold⟩ := kind?_eq_some_iff.mp hk
      cases old with
      | chain membership =>
        rw [kind?_addCondition_self hk]
        simp [Ne.symm (hkind _)]
      | _ => simp [kind?, addCondition, Array.getElem?_modify, hnode, Node.register, hold]
  · rw [kind?_addCondition_of_ne hid]

/-! ### Chains in a tree that grows -/

theorem inChain_append_self :
  (tree.append parent kind).InChain connective chainRoot tree.size
    ↔ ∃ conditions, kind = .chain ⟨connective, chainRoot, conditions⟩
  := by
  simp [InChain, kind?_append]

theorem inChain_addCondition {root : Nat} :
  (tree.addCondition chainRoot condition).InChain connective root id
    ↔ tree.InChain connective root id
  := by
  by_cases hid : id = chainRoot
  · subst hid
    constructor
    · rintro ⟨conditions, hk⟩
      by_contra hnot
      have hlt : id < tree.size := by simpa using lt_size_of_kind? hk
      obtain ⟨old, hold⟩ := exists_kind?_of_lt hlt
      cases old with
      | chain membership =>
        rw [kind?_addCondition_self hold] at hk
        simp only [Option.some.injEq, NodeKind.chain.injEq, Chain.mk.injEq] at hk
        obtain ⟨rfl, rfl, -⟩ := hk
        apply hnot ⟨_, hold⟩
      | _ => simp [(kind?_addCondition_eq_some_iff (by simp)).mpr hold] at hk
    · rintro ⟨conditions, hk⟩
      exact ⟨_, kind?_addCondition_self hk⟩
  · simp only [InChain, kind?_addCondition_of_ne hid]

theorem inChain_append (hkind : ∀ membership, kind ≠ .chain membership) :
  (tree.append parent kind).InChain connective chainRoot id
    ↔ tree.InChain connective chainRoot id
  := by
  simp only [InChain, kind?_append_eq_some_iff (hkind _)]

/-! ### Putting a bool filter below a parent -/

/-- A bool filter is put into the tree before its clauses. -/
theorem value_addBool :
  (tree.addBool parent).value
    = (((tree.append parent (.bool tree.nextClauses)).append tree.size
        (.clause tree.size .must)).append tree.size (.clause tree.size .mustNot)).append tree.size
        (.clause tree.size .should)
  := rfl

theorem kind?_addBool :
  (tree.addBool parent).value.kind? id
    = if id = tree.size then some (.bool tree.nextClauses)
      else if id = tree.size + 1 then some (.clause tree.size .must)
      else if id = tree.size + 2 then some (.clause tree.size .mustNot)
      else if id = tree.size + 3 then some (.clause tree.size .should)
      else tree.kind? id
  := by
  simp only [value_addBool, kind?_append, size_append]
  grind

theorem childrenOf_addBool (hparent : parent < tree.size) :
  (tree.addBool parent).value.childrenOf id
    = if id = tree.size then [tree.size + 1, tree.size + 2, tree.size + 3]
      else if id = parent then tree.childrenOf id ++ [tree.size] else tree.childrenOf id
  := by
  rw [value_addBool, childrenOf_append (by simp only [size_append]; omega),
    childrenOf_append (by simp only [size_append]; omega),
    childrenOf_append (by simp only [size_append]; omega), childrenOf_append hparent]
  by_cases hid : id = tree.size
  · simp [hid, Nat.ne_of_gt hparent, childrenOf_of_size_le]
  · simp [hid]

theorem parent?_addBool :
  (tree.addBool parent).value.parent? id
    = if id = tree.size then some parent
      else if tree.size < id ∧ id ≤ tree.size + 3 then some tree.size else tree.parent? id
  := by
  simp only [value_addBool, parent?_append, size_append]
  grind

theorem kind?_addBool_eq_bool_iff {clauses : Clauses} :
  (tree.addBool parent).value.kind? id = some (.bool clauses)
    ↔ id = tree.size ∧ clauses = tree.nextClauses ∨ tree.kind? id = some (.bool clauses)
  := by
  have hnew : tree.size ≤ id → tree.kind? id = none := kind?_of_size_le
  rw [kind?_addBool]
  grind

theorem kind?_addBool_eq_clause_iff {bool : Nat} {clause : Clause} :
  (tree.addBool parent).value.kind? id = some (.clause bool clause)
    ↔ bool = tree.size ∧ tree.nextClauses.get clause = id
      ∨ tree.kind? id = some (.clause bool clause)
  := by
  have hnew : tree.size ≤ id → tree.kind? id = none := kind?_of_size_le
  rw [kind?_addBool]
  cases clause <;> grind [nextClauses, Clauses.get]

/-! ### Putting a member of a chain below a parent -/

theorem value_addChain :
  (tree.addChain parent connective).value
    = (tree.append parent
        (.chain ⟨connective, (tree.joinedRoot? parent connective).getD tree.size, []⟩)).addCondition
        ((tree.joinedRoot? parent connective).getD tree.size) tree.size
  := rfl

theorem parent?_addChain :
  (tree.addChain parent connective).value.parent? id
    = if id = tree.size then some parent else tree.parent? id
  := by
  rw [value_addChain, parent?_addCondition, parent?_append]

theorem childrenOf_addChain (hparent : parent < tree.size) :
  (tree.addChain parent connective).value.childrenOf id
    = if id = parent then tree.childrenOf id ++ [tree.size] else tree.childrenOf id
  := by
  rw [value_addChain, childrenOf_addCondition, childrenOf_append hparent]

theorem childrenOf_addChain_self (hparent : parent < tree.size) :
  (tree.addChain parent connective).value.childrenOf tree.size = []
  := by
  rw [value_addChain, childrenOf_addCondition, childrenOf_append_self hparent]

theorem inChain_addChain {other : Connective} {otherRoot : Nat} :
  (tree.addChain parent connective).value.InChain other otherRoot id
    ↔ id = tree.size ∧ other = connective
        ∧ otherRoot = (tree.joinedRoot? parent connective).getD tree.size
      ∨ tree.InChain other otherRoot id
  := by
  rw [value_addChain, inChain_addCondition]
  by_cases hid : id = tree.size
  · subst hid
    have hnot : ¬tree.InChain other otherRoot tree.size := fun h => Nat.lt_irrefl _ h.lt_size
    rw [inChain_append_self]
    simp [hnot, eq_comm]
  · simp only [InChain, kind?_append, hid, false_and, false_or, if_false]

/-- A new chain is listed by its first member. -/
theorem kind?_addChain_of_new (hnew : tree.joinedRoot? parent connective = none) :
  (tree.addChain parent connective).value.kind? id
    = if id = tree.size then some (.chain ⟨connective, tree.size, [tree.size]⟩)
      else tree.kind? id
  := by
  rw [value_addChain, hnew, Option.getD_none]
  split
  · next hid =>
    subst hid
    have hk : (tree.append parent (.chain ⟨connective, tree.size, []⟩)).kind? tree.size
        = some (.chain ⟨connective, tree.size, []⟩) := by rw [kind?_append, if_pos rfl]
    apply kind?_addCondition_self hk
  · next hid => rw [kind?_addCondition_of_ne hid, kind?_append, if_neg hid]

/-- A member that joins a chain is listed by the root. -/
theorem kind?_addChain_of_joined {conditions : List Nat}
    (hjoined : tree.joinedRoot? parent connective = some chainRoot)
    (hroot : tree.kind? chainRoot = some (.chain ⟨connective, chainRoot, conditions⟩)) :
  (tree.addChain parent connective).value.kind? id
    = if id = tree.size then some (.chain ⟨connective, chainRoot, []⟩)
      else if id = chainRoot then
        some (.chain ⟨connective, chainRoot, conditions ++ [tree.size]⟩)
      else tree.kind? id
  := by
  have hne : chainRoot ≠ tree.size := Nat.ne_of_lt (lt_size_of_kind? hroot)
  rw [value_addChain, hjoined, Option.getD_some]
  by_cases hid : id = chainRoot
  · subst hid
    rw [if_neg hne, if_pos rfl]
    apply kind?_addCondition_self (by rw [kind?_append, if_neg hne, hroot])
  · rw [kind?_addCondition_of_ne hid, kind?_append, if_neg hid]

end FilterTree

end FilteredSearch
