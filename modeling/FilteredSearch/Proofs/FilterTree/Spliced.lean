import FilteredSearch.Proofs.FilterTree.Reachable
import FilteredSearch.Proofs.FilterTree.Renumbered

/-!
# Trees with other nodes between

A tree is spliced into another one when the other has a block of further nodes between those of the
first, and is otherwise the same: the nodes after the block have moved up, and the children and the
conditions of a node are those of before under their new numbers, with nodes of the block among
them.  Whatever is put below a node of both trees keeps this so, and the way from a node is the same
in both.
-/

namespace FilteredSearch

/-- A block of numbers: where it starts, and how many there are. -/
structure Block where
  start : Nat
  count : Nat

namespace Block

/-- The number is in the block. -/
def contains (block : Block) (id : Nat) : Bool :=
  decide (block.start ≤ id) && decide (id < block.start + block.count)

/-- The number after the block has found room. -/
def shift (block : Block) (id : Nat) : Nat := if id < block.start then id else id + block.count

variable {block : Block} {id other : Nat}

theorem contains_iff :
  block.contains id = true ↔ block.start ≤ id ∧ id < block.start + block.count
  := by
  simp [contains]

@[simp]
theorem contains_shift :
  block.contains (block.shift id) = false
  := by
  rw [← Bool.not_eq_true, contains_iff, shift]
  split <;> omega

theorem shift_of_lt (h : id < block.start) :
  block.shift id = id
  := if_pos h

theorem shift_of_le (h : block.start ≤ id) :
  block.shift id = id + block.count
  := if_neg (Nat.not_lt.mpr h)

theorem shift_lt_shift_iff :
  block.shift id < block.shift other ↔ id < other
  := by
  unfold shift
  split <;> split <;> omega

theorem shift_injective :
  Function.Injective block.shift
  := by
  intro id other h
  unfold shift at h
  split at h <;> split at h <;> omega

theorem filter_map_shift (ids : List Nat) :
  (ids.map block.shift).filter (fun id => !block.contains id) = ids.map block.shift
  := by
  simp [List.filter_map, Function.comp_def]

end Block

namespace NodeKind

/-- The kind without the conditions in the block. -/
def without (block : Block) : NodeKind → NodeKind
  | .chain membership =>
    .chain { membership with
      conditions := membership.conditions.filter fun id => !block.contains id }
  | kind => kind

/-- The kind with a further condition, if it is that of a member of a chain. -/
def register (condition : Nat) : NodeKind → NodeKind
  | .chain membership =>
    .chain { membership with conditions := membership.conditions ++ [condition] }
  | kind => kind

variable {block : Block} {kind : NodeKind} {id condition : Nat}

/-- A node without a family names no other node. -/
theorem IsLoose.renumber_eq (h : kind.IsLoose) (number : Nat → Nat) :
  kind.renumber number = kind
  := by
  cases kind with
  | bool _ | clause _ _ | chain _ => exact h.elim
  | _ => rfl

@[simp]
theorem without_renumber :
  (kind.renumber block.shift).without block = kind.renumber block.shift
  := by
  cases kind <;> simp [renumber, without, Block.filter_map_shift]

theorem without_register (h : block.contains condition = false) :
  (kind.register condition).without block = (kind.without block).register condition
  := by
  cases kind <;> simp [register, without, h]

theorem renumber_register (number : Nat → Nat) :
  (kind.register condition).renumber number = (kind.renumber number).register (number condition)
  := by
  cases kind <;> simp [register, renumber]

theorem rootOfFamily?_renumber (number : Nat → Nat) :
  (kind.renumber number).rootOfFamily? (number id) = (kind.rootOfFamily? id).map number
  := by
  cases kind <;> rfl

theorem rootOfFamily?_without (block : Block) :
  (kind.without block).rootOfFamily? id = kind.rootOfFamily? id
  := by
  cases kind <;> rfl

end NodeKind

namespace FilterTree

/-- The second tree is the first one with a block of further nodes. -/
structure Spliced (block : Block) (tree tree' : FilterTree) : Prop where
  start_le : block.start ≤ tree.size
  size_eq : tree'.size = tree.size + block.count
  parent?_eq : ∀ id, tree'.parent? (block.shift id) = (tree.parent? id).map block.shift
  childrenOf_eq : ∀ id,
    (tree'.childrenOf (block.shift id)).filter (fun child => !block.contains child)
      = (tree.childrenOf id).map block.shift
  /-- A node has the same kind, with the root of a chain listing the members in the block too. -/
  kind?_eq : ∀ id, (tree'.kind? (block.shift id)).map (NodeKind.without block)
    = (tree.kind? id).map (NodeKind.renumber block.shift)

variable {block : Block} {tree tree' : FilterTree} {id parent chainRoot condition : Nat}
  {kind : NodeKind} {connective : Connective} {conditions : List Nat}

theorem kind?_addCondition :
  (tree.addCondition chainRoot condition).kind? id
    = if id = chainRoot then (tree.kind? id).map (NodeKind.register condition) else tree.kind? id
  := by
  split
  · next heq =>
    subst heq
    simp only [kind?, addCondition, Array.getElem?_modify, if_true, Option.map_map]
    congr 1
    funext node
    cases hk : node.kind <;> simp [Node.register, NodeKind.register, hk]
  · next hne => apply kind?_addCondition_of_ne hne

namespace Spliced

theorem shift_size (h : Spliced block tree tree') :
  block.shift tree.size = tree'.size
  := by
  rw [Block.shift_of_le h.start_le, h.size_eq]

theorem shift_lt_size_iff (h : Spliced block tree tree') :
  block.shift id < tree'.size ↔ id < tree.size
  := by
  rw [← h.shift_size, Block.shift_lt_shift_iff]

/-! ### Putting nodes into both trees -/

protected theorem append (h : Spliced block tree tree') (hparent : parent < tree.size) :
  Spliced block (tree.append parent kind)
    (tree'.append (block.shift parent) (kind.renumber block.shift))
  where
  start_le := by
    rw [size_append]
    apply Nat.le_succ_of_le h.start_le
  size_eq := by
    rw [size_append, size_append, h.size_eq]
    omega
  parent?_eq := by
    intro id
    simp only [parent?_append, ← h.shift_size, Block.shift_injective.eq_iff]
    split
    · rfl
    · apply h.parent?_eq
  childrenOf_eq := by
    intro id
    rw [childrenOf_append hparent, childrenOf_append (h.shift_lt_size_iff.mpr hparent),
      ← h.shift_size]
    simp only [Block.shift_injective.eq_iff]
    split
    · simp [h.childrenOf_eq]
    · apply h.childrenOf_eq
  kind?_eq := by
    intro id
    simp only [kind?_append, ← h.shift_size, Block.shift_injective.eq_iff]
    split
    · simp
    · apply h.kind?_eq

protected theorem addNode (h : Spliced block tree tree') (hparent : parent < tree.size)
    (hkind : kind.IsLoose) :
  Spliced block (tree.addNode parent kind).value
    (tree'.addNode (block.shift parent) kind).value
  := by
  have happend : Spliced block (tree.append parent kind)
      (tree'.append (block.shift parent) (kind.renumber block.shift)) := h.append hparent
  rwa [hkind.renumber_eq] at happend

protected theorem addCondition (h : Spliced block tree tree') (chainRoot condition : Nat) :
  Spliced block (tree.addCondition chainRoot condition)
    (tree'.addCondition (block.shift chainRoot) (block.shift condition))
  where
  start_le := by
    rw [size_addCondition]
    apply h.start_le
  size_eq := by
    rw [size_addCondition, size_addCondition, h.size_eq]
  parent?_eq := by
    intro id
    rw [parent?_addCondition, parent?_addCondition, h.parent?_eq]
  childrenOf_eq := by
    intro id
    rw [childrenOf_addCondition, childrenOf_addCondition, h.childrenOf_eq]
  kind?_eq := by
    intro id
    simp only [kind?_addCondition, Block.shift_injective.eq_iff]
    split
    · have hkind :=
        congrArg (Option.map (NodeKind.register (block.shift condition))) (h.kind?_eq id)
      simpa only [Option.map_map, Function.comp_def, NodeKind.without_register Block.contains_shift,
        NodeKind.renumber_register] using hkind
    · apply h.kind?_eq

/-- A node that is in no chain has the same kind. -/
theorem kind?_of_ne_chain (h : Spliced block tree tree') (hk : tree.kind? id = some kind)
    (hkind : ∀ membership, kind ≠ .chain membership) :
  tree'.kind? (block.shift id) = some (kind.renumber block.shift)
  := by
  have heq := h.kind?_eq id
  rw [hk, Option.map_some, Option.map_eq_some_iff] at heq
  obtain ⟨kind', hk', heq⟩ := heq
  rw [hk', ← heq]
  cases kind' with
  | chain membership =>
    cases kind with
    | chain other => exact absurd rfl (hkind other)
    | _ => cases heq
  | _ => rfl

/-- A member of a chain is a member of the same chain, and lists conditions in the block besides its
own. -/
theorem kind?_of_chain (h : Spliced block tree tree')
    (hk : tree.kind? id = some (.chain ⟨connective, chainRoot, conditions⟩)) :
  ∃ conditions', tree'.kind? (block.shift id)
      = some (.chain ⟨connective, block.shift chainRoot, conditions'⟩)
    ∧ conditions'.filter (fun condition => !block.contains condition)
      = conditions.map block.shift
  := by
  have heq := h.kind?_eq id
  rw [hk, Option.map_some, Option.map_eq_some_iff] at heq
  obtain ⟨kind', hk', heq⟩ := heq
  cases kind' with
  | chain membership =>
    obtain ⟨connective', chainRoot', conditions'⟩ := membership
    simp only [NodeKind.without, NodeKind.renumber, NodeKind.chain.injEq, Chain.mk.injEq] at heq
    obtain ⟨rfl, rfl, hconditions⟩ := heq
    exact ⟨conditions', hk', hconditions⟩
  | _ => cases heq

theorem inChain (h : Spliced block tree tree') (hin : tree.InChain connective chainRoot id) :
  tree'.InChain connective (block.shift chainRoot) (block.shift id)
  := by
  obtain ⟨conditions, hk⟩ := hin
  obtain ⟨conditions', hk', -⟩ := h.kind?_of_chain hk
  exact ⟨conditions', hk'⟩

theorem not_inChain (h : Spliced block tree tree') (hparent : parent < tree.size)
    (hnot : ∀ chainRoot, ¬tree.InChain connective chainRoot parent) (chainRoot' : Nat) :
  ¬tree'.InChain connective chainRoot' (block.shift parent)
  := by
  obtain ⟨kind, hk⟩ := exists_kind?_of_lt hparent
  cases kind with
  | chain membership =>
    obtain ⟨other, chainRoot, conditions⟩ := membership
    intro hin
    obtain ⟨rfl, -⟩ := hin.unique (h.inChain ⟨conditions, hk⟩)
    apply hnot chainRoot ⟨conditions, hk⟩
  | _ =>
    rintro ⟨conditions, hk'⟩
    rw [h.kind?_of_ne_chain hk (by simp)] at hk'
    cases hk'

/-- What is put below a node joins the same chain in both trees. -/
theorem joinedRoot?_eq (h : Spliced block tree tree') (hparent : parent < tree.size) :
  tree'.joinedRoot? (block.shift parent) connective
    = (tree.joinedRoot? parent connective).map block.shift
  := by
  cases hjoin : tree.joinedRoot? parent connective with
  | none =>
    rw [Option.map_none, joinedRoot?_eq_none_iff]
    apply h.not_inChain hparent (joinedRoot?_eq_none_iff.mp hjoin)
  | some chainRoot =>
    rw [Option.map_some, joinedRoot?_eq_some_iff]
    apply h.inChain (joinedRoot?_eq_some_iff.mp hjoin)

protected theorem addChain (h : Spliced block tree tree') (hparent : parent < tree.size) :
  Spliced block (tree.addChain parent connective).value
    (tree'.addChain (block.shift parent) connective).value
  := by
  have hroot : (tree'.joinedRoot? (block.shift parent) connective).getD tree'.size
      = block.shift ((tree.joinedRoot? parent connective).getD tree.size) := by
    rw [h.joinedRoot?_eq hparent, ← h.shift_size, Option.getD_map]
  rw [value_addChain, value_addChain, hroot, ← h.shift_size]
  apply (h.append hparent).addCondition

theorem nextClauses_eq (h : Spliced block tree tree') :
  tree'.nextClauses = tree.nextClauses.renumber block.shift
  := by
  have hsize : ∀ more, block.shift (tree.size + more) = tree'.size + more := by
    intro more
    rw [Block.shift_of_le (Nat.le_add_right_of_le h.start_le), h.size_eq]
    omega
  simp only [nextClauses, Clauses.renumber, hsize]

protected theorem addBool (h : Spliced block tree tree') (hparent : parent < tree.size) :
  Spliced block (tree.addBool parent).value (tree'.addBool (block.shift parent)).value
  := by
  rw [value_addBool, value_addBool, h.nextClauses_eq, ← h.shift_size]
  apply Spliced.append
  · apply Spliced.append
    · apply Spliced.append
      · apply h.append hparent
      · rw [size_append]
        omega
    · rw [size_append, size_append]
      omega
  · rw [size_append, size_append, size_append]
    omega

/-! ### Finding the way in both trees -/

theorem lt_size_of_lt (h : Spliced block tree tree') (hid : id < tree.size) :
  block.shift id < tree'.size
  := h.shift_lt_size_iff.mpr hid

/-- A node belongs to the same family in both trees. -/
theorem rootOfFamily?_eq (h : Spliced block tree tree') {kind' : NodeKind}
    (hk : tree.kind? id = some kind) (hk' : tree'.kind? (block.shift id) = some kind') :
  kind'.rootOfFamily? (block.shift id) = (kind.rootOfFamily? id).map block.shift
  := by
  have heq := h.kind?_eq id
  rw [hk, hk', Option.map_some, Option.map_some, Option.some.injEq] at heq
  rw [← NodeKind.rootOfFamily?_without block, heq, NodeKind.rootOfFamily?_renumber]

end Spliced

/-- The way up from a node by the views of the tree. -/
theorem familyRootFrom_eq (hk : tree.kind? id = some kind) :
  tree.familyRootFrom id
    = match kind.rootOfFamily? id, tree.parent? id with
      | some familyRoot, _ => .ok familyRoot
      | none, some parent =>
        if parent < id then tree.familyRootFrom parent else .error .noEnclosingFamily
      | none, none => .error .noEnclosingFamily
  := by
  obtain ⟨node, hnode, rfl⟩ := kind?_eq_some_iff.mp hk
  rw [familyRootFrom, node_eq_ok_iff.mpr hnode, parent?, hnode]
  rfl

namespace Spliced

theorem familyRootFrom_shift (h : Spliced block tree tree') (hid : id < tree.size) :
  tree'.familyRootFrom (block.shift id) = (tree.familyRootFrom id).map block.shift
  := by
  induction id using Nat.strongRecOn with
  | ind id ih =>
    obtain ⟨kind, hk⟩ := exists_kind?_of_lt hid
    obtain ⟨kind', hk'⟩ := exists_kind?_of_lt (h.lt_size_of_lt hid)
    rw [familyRootFrom_eq hk, familyRootFrom_eq hk', h.rootOfFamily?_eq hk hk', h.parent?_eq]
    cases kind.rootOfFamily? id with
    | some familyRoot => rfl
    | none =>
      cases tree.parent? id with
      | none => rfl
      | some parent =>
        simp only [Option.map_none, Option.map_some, Block.shift_lt_shift_iff]
        split
        · next hlt => apply ih parent hlt (Nat.lt_trans hlt hid)
        · rfl

/-- The way back from a node leads to the same node in both trees. -/
theorem familyRootAround_shift (h : Spliced block tree tree') (hwf : tree.WellFormed)
    (hid : id < tree.size) :
  tree'.familyRootAround (block.shift id) = (tree.familyRootAround id).map block.shift
  := by
  rw [familyRootAround, familyRootAround, parent_eq hid, parent_eq (h.lt_size_of_lt hid),
    h.parent?_eq]
  cases hparent : tree.parent? id with
  | none => rfl
  | some parent =>
    apply h.familyRootFrom_shift (Nat.lt_trans (hwf.parent_lt_child hparent) hid)

/-- A node belongs to the same bool filter in both trees. -/
theorem clausesOf?_shift (h : Spliced block tree tree') (hwf : tree.WellFormed)
    (hid : id < tree.size) :
  tree'.clausesOf? (block.shift id) = (tree.clausesOf? id).map (Clauses.renumber block.shift)
  := by
  obtain ⟨kind, hk⟩ := exists_kind?_of_lt hid
  rw [clausesOf?, clausesOf?, hk]
  cases kind with
  | bool clauses =>
    have hk' := h.kind?_of_ne_chain hk (by simp)
    simp [hk, hk', NodeKind.renumber]
  | clause owner part =>
    obtain ⟨clauses, howner, -⟩ := hwf.clause_iff.mp hk
    have hk' := h.kind?_of_ne_chain hk (by simp)
    have howner' := h.kind?_of_ne_chain howner (by simp)
    simp only [NodeKind.renumber] at hk' howner'
    simp [hk', howner, howner']
  | chain membership =>
    obtain ⟨conditions, hk', -⟩ := h.kind?_of_chain hk
    simp [hk']
  | _ =>
    have hk' := h.kind?_of_ne_chain hk (by simp)
    simp [hk', NodeKind.renumber]

end Spliced

end FilterTree

end FilteredSearch
