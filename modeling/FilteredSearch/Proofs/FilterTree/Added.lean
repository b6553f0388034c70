import FilteredSearch.Proofs.FilterTree.Spliced

/-!
# What was put into a tree

What a tree gained while it grew is a block of nodes behind those that it had, so the tree is
spliced into the grown one.  When all of the block stands below one scope, the nodes that are not
below the scope look the same in both trees, but for their numbers.
-/

namespace FilteredSearch.FilterTree

variable {block : Block} {tree tree' : FilterTree} {id parent chainRoot condition : Nat}
  {kind : NodeKind} {connective : Connective} {conditions : List Nat}

/-! ### Trees that grow -/

/-- A node names only nodes of its tree. -/
theorem WellFormed.renumber_eq (hwf : tree.WellFormed) (hk : tree.kind? id = some kind)
    {number : Nat → Nat} (hnumber : ∀ other < tree.size, number other = other) :
  kind.renumber number = kind
  := by
  cases kind with
  | bool clauses =>
    have hclause : ∀ part, number (clauses.get part) = clauses.get part := fun part =>
      hnumber _ (lt_size_of_kind? (hwf.clause_iff.mpr ⟨clauses, hk, rfl⟩))
    have hmust := hclause .must
    have hmustNot := hclause .mustNot
    have hshould := hclause .should
    simp only [Clauses.get] at hmust hmustNot hshould
    simp only [NodeKind.renumber, Clauses.renumber, hmust, hmustNot, hshould]
  | clause owner part =>
    obtain ⟨clauses, howner, -⟩ := hwf.clause_iff.mp hk
    rw [NodeKind.renumber, hnumber owner (lt_size_of_kind? howner)]
  | chain membership =>
    obtain ⟨connective, chainRoot, conditions⟩ := membership
    have hin : tree.InChain connective chainRoot id := ⟨conditions, hk⟩
    have hconditions : conditions.map number = conditions := by
      refine (List.map_congr_left fun condition hcondition => hnumber condition ?_).trans
        (List.map_id _)
      by_cases hroot : id = chainRoot
      · subst hroot
        apply ((hwf.mem_conditions hk).mp hcondition).lt_size
      · simp [hwf.conditions_of_member hk hroot] at hcondition
    simp only [NodeKind.renumber, hnumber chainRoot (hwf.root_inChain hin).lt_size, hconditions]
  | _ => rfl

/-- The block of what was put into a tree that grew. -/
def addedBlock (tree tree' : FilterTree) : Block := ⟨tree.size, tree'.size - tree.size⟩

theorem addedBlock_contains_iff :
  (tree.addedBlock tree').contains id = true ↔ tree.size ≤ id ∧ id < tree'.size
  := by
  simp only [Block.contains_iff, addedBlock]
  omega

theorem addedBlock_shift_of_lt (hid : id < tree.size) :
  (tree.addedBlock tree').shift id = id
  := Block.shift_of_lt hid

theorem size_le_addedBlock_shift (hid : tree.size ≤ id) :
  tree'.size ≤ (tree.addedBlock tree').shift id
  := by
  rw [Block.shift_of_le hid]
  simp only [addedBlock]
  omega

/-- When a list keeps its older nodes, what was put behind them is in the block. -/
theorem filter_append_addedBlock {ids news : List Nat} (hids : ∀ id ∈ ids, id < tree.size)
    (hold : ∀ id ∈ ids ++ news, id < tree.size → id ∈ ids)
    (hlt : ∀ id ∈ ids ++ news, id < tree'.size) (hnodup : (ids ++ news).Nodup) :
  (ids ++ news).filter (fun id => !(tree.addedBlock tree').contains id)
    = ids.map (tree.addedBlock tree').shift
  := by
  have hsame : ids.map (tree.addedBlock tree').shift = ids :=
    (List.map_congr_left fun id hid => addedBlock_shift_of_lt (hids id hid)).trans (List.map_id _)
  have hnone : news.filter (fun id => !(tree.addedBlock tree').contains id) = [] := by
    rw [List.filter_eq_nil_iff]
    intro new hnew
    have hmem : new ∈ ids ++ news := List.mem_append_right _ hnew
    have hge : tree.size ≤ new := by
      by_contra hbefore
      apply List.disjoint_of_nodup_append hnodup (hold new hmem (Nat.lt_of_not_le hbefore)) hnew
    simpa using addedBlock_contains_iff.mpr ⟨hge, hlt new hmem⟩
  rw [List.filter_append, hnone, List.append_nil, ← Block.filter_map_shift, hsame]

/-- A tree is spliced into every tree that it grows to. -/
theorem Grows.spliced (h : Grows tree tree') (hwf : tree.WellFormed) :
  Spliced (tree.addedBlock tree') tree tree'
  where
  start_le := Nat.le_refl _
  size_eq := by
    have hsize := h.size_le
    simp only [addedBlock]
    omega
  parent?_eq := by
    intro id
    rcases Nat.lt_or_ge id tree.size with hid | hid
    · rw [addedBlock_shift_of_lt hid, h.parent?_eq hid]
      cases hparent : tree.parent? id with
      | none => rfl
      | some parent =>
        have hlt := hwf.parent_lt_child hparent
        rw [Option.map_some, addedBlock_shift_of_lt (Nat.lt_trans hlt hid)]
    · rw [parent?_of_size_le hid, parent?_of_size_le (size_le_addedBlock_shift hid)]
      rfl
  childrenOf_eq := by
    intro id
    rcases Nat.lt_or_ge id tree.size with hid | hid
    · have hwf' := h.wellFormed hwf
      obtain ⟨news, hnews⟩ := h.childrenOf_prefix id
      rw [addedBlock_shift_of_lt hid, ← hnews]
      apply filter_append_addedBlock
      · exact fun child hchild => (hwf.lt_of_mem_childrenOf hchild).2
      · intro child hchild hlt
        rw [hnews, hwf'.mem_childrenOf, h.parent?_eq hlt] at hchild
        apply hwf.mem_childrenOf.mpr hchild
      · rw [hnews]
        exact fun child hchild => (hwf'.lt_of_mem_childrenOf hchild).2
      · rw [hnews]
        apply hwf'.nodup_childrenOf
    · rw [childrenOf_of_size_le hid, childrenOf_of_size_le (size_le_addedBlock_shift hid)]
      rfl
  kind?_eq := by
    intro id
    rcases Nat.lt_or_ge id tree.size with hid | hid
    · have hwf' := h.wellFormed hwf
      obtain ⟨kind, hk⟩ := exists_kind?_of_lt hid
      have hsame : kind.renumber (tree.addedBlock tree').shift = kind :=
        hwf.renumber_eq hk fun other hother => addedBlock_shift_of_lt hother
      rw [addedBlock_shift_of_lt hid, hk, Option.map_some]
      rcases h.kind? hwf hk with hk' | ⟨connective, conditions, news, rfl, hk'⟩
      · rw [hk', Option.map_some, hsame, ← hsame, NodeKind.without_renumber]
      · have hlisted : (conditions ++ news).filter (fun id => !(tree.addedBlock tree').contains id)
            = conditions.map (tree.addedBlock tree').shift := by
          apply filter_append_addedBlock
          · exact fun condition hcondition => ((hwf.mem_conditions hk).mp hcondition).lt_size
          · intro condition hcondition hlt
            apply (hwf.mem_conditions hk).mpr
            apply (h.inChain_iff hlt).mp ((hwf'.mem_conditions hk').mp hcondition)
          · exact fun condition hcondition => ((hwf'.mem_conditions hk').mp hcondition).lt_size
          · apply (hwf'.conditions_ascending hk').imp Nat.ne_of_lt
        rw [hk', Option.map_some, NodeKind.without, NodeKind.renumber, hlisted,
          addedBlock_shift_of_lt hid]
    · rw [kind?_of_size_le hid, kind?_of_size_le (size_le_addedBlock_shift hid)]
      rfl

/-! ### Where the block stands -/

/-- A node over a member of a chain is over the root of the chain or a member too. -/
theorem IsOver.over_root_or_inChain (hwf : tree.WellFormed) {scope : Nat}
    (h : tree.IsOver scope id) (hin : tree.InChain connective chainRoot id) :
  tree.IsOver scope chainRoot ∨ tree.InChain connective chainRoot scope
  := by
  induction h with
  | refl => apply Or.inr hin
  | tail hover hparent ih =>
    rename_i above child
    by_cases hroot : child = chainRoot
    · subst hroot
      apply Or.inl (.tail hover hparent)
    · obtain ⟨parent, hparent', hin'⟩ := hwf.parent_inChain hin hroot
      rw [hparent, Option.some.injEq] at hparent'
      apply ih (hparent' ▸ hin')

/-- The block stands below a scope that is before the block and in no chain. -/
structure HoldsBelow (tree : FilterTree) (scope : Nat) (block : Block) : Prop where
  scope_lt : scope < block.start
  not_inChain : ∀ connective chainRoot, ¬tree.InChain connective chainRoot scope
  isOver : ∀ new, block.contains new = true → tree.IsOver scope new

namespace Spliced

theorem isOver_shift (h : Spliced block tree tree') {above : Nat} (hover : tree.IsOver above id) :
  tree'.IsOver (block.shift above) (block.shift id)
  := by
  induction hover with
  | refl => apply Relation.ReflTransGen.refl
  | tail _ hparent ih =>
    apply Relation.ReflTransGen.tail ih
    rw [h.parent?_eq, hparent, Option.map_some]

/-- Above a node of the first tree stand only nodes of the first tree. -/
theorem exists_isOver_of_shift (h : Spliced block tree tree') {above' : Nat}
    (hover : tree'.IsOver above' (block.shift id)) :
  ∃ above, above' = block.shift above ∧ tree.IsOver above id
  := by
  generalize hid : block.shift id = id' at hover
  induction hover generalizing id with
  | refl => exact ⟨id, hid.symm, .refl⟩
  | tail _ hparent ih =>
    subst hid
    rw [h.parent?_eq, Option.map_eq_some_iff] at hparent
    obtain ⟨parent, hparent, hshift⟩ := hparent
    obtain ⟨above, rfl, hover⟩ := ih hshift
    exact ⟨above, rfl, .tail hover hparent⟩

theorem isOver_iff_of_lt (h : Spliced block tree tree') {scope : Nat}
    (hscope : scope < block.start) :
  tree'.IsOver scope (block.shift id) ↔ tree.IsOver scope id
  := by
  constructor
  · intro hover
    obtain ⟨above, habove, hover⟩ := h.exists_isOver_of_shift hover
    rw [← Block.shift_of_lt hscope] at habove
    rwa [Block.shift_injective habove]
  · intro hover
    have hover' := h.isOver_shift hover
    rwa [Block.shift_of_lt hscope] at hover'

/-- A node that is not below the scope of the block has the same kind in both trees. -/
theorem kind?_of_not_isOver (h : Spliced block tree tree') (hwf' : tree'.WellFormed) {scope : Nat}
    (hbelow : tree'.HoldsBelow scope block) (hid : ¬tree.IsOver scope id)
    (hk : tree.kind? id = some kind) :
  tree'.kind? (block.shift id) = some (kind.renumber block.shift)
  := by
  cases kind with
  | chain membership =>
    obtain ⟨connective, chainRoot, conditions⟩ := membership
    obtain ⟨conditions', hk', hfilter⟩ := h.kind?_of_chain hk
    have hapart : ∀ condition ∈ conditions', (!block.contains condition) = true := by
      intro condition hcondition
      rw [Bool.not_eq_true', ← Bool.not_eq_true]
      intro hcontains
      by_cases hroot : chainRoot = id
      · subst hroot
        have hin := (hwf'.mem_conditions hk').mp hcondition
        rcases (hbelow.isOver condition hcontains).over_root_or_inChain hwf' hin with hover | hin
        · apply hid ((h.isOver_iff_of_lt hbelow.scope_lt).mp hover)
        · apply hbelow.not_inChain _ _ hin
      · rw [hwf'.conditions_of_member hk' (Block.shift_injective.ne (Ne.symm hroot))] at hcondition
        cases hcondition
    rw [hk', NodeKind.renumber, ← hfilter, List.filter_eq_self.mpr hapart]
  | _ => apply h.kind?_of_ne_chain hk (by simp)

/-- A node that is not below the scope of the block has the same children in both trees. -/
theorem childrenOf_of_not_isOver (h : Spliced block tree tree') (hwf' : tree'.WellFormed)
    {scope : Nat} (hbelow : tree'.HoldsBelow scope block) (hid : ¬tree.IsOver scope id) :
  tree'.childrenOf (block.shift id) = (tree.childrenOf id).map block.shift
  := by
  rw [← h.childrenOf_eq, eq_comm, List.filter_eq_self]
  intro child hchild
  rw [Bool.not_eq_true', ← Bool.not_eq_true]
  intro hcontains
  rcases (hbelow.isOver child hcontains).cases_tail with rfl | ⟨parent, hover, hparent⟩
  · have := hbelow.scope_lt
    rw [Block.contains_iff] at hcontains
    omega
  · rw [hwf'.mem_childrenOf.mp hchild, Option.some.injEq] at hparent
    subst hparent
    apply hid ((h.isOver_iff_of_lt hbelow.scope_lt).mp hover)

end Spliced

end FilteredSearch.FilterTree
