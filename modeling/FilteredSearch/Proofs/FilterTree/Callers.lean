import FilteredSearch.Proofs.FilterTree.Slots

/-!
# Callers

A node that is not a mere part of its family is composed on behalf of one node, its caller, and
it stands in one slot of its caller, once.  This holds of every tree that scripts build, unless the
caller fails whatever its slots hold.
-/

namespace FilteredSearch

namespace FilterTree

/-- No node is composed by a caller's own composition. -/
def Native (tree : FilterTree) : Prop :=
  ∀ id composer, tree.kind? id ≠ some (.custom composer)

/-- The node is composed only as a part of its family. -/
inductive IsPart (tree : FilterTree) (id : Nat) : Prop
  /-- A clause is a part of its bool filter. -/
  | clause {bool : Nat} {part : Clause} (hid : tree.kind? id = some (.clause bool part))
  /-- A member of a chain besides the root is a part of its chain. -/
  | member {connective : Connective} {chainRoot : Nat}
    (hid : tree.InChain connective chainRoot id) (hne : id ≠ chainRoot)

variable {tree : FilterTree} {id child head : Nat} {kind : NodeKind} {slot : List Nat}

theorem Native.not_isCustom (h : tree.Native) (hk : tree.kind? id = some kind) :
  ¬kind.IsCustom
  := by
  rintro hkind
  cases kind with
  | custom composer => apply h id composer hk
  | _ => apply hkind

/-- The node on whose behalf others are composed is not a part. -/
theorem Heads.not_isPart (hwf : tree.WellFormed) (h : tree.Heads head id) :
  ¬tree.IsPart head
  := by
  have hnot : ∀ {kind}, tree.kind? head = some kind →
      (∀ bool part, kind ≠ .clause bool part) →
      (∀ connective chainRoot conditions, kind = .chain ⟨connective, chainRoot, conditions⟩ →
        head = chainRoot) →
      ¬tree.IsPart head := by
    rintro kind hk hclause hchain (hid | ⟨⟨conditions, hid⟩, hne⟩)
    · rw [hk, Option.some.injEq] at hid
      apply hclause _ _ hid
    · rw [hk, Option.some.injEq] at hid
      apply hne (hchain _ _ _ hid)
  obtain ⟨kind, hk, rfl⟩ := h
  cases kind with
  | clause bool part =>
    obtain ⟨clauses, hbool, -⟩ := hwf.clause_iff.mp hk
    apply hnot hbool (by simp) (by simp)
  | chain membership =>
    obtain ⟨conditions, hroot⟩ := hwf.root_inChain ⟨membership.conditions, hk⟩
    apply hnot hroot (by simp)
    rintro connective chainRoot conditions' heq
    cases heq
    rfl
  | _ => apply hnot hk (by simp) (by simp [NodeKind.rootOfFamily?])

theorem Calls.not_isPart (hwf : tree.WellFormed) (h : tree.Calls head id) :
  ¬tree.IsPart head
  := by
  obtain ⟨parent, -, hheads⟩ := h
  apply hheads.not_isPart hwf

/-- Every node but the top scope has a caller. -/
theorem exists_calls (hwf : tree.WellFormed) (hpos : 0 < id) (hid : id < tree.size) :
  ∃ head, tree.Calls head id
  := by
  obtain ⟨parent, hlt, hparent⟩ := hwf.parent_lt hpos hid
  obtain ⟨kind, hk⟩ := exists_kind?_of_lt (Nat.lt_trans hlt hid)
  exact ⟨_, parent, hparent, kind, hk, rfl⟩

/-- The parent of a clause is its bool filter. -/
theorem WellFormed.parent_clause (hwf : tree.WellFormed) {bool : Nat} {part : Clause}
    (hid : tree.kind? id = some (.clause bool part)) :
  tree.parent? id = some bool
  := by
  obtain ⟨clauses, hbool, rfl⟩ := hwf.clause_iff.mp hid
  apply hwf.mem_childrenOf.mp
  apply (hwf.clauses_prefix hbool).mem
  rw [hwf.clauses_eq hbool]
  cases part <;> simp [Clauses.get]

/-- A part was put below a part of the same family or its root. -/
theorem IsPart.exists_parent (hwf : tree.WellFormed) (h : tree.IsPart id) :
  ∃ parent, tree.parent? id = some parent
    ∧ ((∃ clauses, tree.kind? parent = some (.bool clauses))
      ∨ ∃ connective chainRoot, tree.InChain connective chainRoot id
        ∧ tree.InChain connective chainRoot parent)
  := by
  rcases h with hid | ⟨hid, hne⟩
  · obtain ⟨clauses, hbool, -⟩ := hwf.clause_iff.mp hid
    exact ⟨_, hwf.parent_clause hid, Or.inl ⟨clauses, hbool⟩⟩
  · obtain ⟨parent, hparent, hin⟩ := hwf.parent_inChain hid hne
    exact ⟨parent, hparent, Or.inr ⟨_, _, hid, hin⟩⟩

/-- No part stands in a slot. -/
theorem not_isPart_of_mem_slot (hwf : tree.WellFormed) (hk : tree.kind? id = some kind)
    (hslot : slot ∈ tree.slots id kind) (hchild : child ∈ slot) :
  ¬tree.IsPart child
  := by
  intro hpart
  obtain ⟨parent, hparent, hfamily⟩ := hpart.exists_parent hwf
  -- Below a scope or a clause there are no parts.
  have hloose : ∀ {own kind'}, child ∈ tree.childrenOf own → tree.kind? own = some kind' →
      (∀ clauses, kind' ≠ .bool clauses) → (∀ membership, kind' ≠ .chain membership) → False := by
    intro own kind' hmem hk' hbool hchain
    have hown := hwf.mem_childrenOf.mp hmem
    rw [hparent, Option.some.injEq] at hown
    subst hown
    rcases hfamily with ⟨clauses, hk''⟩ | ⟨_, _, -, conditions, hk''⟩
    · rw [hk', Option.some.injEq] at hk''
      apply hbool _ hk''
    · rw [hk', Option.some.injEq] at hk''
      apply hchain _ hk''
  cases kind with
  | scope | negation | nested _ =>
    rw [slots, List.mem_singleton] at hslot
    apply hloose (hslot ▸ hchild) hk (by simp) (by simp)
  | bool clauses =>
    obtain ⟨part, -, rfl⟩ := List.mem_map.mp hslot
    apply hloose hchild (hwf.clause_iff.mpr ⟨clauses, hk, rfl⟩) (by simp) (by simp)
  | chain membership =>
    obtain ⟨connective, chainRoot, conditions⟩ := membership
    rw [slots] at hslot
    split_ifs at hslot with hroot
    · obtain rfl : chainRoot = id := hroot
      obtain ⟨condition, hcondition, rfl⟩ := List.mem_map.mp hslot
      obtain ⟨hmem, houtside⟩ := List.mem_filter.mp hchild
      have hown := hwf.mem_childrenOf.mp hmem
      rw [hparent, Option.some.injEq] at hown
      subst hown
      have hin := (hwf.mem_conditions hk).mp hcondition
      rcases hfamily with ⟨clauses, hk'⟩ | ⟨_, _, hchild', hin'⟩
      · obtain ⟨_, hk''⟩ := hin
        simp [hk'] at hk''
      · obtain ⟨rfl, rfl⟩ := hin.unique hin'
        rw [isMember_iff.mpr hchild'] at houtside
        simp at houtside
    · simp at hslot
  | fragment _ | faulty _ | custom _ | clause _ _ => simp [slots] at hslot

/-- What holds of a node when it holds of what stands in its slots holds of every node that is not
a part. -/
@[elab_as_elim]
theorem WellFormed.slotInduction (hwf : tree.WellFormed)
    {motive : (id : Nat) → id < tree.size → ¬tree.IsPart id → Prop}
    (node : ∀ {id kind} (hid : id < tree.size) (hpart : ¬tree.IsPart id)
      (hk : tree.kind? id = some kind)
      (_ : ∀ slot (hslot : slot ∈ tree.slots id kind) child (hchild : child ∈ slot),
        motive child (calls_of_mem_slot hwf hk hslot hchild).lt_size
          (not_isPart_of_mem_slot hwf hk hslot hchild)),
      motive id hid hpart)
    (id : Nat) (hid : id < tree.size) (hpart : ¬tree.IsPart id) :
  motive id hid hpart
  := by
  -- What stands in a slot has a greater number than its owner.
  induction id, hid using tree.laterInduction with
  | node id hid ih =>
    obtain ⟨kind, hk⟩ := exists_kind?_of_lt hid
    apply node hid hpart hk
    intro slot hslot child hchild
    apply ih child ((calls_of_mem_slot hwf hk hslot hchild).lt hwf)

/-- What holds of the top scope, and of a node when it holds of its caller, holds of every node that
is not a part. -/
@[elab_as_elim]
theorem WellFormed.callerInduction (hwf : tree.WellFormed)
    {motive : (id : Nat) → id < tree.size → ¬tree.IsPart id → Prop}
    (root : ∀ hid hpart, motive root hid hpart)
    (called : ∀ {head id} (hid : id < tree.size) (hpart : ¬tree.IsPart id)
      (hcalls : tree.Calls head id),
      motive head (Nat.lt_trans (hcalls.lt hwf) hid) (hcalls.not_isPart hwf) →
        motive id hid hpart)
    (id : Nat) (hid : id < tree.size) (hpart : ¬tree.IsPart id) :
  motive id hid hpart
  := by
  -- The caller of a node has a smaller number.
  induction id using Nat.strongRecOn with
  | ind id ih =>
    rcases Nat.eq_zero_or_pos id with rfl | hpos
    · apply root hid hpart
    · obtain ⟨head, hcalls⟩ := exists_calls hwf hpos hid
      apply called hid hpart hcalls (ih head (hcalls.lt hwf) _ _)

theorem disjoint_childrenOf (hwf : tree.WellFormed) {other : Nat} (hne : id ≠ other) :
  List.Disjoint (tree.childrenOf id) (tree.childrenOf other)
  := by
  intro child hchild hchild'
  have hparent := hwf.mem_childrenOf.mp hchild
  rw [hwf.mem_childrenOf.mp hchild', Option.some.injEq] at hparent
  apply hne hparent.symm

theorem WellFormed.clauses_injective (hwf : tree.WellFormed) {clauses : Clauses}
    (hk : tree.kind? id = some (.bool clauses)) {part other : Clause} (hne : part ≠ other) :
  clauses.get part ≠ clauses.get other
  := by
  rw [hwf.clauses_eq hk]
  cases part <;> cases other <;> simp [Clauses.get] at hne ⊢

/-- No node stands in the slots of a node twice. -/
theorem nodup_slots (hwf : tree.WellFormed) (hk : tree.kind? id = some kind) :
  (tree.slots id kind).flatten.Nodup
  := by
  cases kind with
  | scope | negation | nested _ => simpa [slots] using hwf.nodup_childrenOf
  | bool clauses =>
    rw [slots, ← List.flatMap_def, List.nodup_flatMap]
    use fun _ _ => hwf.nodup_childrenOf
    have hall : Clause.all.Pairwise (· ≠ ·) := by decide
    apply hall.imp fun hne => disjoint_childrenOf hwf (hwf.clauses_injective hk hne)
  | chain membership =>
    obtain ⟨connective, chainRoot, conditions⟩ := membership
    rw [slots]
    split
    · next hroot =>
      obtain rfl : chainRoot = id := hroot
      rw [← List.flatMap_def, List.nodup_flatMap]
      use fun _ _ => hwf.nodup_childrenOf.filter _
      apply (hwf.conditions_ascending hk).imp
      intro member other hlt child hchild hchild'
      apply disjoint_childrenOf hwf (Nat.ne_of_lt hlt) (List.mem_filter.mp hchild).1
        (List.mem_filter.mp hchild').1
    · simp
  | fragment _ | faulty _ | custom _ | clause _ _ => simp [slots]

/-- A bool filter has no obstacle exactly when it has no filters but its clauses. -/
theorem obstacle?_bool_eq_none_iff {clauses : Clauses} :
  tree.obstacle? id (.bool clauses) = none
    ↔ ∀ child ∈ tree.childrenOf id, clauses.contains child = true
  := by
  simp [obstacle?, misplaced]

/-- A child that a member does not share with its chain is not in the chain. -/
theorem not_inChain_of_not_isPart (hwf : tree.WellFormed) {connective : Connective}
    {chainRoot parent : Nat} (hparent : tree.parent? child = some parent)
    (hin : tree.InChain connective chainRoot parent) (hchild : ¬tree.IsPart child) :
  ¬tree.InChain connective chainRoot child
  := by
  intro hin'
  by_cases hne : child = chainRoot
  · subst hne
    apply hwf.parent_not_inChain hin' hparent _ hin
  · apply hchild (.member hin' hne)

/-- A node that is not a part stands in a slot of its caller. -/
theorem mem_slots (hwf : tree.WellFormed) (hnative : tree.Native) (hcalls : tree.Calls id child)
    (hchild : ¬tree.IsPart child) (hk : tree.kind? id = some kind)
    (hobstacle : tree.obstacle? id kind = none) :
  child ∈ (tree.slots id kind).flatten
  := by
  obtain ⟨parent, hparent, kind', hk', rfl⟩ := hcalls
  have hmem := hwf.mem_childrenOf.mpr hparent
  cases kind' with
  | scope | negation | nested _ =>
    obtain rfl := Option.some.inj (hk'.symm.trans hk)
    simpa [slots, NodeKind.rootOfFamily?] using hmem
  | fragment document => simp [hwf.childrenOf_fragment hk'] at hmem
  | faulty fault =>
    obtain rfl := Option.some.inj (hk'.symm.trans hk)
    simp [obstacle?] at hobstacle
  | custom composer => exact absurd hk' (hnative _ _)
  | bool clauses =>
    obtain rfl := Option.some.inj (hk'.symm.trans hk)
    obtain ⟨part, rfl⟩ :=
      Clauses.contains_iff.mp (obstacle?_bool_eq_none_iff.mp hobstacle child hmem)
    exact absurd (.clause (hwf.clause_iff.mpr ⟨clauses, hk', rfl⟩)) hchild
  | clause bool part =>
    obtain ⟨clauses, hbool, rfl⟩ := hwf.clause_iff.mp hk'
    obtain rfl := Option.some.inj (hbool.symm.trans hk)
    rw [slots, ← List.flatMap_def, List.mem_flatMap]
    exact ⟨part, part.mem_all, hmem⟩
  | chain membership =>
    obtain ⟨connective, chainRoot, own⟩ := membership
    have hin : tree.InChain connective chainRoot parent := ⟨own, hk'⟩
    obtain ⟨conditions, hroot⟩ := hwf.root_inChain hin
    obtain rfl := Option.some.inj (hroot.symm.trans hk)
    have houtside : tree.isMember ⟨connective, chainRoot, conditions⟩ child = false := by
      rw [← Bool.not_eq_true, isMember_iff]
      apply not_inChain_of_not_isPart hwf hparent hin hchild
    simp only [slots, NodeKind.rootOfFamily?, Option.getD_some, if_true, ← List.flatMap_def,
      List.mem_flatMap]
    exact ⟨parent, (hwf.mem_conditions hroot).mpr hin, List.mem_filter.mpr ⟨hmem, by
      simp [houtside]⟩⟩

/-- A node that is not a part stands in the slots of its caller, once. -/
theorem count_slots (hwf : tree.WellFormed) (hnative : tree.Native) (hcalls : tree.Calls id child)
    (hchild : ¬tree.IsPart child) (hk : tree.kind? id = some kind)
    (hobstacle : tree.obstacle? id kind = none) :
  (tree.slots id kind).flatten.count child = 1
  := List.count_eq_one_of_mem (nodup_slots hwf hk)
    (mem_slots hwf hnative hcalls hchild hk hobstacle)

end FilterTree

end FilteredSearch
