import FilteredSearch.Proofs.FilterTree.Callers

/-!
# Trees in which every filter has a place

A tree composes exactly when every one of its filters has a place in the document: when no node
lacks a field path, no scope holds more than one filter, every filter of a bool filter stands in
one of its clauses, and no member of a chain holds more than one filter besides other members.
The conditions are about the whole tree, although the walk starts from the top scope, for the
walk reaches every node.
-/

namespace FilteredSearch

/-- The kind is that of a scope, in which at most one filter is composed. -/
def NodeKind.IsScope : NodeKind → Prop
  | .scope | .negation | .nested _ | .clause _ _ => True
  | _ => False

namespace FilterTree

/-- Every filter of the tree has a place in its document. -/
structure Placed (tree : FilterTree) : Prop where
  resolved : ∀ {id fault}, tree.kind? id ≠ some (.faulty fault)
  scope_le_one : ∀ {id kind}, tree.kind? id = some kind → kind.IsScope →
    (tree.childrenOf id).length ≤ 1
  /-- A bool filter has no children besides its clauses. -/
  bool_contains : ∀ {id clauses}, tree.kind? id = some (.bool clauses) →
    ∀ child ∈ tree.childrenOf id, clauses.contains child = true
  /-- A member of a chain has at most one child that is not a member of the chain. -/
  member_le_one : ∀ {id membership}, tree.kind? id = some (.chain membership) →
    (tree.outsiders membership id).length ≤ 1

variable {tree : FilterTree} {id : Nat} {kind : NodeKind}

/-- A slot can be composed when it holds at most one filter and that filter can be composed. -/
theorem exists_composeSole?_iff {compose : Nat → Except SearchError Json} {slot : List Nat} :
  (∃ document?, composeSole? compose slot = .ok document?)
    ↔ slot.length ≤ 1 ∧ ∀ child ∈ slot, ∃ document, compose child = .ok document
  := by
  match slot with
  | [] => simp [composeSole?, pure, Except.pure]
  | [only] =>
    cases h : compose only <;> simp [composeSole?, h, bind, Except.bind, pure, Except.pure]
  | first :: second :: others => simp [composeSole?, throw, throwThe, MonadExceptOf.throw]

/-- A node can be composed when nothing prevents it and all of its slots can be composed. -/
theorem exists_composeAt_iff (hwf : tree.WellFormed) (hk : tree.kind? id = some kind)
    (hkind : ¬kind.IsCustom) :
  (∃ document, tree.composeAt id = .ok document)
    ↔ tree.obstacle? id kind = none ∧ ∀ slot ∈ tree.slots id kind,
      slot.length ≤ 1 ∧ ∀ child ∈ slot, ∃ document, tree.composeAt child = .ok document
  := by
  rw [composeAt_eq hwf hk hkind]
  cases hobstacle : tree.obstacle? id kind with
  | some error => simp
  | none =>
    simp only [Results.map_eq_ok_iff, true_and, ← exists_composeSole?_iff]
    rw [← Results.exists_mapM_eq_ok_iff]
    constructor
    · rintro ⟨_, documents, hdocuments, -⟩
      exact ⟨documents, hdocuments⟩
    · rintro ⟨documents, hdocuments⟩
      exact ⟨_, documents, hdocuments, rfl⟩

/-- The walk from the top scope reaches every node that is not a part. -/
theorem exists_composeAt_of_root (hwf : tree.WellFormed) (hnative : tree.Native)
    (hroot : ∃ document, tree.composeAt root = .ok document) (hid : id < tree.size)
    (hpart : ¬tree.IsPart id) :
  ∃ document, tree.composeAt id = .ok document
  := by
  induction id, hid, hpart using hwf.callerInduction with
  | root => apply hroot
  | @called head id hid hpart hcalls ih =>
    obtain ⟨kind, hk⟩ := exists_kind?_of_lt (Nat.lt_trans (hcalls.lt hwf) hid)
    obtain ⟨hobstacle, hslots⟩ := (exists_composeAt_iff hwf hk (hnative.not_isCustom hk)).mp ih
    obtain ⟨slot, hslot, hmem⟩ :=
      List.mem_flatten.mp (mem_slots hwf hnative hcalls hpart hk hobstacle)
    apply (hslots slot hslot).2 id hmem

/-- In a tree that composes every filter has a place. -/
theorem placed_of_composeAt_root (hwf : tree.WellFormed) (hnative : tree.Native)
    (hroot : ∃ document, tree.composeAt root = .ok document) :
  tree.Placed
  := by
  have hlocal : ∀ {id kind}, tree.kind? id = some kind → ¬tree.IsPart id →
      tree.obstacle? id kind = none ∧ ∀ slot ∈ tree.slots id kind, slot.length ≤ 1 := by
    intro id kind hk hpart
    have hid := exists_composeAt_of_root hwf hnative hroot (lt_size_of_kind? hk) hpart
    obtain ⟨hobstacle, hslots⟩ := (exists_composeAt_iff hwf hk (hnative.not_isCustom hk)).mp hid
    exact ⟨hobstacle, fun slot hslot => (hslots slot hslot).1⟩
  have hself : ∀ {id kind}, tree.kind? id = some kind → kind.rootOfFamily? id = none →
      ¬tree.IsPart id := by
    intro id kind hk hnone
    apply Heads.not_isPart hwf ⟨kind, hk, by rw [hnone]; rfl⟩
  constructor
  · intro id fault hk
    simpa [obstacle?] using (hlocal hk (hself hk rfl)).1
  · intro id kind hk hkind
    cases kind with
    | scope | negation | nested _ =>
      apply (hlocal hk (hself hk rfl)).2 _ (List.mem_singleton_self _)
    | clause bool part =>
      obtain ⟨clauses, hbool, rfl⟩ := hwf.clause_iff.mp hk
      apply (hlocal hbool (Heads.not_isPart hwf ⟨_, hbool, rfl⟩)).2
      apply List.mem_map_of_mem part.mem_all
    | fragment _ | faulty _ | custom _ | bool _ | chain _ => apply hkind.elim
  · intro id clauses hk
    apply obstacle?_bool_eq_none_iff.mp (hlocal hk (Heads.not_isPart hwf ⟨_, hk, rfl⟩)).1
  · intro id membership hk
    obtain ⟨connective, chainRoot, own⟩ := membership
    obtain ⟨conditions, hroot'⟩ := hwf.root_inChain ⟨own, hk⟩
    apply (hlocal hroot' (Heads.not_isPart hwf ⟨_, hroot', rfl⟩)).2
    rw [slots, if_pos rfl]
    apply List.mem_map_of_mem ((hwf.mem_conditions hroot').mpr ⟨own, hk⟩)

/-- The root of a chain is the only member that is not a part. -/
theorem root_eq_of_not_isPart {membership : Chain} (hk : tree.kind? id = some (.chain membership))
    (hpart : ¬tree.IsPart id) :
  membership.root = id
  := by
  by_contra hne
  apply hpart (.member ⟨membership.conditions, hk⟩ (Ne.symm hne))

theorem Placed.obstacle?_eq_none (h : tree.Placed) (hk : tree.kind? id = some kind)
    (hpart : ¬tree.IsPart id) :
  tree.obstacle? id kind = none
  := by
  cases kind with
  | faulty fault => exact absurd hk h.resolved
  | bool clauses => apply obstacle?_bool_eq_none_iff.mpr (h.bool_contains hk)
  | clause bool part => exact absurd (.clause hk) hpart
  | chain membership => apply if_pos (root_eq_of_not_isPart hk hpart)
  | _ => rfl

theorem Placed.slot_le_one (h : tree.Placed) (hwf : tree.WellFormed)
    (hk : tree.kind? id = some kind) {slot : List Nat} (hslot : slot ∈ tree.slots id kind) :
  slot.length ≤ 1
  := by
  cases kind with
  | scope | negation | nested _ =>
    rw [slots, List.mem_singleton] at hslot
    apply hslot ▸ h.scope_le_one hk trivial
  | bool clauses =>
    obtain ⟨part, -, rfl⟩ := List.mem_map.mp hslot
    apply h.scope_le_one (hwf.clause_iff.mpr ⟨clauses, hk, rfl⟩) trivial
  | chain membership =>
    obtain ⟨connective, chainRoot, conditions⟩ := membership
    rw [slots] at hslot
    split_ifs at hslot with hroot
    · obtain rfl : chainRoot = id := hroot
      obtain ⟨member, hmember, rfl⟩ := List.mem_map.mp hslot
      obtain ⟨own, hk'⟩ := (hwf.mem_conditions hk).mp hmember
      -- Only the connective and the root of a chain say which children are outside it.
      have hmember := h.member_le_one hk'
      apply hmember
    · simp at hslot
  | fragment _ | faulty _ | custom _ | clause _ _ => simp [slots] at hslot

/-- A tree in which every filter has a place can be composed from every node that is not a
part. -/
theorem Placed.exists_composeAt (h : tree.Placed) (hwf : tree.WellFormed) (hnative : tree.Native)
    (hid : id < tree.size) (hpart : ¬tree.IsPart id) :
  ∃ document, tree.composeAt id = .ok document
  := by
  induction id, hid, hpart using hwf.slotInduction with
  | node hid hpart hk ih =>
    rw [exists_composeAt_iff hwf hk (hnative.not_isCustom hk)]
    constructor
    · apply h.obstacle?_eq_none hk hpart
    · intro slot hslot
      use h.slot_le_one hwf hk hslot
      intro child hchild
      apply ih slot hslot child hchild

/-- A tree composes exactly when every filter has a place. -/
theorem exists_compose_iff_placed (hwf : tree.WellFormed) (hnative : tree.Native) :
  (∃ document, tree.compose = .ok document) ↔ tree.Placed
  := by
  rw [compose_eq]
  constructor
  · apply placed_of_composeAt_root hwf hnative
  · intro h
    apply h.exists_composeAt hwf hnative hwf.size_pos
      (Heads.not_isPart hwf ⟨_, hwf.kind_root, rfl⟩)

end FilterTree

end FilteredSearch
