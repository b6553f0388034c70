import FilteredSearch.Proofs.FilterTree.Links

/-!
# Chains of and-filters and or-filters

The members of a chain hang together below its root, and the root lists them in the order in
which they were put into the tree.  Putting nodes into the tree keeps this so: a member that
joins a chain is put below a member and is newer than the members the root lists.
-/

namespace FilteredSearch

namespace FilterTree

/-- Every chain is a part of the tree that hangs together below its root. -/
structure ChainsLinked (tree : FilterTree) : Prop where
  root_le : ∀ {connective chainRoot id}, tree.InChain connective chainRoot id → chainRoot ≤ id
  root_over : ∀ {connective chainRoot id}, tree.InChain connective chainRoot id →
    tree.IsOver chainRoot id
  root_inChain : ∀ {connective chainRoot id}, tree.InChain connective chainRoot id →
    tree.InChain connective chainRoot chainRoot
  /-- A member besides the root was put below a member. -/
  parent_inChain : ∀ {connective chainRoot id}, tree.InChain connective chainRoot id →
    id ≠ chainRoot → ∃ parent, tree.parent? id = some parent ∧
      tree.InChain connective chainRoot parent
  /-- The root was not put below a node that it would have joined. -/
  parent_not_inChain : ∀ {connective id parent}, tree.InChain connective id id →
    tree.parent? id = some parent → ∀ other, ¬tree.InChain connective other parent

/-- The root of every chain lists the members, each once and older members first, and no other
member lists anything. -/
structure ConditionsFit (tree : FilterTree) : Prop where
  conditions_ascending : ∀ {connective id conditions},
    tree.kind? id = some (.chain ⟨connective, id, conditions⟩) → conditions.Pairwise (· < ·)
  mem_conditions : ∀ {connective id conditions member},
    tree.kind? id = some (.chain ⟨connective, id, conditions⟩) →
      (member ∈ conditions ↔ tree.InChain connective id member)
  conditions_of_member : ∀ {connective chainRoot id conditions},
    tree.kind? id = some (.chain ⟨connective, chainRoot, conditions⟩) → id ≠ chainRoot →
      conditions = []

variable {tree : FilterTree} {id parent chainRoot : Nat} {kind : NodeKind}
  {connective : Connective}

theorem not_inChain_empty :
  ¬FilterTree.empty.InChain connective chainRoot id
  := by
  rintro ⟨conditions, hk⟩
  simp [kind?_empty] at hk

theorem chainsLinked_empty :
  FilterTree.empty.ChainsLinked
  where
  root_le hid := absurd hid not_inChain_empty
  root_over hid := absurd hid not_inChain_empty
  root_inChain hid := absurd hid not_inChain_empty
  parent_inChain hid := absurd hid not_inChain_empty
  parent_not_inChain hid := absurd hid not_inChain_empty

theorem conditionsFit_empty :
  FilterTree.empty.ConditionsFit
  where
  conditions_ascending := by simp [kind?_empty]
  mem_conditions := by simp [kind?_empty]
  conditions_of_member := by simp [kind?_empty]

/-- A node outside all chains leaves the chains as they are. -/
theorem ChainsLinked.append (h : tree.ChainsLinked)
    (hkind : ∀ membership, kind ≠ .chain membership) :
  (tree.append parent kind).ChainsLinked
  where
  root_le hid := h.root_le ((inChain_append hkind).mp hid)
  root_over hid := (h.root_over ((inChain_append hkind).mp hid)).mono parent?_append_of_parent?
  root_inChain hid := (inChain_append hkind).mpr (h.root_inChain ((inChain_append hkind).mp hid))
  parent_inChain := by
    intro connective chainRoot id hid hne
    obtain ⟨parent', hparent', hin⟩ := h.parent_inChain ((inChain_append hkind).mp hid) hne
    exact ⟨parent', parent?_append_of_parent? hparent', (inChain_append hkind).mpr hin⟩
  parent_not_inChain := by
    intro connective id parent' hid hparent' other hin
    have hid := (inChain_append hkind).mp hid
    rw [parent?_append, if_neg (Nat.ne_of_lt hid.lt_size)] at hparent'
    apply h.parent_not_inChain hid hparent' other ((inChain_append hkind).mp hin)

/-- A node outside all chains leaves the conditions as they are. -/
theorem ConditionsFit.append (h : tree.ConditionsFit)
    (hkind : ∀ membership, kind ≠ .chain membership) :
  (tree.append parent kind).ConditionsFit
  where
  conditions_ascending hk :=
    h.conditions_ascending ((kind?_append_eq_some_iff (hkind _)).mp hk)
  mem_conditions hk := by
    rw [inChain_append hkind]
    apply h.mem_conditions ((kind?_append_eq_some_iff (hkind _)).mp hk)
  conditions_of_member hk :=
    h.conditions_of_member ((kind?_append_eq_some_iff (hkind _)).mp hk)

theorem ChainsLinked.addBool (h : tree.ChainsLinked) :
  (tree.addBool parent).value.ChainsLinked
  := by
  rw [value_addBool]
  apply (((h.append (by simp)).append (by simp)).append (by simp)).append (by simp)

theorem ConditionsFit.addBool (h : tree.ConditionsFit) :
  (tree.addBool parent).value.ConditionsFit
  := by
  rw [value_addBool]
  apply (((h.append (by simp)).append (by simp)).append (by simp)).append (by simp)

/-- A new member joins the chain of its parent or is the root of a chain of its own. -/
theorem exists_root_addChain (tree : FilterTree) (parent : Nat) (connective : Connective) :
  ∃ newRoot,
    (∀ {other otherRoot id}, (tree.addChain parent connective).value.InChain other otherRoot id
      ↔ id = tree.size ∧ other = connective ∧ otherRoot = newRoot
        ∨ tree.InChain other otherRoot id)
    ∧ (tree.InChain connective newRoot parent
      ∨ newRoot = tree.size ∧ ∀ other, ¬tree.InChain connective other parent)
  := by
  use (tree.joinedRoot? parent connective).getD tree.size
  constructor
  · intro other otherRoot id
    apply inChain_addChain
  · cases hjoin : tree.joinedRoot? parent connective with
    | none => apply Or.inr ⟨rfl, joinedRoot?_eq_none_iff.mp hjoin⟩
    | some chainRoot => apply Or.inl (joinedRoot?_eq_some_iff.mp hjoin)

theorem ChainsLinked.addChain (h : tree.ChainsLinked) (hlinked : tree.Linked)
    (hparent : parent < tree.size) :
  (tree.addChain parent connective).value.ChainsLinked
  := by
  have hparents : ∀ {child id}, tree.parent? child = some id →
      (tree.addChain parent connective).value.parent? child = some id := by
    intro child id hchild
    rw [parent?_addChain, if_neg (Nat.ne_of_lt (lt_size_of_parent? hchild)), hchild]
  have hself : (tree.addChain parent connective).value.parent? tree.size = some parent := by
    rw [parent?_addChain, if_pos rfl]
  obtain ⟨newRoot, hin, hroot⟩ := tree.exists_root_addChain parent connective
  have hold {other otherRoot id} (hid : tree.InChain other otherRoot id) :
      (tree.addChain parent connective).value.InChain other otherRoot id := hin.mpr (Or.inr hid)
  constructor
  case root_le =>
    intro other otherRoot id hid
    rcases hin.mp hid with ⟨rfl, rfl, rfl⟩ | hid
    · rcases hroot with hroot | ⟨rfl, -⟩
      · have := h.root_le hroot
        omega
      · apply Nat.le_refl _
    · apply h.root_le hid
  case root_over =>
    intro other otherRoot id hid
    rcases hin.mp hid with ⟨rfl, rfl, rfl⟩ | hid
    · rcases hroot with hroot | ⟨rfl, -⟩
      · apply Relation.ReflTransGen.tail ((h.root_over hroot).mono hparents) hself
      · apply Relation.ReflTransGen.refl
    · apply (h.root_over hid).mono hparents
  case root_inChain =>
    intro other otherRoot id hid
    rcases hin.mp hid with ⟨rfl, rfl, rfl⟩ | hid
    · rcases hroot with hroot | ⟨rfl, -⟩
      · apply hold (h.root_inChain hroot)
      · apply hin.mpr (Or.inl ⟨rfl, rfl, rfl⟩)
    · apply hold (h.root_inChain hid)
  case parent_inChain =>
    intro other otherRoot id hid hne
    rcases hin.mp hid with ⟨rfl, rfl, rfl⟩ | hid
    · rcases hroot with hroot | ⟨rfl, -⟩
      · exact ⟨parent, hself, hold hroot⟩
      · exact absurd rfl hne
    · obtain ⟨parent', hparent', hin'⟩ := h.parent_inChain hid hne
      exact ⟨parent', hparents hparent', hold hin'⟩
  case parent_not_inChain =>
    intro other id parent' hid hparent' otherRoot hin'
    rw [parent?_addChain] at hparent'
    rcases hin.mp hid with ⟨rfl, rfl, heq⟩ | hid
    · rw [if_pos rfl, Option.some.injEq] at hparent'
      subst hparent'
      rcases hin.mp hin' with ⟨hsize, -⟩ | hin'
      · omega
      · rcases hroot with hroot | ⟨-, hroot⟩
        · have := h.root_le hroot
          omega
        · apply hroot _ hin'
    · rw [if_neg (Nat.ne_of_lt hid.lt_size)] at hparent'
      have hlt := hlinked.parent_lt_child hparent'
      rcases hin.mp hin' with ⟨rfl, -⟩ | hin'
      · exact absurd hid.lt_size (by omega)
      · apply h.parent_not_inChain hid hparent' _ hin'

/-- A chain of its own lists its only member. -/
theorem ConditionsFit.addChain_of_new (h : tree.ConditionsFit) (hchains : tree.ChainsLinked)
    (hnew : tree.joinedRoot? parent connective = none) :
  (tree.addChain parent connective).value.ConditionsFit
  where
  conditions_ascending := by
    intro other id conditions hk
    rw [kind?_addChain_of_new hnew] at hk
    split_ifs at hk
    · cases hk
      apply List.pairwise_singleton _ _
    · apply h.conditions_ascending hk
  mem_conditions := by
    intro other id conditions member hk
    rw [kind?_addChain_of_new hnew] at hk
    rw [inChain_addChain, hnew, Option.getD_none]
    split_ifs at hk with hid
    · cases hk
      have hnot : ¬tree.InChain connective tree.size member := fun hin =>
        Nat.lt_irrefl _ (hchains.root_inChain hin).lt_size
      simp [hnot]
    · rw [h.mem_conditions hk]
      simp [hid]
  conditions_of_member := by
    intro other chainRoot id conditions hk hne
    rw [kind?_addChain_of_new hnew] at hk
    split_ifs at hk with hid
    · cases hk
      exact absurd hid hne
    · apply h.conditions_of_member hk hne

/-- The root of the chain that a node joins lists the node last. -/
theorem ConditionsFit.addChain_of_joined (h : tree.ConditionsFit) {conditions : List Nat}
    (hjoined : tree.joinedRoot? parent connective = some chainRoot)
    (hroot : tree.kind? chainRoot = some (.chain ⟨connective, chainRoot, conditions⟩)) :
  (tree.addChain parent connective).value.ConditionsFit
  where
  conditions_ascending := by
    intro other id listed hk
    rw [kind?_addChain_of_joined hjoined hroot] at hk
    split_ifs at hk with hid
    · cases hk
      apply List.Pairwise.nil
    · cases hk
      apply List.pairwise_append.mpr
      use h.conditions_ascending hroot, List.pairwise_singleton _ _
      intro member hmember new hnew
      rw [List.mem_singleton.mp hnew]
      apply ((h.mem_conditions hroot).mp hmember).lt_size
    · apply h.conditions_ascending hk
  mem_conditions := by
    intro other id listed member hk
    have hlt := lt_size_of_kind? hroot
    rw [kind?_addChain_of_joined hjoined hroot] at hk
    rw [inChain_addChain, hjoined, Option.getD_some]
    split_ifs at hk with hid hid'
    · simp only [Option.some.injEq, NodeKind.chain.injEq, Chain.mk.injEq] at hk
      omega
    · cases hk
      rw [List.mem_append, List.mem_singleton, h.mem_conditions hroot]
      simp [or_comm]
    · rw [h.mem_conditions hk]
      simp [hid']
  conditions_of_member := by
    intro other otherRoot id listed hk hne
    rw [kind?_addChain_of_joined hjoined hroot] at hk
    split_ifs at hk with hid hid'
    · cases hk
      rfl
    · cases hk
      exact absurd hid' hne
    · apply h.conditions_of_member hk hne

theorem ConditionsFit.addChain (h : tree.ConditionsFit) (hchains : tree.ChainsLinked) :
  (tree.addChain parent connective).value.ConditionsFit
  := by
  cases hjoin : tree.joinedRoot? parent connective with
  | none => apply h.addChain_of_new hchains hjoin
  | some chainRoot =>
    obtain ⟨conditions, hroot⟩ := hchains.root_inChain (joinedRoot?_eq_some_iff.mp hjoin)
    apply h.addChain_of_joined hjoin hroot

end FilterTree

end FilteredSearch
