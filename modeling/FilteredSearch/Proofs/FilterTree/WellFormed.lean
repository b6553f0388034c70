import FilteredSearch.Proofs.FilterTree.Chains
import FilteredSearch.Proofs.FilterTree.Clauses

/-!
# Well-formed filter trees

In a well-formed filter tree the links between parents and children agree, every bool filter has
its three clauses, every chain of and-filters or or-filters hangs together and is listed by its
root, and nothing stands below a leaf.  The tree with nothing in it is well formed, and a tree
into which a node, a bool filter or a member of a chain is put stays well formed.
-/

namespace FilteredSearch

/-- The kind is that of a node without a family. -/
def NodeKind.IsLoose : NodeKind → Prop
  | .bool _ | .clause _ _ | .chain _ => False
  | _ => True

theorem NodeKind.IsLoose.ne_chain {kind : NodeKind} (h : kind.IsLoose) (membership : Chain) :
  kind ≠ .chain membership
  := by
  rintro rfl
  exact h

namespace FilterTree

/-- The tree is as building from nothing leaves it. -/
structure WellFormed (tree : FilterTree) : Prop extends
    Linked tree, ClausesFit tree, ChainsLinked tree, ConditionsFit tree where
  /-- Nothing was put below a leaf. -/
  childrenOf_fragment : ∀ {id document}, tree.kind? id = some (.fragment document) →
    tree.childrenOf id = []

variable {tree : FilterTree} {id parent : Nat} {kind : NodeKind}
  {connective : Connective}

/-- The node is there and takes filters. -/
def Takes (tree : FilterTree) (id : Nat) : Prop :=
  ∃ kind, tree.kind? id = some kind ∧ ∀ document, kind ≠ .fragment document

theorem Takes.lt_size (h : tree.Takes id) :
  id < tree.size
  := by
  obtain ⟨kind, hk, -⟩ := h
  apply lt_size_of_kind? hk

theorem Takes.ne_fragment (h : tree.Takes id) {document : Json} :
  tree.kind? id ≠ some (.fragment document)
  := by
  obtain ⟨kind, hk, hkind⟩ := h
  simpa [hk] using hkind document

theorem wellFormed_empty :
  FilterTree.empty.WellFormed
  where
  toLinked := linked_empty
  toClausesFit := clausesFit_empty
  toChainsLinked := chainsLinked_empty
  toConditionsFit := conditionsFit_empty
  childrenOf_fragment _ := childrenOf_empty

theorem WellFormed.addNode (h : tree.WellFormed) (hparent : tree.Takes parent)
    (hkind : kind.IsLoose) :
  (tree.addNode parent kind).value.WellFormed
  where
  toLinked := h.toLinked.append hparent.lt_size
  toClausesFit := h.toClausesFit.append hparent.lt_size (by rintro _ rfl; exact hkind)
    (by rintro _ _ rfl; exact hkind)
  toChainsLinked := h.toChainsLinked.append hkind.ne_chain
  toConditionsFit := h.toConditionsFit.append hkind.ne_chain
  childrenOf_fragment := by
    intro id document hk
    change (tree.append parent kind).kind? id = _ at hk
    change (tree.append parent kind).childrenOf id = _
    rw [childrenOf_append hparent.lt_size]
    rw [kind?_append] at hk
    by_cases hnew : id = tree.size
    · have := hparent.lt_size
      rw [if_neg (by omega), childrenOf_of_size_le (by omega)]
    · rw [if_neg hnew] at hk
      rw [if_neg (fun hid => hparent.ne_fragment (hid ▸ hk)), h.childrenOf_fragment hk]

theorem WellFormed.addBool (h : tree.WellFormed) (hparent : tree.Takes parent) :
  (tree.addBool parent).value.WellFormed
  where
  toLinked := h.toLinked.addBool hparent.lt_size
  toClausesFit := h.toClausesFit.addBool hparent.lt_size
  toChainsLinked := h.toChainsLinked.addBool
  toConditionsFit := h.toConditionsFit.addBool
  childrenOf_fragment := by
    intro id document hk
    rw [value_addBool, kind?_append_eq_some_iff (by simp), kind?_append_eq_some_iff (by simp),
      kind?_append_eq_some_iff (by simp), kind?_append_eq_some_iff (by simp)] at hk
    rw [childrenOf_addBool hparent.lt_size, if_neg (Nat.ne_of_lt (lt_size_of_kind? hk)),
      if_neg (fun hid => hparent.ne_fragment (hid ▸ hk)), h.childrenOf_fragment hk]

theorem WellFormed.addChain (h : tree.WellFormed) (hparent : tree.Takes parent) :
  (tree.addChain parent connective).value.WellFormed
  where
  toLinked := h.toLinked.addChain hparent.lt_size
  toClausesFit := h.toClausesFit.addChain hparent.lt_size
  toChainsLinked := h.toChainsLinked.addChain h.toLinked hparent.lt_size
  toConditionsFit := h.toConditionsFit.addChain h.toChainsLinked
  childrenOf_fragment := by
    intro id document hk
    rw [value_addChain, kind?_addCondition_eq_some_iff (by simp),
      kind?_append_eq_some_iff (by simp)] at hk
    rw [childrenOf_addChain hparent.lt_size,
      if_neg (fun hid => hparent.ne_fragment (hid ▸ hk)), h.childrenOf_fragment hk]

/-! ### Trees that grow -/

/-- The tree grows by what one call puts below one of its nodes: a node without a family, a bool
filter, or a member of a chain. -/
inductive Step (tree : FilterTree) : FilterTree → Prop where
  | node {parent : Nat} {kind : NodeKind} (hparent : tree.Takes parent) (hkind : kind.IsLoose) :
    Step tree (tree.addNode parent kind).value
  | bool {parent : Nat} (hparent : tree.Takes parent) : Step tree (tree.addBool parent).value
  | chain {parent : Nat} (connective : Connective) (hparent : tree.Takes parent) :
    Step tree (tree.addChain parent connective).value

/-- The second tree comes from the first one by calls that put nodes into it. -/
def Grows : FilterTree → FilterTree → Prop := Relation.ReflTransGen Step

variable {tree' tree'' : FilterTree}

protected theorem Grows.refl (tree : FilterTree) :
  Grows tree tree
  := Relation.ReflTransGen.refl

protected theorem Grows.trans (h : Grows tree tree') (h' : Grows tree' tree'') :
  Grows tree tree''
  := Relation.ReflTransGen.trans h h'

theorem Step.grows (h : Step tree tree') :
  Grows tree tree'
  := Relation.ReflTransGen.single h

theorem Step.wellFormed (h : Step tree tree') (hwf : tree.WellFormed) :
  tree'.WellFormed
  := by
  cases h with
  | node hparent hkind => apply hwf.addNode hparent hkind
  | bool hparent => apply hwf.addBool hparent
  | chain connective hparent => apply hwf.addChain hparent

theorem Grows.wellFormed (h : Grows tree tree') (hwf : tree.WellFormed) :
  tree'.WellFormed
  := by
  induction h with
  | refl => apply hwf
  | tail _ hstep ih => apply hstep.wellFormed ih

/-- A node keeps its kind, but for the conditions of a chain. -/
theorem Step.kind? (h : Step tree tree') (hwf : tree.WellFormed)
    (hk : tree.kind? id = some kind) :
  tree'.kind? id = some kind
    ∨ ∃ connective conditions more, kind = .chain ⟨connective, id, conditions⟩
      ∧ tree'.kind? id = some (.chain ⟨connective, id, conditions ++ more⟩)
  := by
  have hlt := lt_size_of_kind? hk
  have hne := Nat.ne_of_lt hlt
  cases h with
  | node hparent hkind => apply Or.inl (by rw [← hk]; exact kind?_append.trans (if_neg hne))
  | bool hparent =>
    rw [kind?_addBool, if_neg hne, if_neg (by omega), if_neg (by omega), if_neg (by omega)]
    apply Or.inl hk
  | @chain parent connective hparent =>
    cases hjoin : tree.joinedRoot? parent connective with
    | none => apply Or.inl (by rw [kind?_addChain_of_new hjoin, if_neg hne, hk])
    | some chainRoot =>
      obtain ⟨conditions, hroot⟩ := hwf.root_inChain (joinedRoot?_eq_some_iff.mp hjoin)
      rw [kind?_addChain_of_joined hjoin hroot, if_neg hne]
      split
      · next hid =>
        subst hid
        rw [hk, Option.some.injEq] at hroot
        apply Or.inr ⟨connective, conditions, _, hroot, rfl⟩
      · apply Or.inl hk

/-- A node keeps its children, and gains others only behind them. -/
theorem Step.childrenOf_prefix (h : Step tree tree') (id : Nat) :
  tree.childrenOf id <+: tree'.childrenOf id
  := by
  cases h with
  | node hparent => apply childrenOf_prefix_append hparent.lt_size
  | bool hparent =>
    rw [childrenOf_addBool hparent.lt_size]
    split_ifs with hnew
    · rw [hnew, childrenOf_of_size_le (Nat.le_refl _)]
      apply List.nil_prefix
    · apply List.prefix_append
    · apply List.prefix_refl
  | chain connective hparent =>
    rw [childrenOf_addChain hparent.lt_size]
    split_ifs
    · apply List.prefix_append
    · apply List.prefix_refl

/-- A node keeps its parent. -/
theorem Step.parent?_eq (h : Step tree tree') (hid : id < tree.size) :
  tree'.parent? id = tree.parent? id
  := by
  have hne := Nat.ne_of_lt hid
  cases h with
  | node hparent => apply parent?_append.trans (if_neg hne)
  | bool hparent => rw [parent?_addBool, if_neg hne, if_neg (by omega)]
  | chain connective hparent => rw [parent?_addChain, if_neg hne]

/-- A node that was there is in the chains in which it was. -/
theorem Step.inChain_iff (h : Step tree tree') (hid : id < tree.size) {chainRoot : Nat} :
  tree'.InChain connective chainRoot id ↔ tree.InChain connective chainRoot id
  := by
  have hne := Nat.ne_of_lt hid
  cases h with
  | node hparent hkind => apply inChain_append hkind.ne_chain
  | bool hparent =>
    simp only [InChain, kind?_addBool, if_neg hne]
    rw [if_neg (by omega), if_neg (by omega), if_neg (by omega)]
  | chain other hparent => simp [inChain_addChain, hne]

/-- A node keeps its kind, but for the conditions of a chain, behind which others are listed. -/
theorem Grows.kind? (h : Grows tree tree') (hwf : tree.WellFormed)
    (hk : tree.kind? id = some kind) :
  tree'.kind? id = some kind
    ∨ ∃ connective conditions more, kind = .chain ⟨connective, id, conditions⟩
      ∧ tree'.kind? id = some (.chain ⟨connective, id, conditions ++ more⟩)
  := by
  induction h with
  | refl => apply Or.inl hk
  | tail hgrows hstep ih =>
    have hwf' := Grows.wellFormed hgrows hwf
    rcases ih with hk' | ⟨connective, conditions, more, rfl, hk'⟩
    · apply hstep.kind? hwf' hk'
    · apply Or.inr
      rcases hstep.kind? hwf' hk' with hk'' | ⟨_, _, later, heq, hk''⟩
      · exact ⟨connective, conditions, more, rfl, hk''⟩
      · cases heq
        exact ⟨connective, conditions, more ++ later, rfl, by rw [hk'', List.append_assoc]⟩

theorem Grows.kind?_of_ne_chain (h : Grows tree tree') (hwf : tree.WellFormed)
    (hk : tree.kind? id = some kind) (hkind : ∀ membership, kind ≠ .chain membership) :
  tree'.kind? id = some kind
  := by
  rcases h.kind? hwf hk with hk' | ⟨_, _, _, heq, -⟩
  · exact hk'
  · exact absurd heq (hkind _)

theorem Grows.takes (h : Grows tree tree') (hwf : tree.WellFormed) (hid : tree.Takes id) :
  tree'.Takes id
  := by
  obtain ⟨kind, hk, hkind⟩ := hid
  rcases h.kind? hwf hk with hk' | ⟨_, _, _, -, hk'⟩
  · exact ⟨kind, hk', hkind⟩
  · exact ⟨_, hk', by simp⟩

theorem Grows.kind?_bool {clauses : Clauses} (h : Grows tree tree') (hwf : tree.WellFormed)
    (hk : tree.kind? id = some (.bool clauses)) :
  tree'.kind? id = some (.bool clauses)
  := h.kind?_of_ne_chain hwf hk (by simp)

theorem Grows.size_le (h : Grows tree tree') :
  tree.size ≤ tree'.size
  := by
  induction h with
  | refl => apply Nat.le_refl _
  | tail _ hstep ih =>
    cases hstep <;> simp only [size_addNode, size_addBool, size_addChain] <;> omega

theorem Grows.parent?_eq (h : Grows tree tree') (hid : id < tree.size) :
  tree'.parent? id = tree.parent? id
  := by
  induction h with
  | refl => rfl
  | tail hgrows hstep ih =>
    rw [hstep.parent?_eq (Nat.lt_of_lt_of_le hid (Grows.size_le hgrows)), ih]

theorem Grows.childrenOf_prefix (h : Grows tree tree') (id : Nat) :
  tree.childrenOf id <+: tree'.childrenOf id
  := by
  induction h with
  | refl => apply List.prefix_rfl
  | tail _ hstep ih => apply ih.trans (hstep.childrenOf_prefix id)

theorem Grows.inChain_iff (h : Grows tree tree') (hid : id < tree.size) {chainRoot : Nat} :
  tree'.InChain connective chainRoot id ↔ tree.InChain connective chainRoot id
  := by
  induction h with
  | refl => rfl
  | tail hgrows hstep ih =>
    rw [hstep.inChain_iff (Nat.lt_of_lt_of_le hid (Grows.size_le hgrows)), ih]

end FilterTree

end FilteredSearch
