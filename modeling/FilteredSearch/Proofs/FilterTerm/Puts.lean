import FilteredSearch.Proofs.FilterScript.Contents
import FilteredSearch.Proofs.FilterTerm.Shows

/-!
# Putting terms into a tree

A tree that grows below one node shows new terms there and is otherwise left alone, but for the
root of the chain of the node, which lists the new members.  What grows below the places of a bool
filter likewise leaves the rest of the tree alone.
-/

namespace FilteredSearch

namespace FilterTree

/-- The chain of a node, by its connective and its root. -/
def chainOf? (tree : FilterTree) (id : Nat) : Option (Connective × Nat) :=
  match tree.kind? id with
  | some (.chain membership) => some (membership.connective, membership.root)
  | _ => none

variable {tree tree' tree'' : FilterTree} {id chainRoot bool : Nat} {connective : Connective}
  {filters more : List FilterTerm} {term : FilterTerm} {kind : NodeKind} {clauses : Clauses}
  {contents moreContents : Contents}

theorem chainOf?_eq_some_iff :
  tree.chainOf? id = some (connective, chainRoot) ↔ tree.InChain connective chainRoot id
  := by
  rw [chainOf?, InChain]
  split
  · next membership hk =>
    obtain ⟨_, _, _⟩ := membership
    simp [hk]
  · next hk =>
    simp only [reduceCtorEq, false_iff]
    rintro ⟨conditions, hk'⟩
    apply hk _ hk'

theorem chainOf?_eq_none (hk : tree.kind? id = some kind)
    (hkind : ∀ membership, kind ≠ .chain membership) :
  tree.chainOf? id = none
  := by
  rw [chainOf?, hk]
  cases kind with
  | chain membership => exact absurd rfl (hkind membership)
  | _ => rfl

/-- The second tree is the first one with the filters put below a node. -/
structure Puts (tree tree' : FilterTree) (id : Nat) (filters : List FilterTerm) : Prop where
  size_le : tree.size ≤ tree'.size
  childrenOf_eq : ∀ other < tree.size, other ≠ id → tree'.childrenOf other = tree.childrenOf other
  /-- Only the root of the chain of the node has changed its kind. -/
  kind?_eq : ∀ other < tree.size, (∀ connective, ¬tree.InChain connective other id) →
    tree'.kind? other = tree.kind? other
  /-- The node has new children, which show the filters, and the root of its chain has listed the
  members that the filters add. -/
  shown : ∃ news members, (∀ new ∈ news, tree.size ≤ new)
    ∧ tree'.childrenOf id = tree.childrenOf id ++ news
    ∧ tree'.ShowsAll (tree.chainOf? id) filters news members
    ∧ ∀ {connective chainRoot conditions}, tree.InChain connective chainRoot id →
      tree.kind? chainRoot = some (.chain ⟨connective, chainRoot, conditions⟩) →
      tree'.kind? chainRoot = some (.chain ⟨connective, chainRoot, conditions ++ members⟩)

namespace Puts

protected theorem refl (tree : FilterTree) (id : Nat) :
  Puts tree tree id []
  where
  size_le := Nat.le_refl _
  childrenOf_eq _ _ _ := rfl
  kind?_eq _ _ _ := rfl
  shown := by
    use [], [], by simp, (List.append_nil _).symm, ⟨rfl, rfl⟩
    intro connective chainRoot conditions _ hk
    rw [hk, List.append_nil]

/-- The node stays in its chain. -/
theorem chainOf?_eq (h : Puts tree tree' id filters) (hid : id < tree.size) :
  tree'.chainOf? id = tree.chainOf? id
  := by
  by_cases hroot : ∃ connective, tree.InChain connective id id
  · obtain ⟨connective, conditions, hk⟩ := hroot
    obtain ⟨_, members, -, -, -, hlisted⟩ := h.shown
    have hk' := hlisted ⟨conditions, hk⟩ hk
    rw [chainOf?_eq_some_iff.mpr ⟨conditions, hk⟩, chainOf?_eq_some_iff.mpr ⟨_, hk'⟩]
  · unfold chainOf?
    rw [h.kind?_eq id hid (not_exists.mp hroot)]

theorem inChain_iff (h : Puts tree tree' id filters) (hid : id < tree.size) :
  tree'.InChain connective chainRoot id ↔ tree.InChain connective chainRoot id
  := by
  rw [← chainOf?_eq_some_iff, ← chainOf?_eq_some_iff, h.chainOf?_eq hid]

/-- Every node after the one below which filters are put is left alone. -/
theorem agreesFrom (h : Puts tree tree' id filters) (hwf : tree.WellFormed) {n : Nat}
    (hid : id < n) :
  AgreesFrom n tree tree'
  := by
  intro other hle hlt
  refine ⟨h.kind?_eq other hlt ?_, h.childrenOf_eq other hlt (by omega)⟩
  intro connective hin
  have := hwf.root_le hin
  omega

protected theorem trans (h : Puts tree tree' id filters) (h' : Puts tree' tree'' id more)
    (hwf' : tree'.WellFormed) (hid : id < tree.size) :
  Puts tree tree'' id (filters ++ more)
  where
  size_le := Nat.le_trans h.size_le h'.size_le
  childrenOf_eq := by
    intro other hlt hne
    rw [h'.childrenOf_eq other (Nat.lt_of_lt_of_le hlt h.size_le) hne,
      h.childrenOf_eq other hlt hne]
  kind?_eq := by
    intro other hlt hroot
    rw [h'.kind?_eq other (Nat.lt_of_lt_of_le hlt h.size_le), h.kind?_eq other hlt hroot]
    intro connective
    rw [h.inChain_iff hid]
    apply hroot connective
  shown := by
    obtain ⟨news, members, hnews, hchildren, hshown, hlisted⟩ := h.shown
    obtain ⟨news', members', hnews', hchildren', hshown', hlisted'⟩ := h'.shown
    have hkept := ShowsAll.of_agrees hwf' (h'.agreesFrom hwf' hid) hnews filters hshown
    rw [h.chainOf?_eq hid] at hshown'
    have hall : ∀ new ∈ news ++ news', tree.size ≤ new := List.forall_mem_append.mpr
      ⟨hnews, fun new hnew => Nat.le_trans h.size_le (hnews' new hnew)⟩
    refine ⟨news ++ news', members ++ members', hall, ?_, hkept.append hshown', ?_⟩
    · rw [hchildren', hchildren, List.append_assoc]
    · intro connective chainRoot conditions hin hk
      rw [hlisted' ((h.inChain_iff hid).mpr hin) (hlisted hin hk), List.append_assoc]

/-- A tree with one new node below a node has the term of the new node there. -/
theorem of_child {members : List Nat} (hid : id < tree.size) (hsize : tree.size < tree'.size)
    (hchildren : ∀ other < tree.size, tree'.childrenOf other
      = if other = id then tree.childrenOf other ++ [tree.size] else tree.childrenOf other)
    (hkind : ∀ other < tree.size, (∀ connective, ¬tree.InChain connective other id) →
      tree'.kind? other = tree.kind? other)
    (hshows : tree'.Shows (tree.chainOf? id) term tree.size members)
    (hlisted : ∀ {connective chainRoot conditions}, tree.InChain connective chainRoot id →
      tree.kind? chainRoot = some (.chain ⟨connective, chainRoot, conditions⟩) →
      tree'.kind? chainRoot = some (.chain ⟨connective, chainRoot, conditions ++ members⟩)) :
  Puts tree tree' id [term]
  where
  size_le := Nat.le_of_lt hsize
  childrenOf_eq := by
    intro other hlt hne
    rw [hchildren other hlt, if_neg hne]
  kind?_eq := hkind
  shown := by
    refine ⟨[tree.size], members, by simp, ?_, .singleton hshows, hlisted⟩
    rw [hchildren id hid, if_pos rfl]

/-- When the new node is in no chain of older nodes, the older nodes keep their kinds. -/
theorem of_child_apart (hid : id < tree.size) (hsize : tree.size < tree'.size)
    (hchildren : ∀ other < tree.size, tree'.childrenOf other
      = if other = id then tree.childrenOf other ++ [tree.size] else tree.childrenOf other)
    (hold : ∀ other < tree.size, tree'.kind? other = tree.kind? other)
    (hshows : tree'.Shows (tree.chainOf? id) term tree.size []) :
  Puts tree tree' id [term]
  := by
  apply of_child hid hsize hchildren (fun other hlt _ => hold other hlt) hshows
  intro connective chainRoot conditions _ hroot
  rw [hold chainRoot (lt_size_of_kind? hroot), hroot, List.append_nil]

/-- What is put below a new node is all that is below it. -/
theorem shown_of_new (h : Puts tree tree' id filters) (hnew : tree.childrenOf id = []) :
  ∃ members, tree'.ShowsAll (tree.chainOf? id) filters (tree'.childrenOf id) members
    ∧ ∀ {connective chainRoot conditions}, tree.InChain connective chainRoot id →
      tree.kind? chainRoot = some (.chain ⟨connective, chainRoot, conditions⟩) →
      tree'.kind? chainRoot = some (.chain ⟨connective, chainRoot, conditions ++ members⟩)
  := by
  obtain ⟨news, members, -, hchildren, hshown, hlisted⟩ := h.shown
  rw [hnew, List.nil_append] at hchildren
  subst hchildren
  exact ⟨members, hshown, hlisted⟩

/-- A node without a family that shows a term is put below a node. -/
theorem node (hid : id < tree.size) (hkind : kind.IsLoose)
    (h : Puts (tree.addNode id kind).value tree' tree.size filters)
    (hshows : tree'.kind? tree.size = some kind →
      tree'.ShowsAll none filters (tree'.childrenOf tree.size) [] →
      tree'.Shows (tree.chainOf? id) term tree.size []) :
  Puts tree tree' id [term]
  := by
  have hsize := h.size_le
  rw [size_addNode] at hsize
  have hk : (tree.addNode id kind).value.kind? tree.size = some kind :=
    kind?_append.trans (if_pos rfl)
  have hnone : (tree.addNode id kind).value.chainOf? tree.size = none := by
    apply chainOf?_eq_none hk
    rintro membership rfl
    apply hkind
  have hkinds : ∀ other, other < tree.size + 1 →
      tree'.kind? other = (tree.addNode id kind).value.kind? other := by
    intro other hlt
    apply h.kind?_eq other (by rwa [size_addNode])
    intro connective hin
    rw [← chainOf?_eq_some_iff, hnone] at hin
    cases hin
  have hold : ∀ other < tree.size, tree'.kind? other = tree.kind? other := by
    intro other hlt
    rw [hkinds other (Nat.lt_succ_of_lt hlt)]
    apply kind?_append.trans (if_neg (Nat.ne_of_lt hlt))
  obtain ⟨members, hshown, -⟩ := h.shown_of_new (childrenOf_append_self hid)
  rw [hnone] at hshown
  have hmembers := hshown.members_eq_nil
  subst hmembers
  apply of_child_apart hid hsize _ hold
  · apply hshows ((hkinds _ (Nat.lt_succ_self _)).trans hk) hshown
  · intro other hlt
    rw [h.childrenOf_eq other (by rw [size_addNode]; omega) (Nat.ne_of_lt hlt)]
    apply childrenOf_append hid

/-- An and-filter or or-filter that starts a chain is put below a node. -/
theorem newChain (hid : id < tree.size) (hnew : tree.joinedRoot? id connective = none)
    (h : Puts (tree.addChain id connective).value tree' tree.size filters) :
  Puts tree tree' id [.chain connective filters]
  := by
  have hsize := h.size_le
  rw [size_addChain] at hsize
  have hk : (tree.addChain id connective).value.kind? tree.size
      = some (.chain ⟨connective, tree.size, [tree.size]⟩) := by
    rw [kind?_addChain_of_new hnew, if_pos rfl]
  have hold : ∀ other < tree.size, tree'.kind? other = tree.kind? other := by
    intro other hlt
    rw [h.kind?_eq other (by rw [size_addChain]; omega), kind?_addChain_of_new hnew,
      if_neg (Nat.ne_of_lt hlt)]
    intro own hin
    apply Nat.ne_of_lt hlt (hin.unique ⟨_, hk⟩).2
  obtain ⟨members, hshown, hlisted⟩ := h.shown_of_new (childrenOf_addChain_self hid)
  rw [chainOf?_eq_some_iff.mpr ⟨_, hk⟩] at hshown
  have haround : ∀ other, tree.chainOf? id ≠ some (connective, other) := by
    intro other hin
    apply joinedRoot?_eq_none_iff.mp hnew other (chainOf?_eq_some_iff.mp hin)
  apply of_child_apart hid hsize _ hold
  · exact ⟨tree.size, members, hshown, Or.inr ⟨haround, rfl, hlisted ⟨_, hk⟩ hk, rfl⟩⟩
  · intro other hlt
    rw [h.childrenOf_eq other (by rw [size_addChain]; omega) (Nat.ne_of_lt hlt),
      childrenOf_addChain hid]

/-- An and-filter or or-filter that joins the chain of a node is put below the node. -/
theorem joinedChain (hwf : tree.WellFormed) (hid : id < tree.size)
    (hin : tree.InChain connective chainRoot id)
    (h : Puts (tree.addChain id connective).value tree' tree.size filters) :
  Puts tree tree' id [.chain connective filters]
  := by
  have hjoined := joinedRoot?_eq_some_iff.mpr hin
  obtain ⟨conditions, hroot⟩ := hwf.root_inChain hin
  have hlt := lt_size_of_kind? hroot
  have hsize := h.size_le
  rw [size_addChain] at hsize
  have hkinds : ∀ other, (tree.addChain id connective).value.kind? other = _ := fun other =>
    kind?_addChain_of_joined hjoined hroot
  have hnew : (tree.addChain id connective).value.InChain connective chainRoot tree.size :=
    ⟨[], by rw [hkinds, if_pos rfl]⟩
  have hroot' : (tree.addChain id connective).value.kind? chainRoot
      = some (.chain ⟨connective, chainRoot, conditions ++ [tree.size]⟩) := by
    rw [hkinds, if_neg (Nat.ne_of_lt hlt), if_pos rfl]
  have hold : ∀ other, other < tree.size + 1 → other ≠ chainRoot →
      tree'.kind? other = (tree.addChain id connective).value.kind? other := by
    intro other hother hne
    apply h.kind?_eq other (by rwa [size_addChain])
    intro own hin'
    apply hne (hin'.unique hnew).2
  obtain ⟨members, hshown, hlisted⟩ := h.shown_of_new (childrenOf_addChain_self hid)
  rw [chainOf?_eq_some_iff.mpr hnew] at hshown
  have hshows : tree'.Shows (tree.chainOf? id) (.chain connective filters) tree.size
      (tree.size :: members) := by
    refine ⟨chainRoot, members, hshown, Or.inl ⟨chainOf?_eq_some_iff.mpr hin, ?_, rfl⟩⟩
    use []
    rw [hold tree.size (Nat.lt_succ_self _) (Nat.ne_of_gt hlt), hkinds, if_pos rfl]
  apply of_child hid hsize _ _ hshows
  · intro own otherRoot otherConditions hin' hk
    obtain ⟨rfl, rfl⟩ := hin'.unique hin
    rw [hroot, Option.some.injEq, NodeKind.chain.injEq, Chain.mk.injEq] at hk
    rw [hlisted hnew hroot', ← hk.2.2, List.append_assoc]
    rfl
  · intro other hother
    rw [h.childrenOf_eq other (by rw [size_addChain]; omega) (Nat.ne_of_lt hother),
      childrenOf_addChain hid]
  · intro other hother hnot
    have hne : other ≠ chainRoot := fun heq => hnot connective (heq ▸ hin)
    rw [hold other (Nat.lt_succ_of_lt hother) hne, hkinds, if_neg (Nat.ne_of_lt hother),
      if_neg hne]

/-- An and-filter or or-filter is put below a node. -/
theorem chain (hwf : tree.WellFormed) (hid : id < tree.size)
    (h : Puts (tree.addChain id connective).value tree' tree.size filters) :
  Puts tree tree' id [.chain connective filters]
  := by
  cases hjoin : tree.joinedRoot? id connective with
  | none => apply newChain hid hjoin h
  | some chainRoot => apply joinedChain hwf hid (joinedRoot?_eq_some_iff.mp hjoin) h

end Puts

/-! ### Bool filters -/

/-- The node of a place of a bool filter. -/
def placeNode (bool : Nat) (clauses : Clauses) : Option Clause → Nat
  | none => bool
  | some part => clauses.get part

/-- The second tree is the first one with the contents put on a bool filter and in its clauses. -/
structure Fills (tree tree' : FilterTree) (bool : Nat) (clauses : Clauses) (contents : Contents) :
    Prop where
  size_le : tree.size ≤ tree'.size
  childrenOf_eq : ∀ other < tree.size, (∀ place, other ≠ placeNode bool clauses place) →
    tree'.childrenOf other = tree.childrenOf other
  kind?_eq : ∀ other < tree.size, tree'.kind? other = tree.kind? other
  /-- Every place has new children, which show the filters put there. -/
  shown : ∀ place, ∃ news, (∀ new ∈ news, tree.size ≤ new)
    ∧ tree'.childrenOf (placeNode bool clauses place)
      = tree.childrenOf (placeNode bool clauses place) ++ news
    ∧ tree'.ShowsAll none (contents place) news []

theorem placeNode_lt_size (hwf : tree.WellFormed) (hk : tree.kind? bool = some (.bool clauses))
    (place : Option Clause) :
  placeNode bool clauses place < tree.size
  := by
  cases place with
  | none => apply lt_size_of_kind? hk
  | some part => apply lt_size_of_kind? (hwf.clause_iff.mpr ⟨clauses, hk, rfl⟩)

theorem placeNode_injective (hwf : tree.WellFormed) (hk : tree.kind? bool = some (.bool clauses))
    {place other : Option Clause}
    (heq : placeNode bool clauses place = placeNode bool clauses other) :
  place = other
  := by
  rw [hwf.clauses_eq hk] at heq
  cases place with
  | none => cases other with
    | none => rfl
    | some part => cases part <;> simp [placeNode, Clauses.get] at heq
  | some part => cases other with
    | none => cases part <;> simp [placeNode, Clauses.get] at heq
    | some part' => cases part <;> cases part' <;> simp [placeNode, Clauses.get] at heq ⊢

/-- No place of a bool filter is in a chain. -/
theorem chainOf?_placeNode (hwf : tree.WellFormed) (hk : tree.kind? bool = some (.bool clauses))
    (place : Option Clause) :
  tree.chainOf? (placeNode bool clauses place) = none
  := by
  cases place with
  | none => apply chainOf?_eq_none hk (by simp)
  | some part => apply chainOf?_eq_none (hwf.clause_iff.mpr ⟨clauses, hk, rfl⟩) (by simp)

namespace Fills

protected theorem refl (tree : FilterTree) (bool : Nat) (clauses : Clauses) :
  Fills tree tree bool clauses .nothing
  where
  size_le := Nat.le_refl _
  childrenOf_eq _ _ _ := rfl
  kind?_eq _ _ := rfl
  shown _ := ⟨[], by simp, (List.append_nil _).symm, rfl, rfl⟩

/-- What is put below one place fills the place. -/
theorem of_puts (hwf : tree.WellFormed) (hk : tree.kind? bool = some (.bool clauses))
    {place : Option Clause} (h : Puts tree tree' (placeNode bool clauses place) filters) :
  Fills tree tree' bool clauses (.single place filters)
  where
  size_le := h.size_le
  childrenOf_eq other hlt hne := h.childrenOf_eq other hlt (hne place)
  kind?_eq := by
    intro other hlt
    apply h.kind?_eq other hlt
    intro connective hin
    rw [← chainOf?_eq_some_iff, chainOf?_placeNode hwf hk] at hin
    cases hin
  shown := by
    intro other
    by_cases heq : other = place
    · subst heq
      obtain ⟨news, members, hnews, hchildren, hshown, -⟩ := h.shown
      rw [chainOf?_placeNode hwf hk] at hshown
      have hmembers := hshown.members_eq_nil
      subst hmembers
      exact ⟨news, hnews, hchildren, by rwa [Contents.single_self]⟩
    · use [], by simp
      constructor
      · rw [List.append_nil]
        apply h.childrenOf_eq _ (placeNode_lt_size hwf hk other)
        exact fun hnode => heq (placeNode_injective hwf hk hnode)
      · rw [Contents.single, if_neg heq]
        exact ⟨rfl, rfl⟩

protected theorem trans (h : Fills tree tree' bool clauses contents)
    (h' : Fills tree' tree'' bool clauses moreContents) (hwf : tree.WellFormed)
    (hwf' : tree'.WellFormed) (hk : tree.kind? bool = some (.bool clauses)) :
  Fills tree tree'' bool clauses (contents.append moreContents)
  where
  size_le := Nat.le_trans h.size_le h'.size_le
  childrenOf_eq := by
    intro other hlt hne
    rw [h'.childrenOf_eq other (Nat.lt_of_lt_of_le hlt h.size_le) hne,
      h.childrenOf_eq other hlt hne]
  kind?_eq := by
    intro other hlt
    rw [h'.kind?_eq other (Nat.lt_of_lt_of_le hlt h.size_le), h.kind?_eq other hlt]
  shown := by
    intro place
    obtain ⟨news, hnews, hchildren, hshown⟩ := h.shown place
    obtain ⟨news', hnews', hchildren', hshown'⟩ := h'.shown place
    have hagrees : AgreesFrom tree.size tree' tree'' := by
      intro other hle hlt
      refine ⟨h'.kind?_eq other hlt, h'.childrenOf_eq other hlt ?_⟩
      intro place heq
      have := placeNode_lt_size hwf hk place
      omega
    have hkept := ShowsAll.of_agrees hwf' hagrees hnews (contents place) hshown
    have hall : ∀ new ∈ news ++ news', tree.size ≤ new := List.forall_mem_append.mpr
      ⟨hnews, fun new hnew => Nat.le_trans h.size_le (hnews' new hnew)⟩
    refine ⟨news ++ news', hall, ?_, hkept.append hshown'⟩
    rw [hchildren', hchildren, List.append_assoc]

end Fills

/-- A bool filter is put below a node. -/
theorem Puts.boolFilter (hid : id < tree.size)
    (h : Fills (tree.addBool id).value tree' tree.size tree.nextClauses contents) :
  Puts tree tree' id [contents.toTerm]
  := by
  have hsize := h.size_le
  rw [size_addBool] at hsize
  have hold : ∀ other < tree.size, tree'.kind? other = tree.kind? other := by
    intro other hlt
    rw [h.kind?_eq other (by rw [size_addBool]; omega), kind?_addBool, if_neg (by omega),
      if_neg (by omega), if_neg (by omega), if_neg (by omega)]
  have hshows : tree'.Shows (tree.chainOf? id) contents.toTerm tree.size [] := by
    have hplace : ∀ part, (tree.addBool id).value.childrenOf (tree.nextClauses.get part) = [] := by
      intro part
      have hlt : tree.size < tree.nextClauses.get part := by
        cases part <;> simp only [nextClauses, Clauses.get] <;> omega
      rw [childrenOf_addBool hid, if_neg (Nat.ne_of_gt hlt), if_neg (by omega),
        childrenOf_of_size_le (Nat.le_of_lt hlt)]
    have hclause : ∀ part, tree'.ShowsAll none (contents (some part))
        (tree'.childrenOf (tree.nextClauses.get part)) [] := by
      intro part
      obtain ⟨news, -, hchildren, hshown⟩ := h.shown (some part)
      rw [placeNode, hplace, List.nil_append] at hchildren
      rwa [hchildren]
    obtain ⟨misplaced, -, hchildren, hshown⟩ := h.shown none
    rw [placeNode, childrenOf_addBool hid, if_pos rfl] at hchildren
    refine ⟨tree.nextClauses, misplaced, ?_, rfl, hchildren, hshown, hclause .must,
      hclause .mustNot, hclause .should⟩
    rw [h.kind?_eq _ (by rw [size_addBool]; omega), kind?_addBool, if_pos rfl]
  apply Puts.of_child_apart hid (by omega) _ hold hshows
  intro other hlt
  rw [h.childrenOf_eq other (by rw [size_addBool]; omega), childrenOf_addBool hid,
    if_neg (Nat.ne_of_lt hlt)]
  intro place heq
  have hge : tree.size ≤ placeNode tree.size tree.nextClauses place := by
    rcases place with _ | part
    · apply Nat.le_refl _
    · cases part <;> simp only [placeNode, nextClauses, Clauses.get] <;> omega
  omega

end FilterTree

end FilteredSearch
