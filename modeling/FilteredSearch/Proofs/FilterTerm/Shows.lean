import FilteredSearch.Proofs.FilterTerm.Basic
import FilteredSearch.Proofs.FilterTree.WellFormed

/-!
# Terms in a tree

A node of a filter tree shows a term when the node and the nodes below it are what the term
describes.  A member of a chain shows its filters with regard to the chain around it, and gives the
nodes that its filters add to the chain, in order.
-/

namespace FilteredSearch

namespace FilterTree

mutual

/-- The node shows the term below a node with the given chain around it, and adds the members
to the chain. -/
def Shows (tree : FilterTree) (around : Option (Connective × Nat)) :
    FilterTerm → Nat → List Nat → Prop
  | .leaf test, id, members => tree.kind? id = some test.kind ∧ members = []
  | .wrap filters, id, members =>
    tree.kind? id = some .scope ∧ members = []
      ∧ tree.ShowsAll none filters (tree.childrenOf id) []
  | .negation filters, id, members =>
    tree.kind? id = some .negation ∧ members = []
      ∧ tree.ShowsAll none filters (tree.childrenOf id) []
  | .nested field filters, id, members =>
    tree.kind? id = some (.ofNested field) ∧ members = []
      ∧ tree.ShowsAll none filters (tree.childrenOf id) []
  | .bool own must mustNot should, id, members =>
    ∃ clauses misplaced, tree.kind? id = some (.bool clauses) ∧ members = []
      ∧ tree.childrenOf id = Clause.all.map clauses.get ++ misplaced
      ∧ tree.ShowsAll none own misplaced []
      ∧ tree.ShowsAll none must (tree.childrenOf (clauses.get .must)) []
      ∧ tree.ShowsAll none mustNot (tree.childrenOf (clauses.get .mustNot)) []
      ∧ tree.ShowsAll none should (tree.childrenOf (clauses.get .should)) []
  | .chain connective filters, id, members =>
    ∃ chainRoot inner,
      tree.ShowsAll (some (connective, chainRoot)) filters (tree.childrenOf id) inner
      ∧ (around = some (connective, chainRoot) ∧ tree.InChain connective chainRoot id
          ∧ members = id :: inner
        ∨ (∀ other, around ≠ some (connective, other)) ∧ chainRoot = id
          ∧ tree.kind? id = some (.chain ⟨connective, id, id :: inner⟩) ∧ members = [])

/-- The nodes show the terms, one for one, and add the members to the chain around them. -/
def ShowsAll (tree : FilterTree) (around : Option (Connective × Nat)) :
    List FilterTerm → List Nat → List Nat → Prop
  | [], ids, members => ids = [] ∧ members = []
  | filter :: filters, ids, members =>
    ∃ id others first rest, ids = id :: others ∧ members = first ++ rest
      ∧ tree.Shows around filter id first ∧ tree.ShowsAll around filters others rest

end

variable {tree tree' : FilterTree} {around : Option (Connective × Nat)} {n id : Nat}
  {term : FilterTerm} {filters : List FilterTerm} {ids members : List Nat}

theorem Shows.lt_size (h : tree.Shows around term id members) :
  id < tree.size
  := by
  cases term with
  | leaf test => apply lt_size_of_kind? h.1
  | wrap filters | negation filters | nested field filters => apply lt_size_of_kind? h.1
  | bool own must mustNot should =>
    obtain ⟨_, _, hk, -⟩ := h
    apply lt_size_of_kind? hk
  | chain connective filters =>
    obtain ⟨_, _, -, ⟨-, hin, -⟩ | ⟨-, -, hk, -⟩⟩ := h
    · apply hin.lt_size
    · apply lt_size_of_kind? hk

theorem ShowsAll.length_eq (h : tree.ShowsAll around filters ids members) :
  ids.length = filters.length
  := by
  induction filters generalizing ids members with
  | nil => rw [h.1]; rfl
  | cons filter filters ih =>
    obtain ⟨id, others, first, rest, rfl, -, -, hothers⟩ := h
    rw [List.length_cons, List.length_cons, ih hothers]

/-- A filter that does not join the chain around it adds no members. -/
theorem Shows.members_eq_nil (h : tree.Shows around term id members)
    (hjoins : term.joins (around.map Prod.fst) = false) :
  members = []
  := by
  cases term with
  | leaf test => apply h.2
  | wrap filters | negation filters | nested field filters => apply h.2.1
  | bool own must mustNot should =>
    obtain ⟨_, _, -, hmembers, -⟩ := h
    apply hmembers
  | chain connective filters =>
    obtain ⟨_, _, -, ⟨rfl, -⟩ | ⟨-, -, -, hmembers⟩⟩ := h
    · simp [FilterTerm.joins] at hjoins
    · apply hmembers

theorem ShowsAll.members_eq_nil (h : tree.ShowsAll none filters ids members) :
  members = []
  := by
  induction filters generalizing ids members with
  | nil => apply h.2
  | cons filter filters ih =>
    obtain ⟨_, _, _, _, -, rfl, hfirst, hrest⟩ := h
    rw [hfirst.members_eq_nil filter.joins_none, ih hrest, List.append_nil]

/-- Terms shown after others are shown in one row with them. -/
theorem ShowsAll.append {more : List FilterTerm} {moreIds moreMembers : List Nat}
    (h : tree.ShowsAll around filters ids members)
    (hmore : tree.ShowsAll around more moreIds moreMembers) :
  tree.ShowsAll around (filters ++ more) (ids ++ moreIds) (members ++ moreMembers)
  := by
  induction filters generalizing ids members with
  | nil =>
    obtain ⟨rfl, rfl⟩ := h
    apply hmore
  | cons filter filters ih =>
    obtain ⟨id, others, first, rest, rfl, rfl, hfirst, hrest⟩ := h
    exact ⟨id, others ++ moreIds, first, rest ++ moreMembers, rfl, List.append_assoc _ _ _, hfirst,
      ih hrest⟩

theorem ShowsAll.singleton (h : tree.Shows around term id members) :
  tree.ShowsAll around [term] [id] members
  := ⟨id, [], members, [], rfl, (List.append_nil _).symm, h, rfl, rfl⟩

/-! ### Trees that agree -/

/-- The second tree has the nodes of the first one from a number on. -/
def AgreesFrom (n : Nat) (tree tree' : FilterTree) : Prop :=
  ∀ id, n ≤ id → id < tree.size →
    tree'.kind? id = tree.kind? id ∧ tree'.childrenOf id = tree.childrenOf id

/-- All children of a node come from a number on when the node does. -/
theorem le_of_mem_childrenOf (hwf : tree.WellFormed) (hid : n ≤ id) :
  ∀ child ∈ tree.childrenOf id, n ≤ child
  := by
  intro child hchild
  have := (hwf.lt_of_mem_childrenOf hchild).1
  omega

mutual

/-- A term is shown in every tree that agrees from the node of the term on. -/
theorem Shows.of_agrees (hwf : tree.WellFormed) (hagrees : AgreesFrom n tree tree')
    {around : Option (Connective × Nat)} {id : Nat} {members : List Nat} (hid : n ≤ id) :
    (term : FilterTerm) → tree.Shows around term id members → tree'.Shows around term id members
  | .leaf test, h => by
    obtain ⟨hk, hmembers⟩ := h
    exact ⟨(hagrees id hid (lt_size_of_kind? hk)).1.trans hk, hmembers⟩
  | .wrap filters, h | .negation filters, h | .nested _ filters, h => by
    obtain ⟨hkind, hchildren⟩ := hagrees id hid h.lt_size
    obtain ⟨hk, hmembers, hfilters⟩ := h
    use hkind.trans hk, hmembers
    rw [hchildren]
    apply ShowsAll.of_agrees hwf hagrees (le_of_mem_childrenOf hwf hid) filters hfilters
  | .bool own must mustNot should, h => by
    obtain ⟨hkind, hchildren⟩ := hagrees id hid h.lt_size
    obtain ⟨clauses, misplaced, hk, hmembers, hsplit, hown, hmust, hmustNot, hshould⟩ := h
    have hmisplaced : ∀ child ∈ misplaced, n ≤ child := by
      intro child hchild
      apply le_of_mem_childrenOf hwf hid
      rw [hsplit]
      apply List.mem_append_right _ hchild
    have hclause : ∀ part, n ≤ clauses.get part
        ∧ tree'.childrenOf (clauses.get part) = tree.childrenOf (clauses.get part) := by
      intro part
      have hle : n ≤ clauses.get part := by
        rw [hwf.clauses_eq hk]
        cases part <;> simp only [Clauses.get] <;> omega
      exact ⟨hle, (hagrees _ hle (lt_size_of_kind? (hwf.clause_iff.mpr ⟨clauses, hk, rfl⟩))).2⟩
    refine ⟨clauses, misplaced, hkind.trans hk, hmembers, hchildren.trans hsplit, ?_, ?_, ?_, ?_⟩
    · apply ShowsAll.of_agrees hwf hagrees hmisplaced own hown
    · rw [(hclause .must).2]
      apply ShowsAll.of_agrees hwf hagrees (le_of_mem_childrenOf hwf (hclause .must).1) must hmust
    · rw [(hclause .mustNot).2]
      apply ShowsAll.of_agrees hwf hagrees (le_of_mem_childrenOf hwf (hclause .mustNot).1) mustNot
        hmustNot
    · rw [(hclause .should).2]
      apply ShowsAll.of_agrees hwf hagrees (le_of_mem_childrenOf hwf (hclause .should).1) should
        hshould
  | .chain connective filters, h => by
    obtain ⟨hkind, hchildren⟩ := hagrees id hid h.lt_size
    obtain ⟨chainRoot, inner, hfilters, hchain⟩ := h
    use chainRoot, inner
    constructor
    · rw [hchildren]
      apply ShowsAll.of_agrees hwf hagrees (le_of_mem_childrenOf hwf hid) filters hfilters
    · simp only [InChain, hkind]
      apply hchain

theorem ShowsAll.of_agrees (hwf : tree.WellFormed) (hagrees : AgreesFrom n tree tree')
    {around : Option (Connective × Nat)} {ids members : List Nat} (hids : ∀ id ∈ ids, n ≤ id) :
    (filters : List FilterTerm) → tree.ShowsAll around filters ids members →
      tree'.ShowsAll around filters ids members
  | [], h => h
  | filter :: filters, h => by
    obtain ⟨id, others, first, rest, rfl, rfl, hfirst, hrest⟩ := h
    obtain ⟨hid, hothers⟩ := List.forall_mem_cons.mp hids
    exact ⟨id, others, first, rest, rfl, rfl, Shows.of_agrees hwf hagrees hid filter hfirst,
      ShowsAll.of_agrees hwf hagrees hothers filters hrest⟩

end

end FilterTree

end FilteredSearch
