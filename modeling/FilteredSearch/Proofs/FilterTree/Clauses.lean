import FilteredSearch.Proofs.FilterTree.Views

/-!
# Clauses of bool filters

The clauses of a bool filter are the three nodes after it and its first three children, and
there are no other clauses.  Putting nodes into the tree keeps this so.
-/

namespace FilteredSearch

theorem Clauses.contains_iff {clauses : Clauses} {id : Nat} :
  clauses.contains id = true ↔ ∃ part, clauses.get part = id
  := by
  simp [contains, Clause.mem_all]

namespace FilterTree

/-- Every bool filter has its three clauses, and every clause belongs to a bool filter. -/
structure ClausesFit (tree : FilterTree) : Prop where
  clauses_eq : ∀ {id clauses}, tree.kind? id = some (.bool clauses) →
    clauses = ⟨id + 1, id + 2, id + 3⟩
  clauses_prefix : ∀ {id clauses}, tree.kind? id = some (.bool clauses) →
    [id + 1, id + 2, id + 3] <+: tree.childrenOf id
  clause_iff : ∀ {id bool clause}, tree.kind? id = some (.clause bool clause) ↔
    ∃ clauses, tree.kind? bool = some (.bool clauses) ∧ clauses.get clause = id

variable {tree : FilterTree} {id parent : Nat} {kind : NodeKind}
  {connective : Connective}

theorem clausesFit_empty :
  FilterTree.empty.ClausesFit
  where
  clauses_eq := by simp [kind?_empty]
  clauses_prefix := by simp [kind?_empty]
  clause_iff := by simp [kind?_empty]

/-- The clauses stay when the bool filters and clauses stay and no child is taken away. -/
theorem ClausesFit.of_same {tree' : FilterTree} (h : tree.ClausesFit)
    (hbool : ∀ {id clauses}, tree'.kind? id = some (.bool clauses) ↔
      tree.kind? id = some (.bool clauses))
    (hclause : ∀ {id bool clause}, tree'.kind? id = some (.clause bool clause) ↔
      tree.kind? id = some (.clause bool clause))
    (hstays : ∀ id, tree.childrenOf id <+: tree'.childrenOf id) :
  tree'.ClausesFit
  where
  clauses_eq hk := h.clauses_eq (hbool.mp hk)
  clauses_prefix hk := (h.clauses_prefix (hbool.mp hk)).trans (hstays _)
  clause_iff := by
    intro id bool clause
    simp only [hclause, hbool, h.clause_iff]

theorem ClausesFit.append (h : tree.ClausesFit) (hparent : parent < tree.size)
    (hbool : ∀ clauses, kind ≠ .bool clauses) (hclause : ∀ bool part, kind ≠ .clause bool part) :
  (tree.append parent kind).ClausesFit
  := h.of_same (kind?_append_eq_some_iff (hbool _)) (kind?_append_eq_some_iff (hclause _ _))
    (childrenOf_prefix_append hparent)

theorem ClausesFit.addCondition (h : tree.ClausesFit) (chainRoot condition : Nat) :
  (tree.addCondition chainRoot condition).ClausesFit
  := by
  apply h.of_same
  · exact kind?_addCondition_eq_some_iff (by simp)
  · exact kind?_addCondition_eq_some_iff (by simp)
  · intro id
    exact ⟨[], by rw [List.append_nil, childrenOf_addCondition]⟩

theorem ClausesFit.addBool (h : tree.ClausesFit) (hparent : parent < tree.size) :
  (tree.addBool parent).value.ClausesFit
  where
  clauses_eq := by
    intro id clauses hk
    rcases kind?_addBool_eq_bool_iff.mp hk with ⟨rfl, rfl⟩ | hk
    · rfl
    · apply h.clauses_eq hk
  clauses_prefix := by
    intro id clauses hk
    rw [childrenOf_addBool hparent]
    rcases kind?_addBool_eq_bool_iff.mp hk with ⟨rfl, -⟩ | hk
    · simp
    · rw [if_neg (Nat.ne_of_lt (lt_size_of_kind? hk))]
      split
      · apply (h.clauses_prefix hk).trans (List.prefix_append _ _)
      · apply h.clauses_prefix hk
  clause_iff := by
    intro id bool clause
    have hold : bool = tree.size → ∀ clauses, tree.kind? bool ≠ some (.bool clauses) := by
      rintro rfl clauses hk
      apply Nat.lt_irrefl _ (lt_size_of_kind? hk)
    rw [kind?_addBool_eq_clause_iff, h.clause_iff]
    simp only [kind?_addBool_eq_bool_iff]
    grind

theorem ClausesFit.addChain (h : tree.ClausesFit) (hparent : parent < tree.size) :
  (tree.addChain parent connective).value.ClausesFit
  := by
  rw [value_addChain]
  apply (h.append hparent (by simp) (by simp)).addCondition _ _

end FilterTree

end FilteredSearch
