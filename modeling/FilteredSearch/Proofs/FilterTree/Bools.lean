import FilteredSearch.Proofs.FilterTree.Slots
import FilteredSearch.Proofs.Json.Record

/-!
# Bool filters

A bool filter composes to an object with one member for every clause that holds a filter.  What was
put below it besides its clauses is misplaced, and then nothing else counts.  Otherwise the clauses
are taken in their order, and the first one that fails says how the bool filter fails: it holds
more than one filter, or the only one does not compose.
-/

namespace FilteredSearch

namespace FilterTree

/-- What a clause gives to its bool filter. -/
def ClauseGives (tree : FilterTree) (clause : Nat) : Except SearchError (Option Json) → Prop :=
  SlotGives tree.composeAt (tree.childrenOf clause)

/-- The bool filter composes what its clauses hold, clause by clause. -/
structure ComposesClauses (tree : FilterTree) (bool : Nat) (clauses : Clauses) : Prop where
  /-- Every child behind the three clauses is a misplaced filter. -/
  misplaced : 3 < (tree.childrenOf bool).length →
    tree.composeAt bool = .error (.misplacedFilters ((tree.childrenOf bool).length - 3))
  /-- The document has what each of the clauses adds, under the name of the clause. -/
  document : (tree.childrenOf bool).length ≤ 3 → ∀ document,
    tree.composeAt bool = .ok document ↔
      ∃ added : Clause → Option Json,
        (∀ part, tree.ClauseGives (clauses.get part) (.ok (added part)))
        ∧ document
          = .singleton "bool" (.record (Clause.all.map fun part => (part.key, added part)))
  /-- The error is that of the first clause that fails. -/
  failure : (tree.childrenOf bool).length ≤ 3 → ∀ error,
    tree.composeAt bool = .error error ↔
      ∃ before part after, Clause.all = before ++ part :: after
        ∧ (∀ earlier ∈ before, ∃ document?,
          tree.ClauseGives (clauses.get earlier) (.ok document?))
        ∧ tree.ClauseGives (clauses.get part) (.error error)

variable {tree : FilterTree} {bool : Nat} {clauses : Clauses}

/-! ### Misplaced filters -/

/-- The children behind the clauses are those that are misplaced. -/
theorem misplaced_append {others : List Nat}
    (hnodup : (Clause.all.map clauses.get ++ others).Nodup) :
  misplaced clauses (Clause.all.map clauses.get ++ others) = others.length
  := by
  have hclauses : (Clause.all.map clauses.get).countP (fun child => !clauses.contains child)
      = 0 := by
    rw [List.countP_eq_zero]
    intro child hchild
    obtain ⟨part, -, rfl⟩ := List.mem_map.mp hchild
    simp [Clauses.contains_iff.mpr ⟨part, rfl⟩]
  have hothers : others.countP (fun child => !clauses.contains child) = others.length := by
    rw [List.countP_eq_length]
    intro child hchild
    rw [Bool.not_eq_true', ← Bool.not_eq_true, Clauses.contains_iff]
    rintro ⟨part, rfl⟩
    apply List.disjoint_of_nodup_append hnodup (List.mem_map_of_mem part.mem_all) hchild
  rw [misplaced, List.countP_append, hclauses, hothers, Nat.zero_add]

/-- The clauses are the first three children of a bool filter, so the others are misplaced. -/
theorem WellFormed.misplaced_eq (hwf : tree.WellFormed)
    (hk : tree.kind? bool = some (.bool clauses)) :
  misplaced clauses (tree.childrenOf bool) = (tree.childrenOf bool).length - 3
  := by
  obtain ⟨others, hothers⟩ := hwf.clauses_prefix hk
  have hsplit : tree.childrenOf bool = Clause.all.map clauses.get ++ others := by
    rw [hwf.clauses_eq hk, ← hothers]
    rfl
  have hnodup : (Clause.all.map clauses.get ++ others).Nodup := hsplit ▸ hwf.nodup_childrenOf
  rw [hsplit, misplaced_append hnodup, List.length_append]
  apply (Nat.add_sub_cancel_left 3 others.length).symm

/-! ### The document of a bool filter -/

theorem assemble_bool (added : Clause → Option Json) :
  (NodeKind.bool clauses).assemble (Clause.all.map added)
    = .singleton "bool" (.record (Clause.all.map fun part => (part.key, added part)))
  := by
  have hmembers : (Clause.all.zip (Clause.all.map added)).filterMap (fun slot =>
        slot.2.map fun document => (slot.1.key, document))
      = (Clause.all.map fun part => (part.key, added part)).filterMap Json.presentMember := by
    rfl
  have hkeys : (Clause.all.map Clause.key).Pairwise (· < ·) := by decide
  rw [NodeKind.assemble, hmembers, Json.ofMembers_eq_record (.refl _)]
  rw [List.map_map]
  exact hkeys

/-- Results for all clauses in order are a result for every clause. -/
theorem exists_forall₂_clauses_iff {α : Type} {R : Clause → α → Prop} {P : List α → Prop} :
  (∃ results, List.Forall₂ R Clause.all results ∧ P results)
    ↔ ∃ result : Clause → α, (∀ part, R part (result part)) ∧ P (Clause.all.map result)
  := by
  constructor
  · rintro ⟨results, hall, hresults⟩
    match results, hall with
    | [must, mustNot, should], .cons hmust (.cons hmustNot (.cons hshould .nil)) =>
      use Clause.rec must mustNot should
      refine ⟨?_, hresults⟩
      intro part
      cases part with
      | must => exact hmust
      | mustNot => exact hmustNot
      | should => exact hshould
  · rintro ⟨result, hall, hresult⟩
    use Clause.all.map result
    refine ⟨?_, hresult⟩
    rw [List.forall₂_map_right_iff, List.forall₂_same]
    exact fun part _ => hall part

/-- A bool filter without misplaced filters composes its clauses in order. -/
theorem composeAt_bool_of_le (hwf : tree.WellFormed) (hk : tree.kind? bool = some (.bool clauses))
    (hle : (tree.childrenOf bool).length ≤ 3) :
  tree.composeAt bool
    = (Clause.all.mapM fun part =>
        composeSole? tree.composeAt (tree.childrenOf (clauses.get part))).map
        (NodeKind.bool clauses).assemble
  := by
  have hnone : ¬0 < (tree.childrenOf bool).length - 3 := by omega
  simp only [composeAt_eq hwf hk (fun h => h), obstacle?, hwf.misplaced_eq hk, if_neg hnone,
    slots, List.mapM_map]
  rfl

theorem WellFormed.composesClauses (hwf : tree.WellFormed)
    (hk : tree.kind? bool = some (.bool clauses)) :
  tree.ComposesClauses bool clauses
  where
  misplaced hlt := by
    have hsome : 0 < (tree.childrenOf bool).length - 3 := by omega
    simp only [composeAt_eq hwf hk (fun h => h), obstacle?, hwf.misplaced_eq hk, if_pos hsome]
  document := by
    intro hle document
    simp only [composeAt_bool_of_le hwf hk hle, Results.map_eq_ok_iff, Results.mapM_eq_ok_iff,
      ← slotGives_iff]
    rw [exists_forall₂_clauses_iff]
    simp only [assemble_bool]
    rfl
  failure := by
    intro hle error
    simp only [composeAt_bool_of_le hwf hk hle, Results.map_eq_error_iff,
      Results.mapM_eq_error_iff, ← slotGives_iff]
    rfl

end FilterTree

end FilteredSearch
