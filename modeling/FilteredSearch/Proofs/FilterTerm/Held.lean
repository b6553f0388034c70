import FilteredSearch.Proofs.FilterTerm.Evaluated
import FilteredSearch.Proofs.FilterTerm.Puts
import FilteredSearch.Proofs.FilterTree.Callers

/-!
# What nodes hold

A scope composes the filters that it holds itself, a bool filter those that its clauses hold, and
the root of a chain those that its members hold, which are never members themselves.  So two trees
that differ only below one node compose to the same if the node holds the same in both of them,
whatever the filters below it are and however they are numbered.
-/

namespace FilteredSearch

namespace FilterTree

variable {tree tree' tree₁ tree₂ : FilterTree} {id : Nat} {kind : NodeKind}
  {filters : List FilterTerm}

/-- The nodes that hold the filters of a node of the kind. -/
def holders (id : Nat) : NodeKind → List Nat
  | .scope | .negation | .nested _ => [id]
  | .bool clauses => Clause.all.map clauses.get
  | .chain membership => if membership.root = id then membership.conditions else []
  | _ => []

theorem mem_of_mem_apart {around : Option (Connective × Nat)} {ids : List Nat} {child : Nat}
    (h : child ∈ tree.apart around ids) :
  child ∈ ids
  := by
  cases around with
  | none => exact h
  | some chain => exact List.mem_of_mem_filter h

/-- What a node holds: what its only child outside its own chain composes to, if there is one. -/
def held (tree : FilterTree) (id : Nat) : Except SearchError (Option Json) :=
  composeSole? tree.composeAt (tree.apart (tree.chainOf? id) (tree.childrenOf id))

theorem held_eq_of_chainOf?_eq_none (h : tree.chainOf? id = none) :
  tree.held id = composeSole? tree.composeAt (tree.childrenOf id)
  := by
  rw [held, h, apart]

theorem mapM_slots_eq_mapM_holders (hwf : tree.WellFormed) (hk : tree.kind? id = some kind) :
  (tree.slots id kind).mapM (composeSole? tree.composeAt) = (holders id kind).mapM tree.held
  := by
  cases kind with
  | scope | negation | nested _ =>
    simp [slots, holders, held_eq_of_chainOf?_eq_none (chainOf?_eq_none hk (by simp))]
  | bool clauses =>
    rw [slots, holders, List.mapM_map, List.mapM_map]
    apply Results.mapM_congr
    intro part _
    have hpart : tree.kind? (clauses.get part) = some (.clause id part) :=
      hwf.clause_iff.mpr ⟨clauses, hk, rfl⟩
    exact (held_eq_of_chainOf?_eq_none (chainOf?_eq_none hpart (by simp))).symm
  | chain membership =>
    obtain ⟨connective, chainRoot, conditions⟩ := membership
    by_cases hroot : chainRoot = id
    · subst hroot
      rw [slots, holders, if_pos rfl, if_pos rfl, List.mapM_map]
      apply Results.mapM_congr
      intro condition hcondition
      rw [held, chainOf?_eq_some_iff.mpr ((hwf.mem_conditions hk).mp hcondition)]
      rfl
    · simp [slots, holders, hroot]
  | fragment _ | faulty _ | custom _ | clause _ _ => rfl

/-- What a node composes to is assembled from what its holders hold. -/
theorem composeAt_eq_of_holders (hwf : tree.WellFormed) (hk : tree.kind? id = some kind)
    (hkind : ¬kind.IsCustom) :
  tree.composeAt id
    = match tree.obstacle? id kind with
      | some error => .error error
      | none => ((holders id kind).mapM tree.held).map kind.assemble
  := by
  rw [← mapM_slots_eq_mapM_holders hwf hk]
  exact FilterTree.composeAt_eq hwf hk hkind

theorem le_and_lt_size_of_mem_holders (hwf : tree.WellFormed) (hk : tree.kind? id = some kind)
    {holder : Nat} (hholder : holder ∈ holders id kind) :
  id ≤ holder ∧ holder < tree.size
  := by
  cases kind with
  | scope | negation | nested _ =>
    obtain rfl := List.mem_singleton.mp hholder
    exact ⟨Nat.le_refl _, lt_size_of_kind? hk⟩
  | bool clauses =>
    obtain ⟨part, -, rfl⟩ := List.mem_map.mp hholder
    have hpart : tree.kind? (clauses.get part) = some (.clause id part) :=
      hwf.clause_iff.mpr ⟨clauses, hk, rfl⟩
    exact ⟨Heads.le hwf ⟨_, hpart, rfl⟩, lt_size_of_kind? hpart⟩
  | chain membership =>
    obtain ⟨connective, chainRoot, conditions⟩ := membership
    rw [holders] at hholder
    split_ifs at hholder with hroot
    · subst hroot
      have hin := (hwf.mem_conditions hk).mp hholder
      exact ⟨hwf.root_le hin, hin.lt_size⟩
    · cases hholder
  | fragment _ | faulty _ | custom _ | clause _ _ => cases hholder

/-! ### Trees that differ below one node -/

/-- The second tree has the nodes of the first one as they are there, but for the children of one
node. -/
structure KeepsBut (tree tree' : FilterTree) (id : Nat) : Prop where
  kind?_eq : ∀ other < tree.size, tree'.kind? other = tree.kind? other
  childrenOf_eq : ∀ other < tree.size, other ≠ id → tree'.childrenOf other = tree.childrenOf other

namespace KeepsBut

theorem chainOf?_eq (h : KeepsBut tree tree' id) {other : Nat} (hlt : other < tree.size) :
  tree'.chainOf? other = tree.chainOf? other
  := by
  rw [chainOf?, h.kind?_eq other hlt, chainOf?]

theorem obstacle?_eq (h : KeepsBut tree tree' id) (hwf : tree.WellFormed)
    (hnew : tree.childrenOf id = []) {other : Nat} (hk : tree.kind? other = some kind) :
  tree'.obstacle? other kind = tree.obstacle? other kind
  := by
  cases kind with
  | bool clauses =>
    have hne : other ≠ id := by
      rintro rfl
      have hclauses := hwf.clauses_prefix hk
      simp [hnew] at hclauses
    simp only [obstacle?, h.childrenOf_eq other (lt_size_of_kind? hk) hne]
  | _ => rfl

/-- Another node has the children outside its chain that it had. -/
theorem apart_eq (h : KeepsBut tree tree' id) (hwf : tree.WellFormed) {other : Nat}
    (hlt : other < tree.size) (hne : other ≠ id) :
  tree'.apart (tree'.chainOf? other) (tree'.childrenOf other)
    = tree.apart (tree.chainOf? other) (tree.childrenOf other)
  := by
  rw [h.chainOf?_eq hlt, h.childrenOf_eq other hlt hne]
  cases tree.chainOf? other with
  | none => rfl
  | some around =>
    apply List.filter_congr
    intro child hchild
    have hchild := (hwf.lt_of_mem_childrenOf hchild).2
    simp only [isMember, h.kind?_eq child hchild]

end KeepsBut

/-- Trees that differ only below one node compose to the same at every other node, and at this one,
if it holds the same in both of them. -/
theorem composeAt_eq_of_held_eq (hwf : tree.WellFormed) (hnative : tree.Native)
    (hnew : tree.childrenOf id = []) (hwf₁ : tree₁.WellFormed) (hwf₂ : tree₂.WellFormed)
    (h₁ : KeepsBut tree tree₁ id) (h₂ : KeepsBut tree tree₂ id)
    (hheld : tree₁.held id = tree₂.held id) {other : Nat} (hlt : other < tree.size) :
  tree₁.composeAt other = tree₂.composeAt other
  := by
  induction other, hlt using tree.laterInduction with
  | node other hlt ih =>
    obtain ⟨kind, hk⟩ := exists_kind?_of_lt hlt
    have hkind := hnative.not_isCustom hk
    have hholders : (holders other kind).mapM tree₁.held
        = (holders other kind).mapM tree₂.held := by
      apply Results.mapM_congr
      intro holder hholder
      obtain ⟨hle, hsize⟩ := le_and_lt_size_of_mem_holders hwf hk hholder
      by_cases hid : holder = id
      · rw [hid, hheld]
      · rw [held, held, h₁.apart_eq hwf hsize hid, h₂.apart_eq hwf hsize hid]
        apply composeSole?_congr
        intro child hchild
        obtain ⟨hlater, hchild⟩ := hwf.lt_of_mem_childrenOf (mem_of_mem_apart hchild)
        exact ih child (Nat.lt_of_le_of_lt hle hlater) hchild
    rw [composeAt_eq_of_holders hwf₁ ((h₁.kind?_eq other hlt).trans hk) hkind,
      composeAt_eq_of_holders hwf₂ ((h₂.kind?_eq other hlt).trans hk) hkind,
      h₁.obstacle?_eq hwf hnew hk, h₂.obstacle?_eq hwf hnew hk, hholders]

end FilterTree

end FilteredSearch
