import FilteredSearch.Proofs.FilterTree.Fragments

/-!
# How composing fails

A clause of a bool filter, and a member of a chain besides its root, refuse to be composed, each
with the name of its family.  No other node is refused: a walk that starts at another node never
comes to such a part, nor to a node that is not there.  So it comes to a document, or it fails on
the filters that were put into the tree, which are too many, misplaced or without a field.
-/

namespace FilteredSearch

/-- The failure is one of the filters that were put into a tree: a filter with too many filters
below it, a bool filter with filters outside its clauses, or a filter without a field path. -/
inductive SearchError.IsOfFilters : SearchError → Prop
  | tooMany {found : Nat} (hfound : 2 ≤ found) : IsOfFilters (.tooManyFilters 1 found)
  | misplaced {found : Nat} (hfound : 0 < found) : IsOfFilters (.misplacedFilters found)
  | noPath (fault : PathFault) : IsOfFilters (.noFieldPath fault.message)

theorem SearchError.IsOfFilters.ne_notFamilyRoot {error : SearchError} (h : error.IsOfFilters)
    (family : Family) :
  error ≠ .notFamilyRoot family
  := by
  cases h <;> simp

namespace FilterTree

/-- The node is composed only as a part of the family. -/
inductive IsPartOf (tree : FilterTree) (id : Nat) : Family → Prop
  /-- A clause is a part of its bool filter. -/
  | clause {bool : Nat} {part : Clause} (hid : tree.kind? id = some (.clause bool part)) :
    IsPartOf tree id .bool
  /-- A member of a chain besides the root is a part of its chain. -/
  | member {connective : Connective} {chainRoot : Nat}
    (hid : tree.InChain connective chainRoot id) (hne : id ≠ chainRoot) :
    IsPartOf tree id (.chain connective)

variable {tree : FilterTree} {id : Nat} {kind : NodeKind} {family : Family}
  {error : SearchError}

theorem isPart_iff_exists_isPartOf :
  tree.IsPart id ↔ ∃ family, tree.IsPartOf id family
  := by
  constructor
  · rintro (hid | ⟨hid, hne⟩)
    · exact ⟨_, .clause hid⟩
    · exact ⟨_, .member hid hne⟩
  · rintro ⟨_, hid | ⟨hid, hne⟩⟩
    · exact .clause hid
    · exact .member hid hne

/-- A part refuses to be composed, with the name of its family. -/
theorem IsPartOf.composeAt_eq (hwf : tree.WellFormed) (h : tree.IsPartOf id family) :
  tree.composeAt id = .error (.notFamilyRoot family)
  := by
  cases h with
  | clause hid => rw [FilterTree.composeAt_eq hwf hid (fun h => h), obstacle?]
  | member hid hne =>
    obtain ⟨conditions, hk⟩ := hid
    rw [FilterTree.composeAt_eq hwf hk (fun h => h), obstacle?, if_neg (Ne.symm hne)]

/-- What keeps a node that is not a part from being composed is one of the filters. -/
theorem isOfFilters_of_obstacle? (hk : tree.kind? id = some kind) (hpart : ¬tree.IsPart id)
    (hobstacle : tree.obstacle? id kind = some error) :
  error.IsOfFilters
  := by
  cases kind with
  | faulty fault =>
    obtain rfl := Option.some.inj hobstacle
    apply SearchError.IsOfFilters.noPath fault
  | bool clauses =>
    simp only [obstacle?] at hobstacle
    split_ifs at hobstacle with hfound
    obtain rfl := Option.some.inj hobstacle
    apply SearchError.IsOfFilters.misplaced hfound
  | clause bool part => exact absurd (.clause hk) hpart
  | chain membership =>
    rw [obstacle?, if_pos (root_eq_of_not_isPart hk hpart)] at hobstacle
    simp at hobstacle
  | scope | fragment _ | negation | custom _ | nested _ => simp [obstacle?] at hobstacle

/-- A slot fails because it holds too many filters, or as the filter in it does. -/
theorem composeSole?_eq_error {compose : Nat → Except SearchError Json} {slot : List Nat}
    (h : composeSole? compose slot = .error error) :
  (2 ≤ slot.length ∧ error = .tooManyFilters 1 slot.length)
    ∨ ∃ child ∈ slot, compose child = .error error
  := by
  cases slotGives_iff.mpr h with
  | @failure filter error hslot hfilter =>
    exact Or.inr ⟨filter, hslot ▸ List.mem_singleton_self filter, hfilter⟩
  | overfull hslot => exact Or.inl ⟨hslot, rfl⟩

/-- A caller's own composition brings the error: it fails with it where nothing below it did. -/
def Brings (tree : FilterTree) (error : SearchError) : Prop :=
  ∃ id composer site, tree.kind? id = some (.custom composer) ∧ composer site = .error error
    ∧ .error error ∉ site.parts

theorem Native.not_brings (h : tree.Native) (error : SearchError) :
  ¬tree.Brings error
  := by
  rintro ⟨id, composer, -, hk, -⟩
  apply h id composer hk

/-- No part stands below a node that a caller composes. -/
theorem not_isPart_of_custom {composer : Composer} {child : Nat} (hwf : tree.WellFormed)
    (hk : tree.kind? id = some (.custom composer)) (hparent : tree.parent? child = some id) :
  ¬tree.IsPart child
  := by
  intro hpart
  obtain ⟨parent, hparent', hfamily⟩ := hpart.exists_parent hwf
  rw [hparent, Option.some.injEq] at hparent'
  subst hparent'
  rcases hfamily with ⟨clauses, hk'⟩ | ⟨_, _, -, conditions, hk'⟩ <;> simp [hk] at hk'

/-- A node that is not a part comes to a document, or fails on one of the filters or with what a
caller brings. -/
theorem isOfFilters_or_brings (hwf : tree.WellFormed) (hid : id < tree.size)
    (hpart : ¬tree.IsPart id) (herror : tree.composeAt id = .error error) :
  error.IsOfFilters ∨ tree.Brings error
  := by
  induction id, hid using tree.laterInduction with
  | node id hid ih =>
    obtain ⟨kind, hk⟩ := exists_kind?_of_lt hid
    by_cases hkind : kind.IsCustom
    · obtain ⟨composer, rfl⟩ := hkind.exists_composer
      rw [composeAt_custom hk] at herror
      by_cases hbelow : .error error ∈ (tree.childrenOf id).map (tree.composeAfter id)
      · obtain ⟨child, hchild, hfails⟩ := List.mem_map.mp hbelow
        have hparent := hwf.mem_childrenOf.mp hchild
        have hlt := hwf.parent_lt_child hparent
        rw [composeAfter, if_pos hlt] at hfails
        apply ih child hlt (lt_size_of_parent? hparent) (not_isPart_of_custom hwf hk hparent) hfails
      · exact Or.inr ⟨id, composer, _, hk, herror, hbelow⟩
    · rw [composeAt_eq hwf hk hkind] at herror
      cases hobstacle : tree.obstacle? id kind with
      | some error' =>
        obtain rfl : error' = error := by simpa [hobstacle] using herror
        apply Or.inl (isOfFilters_of_obstacle? hk hpart hobstacle)
      | none =>
        simp only [hobstacle, Results.map_eq_error_iff, Results.mapM_eq_error_iff] at herror
        obtain ⟨before, slot, after, hslots, -, hslot⟩ := herror
        have hmem : slot ∈ tree.slots id kind := by simp [hslots]
        rcases composeSole?_eq_error hslot with ⟨hlength, rfl⟩ | ⟨child, hchild, hfails⟩
        · apply Or.inl (.tooMany hlength)
        · have hcalls := calls_of_mem_slot hwf hk hmem hchild
          apply ih child (hcalls.lt hwf) hcalls.lt_size (not_isPart_of_mem_slot hwf hk hmem hchild)
            hfails

/-- A node that is not a part comes to a document or fails on one of the filters. -/
theorem isOfFilters_of_composeAt (hwf : tree.WellFormed) (hnative : tree.Native)
    (hid : id < tree.size) (hpart : ¬tree.IsPart id) (herror : tree.composeAt id = .error error) :
  error.IsOfFilters
  := (isOfFilters_or_brings hwf hid hpart herror).resolve_right (hnative.not_brings error)

/-- A node comes to a document or fails on one of the filters, unless it is a part. -/
theorem composeAt_ok_or_isOfFilters (hwf : tree.WellFormed) (hnative : tree.Native)
    (hid : id < tree.size) (hpart : ¬tree.IsPart id) :
  (∃ document, tree.composeAt id = .ok document)
    ∨ ∃ error, tree.composeAt id = .error error ∧ error.IsOfFilters
  := by
  cases hcompose : tree.composeAt id with
  | ok document => apply Or.inl ⟨document, rfl⟩
  | error error =>
    apply Or.inr ⟨error, rfl, isOfFilters_of_composeAt hwf hnative hid hpart hcompose⟩

/-- In a tree that scripts build without compositions of their own, a node is refused exactly when
it is a clause of a bool filter or a member of a chain besides the root, and then with the name of
that family.  Every other node, and the top scope among them, comes to a document or fails on one
of the filters. -/
theorem composeAt_notFamilyRoot_iff (h : tree.Reachable) (hnative : tree.Native) :
  (∀ id < tree.size, ∀ family,
      tree.composeAt id = .error (.notFamilyRoot family) ↔ tree.IsPartOf id family)
    ∧ (∀ id < tree.size, (∀ family, ¬tree.IsPartOf id family) →
      (∃ document, tree.composeAt id = .ok document)
        ∨ ∃ error, tree.composeAt id = .error error ∧ error.IsOfFilters)
    ∧ ((∃ document, tree.compose = .ok document)
      ∨ ∃ error, tree.compose = .error error ∧ error.IsOfFilters)
  := by
  have hwf := h.wellFormed
  refine ⟨?_, ?_, ?_⟩
  · intro id hid family
    constructor
    · intro hrefused
      by_contra hnot
      have hpart : ¬tree.IsPart id := by
        intro hpart
        obtain ⟨other, hother⟩ := isPart_iff_exists_isPartOf.mp hpart
        rw [hother.composeAt_eq hwf] at hrefused
        cases hrefused
        apply hnot hother
      apply (isOfFilters_of_composeAt hwf hnative hid hpart hrefused).ne_notFamilyRoot family rfl
    · intro hpart
      apply hpart.composeAt_eq hwf
  · intro id hid hpart
    apply composeAt_ok_or_isOfFilters hwf hnative hid
    rw [isPart_iff_exists_isPartOf, not_exists]
    apply hpart
  · rw [compose_eq]
    apply composeAt_ok_or_isOfFilters hwf hnative hwf.size_pos
      (Heads.not_isPart hwf ⟨_, hwf.kind_root, rfl⟩)

theorem composeAt_notFamilyRoot_iff_treeOfOrs :
  treeOfOrs.Reachable ∧ treeOfOrs.Native
    ∧ treeOfOrs.composeAt 7 = .error (.notFamilyRoot (.chain .or))
  := by
  obtain ⟨hrefused, -⟩ := composeAt_notFamilyRoot_iff reachable_treeOfOrs native_treeOfOrs
  have hpart : treeOfOrs.IsPartOf 7 (.chain .or) := .member ⟨[], rfl⟩ (by decide)
  exact ⟨reachable_treeOfOrs, native_treeOfOrs, (hrefused 7 (by decide) _).mpr hpart⟩

end FilterTree

end FilteredSearch
