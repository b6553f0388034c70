import FilteredSearch.Proofs.FilterTree.Fragments

/-!
# Failures last

A filter that has no place in the document of a tree never gets one: it keeps its kind, the filters
beside it stay, and a child of a member of a chain that is not a member of the chain does not become
one later.  So a tree that fails to compose fails to compose whatever is called on it afterwards.
-/

namespace FilteredSearch

namespace FilterTree

/-- The second tree comes from the first one by scripts, run one after the other, each on a handle
that could be held by then. -/
inductive Continues (tree : FilterTree) : FilterTree → Prop
  | refl : Continues tree tree
  | run {tree' : FilterTree} {handle : Handle} (script : FilterScript) (transcript : Transcript)
    (strict : Bool) (hlater : Continues tree tree') (hfits : handle.Fits tree') :
    Continues tree (script.run handle (.start tree' transcript strict)).tree

variable {tree tree' : FilterTree} {id : Nat} {kind : NodeKind} {connective : Connective}

theorem Continues.grows (h : tree.Continues tree') (hwf : tree.WellFormed) :
  Grows tree tree'
  := by
  induction h with
  | refl => apply Grows.refl
  | @run tree' handle script transcript strict _ hfits ih =>
    apply ih.trans
    apply script.makesGrow handle (.start tree' transcript strict) (ih.wellFormed hwf) hfits

/-! ### What a step leaves -/

/-- A node that is no member of a chain keeps its kind. -/
theorem Step.kind?_of_ne_chain (h : Step tree tree') (hwf : tree.WellFormed)
    (hk : tree.kind? id = some kind) (hkind : ∀ membership, kind ≠ .chain membership) :
  tree'.kind? id = some kind
  := h.grows.kind?_of_ne_chain hwf hk hkind

/-- The children of a node that are not members of a chain stay, and none of them becomes a
member. -/
theorem Step.outsiders_prefix (h : Step tree tree') (hwf : tree.WellFormed) {chainRoot : Nat}
    {conditions conditions' : List Nat} (id : Nat) :
  tree.outsiders ⟨connective, chainRoot, conditions⟩ id
    <+: tree'.outsiders ⟨connective, chainRoot, conditions'⟩ id
  := by
  obtain ⟨more, hchildren⟩ := h.childrenOf_prefix id
  have hsame : (tree.childrenOf id).filter
        (fun child => !tree'.isMember ⟨connective, chainRoot, conditions'⟩ child)
      = tree.outsiders ⟨connective, chainRoot, conditions⟩ id := by
    apply List.filter_congr
    intro child hchild
    have hlt := (hwf.lt_of_mem_childrenOf hchild).2
    rw [Bool.eq_iff_iff, Bool.not_eq_true', Bool.not_eq_true', ← Bool.not_eq_true,
      ← Bool.not_eq_true, isMember_iff, isMember_iff, h.inChain_iff hlt]
  rw [← hsame, outsiders, ← hchildren, List.filter_append]
  apply List.prefix_append

/-- Every filter had a place before a step when every filter has one after it. -/
theorem Step.placed (h : Step tree tree') (hwf : tree.WellFormed) (hplaced : tree'.Placed) :
  tree.Placed
  where
  resolved := by
    intro id fault hk
    apply hplaced.resolved (h.kind?_of_ne_chain hwf hk (by simp))
  scope_le_one := by
    intro id kind hk hkind
    apply Nat.le_trans (h.childrenOf_prefix id).length_le
    apply hplaced.scope_le_one _ hkind
    apply h.kind?_of_ne_chain hwf hk
    rintro membership rfl
    apply hkind
  bool_contains := by
    intro id clauses hk child hchild
    apply hplaced.bool_contains (h.kind?_of_ne_chain hwf hk (by simp))
    apply (h.childrenOf_prefix id).mem hchild
  member_le_one := by
    intro id membership hk
    obtain ⟨connective, chainRoot, conditions⟩ := membership
    obtain ⟨conditions', hk'⟩ := (h.inChain_iff (lt_size_of_kind? hk)).mpr ⟨conditions, hk⟩
    apply Nat.le_trans (h.outsiders_prefix hwf id).length_le (hplaced.member_le_one hk')

/-- No composition of its own was put into the tree when there is none after a step. -/
theorem Step.native (h : Step tree tree') (hwf : tree.WellFormed) (hnative : tree'.Native) :
  tree.Native
  := by
  intro id composer hk
  apply hnative id composer (h.kind?_of_ne_chain hwf hk (by simp))

/-! ### What a run leaves -/

theorem Grows.placed (h : Grows tree tree') (hwf : tree.WellFormed) (hplaced : tree'.Placed) :
  tree.Placed
  := by
  induction h with
  | refl => apply hplaced
  | tail hgrows hstep ih => apply ih (hstep.placed (Grows.wellFormed hgrows hwf) hplaced)

theorem Grows.native (h : Grows tree tree') (hwf : tree.WellFormed) (hnative : tree'.Native) :
  tree.Native
  := by
  induction h with
  | refl => apply hnative
  | tail hgrows hstep ih => apply ih (hstep.native (Grows.wellFormed hgrows hwf) hnative)

/-- A tree that scripts build and that fails to compose fails to compose after any further scripts,
as long as no composition of its own is put into it. -/
theorem compose_error_of_continues (h : tree.Reachable) (hlater : tree.Continues tree')
    (hnative : tree'.Native) (hfails : ∃ error, tree.compose = .error error) :
  ∃ error, tree'.compose = .error error
  := by
  have hwf := h.wellFormed
  have hgrows := hlater.grows hwf
  cases hcompose : tree'.compose with
  | error error => exact ⟨error, rfl⟩
  | ok document =>
    have hplaced := (exists_compose_iff_placed (hgrows.wellFormed hwf) hnative).mp
      ⟨document, hcompose⟩
    obtain ⟨document', hok⟩ := (exists_compose_iff_placed hwf (hgrows.native hwf hnative)).mpr
      (hgrows.placed hwf hplaced)
    obtain ⟨error, herror⟩ := hfails
    rw [hok] at herror
    cases herror

/-- A script for two filters side by side. -/
def twoFilters : FilterScript :=
  .leaf .matchAll .done (.leaf (.first 3) .done .done)

/-- A tree with two filters in its top scope. -/
def crowded : FilterTree :=
  (twoFilters.run (.scope root) (.start .empty .empty false)).tree

/-- The crowded tree after an and-filter was put into its top scope. -/
def moreCrowded : FilterTree :=
  (FilterScript.run (.chain .and .done .done .done) (.scope root)
    (.start crowded .empty false)).tree

theorem native_moreCrowded :
  moreCrowded.Native
  := by
  intro id composer hk
  have hid : id < 4 := lt_size_of_kind? hk
  interval_cases id <;> cases hk

theorem compose_error_of_continues_crowded :
  crowded.Reachable ∧ crowded.Continues moreCrowded ∧ moreCrowded.Native
    ∧ (∃ error, crowded.compose = .error error) ∧ ∃ error, moreCrowded.compose = .error error
  := by
  have hreachable : crowded.Reachable := .run twoFilters .empty false .empty
  have hfits : Handle.Fits crowded (.scope root) := ⟨.scope, rfl, by simp⟩
  have hlater : crowded.Continues moreCrowded := .run _ .empty false .refl hfits
  have hfails : ∃ error, crowded.compose = .error error := by
    refine ⟨.tooManyFilters 1 2, ?_⟩
    have hk : crowded.kind? root = some .scope := rfl
    rw [compose_eq, composeAt_eq hreachable.wellFormed hk (fun h => h)]
    rfl
  exact ⟨hreachable, hlater, native_moreCrowded, hfails,
    compose_error_of_continues hreachable hlater native_moreCrowded hfails⟩

end FilterTree

end FilteredSearch
