import FilteredSearch.Proofs.FilterTree.Failures
import FilteredSearch.Proofs.FilterTree.Spliced

/-!
# The way back

The way back from a node leads to the root of the nearest family around it: of the ancestors of the
node that belong to a family, the one below all the others says which family it is.  The root is an
ancestor too, so going back over and over comes to ever smaller nodes, until no family is around.
-/

namespace FilteredSearch

namespace FilterTree

/-- The first node is an ancestor of the second one. -/
def IsAbove (tree : FilterTree) : Nat → Nat → Prop :=
  Relation.TransGen fun parent child => tree.parent? child = some parent

/-- The node belongs to the family with the root. -/
inductive InFamily (tree : FilterTree) (id : Nat) : Family → Nat → Prop
  | bool {clauses : Clauses} (hid : tree.kind? id = some (.bool clauses)) :
    InFamily tree id .bool id
  | clause {bool : Nat} {part : Clause} (hid : tree.kind? id = some (.clause bool part)) :
    InFamily tree id .bool bool
  | chain {connective : Connective} {chainRoot : Nat}
    (hid : tree.InChain connective chainRoot id) :
    InFamily tree id (.chain connective) chainRoot

/-- The node is the root of a family. -/
inductive IsFamilyRoot (tree : FilterTree) (id : Nat) : Family → Prop
  | bool {clauses : Clauses} (hid : tree.kind? id = some (.bool clauses)) :
    IsFamilyRoot tree id .bool
  | chain {connective : Connective} (hid : tree.InChain connective id id) :
    IsFamilyRoot tree id (.chain connective)

/-- The family with the root is the nearest around the node: an ancestor of the node belongs to it,
and no ancestor below that one belongs to a family. -/
def IsNearest (tree : FilterTree) (id : Nat) (family : Family) (familyRoot : Nat) : Prop :=
  ∃ member, tree.IsAbove member id ∧ tree.InFamily member family familyRoot
    ∧ ∀ other otherFamily otherRoot, tree.IsAbove other id →
      tree.InFamily other otherFamily otherRoot → tree.IsOver other member

variable {tree : FilterTree} {id other parent familyRoot : Nat} {kind : NodeKind}
  {family : Family}

/-! ### Ancestors -/

/-- The ancestors of a node are its parent and those above the parent. -/
theorem isAbove_iff :
  tree.IsAbove other id ↔ ∃ parent, tree.parent? id = some parent ∧ tree.IsOver other parent
  := by
  rw [IsAbove, Relation.TransGen.tail'_iff]
  simp only [and_comm, IsOver]

theorem isOver_iff_eq_or_isAbove :
  tree.IsOver other id ↔ other = id ∨ tree.IsAbove other id
  := by
  rw [IsOver, Relation.reflTransGen_iff_eq_or_transGen, eq_comm, IsAbove]

theorem IsAbove.lt (hlinked : tree.Linked) (h : tree.IsAbove other id) :
  other < id
  := by
  obtain ⟨parent, hparent, hover⟩ := isAbove_iff.mp h
  apply Nat.lt_of_le_of_lt (hover.le hlinked) (hlinked.parent_lt_child hparent)

/-! ### Families -/

/-- A node of the kind points to the root of the family that it belongs to. -/
theorem rootOfFamily?_eq_some_iff (hk : tree.kind? id = some kind) :
  kind.rootOfFamily? id = some familyRoot ↔ ∃ family, tree.InFamily id family familyRoot
  := by
  constructor
  · intro h
    cases kind with
    | bool clauses =>
      obtain rfl : id = familyRoot := Option.some.inj h
      exact ⟨_, .bool hk⟩
    | clause bool part =>
      obtain rfl : bool = familyRoot := Option.some.inj h
      exact ⟨_, .clause hk⟩
    | chain membership =>
      obtain rfl : membership.root = familyRoot := Option.some.inj h
      exact ⟨_, .chain ⟨membership.conditions, hk⟩⟩
    | _ => simp [NodeKind.rootOfFamily?] at h
  · rintro ⟨family, hin⟩
    cases hin with
    | bool hid | clause hid =>
      cases hk.symm.trans hid
      rfl
    | chain hid =>
      obtain ⟨conditions, hid⟩ := hid
      cases hk.symm.trans hid
      rfl

/-- A node belongs to one family at most. -/
theorem InFamily.unique {otherFamily : Family} {otherRoot : Nat}
    (h : tree.InFamily id family familyRoot) (h' : tree.InFamily id otherFamily otherRoot) :
  family = otherFamily ∧ familyRoot = otherRoot
  := by
  cases h with
  | bool hid | clause hid =>
    cases h' with
    | bool hid' | clause hid' => simp_all
    | chain hid' =>
      obtain ⟨conditions, hid'⟩ := hid'
      simp [hid] at hid'
  | chain hid =>
    cases h' with
    | bool hid' | clause hid' =>
      obtain ⟨conditions, hid⟩ := hid
      simp [hid] at hid'
    | chain hid' =>
      obtain ⟨rfl, rfl⟩ := hid.unique hid'
      exact ⟨rfl, rfl⟩

/-- The root of a family is over its members, and is a root. -/
theorem InFamily.root (h : tree.InFamily id family familyRoot) (hwf : tree.WellFormed) :
  tree.IsOver familyRoot id ∧ tree.IsFamilyRoot familyRoot family
  := by
  cases h with
  | bool hid => exact ⟨.refl, .bool hid⟩
  | clause hid =>
    obtain ⟨clauses, hbool, -⟩ := hwf.clause_iff.mp hid
    exact ⟨.single (hwf.parent_clause hid), .bool hbool⟩
  | chain hid => exact ⟨hwf.root_over hid, .chain (hwf.root_inChain hid)⟩

namespace IsFamilyRoot

/-- The root of a family is not a mere part of one. -/
theorem not_isPart (h : tree.IsFamilyRoot id family) :
  ¬tree.IsPart id
  := by
  rintro (hpart | ⟨hpart, hne⟩)
  · cases h with
    | bool hid => simp [hid] at hpart
    | chain hid =>
      obtain ⟨conditions, hid⟩ := hid
      simp [hid] at hpart
  · cases h with
    | bool hid =>
      obtain ⟨conditions, hpart⟩ := hpart
      simp [hid] at hpart
    | chain hid => apply hne (hid.unique hpart).2

/-- The root of a family is part of a bool filter when it is one. -/
theorem isSome_clausesOf?_iff (h : tree.IsFamilyRoot id family) :
  (tree.clausesOf? id).isSome = true ↔ family = .bool
  := by
  cases h with
  | bool hid => simp [clausesOf?, hid]
  | chain hid =>
    obtain ⟨conditions, hid⟩ := hid
    simp [clausesOf?, hid]

end IsFamilyRoot

/-! ### The nearest family -/

/-- The way up from a node ends at the nearest family that the node or an ancestor belongs to, or
there is none. -/
theorem familyRootFrom_nearest (hwf : tree.WellFormed) (hid : id < tree.size) :
  (∃ member family familyRoot, tree.IsOver member id ∧ tree.InFamily member family familyRoot
      ∧ (∀ other otherFamily otherRoot, tree.IsOver other id →
        tree.InFamily other otherFamily otherRoot → tree.IsOver other member)
      ∧ tree.familyRootFrom id = .ok familyRoot)
    ∨ (∀ member family familyRoot, tree.IsOver member id →
        ¬tree.InFamily member family familyRoot)
      ∧ tree.familyRootFrom id = .error .noEnclosingFamily
  := by
  induction id using Nat.strongRecOn with
  | ind id ih =>
    obtain ⟨kind, hk⟩ := exists_kind?_of_lt hid
    rw [familyRootFrom_eq hk]
    cases hroot : kind.rootOfFamily? id with
    | some familyRoot =>
      obtain ⟨family, hin⟩ := (rootOfFamily?_eq_some_iff hk).mp hroot
      exact Or.inl ⟨id, family, familyRoot, .refl, hin, fun _ _ _ hover _ => hover, rfl⟩
    | none =>
      have hloose : ∀ family familyRoot, ¬tree.InFamily id family familyRoot := by
        intro family familyRoot hin
        rw [(rootOfFamily?_eq_some_iff hk).mpr ⟨family, hin⟩] at hroot
        simp at hroot
      cases hparent : tree.parent? id with
      | none =>
        refine Or.inr ⟨?_, rfl⟩
        intro member family familyRoot hover hin
        rcases isOver_iff_eq_or_isAbove.mp hover with rfl | habove
        · apply hloose _ _ hin
        · obtain ⟨parent, hparent', -⟩ := isAbove_iff.mp habove
          simp [hparent] at hparent'
      | some parent =>
        have hlt := hwf.parent_lt_child hparent
        -- A node in a family that is over this node is over its parent.
        have hup : ∀ {other family familyRoot}, tree.IsOver other id →
            tree.InFamily other family familyRoot → tree.IsOver other parent := by
          intro other family familyRoot hover hin
          rcases isOver_iff_eq_or_isAbove.mp hover with rfl | habove
          · exact absurd hin (hloose _ _)
          · obtain ⟨parent', hparent', hover'⟩ := isAbove_iff.mp habove
            rw [hparent, Option.some.injEq] at hparent'
            exact hparent' ▸ hover'
        simp only [if_pos hlt]
        rcases ih parent hlt (Nat.lt_trans hlt hid) with
          ⟨member, family, familyRoot, hover, hin, hnearest, heq⟩ | ⟨hnone, heq⟩
        · refine Or.inl ⟨member, family, familyRoot, hover.tail hparent, hin, ?_, heq⟩
          intro other otherFamily otherRoot hother hotherIn
          apply hnearest other otherFamily otherRoot (hup hother hotherIn) hotherIn
        · refine Or.inr ⟨?_, heq⟩
          intro other family familyRoot hother hotherIn
          apply hnone other family familyRoot (hup hother hotherIn) hotherIn

/-- The way back from a node leads to the root of the nearest family around it, or there is none. -/
theorem familyRootAround_nearest (hwf : tree.WellFormed) (hid : id < tree.size) :
  (∃ family familyRoot, tree.IsNearest id family familyRoot
      ∧ tree.familyRootAround id = .ok familyRoot)
    ∨ (∀ member family familyRoot, tree.IsAbove member id →
        ¬tree.InFamily member family familyRoot)
      ∧ tree.familyRootAround id = .error .noEnclosingFamily
  := by
  rw [familyRootAround, parent_eq hid]
  cases hparent : tree.parent? id with
  | none =>
    refine Or.inr ⟨?_, rfl⟩
    intro member family familyRoot habove
    obtain ⟨parent, hparent', -⟩ := isAbove_iff.mp habove
    simp [hparent] at hparent'
  | some parent =>
    have habove : ∀ {other}, tree.IsAbove other id ↔ tree.IsOver other parent := by
      intro other
      simp [isAbove_iff, hparent]
    have hlt := hwf.parent_lt_child hparent
    simp only [IsNearest, habove]
    rcases familyRootFrom_nearest hwf (Nat.lt_trans hlt hid) with
      ⟨member, family, familyRoot, hover, hin, hnearest, heq⟩ | hnone
    · exact Or.inl ⟨family, familyRoot, ⟨member, hover, hin, hnearest⟩, heq⟩
    · exact Or.inr hnone

namespace IsNearest

theorem exists_member (h : tree.IsNearest id family familyRoot) :
  ∃ member family familyRoot, tree.IsAbove member id ∧ tree.InFamily member family familyRoot
  := by
  obtain ⟨member, habove, hin, -⟩ := h
  exact ⟨member, family, familyRoot, habove, hin⟩

/-- One family at most is the nearest. -/
theorem unique {otherFamily : Family} {otherRoot : Nat} (hlinked : tree.Linked)
    (h : tree.IsNearest id family familyRoot) (h' : tree.IsNearest id otherFamily otherRoot) :
  family = otherFamily ∧ familyRoot = otherRoot
  := by
  obtain ⟨member, habove, hin, hnearest⟩ := h
  obtain ⟨other, habove', hin', hnearest'⟩ := h'
  have hle := (hnearest' _ _ _ habove hin).le hlinked
  have hge := (hnearest _ _ _ habove' hin').le hlinked
  obtain rfl : member = other := Nat.le_antisymm hle hge
  apply hin.unique hin'

/-- The root of the nearest family is an ancestor, and is a root. -/
theorem root (h : tree.IsNearest id family familyRoot) (hwf : tree.WellFormed) :
  tree.IsAbove familyRoot id ∧ tree.IsFamilyRoot familyRoot family
  := by
  obtain ⟨member, habove, hin, -⟩ := h
  obtain ⟨hover, hroot⟩ := hin.root hwf
  exact ⟨.trans_right hover habove, hroot⟩

end IsNearest

/-- No family is around the top scope. -/
theorem familyRootAround_root (hwf : tree.WellFormed) :
  tree.familyRootAround root = .error .noEnclosingFamily
  := by
  have hroot : root < tree.size := hwf.size_pos
  rw [familyRootAround, parent_eq hroot, hwf.parent_root]
  rfl

theorem familyRootAround_eq_ok_iff (hwf : tree.WellFormed) (hid : id < tree.size) :
  tree.familyRootAround id = .ok familyRoot ↔ ∃ family, tree.IsNearest id family familyRoot
  := by
  rcases familyRootAround_nearest hwf hid with ⟨family, found, hnearest, heq⟩ | ⟨hnone, heq⟩
  · rw [heq, Except.ok.injEq]
    constructor
    · rintro rfl
      exact ⟨family, hnearest⟩
    · rintro ⟨otherFamily, hother⟩
      apply (hnearest.unique hwf.toLinked hother).2
  · constructor
    · simp [heq]
    · rintro ⟨family, hnearest⟩
      obtain ⟨member, family, familyRoot, habove, hin⟩ := hnearest.exists_member
      exact absurd hin (hnone member family familyRoot habove)

/-- The way back is there exactly when a family is around the node. -/
theorem exists_familyRootAround_iff (hwf : tree.WellFormed) (hid : id < tree.size) :
  (∃ familyRoot, tree.familyRootAround id = .ok familyRoot)
    ↔ ∃ member family familyRoot,
      tree.IsAbove member id ∧ tree.InFamily member family familyRoot
  := by
  constructor
  · rintro ⟨familyRoot, hroot⟩
    obtain ⟨family, hnearest⟩ := (familyRootAround_eq_ok_iff hwf hid).mp hroot
    apply hnearest.exists_member
  · rintro ⟨member, family, familyRoot, habove, hin⟩
    rcases familyRootAround_nearest hwf hid with ⟨family', found, -, heq⟩ | ⟨hnone, -⟩
    · exact ⟨found, heq⟩
    · exact absurd hin (hnone member family familyRoot habove)

theorem eq_noEnclosingFamily_of_familyRootAround {error : SearchError} (hwf : tree.WellFormed)
    (hid : id < tree.size) (h : tree.familyRootAround id = .error error) :
  error = .noEnclosingFamily
  := by
  rcases familyRootAround_nearest hwf hid with ⟨family, familyRoot, -, heq⟩ | ⟨-, heq⟩
  · simp [heq] at h
  · apply Except.error.inj (h.symm.trans heq)

end FilterTree

end FilteredSearch
