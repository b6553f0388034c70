import FilteredSearch.Proofs.FilterTree.Callers
import Mathlib.Logic.Function.Basic

/-!
# Filters under other numbers

What a node composes to does not tell which numbers the nodes have.  When a part of a tree stands
in another tree under other numbers, with the children of every node and the conditions of every
chain in the same order, a node of the part composes to the same in both trees, and fails as the
same.
-/

namespace FilteredSearch

/-- The clauses under other numbers. -/
def Clauses.renumber (number : Nat → Nat) (clauses : Clauses) : Clauses :=
  ⟨number clauses.must, number clauses.mustNot, number clauses.should⟩

@[simp]
theorem Clauses.get_renumber (number : Nat → Nat) (clauses : Clauses) (part : Clause) :
  (clauses.renumber number).get part = number (clauses.get part)
  := by
  cases part <;> rfl

theorem Clauses.contains_renumber {number : Nat → Nat} (hnumber : Function.Injective number)
    (clauses : Clauses) (id : Nat) :
  (clauses.renumber number).contains (number id) = clauses.contains id
  := by
  simp [contains, hnumber.eq_iff]

namespace NodeKind

/-- The kind with the nodes of its family under other numbers. -/
def renumber (number : Nat → Nat) : NodeKind → NodeKind
  | .bool clauses => .bool (clauses.renumber number)
  | .clause owner part => .clause (number owner) part
  | .chain membership =>
    .chain ⟨membership.connective, number membership.root, membership.conditions.map number⟩
  | kind => kind

variable (number later : Nat → Nat) (kind : NodeKind)

theorem renumber_renumber :
  (kind.renumber number).renumber later = kind.renumber (later ∘ number)
  := by
  cases kind <;> simp [renumber, Clauses.renumber]

theorem renumber_id :
  kind.renumber id = kind
  := by
  cases kind <;> simp [renumber, Clauses.renumber]

theorem assemble_renumber :
  (kind.renumber number).assemble = kind.assemble
  := by
  funext documents
  cases kind <;> rfl

theorem isCustom_renumber :
  (kind.renumber number).IsCustom ↔ kind.IsCustom
  := by
  cases kind <;> rfl

end NodeKind

namespace FilterTree

/-- The part of the first tree stands in the second one under other numbers. -/
structure Renumbers (number : Nat → Nat) (part : Nat → Prop) (tree tree' : FilterTree) : Prop where
  injective : Function.Injective number
  kind?_eq : ∀ {id kind}, part id → tree.kind? id = some kind →
    tree'.kind? (number id) = some (kind.renumber number)
  childrenOf_eq : ∀ {id}, part id → id < tree.size →
    tree'.childrenOf (number id) = (tree.childrenOf id).map number
  /-- What stands below a node of the part is in the part. -/
  part_child : ∀ {id child}, part id → child ∈ tree.childrenOf id → part child

variable {number : Nat → Nat} {part : Nat → Prop} {tree tree' : FilterTree} {id child head : Nat}
  {kind : NodeKind} {slot : List Nat}

theorem IsOver.of_parent? (h : tree.parent? child = some id) :
  tree.IsOver id child
  := Relation.ReflTransGen.single h

theorem Heads.isOver (hwf : tree.WellFormed) (h : tree.Heads head id) :
  tree.IsOver head id
  := by
  obtain ⟨kind, hk, rfl⟩ := h
  cases kind with
  | clause bool clause => apply IsOver.of_parent? (hwf.parent_clause hk)
  | chain membership => apply hwf.root_over ⟨membership.conditions, hk⟩
  | _ => apply Relation.ReflTransGen.refl

/-- A node stands below the one on whose behalf it is composed. -/
theorem Calls.isOver (hwf : tree.WellFormed) (h : tree.Calls head id) :
  tree.IsOver head id
  := by
  obtain ⟨parent, hparent, hheads⟩ := h
  apply Relation.ReflTransGen.tail (hheads.isOver hwf) hparent

namespace Renumbers

theorem part_of_isOver (h : Renumbers number part tree tree') (hwf : tree.WellFormed)
    (hid : part id) (hover : tree.IsOver id child) :
  part child
  := by
  induction hover with
  | refl => apply hid
  | tail _ hparent ih => apply h.part_child ih (hwf.mem_childrenOf.mpr hparent)

/-- A node is a member of the same chains under its other number. -/
theorem isMember_eq (h : Renumbers number part tree tree') (hid : part id) (hlt : id < tree.size)
    (connective : Connective) (chainRoot : Nat) (conditions conditions' : List Nat) :
  tree'.isMember ⟨connective, number chainRoot, conditions'⟩ (number id)
    = tree.isMember ⟨connective, chainRoot, conditions⟩ id
  := by
  obtain ⟨kind, hk⟩ := exists_kind?_of_lt hlt
  rw [isMember, isMember, h.kind?_eq hid hk, hk]
  cases kind <;> simp [NodeKind.renumber, h.injective.eq_iff]

theorem outsiders_eq (h : Renumbers number part tree tree') (hwf : tree.WellFormed)
    (hid : part id) (hlt : id < tree.size) (connective : Connective) (chainRoot : Nat)
    (conditions conditions' : List Nat) :
  tree'.outsiders ⟨connective, number chainRoot, conditions'⟩ (number id)
    = (tree.outsiders ⟨connective, chainRoot, conditions⟩ id).map number
  := by
  rw [outsiders, outsiders, h.childrenOf_eq hid hlt, List.filter_map]
  congr 1
  apply List.filter_congr
  intro child hchild
  rw [Function.comp_apply, h.isMember_eq (h.part_child hid hchild)
    (hwf.lt_of_mem_childrenOf hchild).2 connective chainRoot conditions conditions']

/-- The slots of a node hold the same nodes under their other numbers. -/
theorem slots_eq (h : Renumbers number part tree tree') (hwf : tree.WellFormed) (hid : part id)
    (hk : tree.kind? id = some kind) :
  tree'.slots (number id) (kind.renumber number) = (tree.slots id kind).map (List.map number)
  := by
  have hlt := lt_size_of_kind? hk
  cases kind with
  | scope | negation | nested _ => simp [slots, NodeKind.renumber, h.childrenOf_eq hid hlt]
  | bool clauses =>
    rw [NodeKind.renumber, slots, slots, List.map_map]
    apply List.map_congr_left
    intro clause _
    have hclause : tree.kind? (clauses.get clause) = some (.clause id clause) :=
      hwf.clause_iff.mpr ⟨clauses, hk, rfl⟩
    have hpart := h.part_of_isOver hwf hid (.of_parent? (hwf.parent_clause hclause))
    rw [Clauses.get_renumber, h.childrenOf_eq hpart (lt_size_of_kind? hclause)]
    rfl
  | chain membership =>
    obtain ⟨connective, chainRoot, conditions⟩ := membership
    simp only [NodeKind.renumber, slots, h.injective.eq_iff]
    split
    · next hroot =>
      obtain rfl : chainRoot = id := hroot
      rw [List.map_map, List.map_map]
      apply List.map_congr_left
      intro condition hcondition
      have hin := (hwf.mem_conditions hk).mp hcondition
      apply h.outsiders_eq hwf (h.part_of_isOver hwf hid (hwf.root_over hin)) hin.lt_size
    · rfl
  | fragment _ | faulty _ | custom _ | clause _ _ => rfl

/-- What keeps a node from being composed keeps it under its other number. -/
theorem obstacle?_eq (h : Renumbers number part tree tree') (hid : part id)
    (hk : tree.kind? id = some kind) :
  tree'.obstacle? (number id) (kind.renumber number) = tree.obstacle? id kind
  := by
  cases kind with
  | bool clauses =>
    have hcount : misplaced (clauses.renumber number) (tree'.childrenOf (number id))
        = misplaced clauses (tree.childrenOf id) := by
      rw [misplaced, misplaced, h.childrenOf_eq hid (lt_size_of_kind? hk), List.countP_map]
      congr 1
      funext child
      rw [Function.comp_apply, Clauses.contains_renumber h.injective]
    simp only [NodeKind.renumber, obstacle?, hcount]
  | chain membership => simp only [NodeKind.renumber, obstacle?, h.injective.eq_iff]
  | _ => rfl

theorem composeSole?_map {compose : Nat → Except SearchError Json} :
  composeSole? compose (slot.map number) = composeSole? (compose ∘ number) slot
  := by
  match slot with
  | [] | [_] => rfl
  | _ :: _ :: _ => simp [composeSole?]

/-- A node of the part composes to the same under its other number. -/
theorem composeAt_eq (h : Renumbers number part tree tree') (hwf : tree.WellFormed)
    (hwf' : tree'.WellFormed) (hnative : tree.Native) (hid : part id) (hlt : id < tree.size) :
  tree'.composeAt (number id) = tree.composeAt id
  := by
  -- What is composed on behalf of a node has a greater number.
  induction id, hlt using tree.laterInduction with
  | node id hlt ih =>
    obtain ⟨kind, hk⟩ := exists_kind?_of_lt hlt
    have hcustom := hnative.not_isCustom hk
    rw [FilterTree.composeAt_eq hwf' (h.kind?_eq hid hk)
        ((NodeKind.isCustom_renumber number kind).not.mpr hcustom),
      FilterTree.composeAt_eq hwf hk hcustom, h.obstacle?_eq hid hk, h.slots_eq hwf hid hk,
      NodeKind.assemble_renumber, List.mapM_map]
    have hslots : (tree.slots id kind).mapM (composeSole? tree'.composeAt ∘ List.map number)
        = (tree.slots id kind).mapM (composeSole? tree.composeAt) := by
      apply Results.mapM_congr
      intro slot hslot
      rw [Function.comp_apply, composeSole?_map]
      apply composeSole?_congr
      intro child hchild
      have hcalls := calls_of_mem_slot hwf hk hslot hchild
      apply ih child (hcalls.lt hwf) hcalls.lt_size (h.part_of_isOver hwf hid (hcalls.isOver hwf))
    rw [hslots]

end Renumbers

end FilterTree

end FilteredSearch
