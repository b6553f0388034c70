import FilteredSearch.Proofs.FilterTree.Added

/-!
# Nodes put into a tree in either order

When a tree grows below two scopes that are not over each other, the nodes that it gains below one
scope and those that it gains below the other are two blocks, one behind the other.  In the other
order the blocks change places, and this is all that the trees differ in: every node composes to the
same.
-/

namespace FilteredSearch

namespace Block

/-- The number with two blocks exchanged, the first of which starts at the given number. -/
def exchange (start first second id : Nat) : Nat :=
  if id < start then id
  else if id < start + first then id + second
  else if id < start + first + second then id - first
  else id

variable {start first second id : Nat}

theorem exchange_of_lt (h : id < start) :
  exchange start first second id = id
  := if_pos h

theorem exchange_injective :
  Function.Injective (exchange start first second)
  := by
  intro id other h
  unfold exchange at h
  split_ifs at h <;> omega

/-- What stands around the first block stands around it when it is behind the second one. -/
theorem exchange_shift_first :
  exchange start first second (shift ⟨start, first⟩ id) = shift ⟨start + second, first⟩ id
  := by
  simp only [exchange, shift]
  split_ifs <;> omega

theorem exchange_shift_second :
  exchange start first second (shift ⟨start + first, second⟩ id) = shift ⟨start, second⟩ id
  := by
  simp only [exchange, shift]
  split_ifs <;> omega

/-- A number outside the block is one that has found room. -/
theorem exists_shift_eq {block : Block} (h : block.contains id = false) :
  ∃ other, block.shift other = id
  := by
  rw [← Bool.not_eq_true, contains_iff] at h
  rcases Nat.lt_or_ge id block.start with hid | hid
  · exact ⟨id, shift_of_lt hid⟩
  · refine ⟨id - block.count, ?_⟩
    rw [shift_of_le] <;> omega

end Block

namespace FilterTree

/-- The tree is spliced into a well-formed tree with a block that stands below the scope. -/
structure SplicedBelow (scope : Nat) (block : Block) (tree tree' : FilterTree) : Prop
    extends Spliced block tree tree' where
  wellFormed : tree'.WellFormed
  holdsBelow : tree'.HoldsBelow scope block

variable {block block' : Block} {tree tree' tree'' : FilterTree} {id scope other : Nat}
  {kind : NodeKind} {number : Nat → Nat}

/-- Of two nodes over the same node one is over the other. -/
theorem IsOver.total (h : tree.IsOver scope id) (h' : tree.IsOver other id) :
  tree.IsOver scope other ∨ tree.IsOver other scope
  := by
  induction h with
  | refl => apply Or.inr h'
  | @tail parent child hover hparent ih =>
    rcases h'.cases_tail with rfl | ⟨parent', hover', hparent'⟩
    · apply Or.inl (hover.tail hparent)
    · rw [hparent, Option.some.injEq] at hparent'
      subst hparent'
      apply ih hover'

namespace SplicedBelow

/-- A node that is not below the scope of the block is one of the first tree. -/
theorem exists_shift_eq (h : SplicedBelow scope block tree tree') (hid : ¬tree'.IsOver scope id) :
  ∃ other, block.shift other = id ∧ ¬tree.IsOver scope other
  := by
  have hapart : block.contains id = false := by
    rw [← Bool.not_eq_true]
    intro hcontains
    apply hid (h.holdsBelow.isOver id hcontains)
  obtain ⟨other, rfl⟩ := Block.exists_shift_eq hapart
  exact ⟨other, rfl, (h.isOver_iff_of_lt h.holdsBelow.scope_lt).not.mp hid⟩

variable (h : SplicedBelow scope block tree tree') (h' : SplicedBelow scope block' tree tree'')
include h h'

/-- A node that is not below the scope has the same kind in both trees, under its numbers there. -/
theorem kind?_renumber (hnumber : ∀ id, number (block.shift id) = block'.shift id)
    (hid : ¬tree.IsOver scope id) (hk : tree'.kind? (block.shift id) = some kind) :
  tree''.kind? (number (block.shift id)) = some (kind.renumber number)
  := by
  obtain ⟨own, hown⟩ := exists_kind?_of_lt (h.shift_lt_size_iff.mp (lt_size_of_kind? hk))
  have hleft := h.kind?_of_not_isOver h.wellFormed h.holdsBelow hid hown
  have hright := h'.kind?_of_not_isOver h'.wellFormed h'.holdsBelow hid hown
  rw [hk, Option.some.injEq] at hleft
  rw [hnumber, hright, hleft, NodeKind.renumber_renumber]
  congr 2
  funext id
  apply (hnumber id).symm

/-- A node that is not below the scope has the same children in both trees, under their numbers
there. -/
theorem childrenOf_renumber (hnumber : ∀ id, number (block.shift id) = block'.shift id)
    (hid : ¬tree.IsOver scope id) :
  tree''.childrenOf (number (block.shift id))
    = (tree'.childrenOf (block.shift id)).map number
  := by
  rw [hnumber, h.childrenOf_of_not_isOver h.wellFormed h.holdsBelow hid,
    h'.childrenOf_of_not_isOver h'.wellFormed h'.holdsBelow hid, List.map_map]
  congr 1
  funext id
  apply (hnumber id).symm

end SplicedBelow

/-! ### Two blocks below two scopes -/

variable {tree₁ tree₂ : FilterTree} {scope₁ scope₂ start count₁ count₂ : Nat}

/-- The scopes are not over each other. -/
def Apart (tree : FilterTree) (scope₁ scope₂ : Nat) : Prop :=
  ¬tree.IsOver scope₁ scope₂ ∧ ¬tree.IsOver scope₂ scope₁

/-- Two trees that hold the same two blocks below two scopes, one in one order and the other in the
other, hold the same nodes. -/
theorem renumbers_exchange (hapart : tree'.Apart scope₁ scope₂)
    (h₁ : SplicedBelow scope₂ ⟨start + count₁, count₂⟩ tree₁ tree')
    (h₁' : SplicedBelow scope₂ ⟨start, count₂⟩ tree₁ tree'')
    (h₂ : SplicedBelow scope₁ ⟨start, count₁⟩ tree₂ tree')
    (h₂' : SplicedBelow scope₁ ⟨start + count₂, count₁⟩ tree₂ tree'') :
  Renumbers (Block.exchange start count₁ count₂) (· < tree'.size) tree' tree''
  := by
  have hnumber₁ : ∀ id, Block.exchange start count₁ count₂ (Block.shift ⟨start + count₁, count₂⟩ id)
      = Block.shift ⟨start, count₂⟩ id := fun _ => Block.exchange_shift_second
  have hnumber₂ : ∀ id, Block.exchange start count₁ count₂ (Block.shift ⟨start, count₁⟩ id)
      = Block.shift ⟨start + count₂, count₁⟩ id := fun _ => Block.exchange_shift_first
  -- A node is below at most one of the scopes, and stands around the block below the other.
  have hside : ∀ id, ¬tree'.IsOver scope₂ id ∨ ¬tree'.IsOver scope₁ id := by
    intro id
    by_contra hboth
    rw [not_or, not_not, not_not] at hboth
    rcases hboth.1.total hboth.2 with hover | hover
    · apply hapart.2 hover
    · apply hapart.1 hover
  exact {
    injective := Block.exchange_injective
    kind?_eq := by
      intro id kind _ hk
      rcases hside id with hid | hid
      · obtain ⟨other, rfl, hother⟩ := h₁.exists_shift_eq hid
        apply h₁.kind?_renumber h₁' hnumber₁ hother hk
      · obtain ⟨other, rfl, hother⟩ := h₂.exists_shift_eq hid
        apply h₂.kind?_renumber h₂' hnumber₂ hother hk
    childrenOf_eq := by
      intro id _ _
      rcases hside id with hid | hid
      · obtain ⟨other, rfl, hother⟩ := h₁.exists_shift_eq hid
        apply h₁.childrenOf_renumber h₁' hnumber₁ hother
      · obtain ⟨other, rfl, hother⟩ := h₂.exists_shift_eq hid
        apply h₂.childrenOf_renumber h₂' hnumber₂ hother
    part_child := fun _ hchild => (h₁.wellFormed.lt_of_mem_childrenOf hchild).2 }

/-- What a tree gained below a scope still stands below it when the tree has grown further. -/
theorem HoldsBelow.of_grows (h : tree'.HoldsBelow scope block) (hscope : scope < tree'.size)
    (hgrows : Grows tree' tree'') :
  tree''.HoldsBelow scope block
  where
  scope_lt := h.scope_lt
  not_inChain connective chainRoot := by
    rw [hgrows.inChain_iff hscope]
    apply h.not_inChain
  isOver new hnew := by
    apply (h.isOver new hnew).mono
    intro child parent hparent
    rw [hgrows.parent?_eq (lt_size_of_parent? hparent), hparent]

/-- A block below a scope is behind another one in a tree with the other one before it. -/
theorem Spliced.holdsBelow_behind (h : Spliced ⟨start, count₁⟩ tree tree')
    (hscope : scope < tree.size) (hbelow : tree.HoldsBelow scope ⟨start, count₂⟩) :
  tree'.HoldsBelow scope ⟨start + count₁, count₂⟩
  := by
  have hshift : Block.shift ⟨start, count₁⟩ scope = scope := Block.shift_of_lt hbelow.scope_lt
  exact {
    scope_lt := Nat.lt_add_right count₁ hbelow.scope_lt
    not_inChain := by
      intro connective chainRoot
      rw [← hshift]
      apply h.not_inChain hscope (hbelow.not_inChain connective)
    isOver := by
      intro new hnew
      obtain ⟨hle, hlt⟩ := Block.contains_iff.mp hnew
      dsimp only at hle hlt
      have hold : tree.IsOver scope (new - count₁) := by
        apply hbelow.isOver
        rw [Block.contains_iff]
        dsimp only
        omega
      have hnew : Block.shift ⟨start, count₁⟩ (new - count₁) = new := by
        rw [Block.shift_of_le (by dsimp only; omega)]
        dsimp only
        omega
      have hover := h.isOver_shift hold
      rwa [hshift, hnew] at hover }

variable {first second both both' : FilterTree}

/-- A tree that grew below two scopes is that which grew below one of them with a block below the
other, in two ways. -/
theorem splicedBelow_of_grows (hwf : tree.WellFormed) (hfirst : Grows tree first)
    (hsecond : Grows tree second) (hboth : Grows first both)
    (hspliced : Spliced (tree.addedBlock first) second both)
    (hbelow₁ : first.HoldsBelow scope₁ (tree.addedBlock first))
    (hbelow₂ : second.HoldsBelow scope₂ (tree.addedBlock second)) :
  SplicedBelow scope₁ ⟨tree.size, first.size - tree.size⟩ second both
    ∧ SplicedBelow scope₂ ⟨tree.size + (first.size - tree.size), second.size - tree.size⟩ first both
  := by
  have hwf₁ := hfirst.wellFormed hwf
  have hwf' := hboth.wellFormed hwf₁
  have hsize₁ := hfirst.size_le
  have hsize₂ := hsecond.size_le
  have hblock : first.addedBlock both
      = ⟨tree.size + (first.size - tree.size), second.size - tree.size⟩ := by
    have hsize := hspliced.size_eq
    simp only [addedBlock, Block.mk.injEq] at hsize ⊢
    omega
  constructor
  · refine ⟨hspliced, hwf', hbelow₁.of_grows ?_ hboth⟩
    apply Nat.lt_of_lt_of_le hbelow₁.scope_lt hsize₁
  · refine ⟨hblock ▸ hboth.spliced hwf₁, hwf', hspliced.holdsBelow_behind ?_ hbelow₂⟩
    apply Nat.lt_of_lt_of_le hbelow₂.scope_lt hsize₂

/-- A composition of its own in a tree with other nodes between is one of the tree. -/
theorem Spliced.kind?_custom (h : Spliced block tree tree') {composer : Composer}
    (hk : tree'.kind? (block.shift id) = some (.custom composer)) :
  tree.kind? id = some (.custom composer)
  := by
  have heq := h.kind?_eq id
  rw [hk, Option.map_some, eq_comm, Option.map_eq_some_iff] at heq
  obtain ⟨kind, hkind, heq⟩ := heq
  cases kind with
  | custom own => exact hkind.trans (congrArg some heq)
  | _ => cases heq

/-- A tree that grew in two ways has no compositions of its own, when it has none after either. -/
theorem native_of_grows (hwf : tree.WellFormed) (hfirst : Grows tree first)
    (hboth : Grows first both) (hspliced : Spliced (tree.addedBlock first) second both)
    (hnative₁ : first.Native) (hnative₂ : second.Native) :
  both.Native
  := by
  intro id composer hk
  rcases Nat.lt_or_ge id first.size with hid | hid
  · have hshift : (first.addedBlock both).shift id = id := addedBlock_shift_of_lt hid
    rw [← hshift] at hk
    apply hnative₁ id composer ((hboth.spliced (hfirst.wellFormed hwf)).kind?_custom hk)
  · have hsize := hfirst.size_le
    have hshift : (tree.addedBlock first).shift (id - (first.size - tree.size)) = id := by
      rw [Block.shift_of_le (by simp only [addedBlock]; omega)]
      simp only [addedBlock]
      omega
    rw [← hshift] at hk
    apply hnative₂ _ composer (hspliced.kind?_custom hk)

/-- A tree that grows below one scope and then below another composes as one that grows in the other
order, and so does every node that was there before. -/
theorem composeAt_eq_of_grows (hwf : tree.WellFormed) (hfirst : Grows tree first)
    (hsecond : Grows tree second) (hboth : Grows first both) (hboth' : Grows second both')
    (hspliced : Spliced (tree.addedBlock first) second both)
    (hspliced' : Spliced (tree.addedBlock second) first both')
    (hbelow₁ : first.HoldsBelow scope₁ (tree.addedBlock first))
    (hbelow₂ : second.HoldsBelow scope₂ (tree.addedBlock second))
    (hapart : both.Apart scope₁ scope₂) (hnative : both.Native) (hid : id < tree.size) :
  both'.composeAt id = both.composeAt id
  := by
  obtain ⟨h₂, h₁⟩ := splicedBelow_of_grows hwf hfirst hsecond hboth hspliced hbelow₁ hbelow₂
  obtain ⟨h₁', h₂'⟩ := splicedBelow_of_grows hwf hsecond hfirst hboth' hspliced' hbelow₂ hbelow₁
  have hsize : tree.size ≤ both.size := Nat.le_trans hfirst.size_le hboth.size_le
  have heq := (renumbers_exchange hapart h₁ h₁' h₂ h₂').composeAt_eq h₁.wellFormed h₁'.wellFormed
    hnative (Nat.lt_of_lt_of_le hid hsize) (Nat.lt_of_lt_of_le hid hsize)
  rwa [Block.exchange_of_lt hid] at heq

end FilterTree

end FilteredSearch
