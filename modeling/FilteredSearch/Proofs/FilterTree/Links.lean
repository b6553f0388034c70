import FilteredSearch.Proofs.FilterTree.Views
import Mathlib.Data.List.Nodup

/-!
# Links between parents and children

In a tree with agreeing links every node but the top scope has an older parent, which lists it
once, and no other node lists it.  Putting nodes into the tree keeps the links in agreement.
-/

namespace FilteredSearch

namespace FilterTree

/-- The links between parents and children agree. -/
structure Linked (tree : FilterTree) : Prop where
  kind_root : tree.kind? root = some .scope
  parent_root : tree.parent? root = none
  /-- Every node besides the top scope was put below an older node. -/
  parent_lt : ∀ {id}, 0 < id → id < tree.size → ∃ parent < id, tree.parent? id = some parent
  /-- A node is listed by its parent and by no other node. -/
  mem_childrenOf : ∀ {id child}, child ∈ tree.childrenOf id ↔ tree.parent? child = some id
  /-- No node is listed twice, and older children come first. -/
  ascending : ∀ {id}, (tree.childrenOf id).Pairwise (· < ·)

variable {tree : FilterTree} {id parent child : Nat} {kind : NodeKind}
  {connective : Connective}

theorem linked_empty :
  FilterTree.empty.Linked
  where
  kind_root := by simp [kind?_empty]
  parent_root := parent?_empty
  parent_lt := by
    intro id hpos hlt
    simp [size, FilterTree.empty] at hlt
    omega
  mem_childrenOf := by simp [childrenOf_empty, parent?_empty]
  ascending := by simp [childrenOf_empty]

namespace Linked

theorem size_pos (h : tree.Linked) :
  0 < tree.size
  := lt_size_of_kind? h.kind_root

theorem parent_lt_child (h : tree.Linked) (hparent : tree.parent? child = some parent) :
  parent < child
  := by
  have hne : child ≠ root := by
    rintro rfl
    simp [h.parent_root] at hparent
  obtain ⟨parent', hlt, hparent'⟩ := h.parent_lt (Nat.pos_of_ne_zero hne)
    (lt_size_of_parent? hparent)
  simp only [hparent, Option.some.injEq] at hparent'
  omega

theorem lt_of_mem_childrenOf (h : tree.Linked) (hchild : child ∈ tree.childrenOf id) :
  id < child ∧ child < tree.size
  := by
  have hparent := h.mem_childrenOf.mp hchild
  exact ⟨h.parent_lt_child hparent, lt_size_of_parent? hparent⟩

theorem nodup_childrenOf (h : tree.Linked) :
  (tree.childrenOf id).Nodup
  := h.ascending.imp Nat.ne_of_lt

theorem append (h : tree.Linked) (hparent : parent < tree.size) :
  (tree.append parent kind).Linked
  where
  kind_root := by
    have := h.size_pos
    rw [kind?_append, if_neg (by simp [root]; omega), h.kind_root]
  parent_root := by
    have := h.size_pos
    rw [parent?_append, if_neg (by simp [root]; omega), h.parent_root]
  parent_lt := by
    intro id hpos hlt
    rw [size_append] at hlt
    by_cases hid : id = tree.size
    · exact ⟨parent, by omega, by simp [parent?_append, hid]⟩
    · simpa [parent?_append, hid] using h.parent_lt hpos (by omega)
  mem_childrenOf := by
    intro id child
    rw [childrenOf_append hparent, parent?_append]
    have hnew : tree.size ∉ tree.childrenOf id := fun hmem =>
      Nat.lt_irrefl _ (h.lt_of_mem_childrenOf hmem).2
    by_cases hid : id = parent
    · subst hid
      by_cases hchild : child = tree.size
      · simp [hchild]
      · simp [hchild, h.mem_childrenOf]
    · by_cases hchild : child = tree.size
      · simpa [hid, hchild, Ne.symm hid] using hnew
      · simp [hid, hchild, h.mem_childrenOf]
  ascending := by
    intro id
    rw [childrenOf_append hparent]
    split
    · apply List.pairwise_append.mpr
      use h.ascending, List.pairwise_singleton _ _
      intro child hchild new hnew
      rw [List.mem_singleton.mp hnew]
      apply (h.lt_of_mem_childrenOf hchild).2
    · apply h.ascending

theorem addCondition (h : tree.Linked) (chainRoot condition : Nat) :
  (tree.addCondition chainRoot condition).Linked
  where
  kind_root := (kind?_addCondition_eq_some_iff (by simp)).mpr h.kind_root
  parent_root := by rw [parent?_addCondition, h.parent_root]
  parent_lt := by
    intro id hpos hlt
    rw [parent?_addCondition]
    apply h.parent_lt hpos (by simpa using hlt)
  mem_childrenOf := by
    intro id child
    rw [childrenOf_addCondition, parent?_addCondition, h.mem_childrenOf]
  ascending := by
    intro id
    rw [childrenOf_addCondition]
    apply h.ascending

end Linked

theorem Linked.addBool (h : tree.Linked) (hparent : parent < tree.size) :
  (tree.addBool parent).value.Linked
  := by
  rw [value_addBool]
  have hbool : tree.size < (tree.append parent (.bool tree.nextClauses)).size := by
    rw [size_append]
    omega
  apply (((h.append hparent).append hbool).append _).append _
  · simp only [size_append]
    omega
  · simp only [size_append]
    omega

theorem Linked.addChain (h : tree.Linked) (hparent : parent < tree.size) :
  (tree.addChain parent connective).value.Linked
  := by
  rw [value_addChain]
  apply (h.append hparent).addCondition _ _

/-! ### Ancestors -/

theorem IsOver.le (hlinked : tree.Linked) (h : tree.IsOver id child) :
  id ≤ child
  := by
  induction h with
  | refl => apply Nat.le_refl _
  | tail _ hparent ih =>
    have := hlinked.parent_lt_child hparent
    omega

/-- Ancestors stay when every parent stays. -/
theorem IsOver.mono {tree' : FilterTree}
    (hparent : ∀ {child parent}, tree.parent? child = some parent →
      tree'.parent? child = some parent) (h : tree.IsOver id child) :
  tree'.IsOver id child
  := by
  induction h with
  | refl => apply Relation.ReflTransGen.refl
  | tail _ hstep ih => apply Relation.ReflTransGen.tail ih (hparent hstep)

end FilterTree

end FilteredSearch
