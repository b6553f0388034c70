import FilteredSearch.Proofs.FilterTree.Reachable
import FilteredSearch.Proofs.FilterTree.Walk
import FilteredSearch.Proofs.Json.Context
import Mathlib.Data.List.ReduceOption
import Mathlib.Tactic.IntervalCases

/-!
# Fragments in a document

The document of a tree has one place for the fragment of every leaf: with another document for
the leaf, the tree composes to the same document with the other one in that place.
-/

namespace FilteredSearch

/-- The members of the object of a bool filter come in ascending order. -/
theorem ascending_clauses {documents : List (Option Json)} (hlength : documents.length = 3) :
  Keyed.Ascending ((Clause.all.zip documents).filterMap fun slot =>
    slot.2.map fun document => (slot.1.key, document))
  := by
  have hall : Clause.all.Pairwise (fun part other => part.key < other.key) := by decide
  have hzip : (Clause.all.zip documents).map Prod.fst = Clause.all :=
    List.map_fst_zip (by simp [Clause.all, hlength])
  rw [← hzip, List.pairwise_map] at hall
  apply List.pairwise_filterMap.mpr
  apply hall.imp
  intro slot other hlt member hmember member' hmember'
  obtain ⟨_, -, rfl⟩ := Option.map_eq_some_iff.mp hmember
  obtain ⟨_, -, rfl⟩ := Option.map_eq_some_iff.mp hmember'
  apply hlt

/-- A document in a slot of a bool filter has one place in the document of the bool filter. -/
theorem exists_context_assemble_bool {clauses : Clauses} {before after : List (Option Json)}
    (hlength : before.length + 1 + after.length = 3) :
  ∃ context : Json.Context, ∀ document,
    (NodeKind.bool clauses).assemble (before ++ some document :: after) = context.fill document
  := by
  obtain ⟨parts, part, others, hall, hparts⟩ : ∃ parts part others,
      Clause.all = parts ++ part :: others ∧ parts.length = before.length := by
    match hbefore : before.length with
    | 0 => exact ⟨[], .must, [.mustNot, .should], rfl, rfl⟩
    | 1 => exact ⟨[.must], .mustNot, [.should], rfl, rfl⟩
    | 2 => exact ⟨[.must, .mustNot], .should, [], rfl, rfl⟩
    | _ + 3 => omega
  let member (slot : Clause × Option Json) : Option (String × Json) :=
    slot.2.map fun document => (slot.1.key, document)
  use .member [] "bool" (.member ((parts.zip before).filterMap member) part.key .hole
    ((others.zip after).filterMap member)) []
  intro document
  have hlength' : (before ++ some document :: after).length = 3 := by
    rw [List.length_append, List.length_cons]
    omega
  have hascending := ascending_clauses hlength'
  rw [NodeKind.assemble, Json.ofMembers, Keyed.ofList_eq_self hascending, hall,
    List.zip_append hparts]
  simp [Json.Context.fill, Json.singleton, member]

/-- A document in a slot of a node has one place in the document of the node. -/
theorem exists_context_assemble {tree : FilterTree} {id : Nat} {kind : NodeKind}
    {before after : List (Option Json)}
    (hlength : before.length + 1 + after.length = (tree.slots id kind).length) :
  ∃ context : Json.Context, ∀ document,
    kind.assemble (before ++ some document :: after) = context.fill document
  := by
  have hsingle : (tree.slots id kind).length = 1 → before = [] ∧ after = [] := by
    intro hone
    exact ⟨List.length_eq_zero_iff.mp (by omega), List.length_eq_zero_iff.mp (by omega)⟩
  cases kind with
  | scope =>
    obtain ⟨rfl, rfl⟩ := hsingle rfl
    exact ⟨.hole, fun document => rfl⟩
  | negation =>
    obtain ⟨rfl, rfl⟩ := hsingle rfl
    exact ⟨.member [] "not" .hole [], fun document => rfl⟩
  | nested path =>
    obtain ⟨rfl, rfl⟩ := hsingle rfl
    exact ⟨.member [] "nested" (.member [] "filter" .hole [("path", .string path.dotted)]) [],
      fun document => rfl⟩
  | bool clauses => apply exists_context_assemble_bool hlength
  | chain membership =>
    use .member [] membership.connective.key (.item before.reduceOption .hole
      after.reduceOption) []
    intro document
    have hitems : (before ++ some document :: after).reduceOption
        = before.reduceOption ++ document :: after.reduceOption := by
      rw [List.reduceOption_append, List.reduceOption_cons_of_some]
    exact congrArg (fun items => Json.singleton membership.connective.key (.array items)) hitems
  | fragment _ | faulty _ | custom _ | clause _ _ => simp [FilterTree.slots] at hlength

namespace FilterTree

/-- The tree in which a leaf has another document. -/
def withFragment (tree : FilterTree) (leaf : Nat) (document : Json) : FilterTree :=
  ⟨tree.nodes.modify leaf fun node => { node with kind := .fragment document }⟩

variable {tree : FilterTree} {leaf id x : Nat} {kind : NodeKind} {fragment document : Json}
  {connective : Connective} {chainRoot : Nat}

/-! ### Another document for a leaf -/

@[simp]
theorem size_withFragment :
  (tree.withFragment leaf document).size = tree.size
  := by
  simp [withFragment, size]

@[simp]
theorem parent?_withFragment :
  (tree.withFragment leaf document).parent? id = tree.parent? id
  := by
  simp only [parent?, withFragment, Array.getElem?_modify]
  split
  · cases tree.nodes[id]? <;> rfl
  · rfl

@[simp]
theorem childrenOf_withFragment :
  (tree.withFragment leaf document).childrenOf id = tree.childrenOf id
  := by
  simp only [childrenOf, withFragment, Array.getElem?_modify]
  split
  · cases tree.nodes[id]? <;> rfl
  · rfl

theorem kind?_withFragment_self (hleaf : leaf < tree.size) :
  (tree.withFragment leaf document).kind? leaf = some (.fragment document)
  := by
  have hnode := Array.getElem?_eq_getElem (show leaf < tree.nodes.size from hleaf)
  simp [kind?, withFragment, Array.getElem?_modify, hnode]

theorem kind?_withFragment_of_ne (hne : id ≠ leaf) :
  (tree.withFragment leaf document).kind? id = tree.kind? id
  := by
  simp [kind?, withFragment, Array.getElem?_modify, Ne.symm hne]

/-- Only leaves change their kinds. -/
theorem kind?_withFragment_eq_some_iff (hleaf : tree.kind? leaf = some (.fragment fragment))
    (hkind : ∀ document, kind ≠ .fragment document) :
  (tree.withFragment leaf document).kind? id = some kind ↔ tree.kind? id = some kind
  := by
  by_cases hne : id = leaf
  · subst hne
    rw [kind?_withFragment_self (lt_size_of_kind? hleaf), hleaf]
    simp [Ne.symm (hkind _)]
  · rw [kind?_withFragment_of_ne hne]

theorem inChain_withFragment (hleaf : tree.kind? leaf = some (.fragment fragment)) :
  (tree.withFragment leaf document).InChain connective chainRoot id
    ↔ tree.InChain connective chainRoot id
  := by
  constructor
  · rintro ⟨conditions, hk⟩
    exact ⟨conditions, (kind?_withFragment_eq_some_iff hleaf (by simp)).mp hk⟩
  · rintro ⟨conditions, hk⟩
    exact ⟨conditions, (kind?_withFragment_eq_some_iff hleaf (by simp)).mpr hk⟩

/-- The document that a leaf has changes nothing. -/
theorem withFragment_self (hleaf : tree.kind? leaf = some (.fragment fragment)) :
  tree.withFragment leaf fragment = tree
  := by
  obtain ⟨node, hnode, hkind⟩ := kind?_eq_some_iff.mp hleaf
  have hnodes : (tree.withFragment leaf fragment).nodes = tree.nodes := by
    apply Array.ext_getElem?
    intro id
    rw [withFragment, Array.getElem?_modify]
    split
    · next heq =>
      subst heq
      rw [hnode, ← hkind]
      rfl
    · rfl
  apply congrArg FilterTree.mk hnodes

theorem WellFormed.withFragment (h : tree.WellFormed)
    (hleaf : tree.kind? leaf = some (.fragment fragment)) :
  (tree.withFragment leaf document).WellFormed
  where
  kind_root := (kind?_withFragment_eq_some_iff hleaf (by simp)).mpr h.kind_root
  parent_root := by rw [parent?_withFragment, h.parent_root]
  parent_lt := by
    simp only [parent?_withFragment, size_withFragment]
    exact h.parent_lt
  mem_childrenOf := by
    simp only [parent?_withFragment, childrenOf_withFragment]
    exact h.mem_childrenOf
  ascending := by
    simp only [childrenOf_withFragment]
    exact h.ascending
  toClausesFit := h.toClausesFit.of_same (kind?_withFragment_eq_some_iff hleaf (by simp))
    (kind?_withFragment_eq_some_iff hleaf (by simp)) (by simp)
  root_le := by
    simp only [inChain_withFragment hleaf]
    exact h.root_le
  root_over hid := (h.root_over ((inChain_withFragment hleaf).mp hid)).mono (by simp)
  root_inChain := by
    simp only [inChain_withFragment hleaf]
    exact h.root_inChain
  parent_inChain := by
    simp only [inChain_withFragment hleaf, parent?_withFragment]
    exact h.parent_inChain
  parent_not_inChain := by
    simp only [inChain_withFragment hleaf, parent?_withFragment]
    exact h.parent_not_inChain
  conditions_ascending hk :=
    h.conditions_ascending ((kind?_withFragment_eq_some_iff hleaf (by simp)).mp hk)
  mem_conditions hk := by
    rw [inChain_withFragment hleaf]
    apply h.mem_conditions ((kind?_withFragment_eq_some_iff hleaf (by simp)).mp hk)
  conditions_of_member hk :=
    h.conditions_of_member ((kind?_withFragment_eq_some_iff hleaf (by simp)).mp hk)
  childrenOf_fragment := by
    intro id other hk
    rw [childrenOf_withFragment]
    by_cases hne : id = leaf
    · apply hne ▸ h.childrenOf_fragment hleaf
    · apply h.childrenOf_fragment (by rwa [kind?_withFragment_of_ne hne] at hk)

theorem slots_withFragment (hleaf : tree.kind? leaf = some (.fragment fragment)) :
  (tree.withFragment leaf document).slots id kind = tree.slots id kind
  := by
  have houtsiders : ∀ chain member,
      (tree.withFragment leaf document).outsiders chain member = tree.outsiders chain member := by
    rintro ⟨connective, chainRoot, conditions⟩ member
    rw [outsiders, outsiders, childrenOf_withFragment]
    apply List.filter_congr
    intro child _
    rw [Bool.eq_iff_iff, Bool.not_eq_true', ← Bool.not_eq_true, isMember_iff,
      inChain_withFragment hleaf, ← isMember_iff, Bool.not_eq_true, ← Bool.not_eq_true']
  cases kind with
  | chain membership => simp only [slots, funext (houtsiders membership)]
  | scope | negation | nested _ | bool _ => simp [slots]
  | fragment _ | faulty _ | custom _ | clause _ _ => rfl

theorem obstacle?_withFragment :
  (tree.withFragment leaf document).obstacle? id kind = tree.obstacle? id kind
  := by
  cases kind <;> simp [obstacle?]

/-! ### The place of a leaf -/

/-- Every other node is assembled as before from what its slots hold now. -/
theorem composeAt_withFragment_eq (hwf : tree.WellFormed)
    (hleaf : tree.kind? leaf = some (.fragment fragment)) (hk : tree.kind? id = some kind)
    (hkind : ¬kind.IsCustom) (hne : id ≠ leaf) :
  (tree.withFragment leaf document).composeAt id
    = match tree.obstacle? id kind with
      | some error => .error error
      | none => ((tree.slots id kind).mapM
          (composeSole? (tree.withFragment leaf document).composeAt)).map kind.assemble
  := by
  have hk' : (tree.withFragment leaf document).kind? id = some kind :=
    (kind?_withFragment_of_ne hne).trans hk
  have heq := composeAt_eq (hwf.withFragment hleaf) hk' hkind
  rw [obstacle?_withFragment, slots_withFragment hleaf] at heq
  apply heq

/-- A node for which a leaf is not composed does not depend on the leaf. -/
theorem composeAt_withFragment_of_not_mem (hwf : tree.WellFormed) (hnative : tree.Native)
    (hplaced : tree.Placed) (hleaf : tree.kind? leaf = some (.fragment fragment))
    (hid : id < tree.size) (hpart : ¬tree.IsPart id) (hnot : leaf ∉ (tree.walk id).nodes) :
  (tree.withFragment leaf document).composeAt id = tree.composeAt id
  := by
  induction id, hid, hpart using hwf.slotInduction with
  | @node id kind hid hpart hk ih =>
    have hkind := hnative.not_isCustom hk
    rw [nodes_walk hwf hk hkind (hplaced.exists_composeAt hwf hnative hid hpart),
      List.mem_cons, not_or] at hnot
    obtain ⟨hne, hnot⟩ := hnot
    have hslots : (tree.slots id kind).mapM
          (composeSole? (tree.withFragment leaf document).composeAt)
        = (tree.slots id kind).mapM (composeSole? tree.composeAt) := by
      apply Results.mapM_congr
      intro slot hslot
      apply composeSole?_congr
      intro child hchild
      apply ih slot hslot child hchild
      intro hmem
      apply hnot (List.mem_flatMap.mpr ⟨child, List.mem_flatten.mpr ⟨slot, hslot, hchild⟩, hmem⟩)
    rw [composeAt_withFragment_eq hwf hleaf hk hkind (Ne.symm hne), hslots]
    apply (composeAt_eq hwf hk hkind).symm

/-- Slots for which a leaf is not composed hold the same documents whatever the leaf has. -/
theorem exists_mapM_withFragment (hwf : tree.WellFormed) (hnative : tree.Native)
    (hplaced : tree.Placed) (hleaf : tree.kind? leaf = some (.fragment fragment))
    (hk : tree.kind? id = some kind) {slots : List (List Nat)}
    (hslots : ∀ slot ∈ slots, slot ∈ tree.slots id kind)
    (hnot : leaf ∉ slots.flatten.flatMap fun child => (tree.walk child).nodes) :
  ∃ documents, documents.length = slots.length ∧ ∀ document,
    slots.mapM (composeSole? (tree.withFragment leaf document).composeAt) = .ok documents
  := by
  have hchild : ∀ slot ∈ slots, ∀ child ∈ slot, child < tree.size ∧ ¬tree.IsPart child := by
    intro slot hslot child hchild
    exact ⟨(calls_of_mem_slot hwf hk (hslots slot hslot) hchild).lt_size,
      not_isPart_of_mem_slot hwf hk (hslots slot hslot) hchild⟩
  obtain ⟨documents, hdocuments⟩ : ∃ documents,
      slots.mapM (composeSole? tree.composeAt) = .ok documents := by
    rw [Results.exists_mapM_eq_ok_iff]
    intro slot hslot
    refine exists_composeSole?_iff.mpr ⟨hplaced.slot_le_one hwf hk (hslots slot hslot), ?_⟩
    intro child hmem
    obtain ⟨hid, hpart⟩ := hchild slot hslot child hmem
    apply hplaced.exists_composeAt hwf hnative hid hpart
  use documents, (Results.mapM_eq_ok_iff.mp hdocuments).length_eq.symm
  intro document
  rw [← hdocuments]
  apply Results.mapM_congr
  intro slot hslot
  apply composeSole?_congr
  intro child hmem
  obtain ⟨hid, hpart⟩ := hchild slot hslot child hmem
  apply composeAt_withFragment_of_not_mem hwf hnative hplaced hleaf hid hpart
  intro hleaf'
  apply hnot (List.mem_flatMap.mpr ⟨child, List.mem_flatten.mpr ⟨slot, hslot, hmem⟩, hleaf'⟩)

/-- A slot for which a node is composed holds one filter, and the node is composed for no other
slot. -/
theorem exists_slots_eq (hwf : tree.WellFormed) (hnative : tree.Native) (hplaced : tree.Placed)
    (hid : id < tree.size) (hpart : ¬tree.IsPart id) (hk : tree.kind? id = some kind)
    {slot : List Nat} {child : Nat} (hslot : slot ∈ tree.slots id kind) (hchild : child ∈ slot)
    (hx : x ∈ (tree.walk child).nodes) :
  ∃ before after, tree.slots id kind = before ++ [child] :: after
    ∧ (x ∉ before.flatten.flatMap fun other => (tree.walk other).nodes)
    ∧ x ∉ after.flatten.flatMap fun other => (tree.walk other).nodes
  := by
  obtain ⟨only, rfl⟩ := List.length_eq_one_iff.mp
    (Nat.le_antisymm (hplaced.slot_le_one hwf hk hslot) (List.length_pos_of_mem hchild))
  obtain rfl := List.mem_singleton.mp hchild
  obtain ⟨before, after, hsplit⟩ := List.append_of_mem hslot
  have hnodup := nodup_nodes_walk hwf hnative hplaced hid hpart
  rw [nodes_walk hwf hk (hnative.not_isCustom hk)
    (hplaced.exists_composeAt hwf hnative hid hpart), hsplit] at hnodup
  simp only [List.flatten_append, List.flatten_cons, List.flatMap_append,
    List.flatMap_singleton] at hnodup
  have hrest := (List.nodup_cons.mp hnodup).2
  use before, after, hsplit
  constructor
  · intro hbefore
    apply List.disjoint_of_nodup_append hrest hbefore (List.mem_append_left _ hx)
  · apply List.disjoint_of_nodup_append hrest.of_append_right hx

/-- A node for which a leaf is composed has one place for the leaf in its document. -/
theorem exists_context_of_mem (hwf : tree.WellFormed) (hnative : tree.Native)
    (hplaced : tree.Placed) (hleaf : tree.kind? leaf = some (.fragment fragment))
    (hid : id < tree.size) (hpart : ¬tree.IsPart id) (hmem : leaf ∈ (tree.walk id).nodes) :
  ∃ context : Json.Context, ∀ document,
    (tree.withFragment leaf document).composeAt id = .ok (context.fill document)
  := by
  induction id, hid, hpart using hwf.slotInduction with
  | @node id kind hid hpart hk ih =>
    have hkind := hnative.not_isCustom hk
    rw [nodes_walk hwf hk hkind (hplaced.exists_composeAt hwf hnative hid hpart),
      List.mem_cons] at hmem
    by_cases hne : leaf = id
    · subst hne
      use .hole
      intro document
      rw [composeAt_eq (hwf.withFragment hleaf) (kind?_withFragment_self hid) (fun h => h)]
      rfl
    · obtain ⟨child, hchild, hmem⟩ := List.mem_flatMap.mp (hmem.resolve_left hne)
      obtain ⟨slot, hslot, hchild⟩ := List.mem_flatten.mp hchild
      obtain ⟨inner, hinner⟩ := ih slot hslot child hchild hmem
      obtain ⟨before, after, hsplit, hbefore, hafter⟩ :=
        exists_slots_eq hwf hnative hplaced hid hpart hk hslot hchild hmem
      obtain ⟨earlier, hearlier, hearlier'⟩ := exists_mapM_withFragment hwf hnative hplaced hleaf hk
        (by rw [hsplit]; exact fun _ => List.mem_append_left _) hbefore
      obtain ⟨later, hlater, hlater'⟩ := exists_mapM_withFragment hwf hnative hplaced hleaf hk
        (by rw [hsplit]; exact fun _ h => List.mem_append_right _ (List.mem_cons_of_mem _ h)) hafter
      have hlength : earlier.length + 1 + later.length = (tree.slots id kind).length := by
        rw [hsplit, List.length_append, List.length_cons, hearlier, hlater]
        omega
      obtain ⟨outer, houter⟩ := exists_context_assemble hlength
      use outer.comp inner
      intro document
      rw [composeAt_withFragment_eq hwf hleaf hk hkind (Ne.symm hne),
        hplaced.obstacle?_eq_none hk hpart, hsplit]
      simp [List.mapM_append, composeSole?, hearlier', hlater', hinner, houter, Except.map, bind,
        Except.bind, pure, Except.pure]

/-! ### Trees that compose -/

/-- A tree that scripts build without compositions of their own composes exactly when every filter
has a place in its document.  Whenever it composes, the walk over the tree composes every node
that is not a part of its family once and no other node, and the document has one place for the
fragment of every leaf. -/
theorem compose_ok_iff_placed (h : tree.Reachable) (hnative : tree.Native) :
  ((∃ document, tree.compose = .ok document) ↔ tree.Placed)
    ∧ ∀ document, tree.compose = .ok document →
      (tree.walk root).result = .ok document
      ∧ (∀ id < tree.size, ¬tree.IsPart id → (tree.walk root).nodes.count id = 1)
      ∧ (∀ id ∈ (tree.walk root).nodes, id < tree.size ∧ ¬tree.IsPart id)
      ∧ ∀ leaf fragment, tree.kind? leaf = some (.fragment fragment) →
        ∃ context : Json.Context, document = context.fill fragment
          ∧ ∀ other, (tree.withFragment leaf other).compose = .ok (context.fill other)
  := by
  have hwf := h.wellFormed
  have hiff := exists_compose_iff_placed hwf hnative
  use hiff
  intro document hdocument
  have hplaced := hiff.mp ⟨document, hdocument⟩
  have hroot : root < tree.size := hwf.size_pos
  have hpart : ¬tree.IsPart root := Heads.not_isPart hwf ⟨_, hwf.kind_root, rfl⟩
  rw [compose_eq] at hdocument
  refine ⟨by rw [result_walk, hdocument], ?_, ?_, ?_⟩
  · intro id hid hidpart
    apply List.count_eq_one_of_mem (nodup_nodes_walk hwf hnative hplaced hroot hpart)
      (mem_nodes_walk_root hwf hnative hplaced hid hidpart)
  · intro id hid
    apply (of_mem_nodes_walk hwf hnative hplaced hroot hpart hid).2
  · intro leaf fragment hleaf
    have hleafpart : ¬tree.IsPart leaf := Heads.not_isPart hwf ⟨_, hleaf, rfl⟩
    obtain ⟨context, hcontext⟩ := exists_context_of_mem hwf hnative hplaced hleaf hroot hpart
      (mem_nodes_walk_root hwf hnative hplaced (lt_size_of_kind? hleaf) hleafpart)
    use context
    constructor
    · have hself := hcontext fragment
      rw [withFragment_self hleaf, hdocument, Except.ok.injEq] at hself
      apply hself
    · intro other
      rw [compose_eq, hcontext other]

theorem native_treeOfOrs :
  treeOfOrs.Native
  := by
  intro id composer hk
  have hid : id < 9 := lt_size_of_kind? hk
  interval_cases id <;> cases hk

theorem placed_treeOfOrs :
  treeOfOrs.Placed
  where
  resolved := by
    intro id fault hk
    have hid : id < 9 := lt_size_of_kind? hk
    interval_cases id <;> cases hk
  scope_le_one := by
    intro id kind hk hkind
    have hid : id < 9 := lt_size_of_kind? hk
    interval_cases id <;> first | decide | (cases hk; apply hkind.elim)
  bool_contains := by
    intro id clauses hk
    have hid : id < 9 := lt_size_of_kind? hk
    interval_cases id <;> cases hk
    decide
  member_le_one := by
    intro id membership hk
    have hid : id < 9 := lt_size_of_kind? hk
    interval_cases id <;> cases hk <;> decide

theorem compose_ok_iff_placed_treeOfOrs :
  treeOfOrs.Placed ∧ ∃ document, treeOfOrs.compose = .ok document
    ∧ (treeOfOrs.walk root).nodes.count 8 = 1
  := by
  obtain ⟨hiff, hwalk⟩ := compose_ok_iff_placed reachable_treeOfOrs native_treeOfOrs
  obtain ⟨document, hdocument⟩ := hiff.mpr placed_treeOfOrs
  have hpart : ¬treeOfOrs.IsPart 8 := by
    rintro (hid | ⟨⟨_, hid⟩, -⟩) <;> cases hid
  exact ⟨placed_treeOfOrs, document, hdocument,
    (hwalk document hdocument).2.1 8 (by decide) hpart⟩

end FilterTree

end FilteredSearch
