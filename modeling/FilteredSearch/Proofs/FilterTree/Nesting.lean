import FilteredSearch.Proofs.FilterTree.Enclosing
import FilteredSearch.Proofs.FilterTree.Walk

/-!
# Nested calls

Composing a node asks what other nodes compose to, and composing these asks in turn.  A node asks
only for later nodes, so the calls nest no deeper than there are nodes from the first one on, and
composing ends although nothing compares the numbers of the nodes on the way.  The way back to a
family leads through older nodes, so it takes no more steps than there are nodes before the first
one.
-/

namespace FilteredSearch

/-- A computation that is given up when it goes too far. -/
abbrev Bounded := ExceptT SearchError Option

namespace Bounded

variable {α β : Type} {x : Except SearchError α} {f : α → Bounded β} {g : α → Except SearchError β}
  {items : List α}

/-- The computation goes too far. -/
def giveUp : Bounded α := ExceptT.mk none

/-- The computation comes to the result. -/
def ofExcept (x : Except SearchError α) : Bounded α := ExceptT.mk (some x)

theorem ofExcept_bind (h : ∀ value, x = .ok value → f value = ofExcept (g value)) :
  ofExcept x >>= f = ofExcept (x >>= g)
  := by
  cases x with
  | error error => rfl
  | ok value => exact h value rfl

theorem map_ofExcept (h : α → β) (x : Except SearchError α) :
  h <$> ofExcept x = ofExcept (x.map h)
  := by
  cases x <;> rfl

theorem mapM_eq_ofExcept (h : ∀ item ∈ items, f item = ofExcept (g item)) :
  items.mapM f = ofExcept (items.mapM g)
  := by
  induction items with
  | nil => rfl
  | cons item items ih =>
    rw [List.mapM_cons, List.mapM_cons, h item List.mem_cons_self]
    apply ofExcept_bind
    intro first _
    rw [ih fun other hother => h other (List.mem_cons_of_mem _ hother)]
    apply ofExcept_bind
    intro rest _
    rfl

theorem composeSole?_eq_ofExcept {compose : Nat → Bounded Json}
    {answers : Nat → Except SearchError Json} {slot : List Nat}
    (h : ∀ child ∈ slot, compose child = ofExcept (answers child)) :
  composeSole? compose slot = ofExcept (composeSole? answers slot)
  := by
  match slot with
  | [] | _ :: _ :: _ => rfl
  | [only] =>
    rw [composeSole?, composeSole?, h only (List.mem_singleton_self only)]
    apply ofExcept_bind
    intro document _
    rfl

end Bounded

namespace FilterTree

variable {tree : FilterTree} {id later : Nat}

/-! ### What composing a node asks for -/

/-- Asks what a node composes to, and is given an answer. -/
def ask (answers : Nat → Except SearchError Json) (id : Nat) : Walk Json := ⟨answers id, [id]⟩

/-- Composing the first node asks, after some answers, what the second one composes to. -/
def Asks (tree : FilterTree) (id later : Nat) : Prop :=
  ∃ node answers, tree.nodes[id]? = some node
    ∧ later ∈ (tree.composeUsing (ask answers) id node).nodes

/-- Whatever the answers are, a node asks only for what is composed on its behalf. -/
theorem Asks.calls (hwf : tree.WellFormed) (hnative : tree.Native) (h : tree.Asks id later) :
  tree.Calls id later
  := by
  obtain ⟨node, answers, hnode, hlater⟩ := h
  have hk : tree.kind? id = some node.kind := kind?_eq_some_iff.mpr ⟨node, hnode, rfl⟩
  rw [composeUsing_eq hwf hnode (hnative.not_isCustom hk)] at hlater
  cases hobstacle : tree.obstacle? id node.kind with
  | some error =>
    rw [hobstacle] at hlater
    cases hlater
  | none =>
    rw [hobstacle] at hlater
    rcases Walk.of_mem_nodes_bind hlater with hslots | ⟨_, hpure⟩
    · obtain ⟨slot, hslot, hasked⟩ := Walk.exists_of_mem_nodes_mapM hslots
      obtain ⟨child, hchild, hasked⟩ := Walk.exists_of_mem_nodes_composeSole? hasked
      obtain rfl := List.mem_singleton.mp hasked
      apply calls_of_mem_slot hwf hk hslot hchild
    · cases hpure

theorem Asks.lt (hwf : tree.WellFormed) (hnative : tree.Native) (h : tree.Asks id later) :
  id < later ∧ later < tree.size
  := by
  have hcalls := h.calls hwf hnative
  exact ⟨hcalls.lt hwf, hcalls.lt_size⟩

/-- Whatever is asked for on behalf of a node, by itself or by those it asks for, is later. -/
theorem lt_of_transGen_asks (hwf : tree.WellFormed) (hnative : tree.Native)
    (h : Relation.TransGen tree.Asks id later) :
  id < later ∧ later < tree.size
  := by
  induction h with
  | single hasks => apply hasks.lt hwf hnative
  | tail _ hasks ih =>
    obtain ⟨hlt, hsize⟩ := hasks.lt hwf hnative
    exact ⟨Nat.lt_trans ih.1 hlt, hsize⟩

/-- Calls of which each is made while the one before is not done nest no deeper than there are
nodes from the first one on. -/
theorem length_le_of_isChain_asks (hwf : tree.WellFormed) (hnative : tree.Native)
    (hid : id < tree.size) {calls : List Nat} (h : List.IsChain tree.Asks (id :: calls)) :
  (id :: calls).length ≤ tree.size - id
  := by
  induction calls generalizing id with
  | nil =>
    simp only [List.length_singleton]
    omega
  | cons later calls ih =>
    obtain ⟨hasks, hcalls⟩ := List.isChain_cons_cons.mp h
    obtain ⟨hlt, hlater⟩ := hasks.lt hwf hnative
    have hlength := ih hlater hcalls
    rw [List.length_cons]
    omega

/-! ### Composing to a depth -/

/-- What a node composes to, by calls that nest no deeper than is said.  A call is made on any node
that is asked for, whether it is later or not. -/
def composeWithin (tree : FilterTree) : Nat → Nat → Bounded Json
  | 0, _ => .giveUp
  | depth + 1, id => do
    let node ← .ofExcept (tree.node id)
    tree.composeUsing (tree.composeWithin depth) id node

/-- As deep as there are nodes from the first one on, composing is never given up. -/
theorem composeWithin_eq (hwf : tree.WellFormed) (hnative : tree.Native) (hid : id < tree.size)
    {depth : Nat} (hdepth : tree.size - id ≤ depth) :
  tree.composeWithin depth id = .ofExcept (tree.composeAt id)
  := by
  induction depth generalizing id with
  | zero => omega
  | succ depth ih =>
    obtain ⟨kind, hk⟩ := exists_kind?_of_lt hid
    obtain ⟨node, hnode, rfl⟩ := kind?_eq_some_iff.mp hk
    have hkind := hnative.not_isCustom hk
    -- What stands in a slot is later, so one level less is deep enough for it.
    have hslots : (tree.slots id node.kind).mapM (composeSole? (tree.composeWithin depth))
        = .ofExcept ((tree.slots id node.kind).mapM (composeSole? tree.composeAt)) := by
      apply Bounded.mapM_eq_ofExcept
      intro slot hslot
      apply Bounded.composeSole?_eq_ofExcept
      intro child hchild
      have hcalls := calls_of_mem_slot hwf hk hslot hchild
      have hlt := hcalls.lt hwf
      apply ih hcalls.lt_size
      omega
    rw [composeWithin, node_eq_ok_iff.mpr hnode]
    show tree.composeUsing (tree.composeWithin depth) id node = _
    rw [composeUsing_eq hwf hnode hkind, composeAt_eq hwf hk hkind]
    cases tree.obstacle? id node.kind with
    | some error => rfl
    | none => rw [hslots, ← Bounded.map_ofExcept, map_eq_pure_bind]

/-! ### Going back in steps -/

/-- The root of the first family that the way up from a node comes to, in no more steps than are
said.  The way leads to any parent that is stored, whether it is older or not. -/
def familyRootWithin (tree : FilterTree) : Nat → Option Nat → Bounded Nat
  | _, none => throw .noEnclosingFamily
  | 0, some _ => .giveUp
  | steps + 1, some id => do
    let node ← .ofExcept (tree.node id)
    match node.kind.rootOfFamily? id with
    | some familyRoot => return familyRoot
    | none => tree.familyRootWithin steps node.parent

/-- The root of the nearest family around a node, found in no more steps than are said. -/
def familyRootAroundWithin (tree : FilterTree) (steps id : Nat) : Bounded Nat := do
  let parent ← .ofExcept (tree.parent id)
  tree.familyRootWithin steps parent

/-- In one step for every node up to a node, the way up from it comes to its end. -/
theorem familyRootWithin_eq (hwf : tree.WellFormed) (hid : id < tree.size) {steps : Nat}
    (hsteps : id < steps) :
  tree.familyRootWithin steps (some id) = .ofExcept (tree.familyRootFrom id)
  := by
  induction steps generalizing id with
  | zero => omega
  | succ steps ih =>
    obtain ⟨kind, hk⟩ := exists_kind?_of_lt hid
    rw [familyRootFrom_eq hk]
    obtain ⟨node, hnode, rfl⟩ := kind?_eq_some_iff.mp hk
    have hparent : tree.parent? id = node.parent := by simp [parent?, hnode]
    rw [hparent, familyRootWithin, node_eq_ok_iff.mpr hnode]
    show (match node.kind.rootOfFamily? id with
      | some familyRoot => (pure familyRoot : Bounded Nat)
      | none => tree.familyRootWithin steps node.parent) = _
    cases node.kind.rootOfFamily? id with
    | some familyRoot => rfl
    | none =>
      cases hnext : node.parent with
      | none =>
        cases steps <;> rfl
      | some parent =>
        have hlt := hwf.parent_lt_child (hparent.trans hnext)
        simp only [if_pos hlt]
        apply ih (Nat.lt_trans hlt hid)
        omega

/-- In as many steps as there are nodes before a node, the way back from it comes to its end. -/
theorem familyRootAroundWithin_eq (hwf : tree.WellFormed) (hid : id < tree.size) {steps : Nat}
    (hsteps : id ≤ steps) :
  tree.familyRootAroundWithin steps id = .ofExcept (tree.familyRootAround id)
  := by
  rw [familyRootAroundWithin, familyRootAround, parent_eq hid]
  apply Bounded.ofExcept_bind
  intro parent? hparent
  cases parent? with
  | none => cases steps <;> rfl
  | some parent =>
    have hlt := hwf.parent_lt_child (Except.ok.inj hparent)
    apply familyRootWithin_eq hwf (Nat.lt_trans hlt hid)
    omega

/-! ### Reachable trees -/

/-- In a tree that scripts build without compositions of their own, all that is asked for while a
node is composed is later than the node, the calls nest no deeper than there are nodes from this one
on, and so deep composing comes to its result; and the way back from the node takes no more steps
than there are nodes before it. -/
theorem Reachable.ends_within_size (h : tree.Reachable) (hnative : tree.Native)
    (hid : id < tree.size) :
  (∀ later, Relation.TransGen tree.Asks id later → id < later ∧ later < tree.size)
    ∧ (∀ calls, List.IsChain tree.Asks (id :: calls) → (id :: calls).length ≤ tree.size - id)
    ∧ (∀ depth, tree.size - id ≤ depth →
      tree.composeWithin depth id = .ofExcept (tree.composeAt id))
    ∧ ∀ steps, id ≤ steps →
      tree.familyRootAroundWithin steps id = .ofExcept (tree.familyRootAround id)
  := by
  have hwf := h.wellFormed
  refine ⟨?_, ?_, ?_, ?_⟩
  · intro later hasks
    apply lt_of_transGen_asks hwf hnative hasks
  · intro calls hcalls
    apply length_le_of_isChain_asks hwf hnative hid hcalls
  · intro depth hdepth
    apply composeWithin_eq hwf hnative hid hdepth
  · intro steps hsteps
    apply familyRootAroundWithin_eq hwf hid hsteps

/-- The first of two or-filters asks for the leaf below the second, skipping the second. -/
theorem asks_treeOfOrs :
  treeOfOrs.Asks 5 8
  := ⟨⟨some 2, [6, 7], .chain ⟨.or, 5, [5, 7]⟩⟩, fun _ => .ok .null, rfl, by decide⟩

theorem ends_within_size_treeOfOrs :
  treeOfOrs.Reachable ∧ treeOfOrs.Native ∧ 5 < treeOfOrs.size
    ∧ treeOfOrs.Asks 5 8 ∧ 5 < 8 ∧ 8 < treeOfOrs.size
    ∧ [5, 8].length ≤ treeOfOrs.size - 5
    ∧ treeOfOrs.composeWithin 4 5 = .ofExcept (treeOfOrs.composeAt 5)
    ∧ treeOfOrs.familyRootAroundWithin 5 5 = .ofExcept (treeOfOrs.familyRootAround 5)
  := by
  have hsize : 5 < treeOfOrs.size := by decide
  obtain ⟨hlater, hnested, hcompose, hback⟩ :=
    reachable_treeOfOrs.ends_within_size native_treeOfOrs hsize
  obtain ⟨hlt, hlast⟩ := hlater 8 (.single asks_treeOfOrs)
  refine ⟨reachable_treeOfOrs, native_treeOfOrs, hsize, asks_treeOfOrs, hlt, hlast, ?_, ?_, ?_⟩
  · apply hnested [8] (List.isChain_cons_cons.mpr ⟨asks_treeOfOrs, .singleton 8⟩)
  · apply hcompose 4 (by decide)
  · apply hback 5 (Nat.le_refl 5)

end FilterTree

end FilteredSearch
