import FilteredSearch.Proofs.FilterScript.Refines
import FilteredSearch.Proofs.FilterTerm.Held
import Mathlib.Tactic.IntervalCases

/-!
# Wrapped scripts

A scope without a meaning of its own may be put between a node and its filters, and others within
it: the node composes them as before, with the same arity and the same first error.  So a script
that fills an empty node leaves a tree that composes to the same when it is run on a scope within
that node.  The one exception are filters that join the chain of the node, which a scope between
keeps apart from it.
-/

namespace FilteredSearch

open FilterTree

/-! ### Terms within scopes -/

namespace FilterTerm

variable {around : Option Connective} {filters : List FilterTerm}

/-- Where at most one filter is composed, a scope comes to what its filters come to. -/
theorem sole?_only {results : List (Except SearchError Json)} (h : results ≠ []) :
  sole? [only results] = sole? results
  := by
  match results with
  | [] => exact absurd rfl h
  | [result] => cases result <;> rfl
  | _ :: _ :: _ => rfl

theorem evalApart_eq_map (h : ∀ filter ∈ filters, filter.joins around = false) :
  evalApart around filters = filters.map eval
  := by
  induction filters with
  | nil => rfl
  | cons filter filters ih =>
    obtain ⟨hfilter, hfilters⟩ := List.forall_mem_cons.mp h
    rw [evalApart, if_neg (by simp [hfilter]), ih hfilters, List.map_cons]

/-- The filters are some, and stand apart from the group around them. -/
def StandApart (around : Option Connective) (filters : List FilterTerm) : Prop :=
  filters ≠ [] ∧ ∀ filter ∈ filters, filter.joins around = false

theorem standApart_wrap :
  StandApart around [.wrap filters]
  := ⟨by simp, by simp [joins]⟩

theorem StandApart.sole?_wrap (h : StandApart around filters) :
  sole? (evalApart around [.wrap filters]) = sole? (evalApart around filters)
  := by
  have hnone : evalApart none filters = evalApart around filters := by
    rw [evalApart_eq_map h.2, evalApart_eq_map fun filter _ => filter.joins_none]
  have hresults : evalApart around filters ≠ [] := by
    rw [evalApart_eq_map h.2]
    simpa using h.1
  have hwrap : evalApart around [.wrap filters] = [only (evalApart none filters)] := rfl
  rw [hwrap, hnone, sole?_only hresults]

end FilterTerm

/-! ### Filters put below an empty node -/

namespace FilterTree

variable {tree tree' : FilterTree} {id : Nat} {around : Option (Connective × Nat)}
  {filters : List FilterTerm} {ids members : List Nat}

/-- Filters that stand apart from the chain around them add no members. -/
theorem ShowsAll.members_eq_nil_of_apart (h : tree.ShowsAll around filters ids members)
    (hapart : ∀ filter ∈ filters, filter.joins (around.map Prod.fst) = false) :
  members = []
  := by
  induction filters generalizing ids members with
  | nil => exact h.2
  | cons filter filters ih =>
    obtain ⟨hfilter, hfilters⟩ := List.forall_mem_cons.mp hapart
    obtain ⟨_, _, _, _, -, rfl, hfirst, hrest⟩ := h
    rw [hfirst.members_eq_nil hfilter, ih hrest hfilters, List.append_nil]

/-- Filters shown by nodes outside the chain around them stand apart from it. -/
theorem ShowsAll.not_joins (h : tree.ShowsAll around filters ids members)
    (hids : ∀ connective chainRoot, around = some (connective, chainRoot) →
      ∀ child ∈ ids, ¬tree.InChain connective chainRoot child) :
  ∀ filter ∈ filters, filter.joins (around.map Prod.fst) = false
  := by
  induction filters generalizing ids members with
  | nil => simp
  | cons filter filters ih =>
    obtain ⟨child, others, first, rest, rfl, -, hfirst, hrest⟩ := h
    rw [List.forall_mem_cons]
    constructor
    · cases around with
      | none => exact filter.joins_none
      | some chain =>
        obtain ⟨connective, chainRoot⟩ := chain
        rw [Option.map_some, ← hfirst.isMember_eq, ← Bool.not_eq_true, isMember_iff]
        exact hids connective chainRoot rfl child List.mem_cons_self
    · apply ih hrest
      intro connective chainRoot haround other hother
      exact hids connective chainRoot haround other (List.mem_cons_of_mem _ hother)

/-- Filters that stand apart from the chain of an empty node change nothing but its children. -/
theorem Puts.keepsBut (h : Puts tree tree' id filters) (hwf : tree.WellFormed)
    (hnew : tree.childrenOf id = [])
    (hapart : ∀ filter ∈ filters, filter.joins ((tree.chainOf? id).map Prod.fst) = false) :
  KeepsBut tree tree' id
  where
  childrenOf_eq := h.childrenOf_eq
  kind?_eq := by
    intro other hlt
    by_cases hroot : ∃ connective, tree.InChain connective other id
    · obtain ⟨connective, hin⟩ := hroot
      obtain ⟨conditions, hk⟩ := hwf.root_inChain hin
      obtain ⟨members, hshown, hlisted⟩ := h.shown_of_new hnew
      rw [hlisted hin hk, hk, hshown.members_eq_nil_of_apart hapart, List.append_nil]
    · exact h.kind?_eq other hlt (not_exists.mp hroot)

/-- An empty node holds what the filters put below it evaluate to. -/
theorem Puts.held_eq (h : Puts tree tree' id filters) (hwf' : tree'.WellFormed)
    (hid : id < tree.size) (hnew : tree.childrenOf id = []) :
  tree'.held id
    = FilterTerm.sole? (FilterTerm.evalApart ((tree.chainOf? id).map Prod.fst) filters)
  := by
  obtain ⟨members, hshown, -⟩ := h.shown_of_new hnew
  rw [held, h.chainOf?_eq hid, composeSole?_eq_sole?, hshown.map_composeAt hwf']

end FilterTree

namespace FilterScript

/-- The script run on a scope within scopes, so many of them, instead of the node. -/
def wrapped (script : FilterScript) : Nat → FilterScript
  | 0 => script
  | depth + 1 => .scope .wrap (script.wrapped depth) .done

variable {script : FilterScript}

theorem Forward.wrapped (h : script.Forward) (depth : Nat) :
  (script.wrapped depth).Forward
  := by
  induction depth with
  | zero => exact h
  | succ depth ih => exact ⟨by simp, ih, trivial⟩

theorem contents_wrapped (script : FilterScript) (depth : Nat) :
  (script.wrapped (depth + 1)).contents .scope none
    = [.wrap ((script.wrapped depth).contents .scope none)]
  := rfl

open FilterTerm in
/-- The filters of a wrapped script come to what those of the script come to. -/
theorem sole?_wrapped {around : Option Connective}
    (h : StandApart around (script.contents .scope none)) (depth : Nat) :
  StandApart around ((script.wrapped depth).contents .scope none)
    ∧ sole? (evalApart around ((script.wrapped depth).contents .scope none))
      = sole? (evalApart around (script.contents .scope none))
  := by
  induction depth with
  | zero => exact ⟨h, rfl⟩
  | succ depth ih =>
    obtain ⟨hapart, heq⟩ := ih
    rw [contents_wrapped]
    exact ⟨standApart_wrap, hapart.sole?_wrap.trans heq⟩

variable {tree : FilterTree} {id : Nat}

/-- Wherever a script fills an empty node of a tree, the tree composes to the same when the script
is run on a scope within the node instead, or on one within others, and fails as before.  No
caller's own compositions are in the tree or among the filters, and the filters put below a member
of a chain do not join the chain. -/
theorem Forward.compose_wrapped (h : script.Forward) (htree : tree.Reachable)
    (hnative : tree.Native) (hid : tree.Takes id) (hnew : tree.childrenOf id = [])
    (transcript : Transcript) (strict : Bool) :
  let left (script : FilterScript) :=
    (script.run (.scope id) (.start tree transcript strict)).tree
  (left script).childrenOf id ≠ [] →
    (∀ connective chainRoot, tree.InChain connective chainRoot id →
      ∀ child ∈ (left script).childrenOf id, ¬(left script).InChain connective chainRoot child) →
    ∀ depth, (left (script.wrapped depth)).compose = (left script).compose
  := by
  intro left hattaches houtside depth
  have hwf := htree.wellFormed
  have hputs : ∀ {script : FilterScript}, script.Forward →
      Puts tree (left script) id (script.contents .scope none) := fun hscript =>
    hscript.follows.scope id (.start tree transcript strict) rfl hwf hid
  have hleft : ∀ script, (left script).WellFormed := fun script =>
    (script.makesGrow (.scope id) (.start tree transcript strict) hwf hid).wellFormed hwf
  have hplain := hputs h
  have hwrapped := hputs (h.wrapped depth)
  have hapart : FilterTerm.StandApart ((tree.chainOf? id).map Prod.fst)
      (script.contents .scope none) := by
    obtain ⟨members, hshown, -⟩ := hplain.shown_of_new hnew
    constructor
    · intro hnil
      apply hattaches
      rw [← List.length_eq_zero_iff, hshown.length_eq, hnil, List.length_nil]
    · apply hshown.not_joins
      intro connective chainRoot hchain
      exact houtside connective chainRoot (chainOf?_eq_some_iff.mp hchain)
  obtain ⟨hapart', hsame⟩ := sole?_wrapped hapart depth
  have hheld : (left (script.wrapped depth)).held id = (left script).held id := by
    rw [hwrapped.held_eq (hleft _) hid.lt_size hnew, hplain.held_eq (hleft _) hid.lt_size hnew,
      hsame]
  rw [compose_eq, compose_eq]
  exact composeAt_eq_of_held_eq hwf hnative hnew (hleft _) (hleft _)
    (hwrapped.keepsBut hwf hnew hapart'.2) (hplain.keepsBut hwf hnew hapart.2) hheld hwf.size_pos

/-- A tree with an or-filter that is empty. -/
def treeOfOr : FilterTree :=
  ((FilterScript.chain .or .done .done .done).run (.scope root)
    (.start .empty .empty false)).tree

/-- A script for two filters where one is composed. -/
def twoLeaves : FilterScript := .leaf .matchAll .done (.leaf (.first 3) .done .done)

theorem compose_wrapped_twoLeaves :
  treeOfOr.Reachable ∧ treeOfOr.childrenOf 1 = []
    ∧ ((twoLeaves.wrapped 2).run (.scope 1) (.start treeOfOr .empty false)).tree.compose
      = (twoLeaves.run (.scope 1) (.start treeOfOr .empty false)).tree.compose
  := by
  have hreachable : treeOfOr.Reachable := .run _ .empty false .empty
  have hnative : treeOfOr.Native := by
    intro id composer hk
    have hid : id < 2 := lt_size_of_kind? hk
    interval_cases id <;> cases hk
  have hchildren : (twoLeaves.run (.scope 1) (.start treeOfOr .empty false)).tree.childrenOf 1
      = [2, 3] := rfl
  have hforward : twoLeaves.Forward := by simp [twoLeaves, Forward]
  have htakes : treeOfOr.Takes 1 := ⟨.chain ⟨.or, 1, [1]⟩, rfl, by simp⟩
  refine ⟨hreachable, rfl,
    hforward.compose_wrapped hreachable hnative htakes rfl .empty false ?_ ?_ 2⟩
  · simp [hchildren]
  · rintro connective chainRoot - child hchild ⟨conditions, hk⟩
    rw [hchildren] at hchild
    rcases List.mem_pair.mp hchild with rfl | rfl <;> cases hk

end FilterScript

end FilteredSearch
