import FilteredSearch.Proofs.FilterScript.Numbers
import Mathlib.Data.List.Sort

/-!
# The log replays the tree

The log of a script that builds a tree from nothing has one entry for each node but the top scope,
in the order of their numbers, and the entry tells the parent.  So the log alone tells which children
a node has and in which order.  Calls that put nothing into the tree write nothing of the kind, and
neither does composing.
-/

namespace FilteredSearch

/-- The node that the entry says was put below the parent. -/
def LogEntry.nodeBelow? (parent : Nat) : LogEntry → Option Nat
  | .attached node other => if other = parent then some node else none
  | _ => none

namespace FilterTree

variable {tree : FilterTree} {first id : Nat} {entries : List LogEntry}

/-! ### Nodes in the log -/

/-- The numbers of the nodes from one of them on. -/
theorem range'_eq_cons (h : first < tree.size) :
  List.range' first (tree.size - first)
    = first :: List.range' (first + 1) (tree.size - (first + 1))
  := by
  rw [← List.range'_succ]
  congr 1
  omega

/-- One entry after the other is that of one node after the other. -/
theorem LogsFrom.forall₂ (h : tree.LogsFrom first entries) :
  List.Forall₂ (fun id entry => ∃ parent, tree.parent? id = some parent
    ∧ entry = .attached id parent) (List.range' first (tree.size - first)) entries
  := by
  induction h with
  | last =>
    rw [Nat.sub_self]
    apply List.Forall₂.nil
  | @node id parent entries hparent _ ih =>
    rw [range'_eq_cons (lt_size_of_parent? hparent)]
    apply List.Forall₂.cons ⟨parent, hparent, rfl⟩ ih

/-- The nodes that are logged below a parent are those that have it. -/
theorem LogsFrom.filterMap_nodeBelow? (h : tree.LogsFrom first entries) (parent : Nat) :
  entries.filterMap (LogEntry.nodeBelow? parent)
    = (List.range' first (tree.size - first)).filter fun id => tree.parent? id = some parent
  := by
  induction h with
  | last => simp
  | @node id other entries hparent _ ih =>
    rw [range'_eq_cons (lt_size_of_parent? hparent), List.filterMap_cons, List.filter_cons, ih,
      LogEntry.nodeBelow?, hparent]
    by_cases heq : other = parent
    · simp [heq]
    · simp [heq]

/-- The children of a node are the nodes that have it as their parent, in the order of their
numbers. -/
theorem Linked.childrenOf_eq_filter (h : tree.Linked) (id : Nat) :
  tree.childrenOf id
    = (List.range' 1 (tree.size - 1)).filter fun child => tree.parent? child = some id
  := by
  apply h.ascending.eq_of_mem_iff (List.Pairwise.filter _ (List.pairwise_lt_range' 1))
  intro child
  rw [h.mem_childrenOf, List.mem_filter, List.mem_range'_1, decide_eq_true_eq]
  constructor
  · intro hparent
    have hlt := h.parent_lt_child hparent
    have hsize := lt_size_of_parent? hparent
    exact ⟨⟨by omega, by omega⟩, hparent⟩
  · rintro ⟨-, hparent⟩
    exact hparent

/-- The log of all nodes tells the children of every node. -/
theorem LogsFrom.childrenOf_eq (h : tree.LogsFrom 1 entries) (hlinked : tree.Linked) (id : Nat) :
  tree.childrenOf id = entries.filterMap (LogEntry.nodeBelow? id)
  := by
  rw [hlinked.childrenOf_eq_filter, h.filterMap_nodeBelow?]

/-- Composing a tree logs no nodes. -/
theorem not_isAttached_of_composed {entry : LogEntry} (h : entry ∈ tree.composed.entries) :
  ¬entry.IsAttached
  := by
  have hentries : tree.composed.entries = [.composingTree tree.size] := rfl
  rw [hentries, List.mem_singleton] at h
  rintro ⟨node, parent, heq⟩
  cases h.symm.trans heq

end FilterTree

/-! ### Calls that put nothing into the tree -/

namespace FilterScript

/-- No call of the script puts anything into a tree. -/
def PutsNothing : FilterScript → Prop
  | .leaf _ _ _ | .scope _ _ _ | .nested _ _ _ _ | .chain _ _ _ _ | .bool _ _ => False
  | .clause _ body next rest => body.PutsNothing ∧ next.PutsNothing ∧ rest.PutsNothing
  | .back next rest | .asBool next rest => next.PutsNothing ∧ rest.PutsNothing
  | .number rest | .compose rest | .toText rest | .unknown _ rest => rest.PutsNothing
  | .done => True

/-- What reports and failures keep, a run keeps that puts nothing into the tree. -/
theorem PutsNothing.preserves {script : FilterScript} (h : script.PutsNothing)
    (Keeps : FilterBuild → Prop)
    (hreport : ∀ {build}, Keeps build → ∀ event, Keeps (build.report event))
    (hfail : ∀ {build}, Keeps build → ∀ call error, Keeps (build.fail call error)) :
  script.Preserves Keeps
  := by
  induction script with
  | done => exact fun _ _ hkeeps => hkeeps
  | leaf | scope | nested | chain | bool => exact h.elim
  | clause part _ _ _ hbody hnext hrest =>
    obtain ⟨hbody', hnext', hrest'⟩ := h
    apply Preserves.clause hreport (hbody hbody') (hnext hnext') (hrest hrest')
  | back _ _ hnext hrest =>
    obtain ⟨hnext', hrest'⟩ := h
    apply Preserves.back hreport hfail (hnext hnext') (hrest hrest')
  | asBool _ _ hnext hrest =>
    obtain ⟨hnext', hrest'⟩ := h
    apply Preserves.asBool hreport (hnext hnext') (hrest hrest')
  | number _ hrest | compose _ hrest | toText _ hrest | unknown _ _ hrest =>
    exact fun handle _ hkeeps => hrest h handle (hreport hkeeps _)

/-- A run that puts nothing into the tree leaves the tree and the log as they are. -/
theorem PutsNothing.run {script : FilterScript} (h : script.PutsNothing) (handle : Handle)
    (build : FilterBuild) :
  (script.run handle build).tree = build.tree
    ∧ (script.run handle build).transcript.entries = build.transcript.entries
  := by
  refine h.preserves (fun left => left.tree = build.tree
    ∧ left.transcript.entries = build.transcript.entries) ?_ ?_ handle ⟨rfl, rfl⟩
  · intro left hleft event
    rw [FilterBuild.report]
    split <;> exact hleft
  · intro left hleft call error
    rw [FilterBuild.fail]
    split <;> exact hleft

/-! ### Scripts that build a tree -/

/-- The log of a script that builds a tree from nothing lists the nodes of the tree after the top
scope, one after the other and each with its parent, and the children of a node are the logged nodes
that were put below it.  A script that puts nothing into the tree logs nothing, and composing a tree
logs no nodes. -/
theorem log_replays_tree (script : FilterScript) (strict : Bool) :
  let build := script.run (.scope FilterTree.root) (.start .empty .empty strict)
  let entries := build.transcript.entries.toList
  List.Forall₂ (fun id entry => ∃ parent, build.tree.parent id = .ok (some parent)
      ∧ entry = .attached id parent) (List.range' 1 (build.tree.size - 1)) entries
    ∧ (∀ id < build.tree.size,
      build.tree.children id = .ok (entries.filterMap (LogEntry.nodeBelow? id)))
    ∧ (∀ idle : FilterScript, idle.PutsNothing → ∀ (handle : Handle) (before : FilterBuild),
      (idle.run handle before).tree = before.tree
        ∧ (idle.run handle before).transcript.entries = before.transcript.entries)
    ∧ ∀ tree : FilterTree, ∀ entry ∈ tree.composed.entries, ¬entry.IsAttached
  := by
  intro build entries
  have hlogs : build.LogsFrom 1 := script.logsFrom_run _ .last
  have hwf : build.tree.WellFormed :=
    (FilterTree.Reachable.run script .empty strict .empty).wellFormed
  refine ⟨?_, ?_, fun idle hidle => hidle.run, fun tree entry => tree.not_isAttached_of_composed⟩
  · apply hlogs.forall₂.imp
    rintro id entry ⟨parent, hparent, hentry⟩
    use parent
    rw [FilterTree.parent_eq (FilterTree.lt_size_of_parent? hparent), hparent]
    exact ⟨rfl, hentry⟩
  · intro id hid
    rw [FilterTree.children_eq hid, FilterTree.LogsFrom.childrenOf_eq hlogs hwf.toLinked]

/-- A script that goes back and opens a clause in which it puts nothing. -/
def emptyMust : FilterScript :=
  .back (.asBool (.clause .must .done (.compose .done) .done) .done) .done

theorem log_replays_tree_twoOrsInMust :
  let build := FilterTree.twoOrsInMust.run (.scope FilterTree.root) (.start .empty .empty false)
  5 < build.tree.size
    ∧ build.tree.children 5 = .ok (build.transcript.entries.toList.filterMap
      (LogEntry.nodeBelow? 5))
    ∧ emptyMust.PutsNothing
    ∧ (emptyMust.run (.scope 5) build).transcript.entries = build.transcript.entries
  := by
  intro build
  obtain ⟨-, hchildren, hidle, -⟩ := log_replays_tree FilterTree.twoOrsInMust false
  have hempty : emptyMust.PutsNothing := by simp [emptyMust, PutsNothing]
  exact ⟨by decide, hchildren 5 (by decide), hempty, (hidle emptyMust hempty (.scope 5) build).2⟩

end FilterScript

end FilteredSearch
