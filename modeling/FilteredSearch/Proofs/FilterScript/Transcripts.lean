import FilteredSearch.FilterScript.Run
import Mathlib.Tactic.Common

/-!
# What filter scripts write

A run of a filter script writes behind what the transcript holds already, and neither the tree it
leaves nor what it writes depends on what stood there before.  The only entries it adds to the log
are those of nodes put into the tree.
-/

namespace FilteredSearch

namespace Transcript

/-- The second transcript behind the first one. -/
def append (earlier later : Transcript) : Transcript :=
  ⟨earlier.events ++ later.events, earlier.entries ++ later.entries⟩

theorem append_report (earlier later : Transcript) (event : Event) :
  earlier.append (later.report event) = (earlier.append later).report event
  := by
  simp [append, report]

theorem append_log (earlier later : Transcript) (entries : List LogEntry) :
  earlier.append (later.log entries) = (earlier.append later).log entries
  := by
  rw [append, append, log, log, Transcript.mk.injEq]
  use rfl
  apply Array.toList_inj.mp
  simp

end Transcript

/-! ### Builds with an earlier transcript -/

namespace FilterBuild

/-- The build with a transcript before its own. -/
def after (build : FilterBuild) (earlier : Transcript) : FilterBuild :=
  { build with transcript := earlier.append build.transcript }

variable (build : FilterBuild) (earlier : Transcript)

@[simp]
theorem tree_after :
  (build.after earlier).tree = build.tree
  := rfl

@[simp]
theorem stopped_after :
  (build.after earlier).stopped = build.stopped
  := rfl

theorem report_after (event : Event) :
  (build.after earlier).report event = (build.report event).after earlier
  := by
  rw [report, report, stopped_after]
  split
  · rfl
  · simp only [after, Transcript.append_report]

theorem grow_after (attach : FilterTree → Logged FilterTree) :
  (build.after earlier).grow attach = (build.grow attach).after earlier
  := by
  rw [grow, grow, stopped_after]
  split
  · rfl
  · simp only [after, Transcript.append_log]

theorem fail_after (call : String) (error : SearchError) :
  (build.after earlier).fail call error = (build.fail call error).after earlier
  := by
  rw [fail, fail, stopped_after]
  split
  · rfl
  · simp only [after, Transcript.append_report]
    rfl

theorem put_after (call : String) (parent : Nat) (kind : NodeKind) :
  (build.after earlier).put call parent kind = (build.put call parent kind).after earlier
  := by
  rw [put, put, grow_after, report_after, tree_after]

end FilterBuild

open FilterBuild in
/-- What stood in the transcript stays before what a run writes, and counts for nothing else. -/
theorem FilterScript.run_after (script : FilterScript) (handle : Handle) (build : FilterBuild)
    (earlier : Transcript) :
  script.run handle (build.after earlier) = (script.run handle build).after earlier
  := by
  induction script generalizing handle build with
  | done => rfl
  | leaf _ _ _ hnext hrest | scope _ _ _ hnext hrest =>
    rw [run, run]
    split <;> simp only [put_after, report_after, tree_after, hnext, hrest]
  | nested _ _ _ _ hbody hnext hrest | chain _ _ _ _ hbody hnext hrest =>
    rw [run, run]
    split <;> simp only [grow_after, report_after, tree_after, hbody, hnext, hrest]
  | bool _ _ hnext hrest =>
    rw [run, run]
    split <;> simp only [grow_after, report_after, tree_after, hnext, hrest]
  | clause _ _ _ _ hbody hnext hrest =>
    cases handle <;> simp only [run, report_after, hbody, hnext, hrest]
  | back _ _ hnext hrest =>
    cases handle <;> simp only [run, tree_after] <;> split <;>
      simp only [fail_after, report_after, hnext, hrest]
  | asBool _ _ hnext hrest =>
    rw [run, run]
    split
    · next id _ =>
      cases h : build.tree.clausesOf? id <;> simp only [tree_after, h, report_after, hnext, hrest]
    · simp only [report_after, hrest]
  | number _ hrest | compose _ hrest | toText _ hrest | unknown _ _ hrest =>
    simp only [run, tree_after, report_after, hrest]

namespace FilterScript

/-- The build of a tree in which the script configures a scope. -/
def configure (script : FilterScript) (scope : Nat) (tree : FilterTree) (strict : Bool) :
    FilterBuild :=
  script.run (.scope scope) (.start tree .empty strict)

/-- What stood in the transcript before a run counts for nothing in the build. -/
theorem run_start (script : FilterScript) (scope : Nat) (tree : FilterTree)
    (transcript : Transcript) (strict : Bool) :
  script.run (.scope scope) (.start tree transcript strict)
    = (script.configure scope tree strict).after transcript
  := by
  have hstart : FilterBuild.start tree transcript strict
      = (FilterBuild.start tree .empty strict).after transcript := by
    simp [FilterBuild.start, FilterBuild.after, Transcript.append, Transcript.empty]
  rw [hstart, run_after, configure]

theorem run_start_report (script : FilterScript) (scope : Nat) (tree : FilterTree)
    (transcript : Transcript) (strict : Bool) (event : Event) :
  script.run (.scope scope) ((FilterBuild.start tree transcript strict).report event)
    = (script.configure scope tree strict).after (transcript.report event)
  := run_start script scope tree (transcript.report event) strict

end FilterScript

/-! ### What every call keeps -/

namespace FilterScript

/-- Every leaf and every scope that the script puts into a tree is one of those that are said. -/
def Every (leaves : Leaf → Prop) (scopes : Scope → Prop) : FilterScript → Prop
  | .done => True
  | .leaf test next rest => leaves test ∧ next.Every leaves scopes ∧ rest.Every leaves scopes
  | .scope opened next rest => scopes opened ∧ next.Every leaves scopes ∧ rest.Every leaves scopes
  | .nested _ body next rest | .chain _ body next rest | .clause _ body next rest =>
    body.Every leaves scopes ∧ next.Every leaves scopes ∧ rest.Every leaves scopes
  | .bool next rest | .back next rest | .asBool next rest =>
    next.Every leaves scopes ∧ rest.Every leaves scopes
  | .number rest | .compose rest | .toText rest | .unknown _ rest => rest.Every leaves scopes

theorem every_of_forall {leaves : Leaf → Prop} {scopes : Scope → Prop}
    (hleaves : ∀ leaf, leaves leaf) (hscopes : ∀ scope, scopes scope) (script : FilterScript) :
  script.Every leaves scopes
  := by
  induction script with
  | done => trivial
  | leaf test _ _ hnext hrest => exact ⟨hleaves test, hnext, hrest⟩
  | scope opened _ _ hnext hrest => exact ⟨hscopes opened, hnext, hrest⟩
  | nested _ _ _ _ hbody hnext hrest | chain _ _ _ _ hbody hnext hrest
  | clause _ _ _ _ hbody hnext hrest => exact ⟨hbody, hnext, hrest⟩
  | bool _ _ hnext hrest | back _ _ hnext hrest | asBool _ _ hnext hrest => exact ⟨hnext, hrest⟩
  | number _ hrest | compose _ hrest | toText _ hrest | unknown _ _ hrest => exact hrest

/-- A run of the script keeps what is said of a build. -/
def Preserves (script : FilterScript) (Keeps : FilterBuild → Prop) : Prop :=
  ∀ (handle : Handle) {build : FilterBuild}, Keeps build → Keeps (script.run handle build)

section

variable {Keeps : FilterBuild → Prop} {body next rest : FilterScript}
  (hreport : ∀ {build}, Keeps build → ∀ event, Keeps (build.report event))

include hreport

/-- A call for a clause itself only reports. -/
theorem Preserves.clause (hbody : body.Preserves Keeps) (hnext : next.Preserves Keeps)
    (hrest : rest.Preserves Keeps) (part : Clause) :
  (FilterScript.clause part body next rest).Preserves Keeps
  := by
  intro handle build h
  cases handle with
  | bool id clauses =>
    rw [run]
    apply hrest _ (hnext _ (hreport (hbody _ (hreport h _)) _))
  | leaf _ | scope _ => apply hrest _ (hreport h _)

/-- A call that goes back itself only reports, or fails. -/
theorem Preserves.back
    (hfail : ∀ {build}, Keeps build → ∀ call error, Keeps (build.fail call error))
    (hnext : next.Preserves Keeps) (hrest : rest.Preserves Keeps) :
  (FilterScript.back next rest).Preserves Keeps
  := by
  intro handle build h
  cases hroot : build.tree.familyRootAround handle.id with
  | error error =>
    have hfailed := hfail h "back" error
    cases handle <;> simp only [run, hroot]
    · apply hfailed
    · apply hrest _ hfailed
    · apply hrest _ hfailed
  | ok familyRoot =>
    have hback := hnext (.scope familyRoot) (hreport h (.node "back" familyRoot))
    cases handle <;> simp only [run, hroot]
    · apply hback
    · apply hrest _ hback
    · apply hrest _ hback

/-- A call that takes the node for a part of a bool filter itself only reports. -/
theorem Preserves.asBool (hnext : next.Preserves Keeps) (hrest : rest.Preserves Keeps) :
  (FilterScript.asBool next rest).Preserves Keeps
  := by
  intro handle build h
  rw [run]
  split
  · next id _ =>
    cases hclauses : build.tree.clausesOf? id with
    | none => apply hrest _ (hreport h _)
    | some clauses => apply hrest _ (hnext _ (hreport h _))
  · apply hrest _ (hreport h _)

end

/-- What the single changes of a build keep, a run keeps: reports, failures, and what calls put into
the tree, when the leaves and scopes among it are those that are said. -/
theorem run_keeps_of_every (Keeps : FilterBuild → Prop) {leaves : Leaf → Prop}
    {scopes : Scope → Prop}
    (hreport : ∀ {build}, Keeps build → ∀ event, Keeps (build.report event))
    (hfail : ∀ {build}, Keeps build → ∀ call error, Keeps (build.fail call error))
    (hleaf : ∀ {build test}, Keeps build → leaves test →
      ∀ parent, Keeps (build.grow (·.addNode parent test.kind)))
    (hscope : ∀ {build opened}, Keeps build → scopes opened →
      ∀ parent, Keeps (build.grow (·.addNode parent opened.kind)))
    (hnested : ∀ {build}, Keeps build →
      ∀ parent field, Keeps (build.grow (·.addNode parent (.ofNested field))))
    (hchain : ∀ {build}, Keeps build →
      ∀ parent connective, Keeps (build.grow (·.addChain parent connective)))
    (hbool : ∀ {build}, Keeps build → ∀ parent, Keeps (build.grow (·.addBool parent)))
    (script : FilterScript) (hscript : script.Every leaves scopes) (handle : Handle)
    {build : FilterBuild} (h : Keeps build) :
  Keeps (script.run handle build)
  := by
  induction script generalizing handle build with
  | done => apply h
  | leaf _ _ _ hnext hrest =>
    obtain ⟨hput, hnext', hrest'⟩ := hscript
    rw [run]
    split
    · apply hrest hrest' _ (hnext hnext' _ (hreport (hleaf h hput _) _))
    · apply hrest hrest' _ (hreport h _)
  | scope _ _ _ hnext hrest =>
    obtain ⟨hput, hnext', hrest'⟩ := hscript
    rw [run]
    split
    · apply hrest hrest' _ (hnext hnext' _ (hreport (hscope h hput _) _))
    · apply hrest hrest' _ (hreport h _)
  | nested _ _ _ _ hbody hnext hrest =>
    obtain ⟨hbody', hnext', hrest'⟩ := hscript
    rw [run]
    split
    · apply hrest hrest' _ (hnext hnext' _ (hreport (hbody hbody' _ (hreport (hnested h _ _) _)) _))
    · apply hrest hrest' _ (hreport h _)
  | chain _ _ _ _ hbody hnext hrest =>
    obtain ⟨hbody', hnext', hrest'⟩ := hscript
    rw [run]
    split
    · apply hrest hrest' _ (hnext hnext' _ (hreport (hbody hbody' _ (hreport (hchain h _ _) _)) _))
    · apply hrest hrest' _ (hreport h _)
  | bool _ _ hnext hrest =>
    obtain ⟨hnext', hrest'⟩ := hscript
    rw [run]
    split
    · apply hrest hrest' _ (hnext hnext' _ (hreport (hbool h _) _))
    · apply hrest hrest' _ (hreport h _)
  | clause part _ _ _ hbody hnext hrest =>
    obtain ⟨hbody', hnext', hrest'⟩ := hscript
    apply Preserves.clause hreport (hbody hbody') (hnext hnext') (hrest hrest') part handle h
  | back _ _ hnext hrest =>
    obtain ⟨hnext', hrest'⟩ := hscript
    apply Preserves.back hreport hfail (hnext hnext') (hrest hrest') handle h
  | asBool _ _ hnext hrest =>
    obtain ⟨hnext', hrest'⟩ := hscript
    apply Preserves.asBool hreport (hnext hnext') (hrest hrest') handle h
  | number _ hrest | compose _ hrest | toText _ hrest | unknown _ _ hrest =>
    apply hrest hscript _ (hreport h _)

/-- What the single changes of a build keep, a run keeps: reports, failures, and what calls put into
the tree. -/
theorem run_keeps (Keeps : FilterBuild → Prop)
    (hreport : ∀ {build}, Keeps build → ∀ event, Keeps (build.report event))
    (hfail : ∀ {build}, Keeps build → ∀ call error, Keeps (build.fail call error))
    (hnode : ∀ {build}, Keeps build → ∀ parent kind, Keeps (build.grow (·.addNode parent kind)))
    (hchain : ∀ {build}, Keeps build →
      ∀ parent connective, Keeps (build.grow (·.addChain parent connective)))
    (hbool : ∀ {build}, Keeps build → ∀ parent, Keeps (build.grow (·.addBool parent)))
    (script : FilterScript) (handle : Handle) {build : FilterBuild} (h : Keeps build) :
  Keeps (script.run handle build)
  := run_keeps_of_every Keeps hreport hfail (fun h _ parent => hnode h parent _)
    (fun h _ parent => hnode h parent _) (fun h parent _ => hnode h parent _) hchain hbool script
    (every_of_forall (fun _ => trivial) (fun _ => trivial) script) handle h

end FilterScript

/-! ### The log of a run -/

/-- The entry is that of a node put into a tree. -/
def LogEntry.IsAttached (entry : LogEntry) : Prop := ∃ node parent, entry = .attached node parent

namespace FilterBuild

/-- Every entry of the log is that of a node put into a tree. -/
def OnlyAttached (build : FilterBuild) : Prop :=
  ∀ entry ∈ build.transcript.entries.toList, entry.IsAttached

variable {build : FilterBuild}

theorem OnlyAttached.report (h : build.OnlyAttached) (event : Event) :
  (build.report event).OnlyAttached
  := by
  rw [FilterBuild.report]
  split <;> exact h

theorem OnlyAttached.fail (h : build.OnlyAttached) (call : String) (error : SearchError) :
  (build.fail call error).OnlyAttached
  := by
  rw [FilterBuild.fail]
  split <;> exact h

theorem OnlyAttached.grow (h : build.OnlyAttached) {attach : FilterTree → Logged FilterTree}
    (hattach : ∀ entry ∈ (attach build.tree).entries, entry.IsAttached) :
  (build.grow attach).OnlyAttached
  := by
  rw [FilterBuild.grow]
  split
  · apply h
  · intro entry hentry
    simp only [Transcript.log, Array.appendList_eq_append, Array.toList_appendList,
      List.mem_append] at hentry
    rcases hentry with hentry | hentry
    · apply h entry hentry
    · apply hattach entry hentry

end FilterBuild

/-- A run logs nothing but nodes put into the tree. -/
theorem FilterScript.onlyAttached_run (script : FilterScript) (handle : Handle)
    {build : FilterBuild} (h : build.OnlyAttached) :
  (script.run handle build).OnlyAttached
  := by
  refine run_keeps _ (fun h => h.report) (fun h => h.fail) ?_ ?_ ?_ script handle h
  · intro build h parent kind
    apply h.grow
    simp [FilterTree.addNode, LogEntry.IsAttached]
  · intro build h parent connective
    apply h.grow
    simp [FilterTree.addChain, FilterTree.addNode, LogEntry.IsAttached]
  · intro build h parent
    apply h.grow
    simp [FilterTree.addBool, FilterTree.addNode, LogEntry.IsAttached]

end FilteredSearch
