import FilteredSearch.FilterScript.Basic
import FilteredSearch.FilterTree.Growth
import FilteredSearch.FilterTree.Compose
import FilteredSearch.FilterTree.Navigate
import FilteredSearch.Transcript

/-!
# Running filter scripts

A script is run on a handle and changes a build: the filter tree and the transcript.  A handle
on a leaf can only be asked for its number, composed, and taken back to the family around it,
which uses it up.  In a strict build the first failure to go back stops the build, and a stopped
build neither grows nor reports.
-/

namespace FilteredSearch

/-- A filter tree in the making. -/
structure FilterBuild where
  tree : FilterTree
  transcript : Transcript
  strict : Bool
  stopped : Option SearchError

namespace FilterBuild

/-- A build of a tree that goes on after failures, or one that does not. -/
def start (tree : FilterTree) (transcript : Transcript) (strict : Bool) : FilterBuild :=
  ⟨tree, transcript, strict, none⟩

/-- Reports an event. -/
def report (build : FilterBuild) (event : Event) : FilterBuild :=
  if build.stopped.isSome then build
  else { build with transcript := build.transcript.report event }

/-- Grows the tree and logs it. -/
def grow (build : FilterBuild) (attach : FilterTree → Logged FilterTree) : FilterBuild :=
  if build.stopped.isSome then build
  else
    let grown := attach build.tree
    { build with tree := grown.value, transcript := build.transcript.log grown.entries }

/-- Reports a failure, which stops a strict build. -/
def fail (build : FilterBuild) (call : String) (error : SearchError) : FilterBuild :=
  if build.stopped.isSome then build
  else
    { build with
      transcript := build.transcript.report (.outcome call (.error error))
      stopped := if build.strict then some error else none }

/-- Puts a node below another and reports it. -/
def put (build : FilterBuild) (call : String) (parent : Nat) (kind : NodeKind) : FilterBuild :=
  (build.grow (·.addNode parent kind)).report (.node call build.tree.size)

variable {build : FilterBuild}

theorem report_of_stopped (h : build.stopped.isSome = true) (event : Event) :
  build.report event = build
  := if_pos h

theorem grow_of_stopped (h : build.stopped.isSome = true)
    (attach : FilterTree → Logged FilterTree) :
  build.grow attach = build
  := if_pos h

theorem fail_of_stopped (h : build.stopped.isSome = true) (call : String)
    (error : SearchError) :
  build.fail call error = build
  := if_pos h

theorem put_of_stopped (h : build.stopped.isSome = true) (call : String) (parent : Nat)
    (kind : NodeKind) :
  build.put call parent kind = build
  := by
  rw [put, grow_of_stopped h, report_of_stopped h]

@[simp]
theorem tree_report (build : FilterBuild) (event : Event) :
  (build.report event).tree = build.tree
  := by
  rw [report]
  split <;> rfl

@[simp]
theorem tree_fail (build : FilterBuild) (call : String) (error : SearchError) :
  (build.fail call error).tree = build.tree
  := by
  rw [fail]
  split <;> rfl

end FilterBuild

namespace FilterScript

/-- Makes the calls of a script on a handle. -/
def run : FilterScript → Handle → FilterBuild → FilterBuild
  | .done, _, build => build
  | .leaf test next rest, handle, build =>
    match handle.scope? with
    | some id =>
      let child := build.tree.size
      rest.run handle (next.run (.leaf child) (build.put test.name id test.kind))
    | none => rest.run handle (build.report (.unsupported test.name))
  | .scope opened next rest, handle, build =>
    match handle.scope? with
    | some id =>
      let child := build.tree.size
      rest.run handle (next.run (.scope child) (build.put opened.name id opened.kind))
    | none => rest.run handle (build.report (.unsupported opened.name))
  | .nested field body next rest, handle, build =>
    match handle.scope? with
    | some id =>
      let child := build.tree.size
      let build := (build.grow (·.addNode id (.ofNested field))).report (.entered "nested" child)
      let build := (body.run (.scope child) build).report (.node "nested" id)
      rest.run handle (next.run (.scope id) build)
    | none => rest.run handle (build.report (.unsupported "nested"))
  | .chain connective body next rest, handle, build =>
    match handle.scope? with
    | some id =>
      let child := build.tree.size
      let build := (build.grow (·.addChain id connective)).report (.entered connective.key child)
      let build := (body.run (.scope child) build).report (.node connective.key child)
      rest.run handle (next.run (.scope child) build)
    | none => rest.run handle (build.report (.unsupported connective.key))
  | .bool next rest, handle, build =>
    match handle.scope? with
    | some id =>
      let child := build.tree.size
      let clauses := build.tree.nextClauses
      let build := (build.grow (·.addBool id)).report (.node "bool" child)
      rest.run handle (next.run (.bool child clauses) build)
    | none => rest.run handle (build.report (.unsupported "bool"))
  | .clause part body next rest, handle, build =>
    match handle with
    | .bool _ clauses =>
      let id := clauses.get part
      let build := body.run (.scope id) (build.report (.entered part.key id))
      let build := next.run (.bool id clauses) (build.report (.node part.key id))
      rest.run handle build
    | _ => rest.run handle (build.report (.unsupported part.key))
  | .back next rest, handle, build =>
    let build := match build.tree.familyRootAround handle.id with
      | .ok familyRoot => next.run (.scope familyRoot) (build.report (.node "back" familyRoot))
      | .error error => build.fail "back" error
    match handle with
    | .leaf _ => build
    | _ => rest.run handle build
  | .asBool next rest, handle, build =>
    match handle.scope? with
    | some id =>
      let build := match build.tree.clausesOf? id with
        | some clauses => next.run (.bool id clauses) (build.report (.node "as_bool" id))
        | none => build.report (.noNode "as_bool")
      rest.run handle build
    | none => rest.run handle (build.report (.unsupported "as_bool"))
  | .number rest, handle, build => rest.run handle (build.report (.node "id" handle.id))
  | .compose rest, handle, build =>
    rest.run handle (build.report (.document "compose" (build.tree.composeAt handle.id)))
  | .toText rest, handle, build =>
    let result := (build.tree.composeAt handle.id).map Json.toText
    rest.run handle (build.report (.text "to_json" result))
  | .unknown name rest, handle, build => rest.run handle (build.report (.unsupported name))

/-- A stopped build stays as it is. -/
theorem run_of_stopped (script : FilterScript) (handle : Handle) {build : FilterBuild}
    (h : build.stopped.isSome = true) :
  script.run handle build = build
  := by
  induction script generalizing handle with
  | done => rfl
  | leaf _ _ _ hnext hrest | scope _ _ _ hnext hrest =>
    rw [run]
    split
    · simp only [FilterBuild.put_of_stopped h, hnext, hrest]
    · simp only [FilterBuild.report_of_stopped h, hrest]
  | nested _ _ _ _ hbody hnext hrest | chain _ _ _ _ hbody hnext hrest =>
    rw [run]
    split
    · simp only [FilterBuild.grow_of_stopped h, FilterBuild.report_of_stopped h, hbody, hnext,
        hrest]
    · simp only [FilterBuild.report_of_stopped h, hrest]
  | bool _ _ hnext hrest =>
    rw [run]
    split
    · simp only [FilterBuild.grow_of_stopped h, FilterBuild.report_of_stopped h, hnext, hrest]
    · simp only [FilterBuild.report_of_stopped h, hrest]
  | clause _ _ _ _ hbody hnext hrest =>
    cases handle <;> simp only [run, FilterBuild.report_of_stopped h, hbody, hnext, hrest]
  | back _ _ hnext hrest =>
    cases handle <;> simp only [run] <;> split <;>
      simp only [FilterBuild.fail_of_stopped h, FilterBuild.report_of_stopped h, hnext, hrest]
  | asBool _ _ hnext hrest =>
    rw [run]
    split
    · next id _ =>
      cases build.tree.clausesOf? id <;>
        simp only [FilterBuild.report_of_stopped h, hnext, hrest]
    · simp only [FilterBuild.report_of_stopped h, hrest]
  | number _ hrest | compose _ hrest | toText _ hrest | unknown _ _ hrest =>
    simp only [run, FilterBuild.report_of_stopped h, hrest]

end FilterScript

end FilteredSearch
