import FilteredSearch.Proofs.FilterScript.Refines
import FilteredSearch.Proofs.FilterScript.Transcripts
import FilteredSearch.Proofs.FilterTree.Spliced

/-!
# Scripts in trees with other nodes between

A script does the same in a tree that is spliced into another one as in the other: it puts the same
nodes below the same nodes, finds the same ways back, and stops at the same failure.  Only the
numbers of the nodes differ, and so what the script reports of them.
-/

namespace FilteredSearch

open FilterTree

namespace Handle

/-- The handle on the node under its other number. -/
def renumber (number : Nat → Nat) : Handle → Handle
  | .leaf id => .leaf (number id)
  | .scope id => .scope (number id)
  | .bool id clauses => .bool (number id) (clauses.renumber number)

variable (number : Nat → Nat) (handle : Handle)

@[simp]
theorem scope?_renumber :
  (handle.renumber number).scope? = handle.scope?.map number
  := by
  cases handle <;> rfl

@[simp]
theorem id_renumber :
  (handle.renumber number).id = number handle.id
  := by
  cases handle <;> rfl

variable {tree : FilterTree} {handle : Handle} {id : Nat} {clauses : Clauses}

/-- The handle on a clause could be held when that on the bool filter could. -/
theorem Fits.clause (h : Handle.Fits tree (.bool id clauses)) (part : Clause) :
  Handle.Fits tree (.bool (clauses.get part) clauses)
  := by
  obtain ⟨bool, hbool, -⟩ := h
  exact ⟨bool, hbool, Or.inr ⟨part, rfl⟩⟩

theorem Fits.id_lt (h : handle.Fits tree) (hwf : tree.WellFormed) :
  handle.id < tree.size
  := by
  cases handle with
  | leaf id => apply h
  | scope id => apply Takes.lt_size h
  | bool id clauses => apply (hwf.takes_of_inBool h).lt_size

end Handle

/-! ### What a run leaves as it was -/

namespace FilterBuild

variable (build : FilterBuild)

@[simp]
theorem strict_report (event : Event) :
  (build.report event).strict = build.strict
  := by
  rw [report]
  split <;> rfl

@[simp]
theorem strict_grow (attach : FilterTree → Logged FilterTree) :
  (build.grow attach).strict = build.strict
  := by
  rw [grow]
  split <;> rfl

@[simp]
theorem strict_fail (call : String) (error : SearchError) :
  (build.fail call error).strict = build.strict
  := by
  rw [fail]
  split <;> rfl

end FilterBuild

namespace FilterScript

/-- A run leaves it as it was whether failures stop it. -/
theorem strict_run (script : FilterScript) (handle : Handle) (build : FilterBuild) :
  (script.run handle build).strict = build.strict
  := by
  refine run_keeps (·.strict = build.strict) ?_ ?_ ?_ ?_ ?_ script handle rfl <;> intros <;> simpa

/-- A build that goes on after failures is never stopped. -/
theorem stopped_run_of_lenient (script : FilterScript) (handle : Handle) {build : FilterBuild}
    (hstrict : build.strict = false) (hgoing : build.stopped = none) :
  (script.run handle build).stopped = none
  := by
  refine (run_keeps (fun build => build.strict = false ∧ build.stopped = none) ?_ ?_ ?_ ?_ ?_ script
    handle ⟨hstrict, hgoing⟩).2
  case refine_2 =>
    rintro build ⟨hstrict, hgoing⟩ call error
    simp [FilterBuild.fail, hstrict, hgoing]
  all_goals
    rintro build ⟨hstrict, hgoing⟩
    simp [hstrict, hgoing]

end FilterScript

/-! ### Builds of both trees -/

/-- The second build is that of a tree into which the tree of the first one is spliced, and both go
on or both were stopped. -/
structure FilterBuild.Spliced (block : Block) (build build' : FilterBuild) : Prop where
  tree : FilterTree.Spliced block build.tree build'.tree
  strict_eq : build'.strict = build.strict
  stopped_eq : build'.stopped = build.stopped

namespace FilterBuild.Spliced

variable {block : Block} {build build' : FilterBuild}

theorem report (h : Spliced block build build') (event event' : Event) :
  Spliced block (build.report event) (build'.report event')
  where
  tree := by
    rw [tree_report, tree_report]
    apply h.tree
  strict_eq := by
    rw [strict_report, strict_report, h.strict_eq]
  stopped_eq := by
    rw [stopped_report, stopped_report, h.stopped_eq]

theorem grow (h : Spliced block build build') (attach attach' : FilterTree → Logged FilterTree)
    (hattach : FilterTree.Spliced block (attach build.tree).value (attach' build'.tree).value) :
  Spliced block (build.grow attach) (build'.grow attach')
  where
  tree := by
    rw [FilterBuild.grow, FilterBuild.grow, h.stopped_eq]
    split
    · apply h.tree
    · apply hattach
  strict_eq := by
    rw [strict_grow, strict_grow, h.strict_eq]
  stopped_eq := by
    rw [stopped_grow, stopped_grow, h.stopped_eq]

theorem put (h : Spliced block build build') {parent : Nat} (hparent : parent < build.tree.size)
    (call : String) {kind : NodeKind} (hkind : kind.IsLoose) :
  Spliced block (build.put call parent kind) (build'.put call (block.shift parent) kind)
  := by
  apply report
  apply h.grow _ _ (h.tree.addNode hparent hkind)

theorem fail (h : Spliced block build build') (call : String) (error : SearchError) :
  Spliced block (build.fail call error) (build'.fail call error)
  := by
  rw [FilterBuild.fail, FilterBuild.fail, h.stopped_eq]
  split
  · apply h
  · exact ⟨h.tree, h.strict_eq, by simp only [h.strict_eq]⟩

end FilterBuild.Spliced

/-! ### Runs on both trees -/

namespace FilterScript

open FilterTree

/-- A run of the script does the same in a tree and in one into which it is spliced. -/
def KeepsSpliced (script : FilterScript) : Prop :=
  ∀ (block : Block) (handle : Handle) (build build' : FilterBuild),
    FilterBuild.Spliced block build build' → build.tree.WellFormed → handle.Fits build.tree →
      FilterBuild.Spliced block (script.run handle build)
        (script.run (handle.renumber block.shift) build')

variable {block : Block} {script inner next rest : FilterScript} {handle newHandle : Handle}
  {before build build' : FilterBuild} {id : Nat}

/-- What is called on a new handle, and then on the old one, does the same. -/
theorem KeepsSpliced.andThen (hnext : next.KeepsSpliced) (hrest : rest.KeepsSpliced)
    (h : FilterBuild.Spliced block build build') (hwf : before.tree.WellFormed)
    (hfits : handle.Fits before.tree) (hgrows : Grows before.tree build.tree)
    (hnew : newHandle.Fits build.tree) :
  FilterBuild.Spliced block (rest.run handle (next.run newHandle build))
    (rest.run (handle.renumber block.shift) (next.run (newHandle.renumber block.shift) build'))
  := by
  have hbuild := next.makesGrow newHandle build (hgrows.wellFormed hwf) hnew
  have hall := hgrows.trans hbuild
  apply hrest _ _ _ _ _ (hall.wellFormed hwf) (hfits.of_grows hwf hall)
  apply hnext _ _ _ _ h (hgrows.wellFormed hwf) hnew

/-- A node is put into both trees, and the calls go on with handles on it. -/
theorem KeepsSpliced.put {newHandle' : Handle} {kind : NodeKind} (hnext : next.KeepsSpliced)
    (hrest : rest.KeepsSpliced) (h : FilterBuild.Spliced block build build')
    (hgoing : build.stopped.isSome = false) (hwf : build.tree.WellFormed)
    (hfits : handle.Fits build.tree) (hscope : handle.scope? = some id) (hkind : kind.IsLoose)
    (hnew : newHandle.Fits (build.tree.addNode id kind).value)
    (hnew' : newHandle.renumber block.shift = newHandle') (call : String) :
  FilterBuild.Spliced block (rest.run handle (next.run newHandle (build.put call id kind)))
    (rest.run (handle.renumber block.shift)
      (next.run newHandle' (build'.put call (block.shift id) kind)))
  := by
  have hid := hfits.takes hwf hscope
  have hput := FilterBuild.tree_put hgoing call id kind
  subst hnew'
  apply hnext.andThen hrest (h.put hid.lt_size call hkind) hwf hfits
  · rw [hput]
    apply (Step.node hid hkind).grows
  · rw [hput]
    apply hnew

/-- The body of a scope does the same in both trees. -/
theorem KeepsSpliced.body (hinner : inner.KeepsSpliced)
    (h : FilterBuild.Spliced block build build') (hwf : build.tree.WellFormed)
    (hid : build.tree.Takes id) (event event' : Event) :
  FilterBuild.Spliced block ((inner.run (.scope id) build).report event)
    ((inner.run (.scope (block.shift id)) build').report event')
  := (hinner block (.scope id) build build' h hwf hid).report event event'

/-- A node is opened in both trees, and the body of its scope does the same. -/
theorem KeepsSpliced.opened (hinner : inner.KeepsSpliced)
    (h : FilterBuild.Spliced block build build') (hgoing : build.stopped.isSome = false)
    (hwf : build.tree.WellFormed) (attach attach' : FilterTree → Logged FilterTree)
    (hattach : FilterTree.Spliced block (attach build.tree).value (attach' build'.tree).value)
    (hgrows : Grows build.tree (attach build.tree).value)
    (htakes : (attach build.tree).value.Takes id) (entered entered' left left' : Event) :
  let made := (inner.run (.scope id) ((build.grow attach).report entered)).report left
  FilterBuild.Spliced block made
      ((inner.run (.scope (block.shift id)) ((build'.grow attach').report entered')).report left')
    ∧ Grows build.tree made.tree ∧ Grows (attach build.tree).value made.tree
  := by
  have hgrow := FilterBuild.tree_report_grow hgoing attach entered
  have hwf' := hgrows.wellFormed hwf
  rw [← hgrow] at hgrows htakes hwf' ⊢
  have hbegun := (h.grow attach attach' hattach).report entered entered'
  use hinner.body hbegun hwf' htakes left left'
  apply inner.makesGrow.body hwf hgrows htakes left

/-- A call that only reports does the same in both trees. -/
theorem KeepsSpliced.afterReport (hrest : rest.KeepsSpliced)
    (h : FilterBuild.Spliced block build build') (hwf : build.tree.WellFormed)
    (hfits : handle.Fits build.tree) (event event' : Event) :
  FilterBuild.Spliced block (rest.run handle (build.report event))
    (rest.run (handle.renumber block.shift) (build'.report event'))
  := by
  apply hrest _ _ _ _ (h.report event event') <;> rwa [FilterBuild.tree_report]

/-- Stopped builds stay as they are, so only the others matter. -/
theorem keepsSpliced_of_going
    (hgoing : ∀ (block : Block) (handle : Handle) (build build' : FilterBuild),
      FilterBuild.Spliced block build build' → build.stopped.isSome = false →
      build.tree.WellFormed → handle.Fits build.tree →
        FilterBuild.Spliced block (script.run handle build)
          (script.run (handle.renumber block.shift) build')) :
  script.KeepsSpliced
  := by
  intro block handle build build' h hwf hfits
  cases hstopped : build.stopped.isSome with
  | true =>
    rw [run_of_stopped script handle hstopped,
      run_of_stopped script _ (h.stopped_eq ▸ hstopped)]
    apply h
  | false => apply hgoing _ _ _ _ h hstopped hwf hfits

theorem keepsSpliced (script : FilterScript) :
  script.KeepsSpliced
  := by
  induction script with
  | done => exact fun _ _ _ _ h _ _ => h
  | leaf leaf next rest hnext hrest =>
    apply keepsSpliced_of_going
    intro block handle build build' h hgoing hwf hfits
    rw [run, run, Handle.scope?_renumber]
    cases hscope : handle.scope? with
    | none => apply hrest.afterReport h hwf hfits
    | some id =>
      apply hnext.put hrest h hgoing hwf hfits hscope leaf.isLoose_kind
      · show build.tree.size < _
        rw [size_addNode]
        omega
      · rw [Handle.renumber, h.tree.shift_size]
  | scope opened next rest hnext hrest =>
    apply keepsSpliced_of_going
    intro block handle build build' h hgoing hwf hfits
    rw [run, run, Handle.scope?_renumber]
    cases hscope : handle.scope? with
    | none => apply hrest.afterReport h hwf hfits
    | some id =>
      apply hnext.put hrest h hgoing hwf hfits hscope opened.isLoose_kind
      · apply takes_addNode opened.kind_ne_fragment
      · rw [Handle.renumber, h.tree.shift_size]
  | nested field body next rest hbody hnext hrest =>
    apply keepsSpliced_of_going
    intro block handle build build' h hgoing hwf hfits
    rw [run, run, Handle.scope?_renumber]
    cases hscope : handle.scope? with
    | none => apply hrest.afterReport h hwf hfits
    | some id =>
      have hid := hfits.takes hwf hscope
      have hkind := NodeKind.isLoose_ofNested field
      obtain ⟨hmade, hgrows, -⟩ := hbody.opened h hgoing hwf (·.addNode id (.ofNested field))
        (·.addNode (block.shift id) (.ofNested field)) (h.tree.addNode hid.lt_size hkind)
        (Step.node hid hkind).grows (takes_addNode (NodeKind.ofNested_ne_fragment field))
        (.entered "nested" build.tree.size) (.entered "nested" build'.tree.size)
        (.node "nested" id) (.node "nested" (block.shift id))
      rw [h.tree.shift_size] at hmade
      apply hnext.andThen hrest hmade hwf hfits hgrows
      show Handle.Fits _ (.scope id)
      apply hgrows.takes hwf hid
  | chain connective body next rest hbody hnext hrest =>
    apply keepsSpliced_of_going
    intro block handle build build' h hgoing hwf hfits
    rw [run, run, Handle.scope?_renumber]
    cases hscope : handle.scope? with
    | none => apply hrest.afterReport h hwf hfits
    | some id =>
      have hid := hfits.takes hwf hscope
      have hstep : Grows build.tree (build.tree.addChain id connective).value :=
        (Step.chain connective hid).grows
      obtain ⟨hmade, hgrows, hlater⟩ := hbody.opened h hgoing hwf (·.addChain id connective)
        (·.addChain (block.shift id) connective) (h.tree.addChain hid.lt_size) hstep takes_addChain
        (.entered connective.key build.tree.size) (.entered connective.key build'.tree.size)
        (.node connective.key build.tree.size) (.node connective.key build'.tree.size)
      have hnew : Handle.Fits _ (.scope build.tree.size) :=
        hlater.takes (hstep.wellFormed hwf) takes_addChain
      have hlast := hnext.andThen hrest hmade hwf hfits hgrows hnew
      rwa [Handle.renumber, h.tree.shift_size] at hlast
  | bool next rest hnext hrest =>
    apply keepsSpliced_of_going
    intro block handle build build' h hgoing hwf hfits
    rw [run, run, Handle.scope?_renumber]
    cases hscope : handle.scope? with
    | none => apply hrest.afterReport h hwf hfits
    | some id =>
      have hid := hfits.takes hwf hscope
      have hgrow := FilterBuild.tree_report_grow hgoing (·.addBool id)
        (.node "bool" build.tree.size)
      have hmade := (h.grow (·.addBool id) (·.addBool (block.shift id))
        (h.tree.addBool hid.lt_size)).report
        (.node "bool" build.tree.size) (.node "bool" build'.tree.size)
      have hnew : Handle.Fits (build.tree.addBool id).value
          (.bool build.tree.size build.tree.nextClauses) :=
        ⟨build.tree.size, by rw [kind?_addBool, if_pos rfl], Or.inl rfl⟩
      have hlast := hnext.andThen hrest hmade hwf hfits (hgrow ▸ (Step.bool hid).grows)
        (hgrow ▸ hnew)
      rwa [Handle.renumber, h.tree.shift_size, ← h.tree.nextClauses_eq] at hlast
  | clause part body next rest hbody hnext hrest =>
    intro block handle build build' h hwf hfits
    cases handle with
    | bool own clauses =>
      have hclause := hwf.takes_clause hfits part
      have hentered := h.report (.entered part.key (clauses.get part))
        (.entered part.key (block.shift (clauses.get part)))
      have hmade := hbody.body hentered (by simpa using hwf) (by simpa using hclause)
        (.node part.key (clauses.get part)) (.node part.key (block.shift (clauses.get part)))
      have hbegun : Grows build.tree
          (build.report (.entered part.key (clauses.get part))).tree := by
        rw [FilterBuild.tree_report]
        apply Grows.refl
      have hinner := body.makesGrow.body hwf hbegun (by simpa using hclause)
        (.node part.key (clauses.get part))
      have hlast := hnext.andThen hrest hmade hwf hfits hinner.1
        ((Handle.Fits.clause hfits part).of_grows hwf hinner.1)
      simpa only [run, Handle.renumber, Clauses.get_renumber] using hlast
    | leaf _ | scope _ => apply hrest.afterReport h hwf hfits
  | back next rest hnext hrest =>
    intro block handle build build' h hwf hfits
    have hway := h.tree.familyRootAround_shift hwf (hfits.id_lt hwf)
    rw [← Handle.id_renumber block.shift handle] at hway
    cases hroot : build.tree.familyRootAround handle.id with
    | error error =>
      rw [hroot] at hway
      have hfail := h.fail "back" error
      have hlast := hrest block handle _ _ hfail (by simpa using hwf) (by simpa using hfits)
      simp only [run, hroot, hway, Except.map]
      cases handle with
      | leaf _ => exact hfail
      | scope _ | bool _ _ => exact hlast
    | ok familyRoot =>
      rw [hroot] at hway
      have hnew : Handle.Fits build.tree (.scope familyRoot) := hwf.takes_familyRootAround hroot
      have hback := hnext.afterReport h hwf hnew (.node "back" familyRoot)
        (.node "back" (block.shift familyRoot))
      have hgrows := next.makesGrow.afterReport hwf hnew (.node "back" familyRoot)
      have hlast := hrest block handle _ _ hback (hgrows.wellFormed hwf)
        (hfits.of_grows hwf hgrows)
      simp only [run, hroot, hway, Except.map]
      cases handle with
      | leaf _ => exact hback
      | scope _ | bool _ _ => exact hlast
  | asBool next rest hnext hrest =>
    intro block handle build build' h hwf hfits
    rw [run, run, Handle.scope?_renumber]
    cases hscope : handle.scope? with
    | none => apply hrest.afterReport h hwf hfits
    | some id =>
      have hway := h.tree.clausesOf?_shift hwf (hfits.takes hwf hscope).lt_size
      cases hclauses : build.tree.clausesOf? id with
      | none =>
        simp only [Option.map_some, hclauses, hway, Option.map_none]
        apply hrest.afterReport h hwf hfits
      | some clauses =>
        have hnew : Handle.Fits build.tree (.bool id clauses) := hwf.inBool_of_clausesOf? hclauses
        have hgrows := next.makesGrow.afterReport hwf hnew (.node "as_bool" id)
        simp only [Option.map_some, hclauses, hway]
        apply hrest _ _ _ _ _ (hgrows.wellFormed hwf) (hfits.of_grows hwf hgrows)
        apply hnext.afterReport h hwf hnew
  | number rest hrest | compose rest hrest | toText rest hrest | unknown name rest hrest =>
    intro block handle build build' h hwf hfits
    apply hrest.afterReport h hwf hfits

end FilterScript

end FilteredSearch
