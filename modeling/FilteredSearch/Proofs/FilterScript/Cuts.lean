import FilteredSearch.Proofs.FilterScript.Refines

/-!
# Scripts that are cut short

A stopped run has made the calls of its script up to the one that failed.  These calls are a script
of their own, which runs to its end and leaves the same tree: nothing that was put into the tree
before the failure is taken back.
-/

namespace FilteredSearch

/-- The build goes on, with the tree of the other one. -/
structure FilterBuild.GoesOnAs (build other : FilterBuild) : Prop where
  going : build.stopped = none
  tree_eq : build.tree = other.tree

namespace FilterScript

/-- The scripts that make the calls of the script up to one of them, and no further ones. -/
def cuts : FilterScript → List FilterScript
  | .done => [.done]
  | .leaf test next rest =>
    .done :: next.cuts.map (.leaf test · .done) ++ rest.cuts.map (.leaf test next)
  | .scope opened next rest =>
    .done :: next.cuts.map (.scope opened · .done) ++ rest.cuts.map (.scope opened next)
  | .nested field body next rest =>
    .done :: body.cuts.map (.nested field · .done .done)
      ++ next.cuts.map (.nested field body · .done) ++ rest.cuts.map (.nested field body next)
  | .chain connective body next rest =>
    .done :: body.cuts.map (.chain connective · .done .done)
      ++ next.cuts.map (.chain connective body · .done)
      ++ rest.cuts.map (.chain connective body next)
  | .bool next rest => .done :: next.cuts.map (.bool · .done) ++ rest.cuts.map (.bool next)
  | .clause part body next rest =>
    .done :: body.cuts.map (.clause part · .done .done)
      ++ next.cuts.map (.clause part body · .done) ++ rest.cuts.map (.clause part body next)
  | .back next rest => .done :: next.cuts.map (.back · .done) ++ rest.cuts.map (.back next)
  | .asBool next rest => .done :: next.cuts.map (.asBool · .done) ++ rest.cuts.map (.asBool next)
  | .number rest => .done :: rest.cuts.map .number
  | .compose rest => .done :: rest.cuts.map .compose
  | .toText rest => .done :: rest.cuts.map .toText
  | .unknown name rest => .done :: rest.cuts.map (.unknown name)

/-- What a run of the script leaves, one of its cuts leaves without being stopped. -/
def IsCutShort (script : FilterScript) : Prop :=
  ∀ (handle : Handle) (build : FilterBuild), build.stopped = none →
    ∃ cut ∈ script.cuts, (cut.run handle build).GoesOnAs (script.run handle build)

variable {body next rest : FilterScript} {handle newHandle : Handle} {build begun : FilterBuild}

/-- A call that gives no handle is made, and the calls after it are cut short. -/
theorem IsCutShort.after (hrest : rest.IsCutShort) {script : FilterScript}
    (call : FilterScript → FilterScript) (hcuts : ∀ cut ∈ rest.cuts, call cut ∈ script.cuts)
    (hcall : script = call rest)
    (hrun : ∀ rest, (call rest).run handle build = rest.run handle begun)
    (hgoing : begun.stopped = none) :
  ∃ cut ∈ script.cuts, (cut.run handle build).GoesOnAs (script.run handle build)
  := by
  subst hcall
  obtain ⟨cut, hcut, hleft⟩ := hrest handle begun hgoing
  use call cut, hcuts cut hcut
  rw [hrun, hrun]
  apply hleft

/-- A call that gives a handle is made, and the calls on the new handle are cut short, or else those
on the old one. -/
theorem IsCutShort.given (hnext : next.IsCutShort) (hrest : rest.IsCutShort) {script : FilterScript}
    (call : FilterScript → FilterScript → FilterScript)
    (hcuts : ∀ cut ∈ next.cuts, call cut .done ∈ script.cuts)
    (hcuts' : ∀ cut ∈ rest.cuts, call next cut ∈ script.cuts)
    (hcall : script = call next rest)
    (hrun : ∀ next rest,
      (call next rest).run handle build = rest.run handle (next.run newHandle begun))
    (hgoing : begun.stopped = none) :
  ∃ cut ∈ script.cuts, (cut.run handle build).GoesOnAs (script.run handle build)
  := by
  cases hstopped : (next.run newHandle begun).stopped with
  | none => apply hrest.after (call next) hcuts' hcall (hrun next) hstopped
  | some error =>
    subst hcall
    obtain ⟨cut, hcut, hleft⟩ := hnext newHandle begun hgoing
    use call cut .done, hcuts cut hcut
    rw [hrun, hrun, run_of_stopped rest handle (by rw [hstopped]; rfl)]
    apply hleft

/-- A scope is opened, and its body is cut short, or else the calls after it. -/
theorem IsCutShort.opened (hbody : body.IsCutShort) (hnext : next.IsCutShort)
    (hrest : rest.IsCutShort) {script : FilterScript} {id : Nat} {event : Event}
    (call : FilterScript → FilterScript → FilterScript → FilterScript)
    (hcuts : ∀ cut ∈ body.cuts, call cut .done .done ∈ script.cuts)
    (hcuts' : ∀ cut ∈ next.cuts, call body cut .done ∈ script.cuts)
    (hcuts'' : ∀ cut ∈ rest.cuts, call body next cut ∈ script.cuts)
    (hcall : script = call body next rest)
    (hrun : ∀ body next rest, (call body next rest).run handle build
      = rest.run handle (next.run newHandle ((body.run (.scope id) begun).report event)))
    (hgoing : begun.stopped = none) :
  ∃ cut ∈ script.cuts, (cut.run handle build).GoesOnAs (script.run handle build)
  := by
  cases hstopped : (body.run (.scope id) begun).stopped with
  | none =>
    apply hnext.given hrest (call body) hcuts' hcuts'' hcall (hrun body)
    rw [FilterBuild.stopped_report, hstopped]
  | some error =>
    subst hcall
    obtain ⟨cut, hcut, hleft⟩ := hbody (.scope id) begun hgoing
    use call cut .done .done, hcuts cut hcut
    have hsome : (body.run (.scope id) begun).stopped.isSome = true := by rw [hstopped]; rfl
    rw [hrun, hrun, FilterBuild.report_of_stopped hsome, run_of_stopped next newHandle hsome,
      run_of_stopped rest handle hsome]
    constructor
    · rw [run, run, FilterBuild.stopped_report, hleft.going]
    · rw [run, run, FilterBuild.tree_report, hleft.tree_eq]

theorem isCutShort (script : FilterScript) :
  script.IsCutShort
  := by
  induction script with
  | done =>
    intro handle build hgoing
    exact ⟨.done, List.mem_singleton_self _, hgoing, rfl⟩
  | leaf test next rest hnext hrest =>
    intro handle build hgoing
    cases hscope : handle.scope? with
    | none =>
      apply hrest.after (.leaf test next) (by simp +contextual [cuts]) rfl
        (fun _ => by simp only [run, hscope]; rfl)
      simpa
    | some id =>
      apply hnext.given hrest (.leaf test) (by simp +contextual [cuts])
        (by simp +contextual [cuts]) rfl (fun _ _ => by simp only [run, hscope]; rfl)
      simpa
  | scope opened next rest hnext hrest =>
    intro handle build hgoing
    cases hscope : handle.scope? with
    | none =>
      apply hrest.after (.scope opened next) (by simp +contextual [cuts]) rfl
        (fun _ => by simp only [run, hscope]; rfl)
      simpa
    | some id =>
      apply hnext.given hrest (.scope opened) (by simp +contextual [cuts])
        (by simp +contextual [cuts]) rfl (fun _ _ => by simp only [run, hscope]; rfl)
      simpa
  | nested field body next rest hbody hnext hrest =>
    intro handle build hgoing
    cases hscope : handle.scope? with
    | none =>
      apply hrest.after (.nested field body next) (by simp +contextual [cuts]) rfl
        (fun _ => by simp only [run, hscope]; rfl)
      simpa
    | some id =>
      apply hbody.opened hnext hrest (.nested field) (by simp +contextual [cuts])
        (by simp +contextual [cuts]) (by simp +contextual [cuts]) rfl
        (fun _ _ _ => by simp only [run, hscope]; rfl)
      simpa
  | chain connective body next rest hbody hnext hrest =>
    intro handle build hgoing
    cases hscope : handle.scope? with
    | none =>
      apply hrest.after (.chain connective body next) (by simp +contextual [cuts]) rfl
        (fun _ => by simp only [run, hscope]; rfl)
      simpa
    | some id =>
      apply hbody.opened hnext hrest (.chain connective) (by simp +contextual [cuts])
        (by simp +contextual [cuts]) (by simp +contextual [cuts]) rfl
        (fun _ _ _ => by simp only [run, hscope]; rfl)
      simpa
  | bool next rest hnext hrest =>
    intro handle build hgoing
    cases hscope : handle.scope? with
    | none =>
      apply hrest.after (.bool next) (by simp +contextual [cuts]) rfl
        (fun _ => by simp only [run, hscope]; rfl)
      simpa
    | some id =>
      apply hnext.given hrest .bool (by simp +contextual [cuts]) (by simp +contextual [cuts]) rfl
        (fun _ _ => by simp only [run, hscope]; rfl)
      simpa
  | clause part body next rest hbody hnext hrest =>
    intro handle build hgoing
    cases handle with
    | leaf _ | scope _ =>
      apply hrest.after (.clause part body next) (by simp +contextual [cuts]) rfl (fun _ => rfl)
      simpa
    | bool own clauses =>
      apply hbody.opened hnext hrest (.clause part) (by simp +contextual [cuts])
        (by simp +contextual [cuts]) (by simp +contextual [cuts]) rfl (fun _ _ _ => rfl)
      simpa
  | back next rest hnext hrest =>
    intro handle build hgoing
    cases hroot : build.tree.familyRootAround handle.id with
    | error error =>
      have hdone : (FilterScript.done.run handle build).GoesOnAs (build.fail "back" error) :=
        ⟨hgoing, (build.tree_fail "back" error).symm⟩
      cases handle with
      | leaf id => exact ⟨.done, by simp [cuts], by simpa only [run, hroot] using hdone⟩
      | scope _ | bool _ _ =>
        cases hfailed : (build.fail "back" error).stopped with
        | none =>
          apply hrest.after (.back next) (by simp +contextual [cuts]) rfl
            (fun _ => by simp only [run, hroot]) hfailed
        | some _ =>
          have hstays := fun handle => run_of_stopped rest handle (by rw [hfailed]; rfl)
          exact ⟨.done, by simp [cuts], by simpa only [run, hroot, hstays] using hdone⟩
    | ok familyRoot =>
      have hback : (build.report (.node "back" familyRoot)).stopped = none := by simpa
      cases handle with
      | leaf id =>
        obtain ⟨cut, hcut, hleft⟩ := hnext (.scope familyRoot) _ hback
        exact ⟨.back cut .done, by simp [cuts, hcut], by simpa only [run, hroot] using hleft⟩
      | scope _ | bool _ _ =>
        apply hnext.given hrest .back (by simp +contextual [cuts]) (by simp +contextual [cuts]) rfl
          (fun _ _ => by simp only [run, hroot]; rfl) hback
  | asBool next rest hnext hrest =>
    intro handle build hgoing
    cases hscope : handle.scope? with
    | none =>
      apply hrest.after (.asBool next) (by simp +contextual [cuts]) rfl
        (fun _ => by simp only [run, hscope]; rfl)
      simpa
    | some id =>
      cases hclauses : build.tree.clausesOf? id with
      | none =>
        apply hrest.after (.asBool next) (by simp +contextual [cuts]) rfl
          (fun _ => by simp only [run, hscope, hclauses]; rfl)
        simpa
      | some clauses =>
        apply hnext.given hrest .asBool (by simp +contextual [cuts])
          (by simp +contextual [cuts]) rfl (fun _ _ => by simp only [run, hscope, hclauses]; rfl)
        simpa
  | number rest hrest =>
    intro handle build hgoing
    apply hrest.after .number (by simp +contextual [cuts]) rfl (fun _ => by rw [run])
    simpa
  | compose rest hrest =>
    intro handle build hgoing
    apply hrest.after .compose (by simp +contextual [cuts]) rfl (fun _ => by rw [run])
    simpa
  | toText rest hrest =>
    intro handle build hgoing
    apply hrest.after .toText (by simp +contextual [cuts]) rfl (fun _ => by simp only [run]; rfl)
    simpa
  | unknown name rest hrest =>
    intro handle build hgoing
    apply hrest.after (.unknown name) (by simp +contextual [cuts]) rfl (fun _ => by rw [run])
    simpa

end FilterScript

end FilteredSearch
