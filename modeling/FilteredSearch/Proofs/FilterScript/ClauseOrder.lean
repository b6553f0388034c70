import FilteredSearch.Proofs.FilterScript.Moved
import FilteredSearch.Proofs.FilterTree.Exchanged
import FilteredSearch.Proofs.FilterTree.Fragments

/-!
# The order in which clauses are configured

The clauses of a bool filter may be configured in any order.  The trees number their nodes
differently, but they compose to the same, or fail as the same, as long as what configures a clause
puts nodes only below it.
-/

namespace FilteredSearch

open FilterTree

namespace FilterScript

/-- The script puts nodes only below the scope when it configures it, and no failure stops it. -/
structure StaysBelow (script : FilterScript) (scope : Nat) (tree : FilterTree) (strict : Bool) :
    Prop where
  stopped_eq : strict = true → (script.configure scope tree strict).stopped = none
  isOver : ∀ new, tree.size ≤ new → new < (script.configure scope tree strict).tree.size →
    (script.configure scope tree strict).tree.IsOver scope new

variable {script f g : FilterScript} {tree : FilterTree} {scope id : Nat} {clauses : Clauses}
  {first second : Clause} {strict : Bool}

theorem StaysBelow.going (h : script.StaysBelow scope tree strict) :
  (script.configure scope tree strict).stopped = none
  := by
  cases strict with
  | true => apply h.stopped_eq rfl
  | false => apply stopped_run_of_lenient script _ rfl rfl

/-- The build in which two clauses of a bool filter are configured, one after the other. -/
def configureBoth (first second : Clause) (f g : FilterScript) (id : Nat) (clauses : Clauses)
    (build : FilterBuild) : FilterBuild :=
  run (.clause first f .done (.clause second g .done .done)) (.bool id clauses) build

/-- The second clause is configured as it would be before the first one, in a tree with the nodes
below the first clause before its own. -/
theorem grows_and_spliced_configureBoth (hwf : tree.WellFormed)
    (hfits : Handle.Fits tree (.bool id clauses))
    (hf : f.StaysBelow (clauses.get first) tree strict) (second : Clause) (g : FilterScript)
    (transcript : Transcript) :
  let configured := (f.configure (clauses.get first) tree strict).tree
  let both := (configureBoth first second f g id clauses (.start tree transcript strict)).tree
  Grows tree configured ∧ Grows configured both
    ∧ Spliced (tree.addedBlock configured) (g.configure (clauses.get second) tree strict).tree both
  := by
  intro configured both
  have hfirst : Handle.Fits tree (.scope (clauses.get first)) := hwf.takes_clause hfits first
  have hsecond : Handle.Fits tree (.scope (clauses.get second)) := hwf.takes_clause hfits second
  have hgrows : Grows tree configured :=
    f.makesGrow (.scope (clauses.get first)) (.start tree .empty strict) hwf hfirst
  -- Between the two calls the build is that of the first one, with more in the transcript.
  let begun := (FilterBuild.start tree transcript strict).report
    (.entered first.key (clauses.get first))
  let between := ((f.run (.scope (clauses.get first)) begun).report
    (.node first.key (clauses.get first))).report (.entered second.key (clauses.get second))
  have hboth : both = (g.run (.scope (clauses.get second)) between).tree :=
    FilterBuild.tree_report _ _
  have htree : between.tree = configured := by
    simp only [between, begun, FilterBuild.tree_report, run_start_report, FilterBuild.tree_after]
    rfl
  have hstopped : between.stopped = none := by
    simp only [between, begun, FilterBuild.stopped_report, run_start_report,
      FilterBuild.stopped_after]
    apply hf.going
  have hstrict : between.strict = strict := by
    simp only [between, begun, FilterBuild.strict_report, strict_run]
    rfl
  have hwf' : between.tree.WellFormed := htree ▸ hgrows.wellFormed hwf
  have hspliced : FilterBuild.Spliced (tree.addedBlock configured) (.start tree .empty strict)
      between := ⟨htree ▸ hgrows.spliced hwf, hstrict, hstopped⟩
  have hrun := g.keepsSpliced _ (.scope (clauses.get second)) _ _ hspliced hwf hsecond
  rw [Handle.renumber, addedBlock_shift_of_lt hsecond.lt_size] at hrun
  refine ⟨hgrows, ?_, hboth ▸ hrun.tree⟩
  rw [hboth, ← htree]
  apply g.makesGrow _ _ hwf'
  show between.tree.Takes _
  rw [htree]
  apply hgrows.takes hwf hsecond

/-- What the script puts into the tree stands below the clause that it configures. -/
theorem StaysBelow.holdsBelow (hf : f.StaysBelow (clauses.get first) tree strict)
    (hwf : tree.WellFormed) (hfits : Handle.Fits tree (.bool id clauses)) :
  let configured := (f.configure (clauses.get first) tree strict).tree
  configured.HoldsBelow (clauses.get first) (tree.addedBlock configured)
  := by
  intro configured
  have hgrows : Grows tree configured :=
    f.makesGrow (.scope (clauses.get first)) (.start tree .empty strict) hwf
      (hwf.takes_clause hfits first)
  obtain ⟨bool, hbool, -⟩ := hfits
  have hclause : tree.kind? (clauses.get first) = some (.clause bool first) :=
    hwf.clause_iff.mpr ⟨clauses, hbool, rfl⟩
  have hlt := lt_size_of_kind? hclause
  exact {
    scope_lt := hlt
    not_inChain := by
      intro connective chainRoot
      rw [hgrows.inChain_iff hlt]
      rintro ⟨conditions, hk⟩
      rw [hclause] at hk
      cases hk
    isOver := by
      intro new hnew
      obtain ⟨hle, hlt⟩ := addedBlock_contains_iff.mp hnew
      apply hf.isOver new hle hlt }

end FilterScript

namespace FilterTree

variable {tree : FilterTree} {bool : Nat} {clauses : Clauses} {first second : Clause}

/-- Two clauses of a bool filter are not over each other. -/
theorem WellFormed.apart_clauses (hwf : tree.WellFormed)
    (hbool : tree.kind? bool = some (.bool clauses)) (hne : first ≠ second) :
  tree.Apart (clauses.get first) (clauses.get second)
  := by
  have hclause : ∀ part, tree.kind? (clauses.get part) = some (.clause bool part) :=
    fun part => hwf.clause_iff.mpr ⟨clauses, hbool, rfl⟩
  have hnot : ∀ {part other}, part ≠ other →
      ¬tree.IsOver (clauses.get part) (clauses.get other) := by
    intro part other hne hover
    rcases hover.cases_tail with heq | ⟨parent, habove, hparent⟩
    · have hk := hclause other
      rw [heq, hclause part] at hk
      cases hk
      apply hne rfl
    · rw [hwf.parent_clause (hclause other), Option.some.injEq] at hparent
      subst hparent
      have hle := IsOver.le hwf.toLinked habove
      have hlt := hwf.parent_lt_child (hwf.parent_clause (hclause part))
      omega
  exact ⟨hnot hne, hnot hne.symm⟩

end FilterTree

namespace FilterScript

variable {f g : FilterScript} {tree : FilterTree} {id : Nat} {clauses : Clauses}
  {first second : Clause} {strict : Bool}

/-- In a tree that scripts build without compositions of their own, two clauses of a bool filter may
be configured in either order: the trees compose to the same document or fail as the same, when
neither configuration puts nodes outside its clause. -/
theorem compose_configureBoth_comm (h : tree.Reachable)
    (hfits : Handle.Fits tree (.bool id clauses)) (hne : first ≠ second)
    (hf : f.StaysBelow (clauses.get first) tree strict)
    (hg : g.StaysBelow (clauses.get second) tree strict)
    (hnative₁ : (f.configure (clauses.get first) tree strict).tree.Native)
    (hnative₂ : (g.configure (clauses.get second) tree strict).tree.Native)
    (transcript : Transcript) :
  (configureBoth first second f g id clauses (.start tree transcript strict)).tree.compose
    = (configureBoth second first g f id clauses (.start tree transcript strict)).tree.compose
  := by
  have hwf := h.wellFormed
  obtain ⟨hfirst, hboth, hspliced⟩ := grows_and_spliced_configureBoth hwf hfits hf second g
    transcript
  obtain ⟨hsecond, hboth', hspliced'⟩ := grows_and_spliced_configureBoth hwf hfits hg first f
    transcript
  have hnative := native_of_grows hwf hfirst hboth hspliced hnative₁ hnative₂
  have hgrows := hfirst.trans hboth
  have hapart : (configureBoth first second f g id clauses
      (.start tree transcript strict)).tree.Apart (clauses.get first) (clauses.get second) := by
    obtain ⟨bool, hbool, -⟩ := hfits
    apply (hgrows.wellFormed hwf).apart_clauses (hgrows.kind?_bool hwf hbool) hne
  rw [compose_eq, compose_eq, eq_comm]
  apply composeAt_eq_of_grows hwf hfirst hsecond hboth hboth' hspliced hspliced'
    (hf.holdsBelow hwf hfits) (hg.holdsBelow hwf hfits) hapart hnative
  apply lt_size_of_kind? hwf.kind_root

/-- A tree with a bool filter whose clauses are empty. -/
def bareBool : FilterTree :=
  (FilterScript.run (.bool .done .done) (.scope root) (.start .empty .empty true)).tree

/-- A script for two or-filters that make one chain. -/
def twoOrs : FilterScript :=
  .chain .or (.leaf .matchAll .done .done) (.chain .or (.leaf (.first 3) .done .done) .done .done)
    .done

/-- A script for a leaf. -/
def oneLeaf : FilterScript := .leaf .matchAll .done .done

theorem staysBelow_twoOrs :
  twoOrs.StaysBelow 2 bareBool true
  where
  stopped_eq _ := rfl
  isOver := by
    intro new hle hlt
    have hlt' : new < 9 := hlt
    have h₅ : (twoOrs.configure 2 bareBool true).tree.IsOver 2 5 := .of_parent? rfl
    have h₇ : (twoOrs.configure 2 bareBool true).tree.IsOver 2 7 := h₅.tail rfl
    have hle' : 5 ≤ new := hle
    interval_cases new
    · apply h₅
    · apply h₅.tail rfl
    · apply h₇
    · apply h₇.tail rfl

theorem staysBelow_oneLeaf :
  oneLeaf.StaysBelow 4 bareBool true
  where
  stopped_eq _ := rfl
  isOver := by
    intro new hle hlt
    have hle' : 5 ≤ new := hle
    have hlt' : new < 6 := hlt
    obtain rfl : new = 5 := by omega
    apply IsOver.of_parent? rfl

theorem native_configure_twoOrs :
  (twoOrs.configure 2 bareBool true).tree.Native
  := by
  intro id composer hk
  have hid : id < 9 := lt_size_of_kind? hk
  interval_cases id <;> cases hk

theorem native_configure_oneLeaf :
  (oneLeaf.configure 4 bareBool true).tree.Native
  := by
  intro id composer hk
  have hid : id < 6 := lt_size_of_kind? hk
  interval_cases id <;> cases hk

/-- The should clause may get its leaf before or after the must clause gets its or-filters. -/
theorem compose_configureBoth_comm_bareBool :
  bareBool.Reachable ∧ Handle.Fits bareBool (.bool 1 ⟨2, 3, 4⟩) ∧ twoOrs.StaysBelow 2 bareBool true
    ∧ oneLeaf.StaysBelow 4 bareBool true
    ∧ (configureBoth .must .should twoOrs oneLeaf 1 ⟨2, 3, 4⟩
        (.start bareBool .empty true)).tree.compose
      = (configureBoth .should .must oneLeaf twoOrs 1 ⟨2, 3, 4⟩
        (.start bareBool .empty true)).tree.compose
  := by
  have hreachable : bareBool.Reachable := .run (.bool .done .done) .empty true .empty
  have hfits : Handle.Fits bareBool (.bool 1 ⟨2, 3, 4⟩) := ⟨1, rfl, Or.inl rfl⟩
  have hne : Clause.must ≠ Clause.should := by decide
  exact ⟨hreachable, hfits, staysBelow_twoOrs, staysBelow_oneLeaf,
    compose_configureBoth_comm hreachable hfits hne staysBelow_twoOrs staysBelow_oneLeaf
      native_configure_twoOrs native_configure_oneLeaf .empty⟩

end FilterScript

end FilteredSearch
