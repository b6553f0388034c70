import FilteredSearch.Proofs.FilterTerm.Evaluated
import FilteredSearch.Proofs.FilterTerm.Puts

/-!
# Scripts are terms

The tree that a script with forward calls builds composes to what the script evaluates to as a
term.  A run of the script on a handle puts below the node of the handle, or into the places of its
bool filter, exactly the filters that the script has there as syntax.
-/

namespace FilteredSearch

open FilterTree

namespace FilterBuild

variable {build : FilterBuild}

@[simp]
theorem stopped_report (build : FilterBuild) (event : Event) :
  (build.report event).stopped = build.stopped
  := by
  rw [report]
  split <;> rfl

@[simp]
theorem stopped_grow (build : FilterBuild) (attach : FilterTree → Logged FilterTree) :
  (build.grow attach).stopped = build.stopped
  := by
  rw [grow]
  split <;> rfl

@[simp]
theorem stopped_put (build : FilterBuild) (call : String) (parent : Nat) (kind : NodeKind) :
  (build.put call parent kind).stopped = build.stopped
  := by
  rw [put, stopped_report, stopped_grow]

end FilterBuild

namespace FilterScript

/-- Forward calls never stop a build. -/
theorem stopped_run {script : FilterScript} (h : script.Forward) (handle : Handle)
    (build : FilterBuild) :
  (script.run handle build).stopped = build.stopped
  := by
  induction script generalizing handle build with
  | done => rfl
  | leaf test next rest hnext hrest =>
    rw [run]
    split <;> simp [hnext h.1, hrest h.2]
  | scope opened next rest hnext hrest =>
    rw [run]
    split <;> simp [hnext h.2.1, hrest h.2.2]
  | nested field body next rest hbody hnext hrest
  | chain connective body next rest hbody hnext hrest =>
    rw [run]
    split <;> simp [hbody h.1, hnext h.2.1, hrest h.2.2]
  | bool next rest hnext hrest =>
    rw [run]
    split <;> simp [hnext h.1, hrest h.2]
  | clause part body next rest hbody hnext hrest =>
    cases handle <;> simp [run, hbody h.1, hnext h.2.1, hrest h.2.2]
  | back next rest => apply h.elim
  | asBool next rest => apply h.elim
  | number rest hrest | compose rest hrest | toText rest hrest | unknown name rest hrest =>
    simp [run, hrest h]

/-- A run of the script leaves a tree alone below a leaf, and otherwise puts into it the filters
of the script, below a scope or in the places of a bool filter. -/
structure Follows (script : FilterScript) : Prop where
  leaf : ∀ (id : Nat) (build : FilterBuild), build.stopped.isSome = false →
    (script.run (.leaf id) build).tree = build.tree
  scope : ∀ (id : Nat) (build : FilterBuild), build.stopped.isSome = false →
    build.tree.WellFormed → build.tree.Takes id →
    Puts build.tree (script.run (.scope id) build).tree id (script.contents .scope none)
  bool : ∀ (bool : Nat) (clauses : Clauses) (place : Option Clause) (build : FilterBuild),
    build.stopped.isSome = false → build.tree.WellFormed →
    build.tree.kind? bool = some (.bool clauses) →
    Fills build.tree (script.run (.bool (placeNode bool clauses place) clauses) build).tree bool
      clauses (script.contents (.bool place))

variable {script body next rest : FilterScript} {filters : List FilterTerm}

/-- A place of a bool filter takes filters. -/
theorem takes_placeNode {tree : FilterTree} {bool : Nat} {clauses : Clauses}
    (hwf : tree.WellFormed) (hk : tree.kind? bool = some (.bool clauses)) (place : Option Clause) :
  tree.Takes (placeNode bool clauses place)
  := by
  apply hwf.takes_of_inBool
  use bool, hk
  cases place with
  | none => apply Or.inl rfl
  | some part => apply Or.inr ⟨part, rfl⟩

theorem Follows.leaf_report (h : script.Follows) {build : FilterBuild}
    (hgoing : build.stopped.isSome = false) (id : Nat) (event : Event) :
  (script.run (.leaf id) (build.report event)).tree = build.tree
  := by
  rw [h.leaf id _ (by simpa using hgoing), FilterBuild.tree_report]

theorem Follows.scope_report (h : script.Follows) {build : FilterBuild} {id : Nat}
    (hgoing : build.stopped.isSome = false) (hwf : build.tree.WellFormed)
    (hid : build.tree.Takes id) (event : Event) :
  Puts build.tree (script.run (.scope id) (build.report event)).tree id
    (script.contents .scope none)
  := by
  simpa using h.scope id (build.report event) (by simpa using hgoing) (by simpa using hwf)
    (by simpa using hid)

/-- A call that puts filters below the node of any handle that has one, followed by calls on the
same handle. -/
theorem follows_of_call (hrest : rest.Follows)
    (hcontents : ∀ grip, script.contents grip = (grip.put filters).append (rest.contents grip))
    (hleaf : ∀ id build, ∃ event,
      script.run (.leaf id) build = rest.run (.leaf id) (build.report event))
    (hcall : ∀ (id : Nat) (build : FilterBuild), build.stopped.isSome = false →
      build.tree.WellFormed → build.tree.Takes id → ∃ build' : FilterBuild,
        (∀ handle : Handle, handle.scope? = some id →
          script.run handle build = rest.run handle build')
        ∧ build'.stopped.isSome = false ∧ Grows build.tree build'.tree
        ∧ Puts build.tree build'.tree id filters) :
  script.Follows
  where
  leaf := by
    intro id build hgoing
    obtain ⟨event, hrun⟩ := hleaf id build
    rw [hrun, hrest.leaf_report hgoing]
  scope := by
    intro id build hgoing hwf hid
    obtain ⟨build', hrun, hgoing', hgrows, hputs⟩ := hcall id build hgoing hwf hid
    have hwf' := hgrows.wellFormed hwf
    rw [hrun (.scope id) rfl, hcontents]
    apply hputs.trans (hrest.scope id build' hgoing' hwf' (hgrows.takes hwf hid)) hwf' hid.lt_size
  bool := by
    intro bool clauses place build hgoing hwf hk
    obtain ⟨build', hrun, hgoing', hgrows, hputs⟩ :=
      hcall _ build hgoing hwf (takes_placeNode hwf hk place)
    have hwf' := hgrows.wellFormed hwf
    rw [hrun (.bool _ clauses) rfl, hcontents]
    apply (Fills.of_puts hwf hk hputs).trans
      (hrest.bool bool clauses place build' hgoing' hwf' (hgrows.kind?_bool hwf hk)) hwf hwf' hk

/-- A call that only reports. -/
theorem follows_of_report (hrest : rest.Follows) (hcontents : script.contents = rest.contents)
    (hrun : ∀ handle build, ∃ event,
      script.run handle build = rest.run handle (build.report event)) :
  script.Follows
  where
  leaf := by
    intro id build hgoing
    obtain ⟨event, hrun⟩ := hrun (.leaf id) build
    rw [hrun, hrest.leaf_report hgoing]
  scope := by
    intro id build hgoing hwf hid
    obtain ⟨event, hrun⟩ := hrun (.scope id) build
    rw [hrun, hcontents]
    apply hrest.scope_report hgoing hwf hid event
  bool := by
    intro bool clauses place build hgoing hwf hk
    obtain ⟨event, hrun⟩ := hrun (.bool (placeNode bool clauses place) clauses) build
    rw [hrun, hcontents]
    simpa using hrest.bool bool clauses place (build.report event) (by simpa using hgoing)
      (by simpa using hwf) (by simpa using hk)

/-- What a script leaves that is run below a node: a build that goes on, with the filters below
the node. -/
structure Leaves (entered left : FilterBuild) (id : Nat) (filters : List FilterTerm) : Prop where
  going : left.stopped.isSome = false
  grows : Grows entered.tree left.tree
  puts : Puts entered.tree left.tree id filters

theorem Leaves.report {entered left : FilterBuild} {id : Nat} (h : Leaves entered left id filters)
    (event : Event) :
  Leaves entered (left.report event) id filters
  where
  going := by simpa using h.going
  grows := by simpa using h.grows
  puts := by simpa using h.puts

theorem Follows.leaves (hbody : body.Follows) (hforward : body.Forward) {entered : FilterBuild}
    {id : Nat} (hgoing : entered.stopped.isSome = false) (hwf : entered.tree.WellFormed)
    (hid : entered.tree.Takes id) :
  Leaves entered (body.run (.scope id) entered) id (body.contents .scope none)
  where
  going := by rwa [stopped_run hforward]
  grows := body.makesGrow _ _ hwf hid
  puts := hbody.scope id entered hgoing hwf hid

theorem Leaves.trans {entered middle left : FilterBuild} {id : Nat} {more : List FilterTerm}
    (h : Leaves entered middle id filters) (h' : Leaves middle left id more)
    (hwf : entered.tree.WellFormed) (hid : entered.tree.Takes id) :
  Leaves entered left id (filters ++ more)
  where
  going := h'.going
  grows := h.grows.trans h'.grows
  puts := h.puts.trans h'.puts (h.grows.wellFormed hwf) hid.lt_size

/-! ### Calls -/

theorem follows_done :
  done.Follows
  where
  leaf _ _ _ := rfl
  scope id build _ _ _ := Puts.refl build.tree id
  bool bool clauses _ build _ _ _ := Fills.refl build.tree bool clauses

theorem follows_leaf (test : Leaf) (hnext : next.Follows) (hforward : next.Forward)
    (hrest : rest.Follows) :
  (leaf test next rest).Follows
  := by
  apply follows_of_call hrest (fun _ => rfl) (fun _ _ => ⟨_, rfl⟩)
  intro id build hgoing hwf hid
  let build' := next.run (.leaf build.tree.size) (build.put test.name id test.kind)
  have htree : build'.tree = (build.tree.addNode id test.kind).value := by
    rw [hnext.leaf _ _ (by simpa using hgoing), FilterBuild.tree_put hgoing]
  refine ⟨build', fun handle hscope => by simp only [run, hscope, build'], ?_, ?_, ?_⟩
  · simpa [build', stopped_run hforward] using hgoing
  · apply htree ▸ (Step.node hid test.isLoose_kind).grows
  · rw [htree]
    exact Puts.node hid.lt_size test.isLoose_kind (Puts.refl _ _) fun hk _ => ⟨hk, rfl⟩

theorem follows_scope (opened : Scope) (hopened : ∀ composer, opened ≠ .custom composer)
    (hnext : next.Follows) (hforward : next.Forward) (hrest : rest.Follows) :
  (scope opened next rest).Follows
  := by
  apply follows_of_call hrest (fun _ => rfl) (fun _ _ => ⟨_, rfl⟩)
  intro id build hgoing hwf hid
  let entered := build.put opened.name id opened.kind
  have htree : entered.tree = (build.tree.addNode id opened.kind).value :=
    FilterBuild.tree_put hgoing _ _ _
  have hgrows : Grows build.tree entered.tree :=
    htree ▸ (Step.node hid opened.isLoose_kind).grows
  have hleft := hnext.leaves hforward (by simpa [entered] using hgoing) (hgrows.wellFormed hwf)
    (htree ▸ takes_addNode opened.kind_ne_fragment)
  use next.run (.scope build.tree.size) entered,
    fun handle hscope => by simp only [run, hscope, entered], hleft.going,
    hgrows.trans hleft.grows
  apply Puts.node hid.lt_size opened.isLoose_kind (htree ▸ hleft.puts)
  intro hk hshown
  cases opened with
  | wrap => exact ⟨hk, rfl, hshown⟩
  | negation => exact ⟨hk, rfl, hshown⟩
  | custom composer => exact absurd rfl (hopened composer)

theorem follows_nested (field : Accessor) (hbody : body.Follows) (hforward : body.Forward)
    (hnext : next.Follows) (hforward' : next.Forward) (hrest : rest.Follows) :
  (nested field body next rest).Follows
  := by
  apply follows_of_call hrest (fun _ => rfl) (fun _ _ => ⟨_, rfl⟩)
  intro id build hgoing hwf hid
  let entered := (build.grow (·.addNode id (.ofNested field))).report
    (.entered "nested" build.tree.size)
  let left := (body.run (.scope build.tree.size) entered).report (.node "nested" id)
  have htree : entered.tree = (build.tree.addNode id (.ofNested field)).value :=
    FilterBuild.tree_report_grow hgoing _ _
  have hgrows : Grows build.tree entered.tree :=
    htree ▸ (Step.node hid (NodeKind.isLoose_ofNested field)).grows
  have hleft : Leaves entered left build.tree.size (body.contents .scope none) :=
    (hbody.leaves hforward (by simpa [entered] using hgoing) (hgrows.wellFormed hwf)
      (htree ▸ takes_addNode (NodeKind.ofNested_ne_fragment field))).report _
  have hnested : Leaves build left id [.nested field (body.contents .scope none)] := by
    use hleft.going, hgrows.trans hleft.grows
    exact Puts.node hid.lt_size (NodeKind.isLoose_ofNested field) (htree ▸ hleft.puts)
      fun hk hshown => ⟨hk, rfl, hshown⟩
  have hall := hnested.trans (hnext.leaves hforward' hnested.going (hnested.grows.wellFormed hwf)
    (hnested.grows.takes hwf hid)) hwf hid
  exact ⟨next.run (.scope id) left, fun handle hscope => by simp only [run, hscope, left, entered],
    hall.going, hall.grows, hall.puts⟩

theorem follows_chain (connective : Connective) (hbody : body.Follows) (hforward : body.Forward)
    (hnext : next.Follows) (hforward' : next.Forward) (hrest : rest.Follows) :
  (chain connective body next rest).Follows
  := by
  apply follows_of_call hrest (fun _ => rfl) (fun _ _ => ⟨_, rfl⟩)
  intro id build hgoing hwf hid
  let entered := (build.grow (·.addChain id connective)).report
    (.entered connective.key build.tree.size)
  let left := (body.run (.scope build.tree.size) entered).report
    (.node connective.key build.tree.size)
  have htree : entered.tree = (build.tree.addChain id connective).value :=
    FilterBuild.tree_report_grow hgoing _ _
  have hgrows : Grows build.tree entered.tree := htree ▸ (Step.chain connective hid).grows
  have hwf' := hgrows.wellFormed hwf
  have hchild : entered.tree.Takes build.tree.size := htree ▸ takes_addChain
  have hleft : Leaves entered left build.tree.size (body.contents .scope none) :=
    (hbody.leaves hforward (by simpa [entered] using hgoing) hwf' hchild).report _
  have hall := hleft.trans (hnext.leaves hforward' hleft.going (hleft.grows.wellFormed hwf')
    (hleft.grows.takes hwf' hchild)) hwf' hchild
  exact ⟨next.run (.scope build.tree.size) left,
    fun handle hscope => by simp only [run, hscope, left, entered], hall.going,
    hgrows.trans hall.grows, Puts.chain hwf hid.lt_size (htree ▸ hall.puts)⟩

theorem follows_bool (hnext : next.Follows) (hforward : next.Forward) (hrest : rest.Follows) :
  (bool next rest).Follows
  := by
  apply follows_of_call hrest (fun _ => rfl) (fun _ _ => ⟨_, rfl⟩)
  intro id build hgoing hwf hid
  let entered := (build.grow (·.addBool id)).report (.node "bool" build.tree.size)
  have htree : entered.tree = (build.tree.addBool id).value :=
    FilterBuild.tree_report_grow hgoing _ _
  have hgrows : Grows build.tree entered.tree := htree ▸ (Step.bool hid).grows
  have hwf' := hgrows.wellFormed hwf
  have hgoing' : entered.stopped.isSome = false := by simpa [entered] using hgoing
  have hk : entered.tree.kind? build.tree.size = some (.bool build.tree.nextClauses) := by
    rw [htree, kind?_addBool, if_pos rfl]
  have hfills := hnext.bool build.tree.size build.tree.nextClauses none entered hgoing' hwf' hk
  refine ⟨next.run (.bool build.tree.size build.tree.nextClauses) entered,
    fun handle hscope => by simp only [run, hscope, entered], ?_, ?_, ?_⟩
  · rwa [stopped_run hforward]
  · exact hgrows.trans (next.makesGrow _ _ hwf' ⟨_, hk, Or.inl rfl⟩)
  · apply Puts.boolFilter hid.lt_size (htree ▸ hfills)

/-- A clause is configured only through a handle on a bool filter; on the others the call
reports. -/
theorem follows_clause (part : Clause) (hbody : body.Follows) (hforward : body.Forward)
    (hnext : next.Follows) (hforward' : next.Forward) (hrest : rest.Follows) :
  (clause part body next rest).Follows
  where
  leaf _ _ hgoing := hrest.leaf_report hgoing _ _
  scope _ _ hgoing hwf hid := hrest.scope_report hgoing hwf hid _
  bool := by
    intro bool clauses place build hgoing hwf hk
    let id := clauses.get part
    let entered := build.report (.entered part.key id)
    let left := (body.run (.scope id) entered).report (.node part.key id)
    have htree : entered.tree = build.tree := FilterBuild.tree_report _ _
    have hleft : Leaves entered left id (body.contents .scope none) :=
      (hbody.leaves hforward (by simpa [entered] using hgoing) (htree ▸ hwf)
        (htree ▸ takes_placeNode hwf hk (some part))).report _
    have hputs : Puts build.tree left.tree (placeNode bool clauses (some part))
        (body.contents .scope none) := htree ▸ hleft.puts
    have hgrows : Grows build.tree left.tree := htree ▸ hleft.grows
    have hwf' := hgrows.wellFormed hwf
    have hk' := hgrows.kind?_bool hwf hk
    have hfills := (Fills.of_puts hwf hk hputs).trans
      (hnext.bool bool clauses (some part) left hleft.going hwf' hk') hwf hwf' hk
    have hgrows' := next.makesGrow (.bool id clauses) left hwf' ⟨bool, hk', Or.inr ⟨part, rfl⟩⟩
    have hwf'' := hgrows'.wellFormed hwf'
    apply hfills.trans (hrest.bool bool clauses place _
      (by rw [stopped_run hforward']; exact hleft.going) hwf'' (hgrows'.kind?_bool hwf' hk')) hwf
      hwf'' hk

/-- A run of a script with forward calls puts in place what the script has there as syntax. -/
theorem Forward.follows {script : FilterScript} (h : script.Forward) :
  script.Follows
  := by
  induction script with
  | done => apply follows_done
  | leaf test next rest hnext hrest => apply follows_leaf test (hnext h.1) h.1 (hrest h.2)
  | scope opened next rest hnext hrest =>
    apply follows_scope opened h.1 (hnext h.2.1) h.2.1 (hrest h.2.2)
  | nested field body next rest hbody hnext hrest =>
    apply follows_nested field (hbody h.1) h.1 (hnext h.2.1) h.2.1 (hrest h.2.2)
  | chain connective body next rest hbody hnext hrest =>
    apply follows_chain connective (hbody h.1) h.1 (hnext h.2.1) h.2.1 (hrest h.2.2)
  | bool next rest hnext hrest => apply follows_bool (hnext h.1) h.1 (hrest h.2)
  | clause part body next rest hbody hnext hrest =>
    apply follows_clause part (hbody h.1) h.1 (hnext h.2.1) h.2.1 (hrest h.2.2)
  | back next rest => apply h.elim
  | asBool next rest => apply h.elim
  | number rest hrest | compose rest hrest | toText rest hrest | unknown name rest hrest =>
    apply follows_of_report (hrest h) (by funext grip; rfl) fun _ _ => ⟨_, rfl⟩

/-- The tree that a script with forward calls builds composes to what the script evaluates to as a
term, and fails as the term does. -/
theorem compose_run_eq_eval {script : FilterScript} (h : script.Forward) (transcript : Transcript)
    (strict : Bool) :
  (script.run (.scope root) (.start .empty transcript strict)).tree.compose = script.toTerm.eval
  := by
  let start := FilterBuild.start .empty transcript strict
  let tree := (script.run (.scope root) start).tree
  have hreachable : tree.Reachable := .run script transcript strict .empty
  have htakes : FilterTree.empty.Takes root := ⟨_, wellFormed_empty.kind_root, by simp⟩
  have hputs : Puts .empty tree root (script.contents .scope none) :=
    h.follows.scope root start rfl wellFormed_empty htakes
  obtain ⟨members, hshown, -⟩ := hputs.shown_of_new childrenOf_empty
  rw [chainOf?_eq_none wellFormed_empty.kind_root (by simp)] at hshown
  have hmembers := hshown.members_eq_nil
  subst hmembers
  have hterm : tree.Shows none script.toTerm root [] :=
    ⟨hreachable.wellFormed.kind_root, rfl, hshown⟩
  rw [compose_eq]
  apply hterm.composeAt_eq hreachable.wellFormed _ rfl

theorem forward_twoOrsInMust :
  twoOrsInMust.Forward
  := by
  simp [twoOrsInMust, Forward]

theorem compose_run_eq_eval_twoOrsInMust :
  treeOfOrs.compose = twoOrsInMust.toTerm.eval
  := compose_run_eq_eval forward_twoOrsInMust .empty false

end FilterScript

end FilteredSearch
