import FilteredSearch.FilterScript.Run
import FilteredSearch.Proofs.FilterTree.WellFormed

/-!
# The filter trees that scripts build

Whatever calls a filter script makes on a handle, it changes the tree only by putting nodes below
nodes that take them.  So every tree that scripts build from nothing is well formed.
-/

namespace FilteredSearch

theorem Leaf.isLoose_kind (leaf : Leaf) :
  leaf.kind.IsLoose
  := by
  rw [Leaf.kind]
  cases leaf.fragment <;> trivial

theorem Scope.isLoose_kind (scope : Scope) :
  scope.kind.IsLoose
  := by
  cases scope <;> trivial

theorem NodeKind.isLoose_ofNested (field : Accessor) :
  (NodeKind.ofNested field).IsLoose
  := by
  rw [ofNested]
  cases FieldPath.resolve field <;> trivial

theorem Scope.kind_ne_fragment (scope : Scope) (document : Json) :
  scope.kind ≠ .fragment document
  := by
  cases scope <;> simp [kind]

theorem NodeKind.ofNested_ne_fragment (field : Accessor) (document : Json) :
  ofNested field ≠ .fragment document
  := by
  rw [ofNested]
  cases FieldPath.resolve field <;> simp

namespace FilterTree

/-- The trees that filter scripts build, one after the other, from the tree with nothing in it.
Each script is run on the top scope, and a strict run may end early. -/
inductive Reachable : FilterTree → Prop where
  | empty : Reachable FilterTree.empty
  | run {tree : FilterTree} (script : FilterScript) (transcript : Transcript) (strict : Bool)
    (htree : Reachable tree) :
    Reachable (script.run (.scope root) (.start tree transcript strict)).tree

variable {tree tree' : FilterTree} {id parent familyRoot : Nat} {clauses : Clauses}

/-! ### New nodes -/

theorem takes_addNode {kind : NodeKind} (hkind : ∀ document, kind ≠ .fragment document) :
  (tree.addNode parent kind).value.Takes tree.size
  := ⟨kind, kind?_append.trans (if_pos rfl), hkind⟩

theorem takes_addChain {connective : Connective} :
  (tree.addChain parent connective).value.Takes tree.size
  := by
  have hnew : (tree.addChain parent connective).value.InChain connective
      ((tree.joinedRoot? parent connective).getD tree.size) tree.size :=
    inChain_addChain.mpr (Or.inl ⟨rfl, rfl, rfl⟩)
  obtain ⟨conditions, hk⟩ := hnew
  exact ⟨_, hk, by simp⟩

/-! ### Families and their roots -/

/-- The root of the family of a node is there and takes filters. -/
theorem WellFormed.takes_rootOfFamily {kind : NodeKind} (h : tree.WellFormed)
    (hk : tree.kind? id = some kind) (hroot : kind.rootOfFamily? id = some familyRoot) :
  tree.Takes familyRoot
  := by
  cases kind with
  | bool clauses =>
    obtain rfl : id = familyRoot := Option.some.inj hroot
    exact ⟨_, hk, by simp⟩
  | clause bool clause =>
    obtain rfl : bool = familyRoot := Option.some.inj hroot
    obtain ⟨clauses, hk', -⟩ := h.clause_iff.mp hk
    exact ⟨_, hk', by simp⟩
  | chain membership =>
    obtain rfl : membership.root = familyRoot := Option.some.inj hroot
    obtain ⟨conditions, hk'⟩ := h.root_inChain ⟨membership.conditions, hk⟩
    exact ⟨_, hk', by simp⟩
  | _ => simp [NodeKind.rootOfFamily?] at hroot

/-- The way up from a node leads to the root of the family of one of the nodes on it. -/
theorem exists_kind?_of_familyRootFrom (hroot : tree.familyRootFrom id = .ok familyRoot) :
  ∃ member kind, tree.kind? member = some kind ∧ kind.rootOfFamily? member = some familyRoot
  := by
  induction id using Nat.strongRecOn with
  | ind id ih =>
    rw [familyRootFrom] at hroot
    cases hnode : tree.node id with
    | error error => simp [hnode, bind, Except.bind] at hroot
    | ok node =>
      have hk : tree.kind? id = some node.kind :=
        kind?_eq_some_iff.mpr ⟨node, node_eq_ok_iff.mp hnode, rfl⟩
      simp only [hnode, bind, Except.bind] at hroot
      cases hfamily : node.kind.rootOfFamily? id with
      | some found =>
        simp only [hfamily, Except.ok.injEq] at hroot
        exact ⟨id, node.kind, hk, hroot ▸ hfamily⟩
      | none =>
        cases hparent : node.parent with
        | none => simp [hfamily, hparent] at hroot
        | some parent =>
          simp only [hfamily, hparent] at hroot
          split_ifs at hroot with hlt
          apply ih parent hlt hroot

theorem WellFormed.takes_familyRootAround (h : tree.WellFormed)
    (hroot : tree.familyRootAround id = .ok familyRoot) :
  tree.Takes familyRoot
  := by
  rw [familyRootAround] at hroot
  cases hparent : tree.parent id with
  | error error => simp [hparent, bind, Except.bind] at hroot
  | ok parent =>
    cases parent with
    | none => simp [hparent, bind, Except.bind] at hroot
    | some parent =>
      simp only [hparent, bind, Except.bind] at hroot
      obtain ⟨member, kind, hk, hfamily⟩ := exists_kind?_of_familyRootFrom hroot
      apply h.takes_rootOfFamily hk hfamily

/-- The node is the bool filter with the clauses, or one of them. -/
def InBool (tree : FilterTree) (clauses : Clauses) (id : Nat) : Prop :=
  ∃ bool, tree.kind? bool = some (.bool clauses) ∧ (id = bool ∨ ∃ part, clauses.get part = id)

theorem WellFormed.inBool_of_clausesOf? (h : tree.WellFormed)
    (hclauses : tree.clausesOf? id = some clauses) :
  tree.InBool clauses id
  := by
  rw [clausesOf?] at hclauses
  cases hk : tree.kind? id with
  | none => simp [hk] at hclauses
  | some kind =>
    cases kind with
    | bool own =>
      simp only [hk, Option.bind_some, Option.some.injEq] at hclauses
      exact ⟨id, hclauses ▸ hk, Or.inl rfl⟩
    | clause bool part =>
      obtain ⟨own, hbool, hget⟩ := h.clause_iff.mp hk
      simp only [hk, Option.bind_some, hbool, Option.some.injEq] at hclauses
      exact ⟨bool, hclauses ▸ hbool, Or.inr ⟨part, hclauses ▸ hget⟩⟩
    | _ => simp [hk] at hclauses

theorem WellFormed.takes_clause (h : tree.WellFormed) (hid : tree.InBool clauses id)
    (part : Clause) :
  tree.Takes (clauses.get part)
  := by
  obtain ⟨bool, hbool, -⟩ := hid
  exact ⟨_, h.clause_iff.mpr ⟨clauses, hbool, rfl⟩, by simp⟩

theorem WellFormed.takes_of_inBool (h : tree.WellFormed) (hid : tree.InBool clauses id) :
  tree.Takes id
  := by
  obtain ⟨bool, hbool, rfl | ⟨part, rfl⟩⟩ := hid
  · exact ⟨_, hbool, by simp⟩
  · apply h.takes_clause ⟨bool, hbool, Or.inl rfl⟩ part

end FilterTree

/-! ### Handles on a tree -/

/-- The handle could be held while the tree is built: its node is there and takes what can be
put below the handle. -/
def Handle.Fits (tree : FilterTree) : Handle → Prop
  | .leaf id => id < tree.size
  | .scope id => tree.Takes id
  | .bool id clauses => tree.InBool clauses id

namespace Handle

variable {tree tree' : FilterTree} {handle : Handle} {id : Nat}

theorem Fits.of_grows (h : handle.Fits tree) (hwf : tree.WellFormed)
    (hgrows : FilterTree.Grows tree tree') :
  handle.Fits tree'
  := by
  cases handle with
  | leaf id => apply Nat.lt_of_lt_of_le h hgrows.size_le
  | scope id => apply hgrows.takes hwf h
  | bool id clauses =>
    obtain ⟨bool, hbool, hid⟩ := h
    exact ⟨bool, hgrows.kind?_bool hwf hbool, hid⟩

theorem Fits.takes (h : handle.Fits tree) (hwf : tree.WellFormed) (hid : handle.scope? = some id) :
  tree.Takes id
  := by
  cases handle with
  | leaf _ => simp [scope?] at hid
  | scope own =>
    obtain rfl : own = id := Option.some.inj hid
    apply h
  | bool own clauses =>
    obtain rfl : own = id := Option.some.inj hid
    apply hwf.takes_of_inBool h

end Handle

/-! ### Runs -/

namespace FilterBuild

variable {build : FilterBuild}

theorem tree_grow (h : build.stopped.isSome = false) (attach : FilterTree → Logged FilterTree) :
  (build.grow attach).tree = (attach build.tree).value
  := by
  simp [grow, h]

theorem tree_report_grow (h : build.stopped.isSome = false)
    (attach : FilterTree → Logged FilterTree) (event : Event) :
  ((build.grow attach).report event).tree = (attach build.tree).value
  := by
  rw [tree_report, tree_grow h]

theorem tree_put (h : build.stopped.isSome = false) (call : String) (parent : Nat)
    (kind : NodeKind) :
  (build.put call parent kind).tree = (build.tree.addNode parent kind).value
  := by
  rw [put, tree_report_grow h]

end FilterBuild

namespace FilterScript

open FilterTree

/-- A run of the script on a handle that fits makes the tree grow. -/
def MakesGrow (script : FilterScript) : Prop :=
  ∀ (handle : Handle) (build : FilterBuild), build.tree.WellFormed → handle.Fits build.tree →
    Grows build.tree (script.run handle build).tree

/-- What is called on a new handle, and then on the old one, makes a grown tree grow. -/
theorem MakesGrow.andThen {next rest : FilterScript} (hnext : next.MakesGrow)
    (hrest : rest.MakesGrow) {handle newHandle : Handle} {before build : FilterBuild}
    (hwf : before.tree.WellFormed) (hfits : handle.Fits before.tree)
    (hgrows : Grows before.tree build.tree) (hnew : newHandle.Fits build.tree) :
  Grows before.tree (rest.run handle (next.run newHandle build)).tree
  := by
  have hbuild := hnext newHandle build (hgrows.wellFormed hwf) hnew
  have hall := hgrows.trans hbuild
  apply hall.trans (hrest handle _ (hall.wellFormed hwf) (hfits.of_grows hwf hall))

/-- A node without a family is put into the tree, and the calls go on with a handle on it. -/
theorem MakesGrow.put {next rest : FilterScript} (hnext : next.MakesGrow) (hrest : rest.MakesGrow)
    {handle newHandle : Handle} {build : FilterBuild} {call : String} {id : Nat} {kind : NodeKind}
    (hgoing : build.stopped.isSome = false) (hwf : build.tree.WellFormed)
    (hfits : handle.Fits build.tree) (hscope : handle.scope? = some id) (hkind : kind.IsLoose)
    (hnew : newHandle.Fits (build.tree.addNode id kind).value) :
  Grows build.tree (rest.run handle (next.run newHandle (build.put call id kind))).tree
  := by
  have hput := FilterBuild.tree_put hgoing call id kind
  have hstep := Step.node (hfits.takes hwf hscope) hkind
  apply hnext.andThen hrest hwf hfits
  · rw [hput]
    apply hstep.grows
  · rw [hput]
    apply hnew

/-- What is called in the body of a scope makes a grown tree grow, and the scope still takes
what is called on it. -/
theorem MakesGrow.body {body : FilterScript} (hbody : body.MakesGrow) {id : Nat}
    {before build : FilterBuild} (hwf : before.tree.WellFormed)
    (hgrows : Grows before.tree build.tree) (hid : build.tree.Takes id) (event : Event) :
  Grows before.tree ((body.run (.scope id) build).report event).tree
    ∧ Grows build.tree ((body.run (.scope id) build).report event).tree
  := by
  have hbuild := hbody (.scope id) build (hgrows.wellFormed hwf) hid
  rw [FilterBuild.tree_report]
  exact ⟨hgrows.trans hbuild, hbuild⟩

/-- A build that was stopped does not grow, so only the others matter. -/
theorem makesGrow_of_going {script : FilterScript}
    (h : ∀ (handle : Handle) (build : FilterBuild), build.stopped.isSome = false →
      build.tree.WellFormed → handle.Fits build.tree →
        Grows build.tree (script.run handle build).tree) :
  script.MakesGrow
  := by
  intro handle build hwf hfits
  cases hstopped : build.stopped.isSome with
  | true =>
    rw [run_of_stopped script handle hstopped]
    apply Grows.refl _
  | false => apply h handle build hstopped hwf hfits

/-- A call that the handle does not have only reports. -/
theorem MakesGrow.afterReport {rest : FilterScript} (hrest : rest.MakesGrow) {handle : Handle}
    {build : FilterBuild} (hwf : build.tree.WellFormed) (hfits : handle.Fits build.tree)
    (event : Event) :
  Grows build.tree (rest.run handle (build.report event)).tree
  := by
  simpa using hrest handle (build.report event) (by simpa) (by simpa)

theorem makesGrow (script : FilterScript) :
  script.MakesGrow
  := by
  -- A call grows the tree in one step; the rest of the script runs on what it leaves.
  induction script with
  | done => exact fun _ _ _ _ => Grows.refl _
  | leaf leaf next rest hnext hrest =>
    apply makesGrow_of_going
    intro handle build hgoing hwf hfits
    rw [run]
    split
    · next id hscope =>
      apply hnext.put hrest hgoing hwf hfits hscope leaf.isLoose_kind
      show build.tree.size < _
      rw [size_addNode]
      omega
    · apply hrest.afterReport hwf hfits _
  | scope opened next rest hnext hrest =>
    apply makesGrow_of_going
    intro handle build hgoing hwf hfits
    rw [run]
    split
    · next id hscope =>
      apply hnext.put hrest hgoing hwf hfits hscope opened.isLoose_kind
      apply takes_addNode opened.kind_ne_fragment
    · apply hrest.afterReport hwf hfits _
  | nested field body next rest hbody hnext hrest =>
    apply makesGrow_of_going
    intro handle build hgoing hwf hfits
    rw [run]
    split
    · next id hscope =>
      have hid := hfits.takes hwf hscope
      have hstep := Step.node hid (NodeKind.isLoose_ofNested field)
      have hgrow := FilterBuild.tree_report_grow hgoing (·.addNode id (.ofNested field))
        (.entered "nested" build.tree.size)
      have hinner := hbody.body hwf (hgrow ▸ hstep.grows)
        (hgrow ▸ takes_addNode (NodeKind.ofNested_ne_fragment field)) (.node "nested" id)
      apply hnext.andThen hrest hwf hfits hinner.1
      apply hinner.1.takes hwf hid
    · apply hrest.afterReport hwf hfits _
  | chain connective body next rest hbody hnext hrest =>
    apply makesGrow_of_going
    intro handle build hgoing hwf hfits
    rw [run]
    split
    · next id hscope =>
      have hstep := Step.chain connective (hfits.takes hwf hscope)
      have hgrow := FilterBuild.tree_report_grow hgoing (·.addChain id connective)
        (.entered connective.key build.tree.size)
      have hwf' := hstep.wellFormed hwf
      have hchild : (build.tree.addChain id connective).value.Takes build.tree.size :=
        takes_addChain
      have hinner := hbody.body hwf (hgrow ▸ hstep.grows) (hgrow ▸ hchild)
        (.node connective.key build.tree.size)
      apply hnext.andThen hrest hwf hfits hinner.1
      apply hinner.2.takes (hgrow ▸ hwf') (hgrow ▸ hchild)
    · apply hrest.afterReport hwf hfits _
  | bool next rest hnext hrest =>
    apply makesGrow_of_going
    intro handle build hgoing hwf hfits
    rw [run]
    split
    · next id hscope =>
      have hstep := Step.bool (hfits.takes hwf hscope)
      have hgrow := FilterBuild.tree_report_grow hgoing (·.addBool id)
        (.node "bool" build.tree.size)
      apply hnext.andThen hrest hwf hfits
      · apply hgrow ▸ hstep.grows
      · refine ⟨build.tree.size, ?_, Or.inl rfl⟩
        rw [hgrow, kind?_addBool, if_pos rfl]
    · apply hrest.afterReport hwf hfits _
  | clause part body next rest hbody hnext hrest =>
    intro handle build hwf hfits
    cases handle with
    | bool own clauses =>
      rw [run]
      have hclause := hwf.takes_clause hfits part
      have hentered :
          Grows build.tree (build.report (.entered part.key (clauses.get part))).tree := by
        rw [FilterBuild.tree_report]
        apply Grows.refl _
      have hinner := hbody.body hwf hentered (by simpa using hclause)
        (.node part.key (clauses.get part))
      apply hnext.andThen hrest hwf hfits hinner.1
      obtain ⟨bool, hbool, -⟩ := hfits
      exact ⟨bool, hinner.1.kind?_bool hwf hbool, Or.inr ⟨part, rfl⟩⟩
    | leaf _ | scope _ => apply hrest.afterReport hwf hfits _
  | back next rest hnext hrest =>
    intro handle build hwf hfits
    have hrest' : ∀ {left : FilterBuild}, Grows build.tree left.tree →
        Grows build.tree (rest.run handle left).tree := fun h =>
      h.trans (hrest _ _ (h.wellFormed hwf) (hfits.of_grows hwf h))
    cases hroot : build.tree.familyRootAround handle.id with
    | error error =>
      have hfail : Grows build.tree (build.fail "back" error).tree := by
        rw [FilterBuild.tree_fail]
        apply Grows.refl
      cases handle with
      | leaf _ => simpa only [run, hroot] using hfail
      | scope _ | bool _ _ => simpa only [run, hroot] using hrest' hfail
    | ok familyRoot =>
      have hnew : Handle.Fits build.tree (.scope familyRoot) := hwf.takes_familyRootAround hroot
      have hback := hnext.afterReport hwf hnew (.node "back" familyRoot)
      cases handle with
      | leaf _ => simpa only [run, hroot] using hback
      | scope _ | bool _ _ => simpa only [run, hroot] using hrest' hback
  | asBool next rest hnext hrest =>
    intro handle build hwf hfits
    cases hscope : handle.scope? with
    | none =>
      simp only [run, hscope]
      apply hrest.afterReport hwf hfits
    | some id =>
      cases hclauses : build.tree.clausesOf? id with
      | none =>
        simp only [run, hscope, hclauses]
        apply hrest.afterReport hwf hfits
      | some clauses =>
        have hnew : Handle.Fits build.tree (.bool id clauses) := hwf.inBool_of_clausesOf? hclauses
        have hgrows := hnext.afterReport hwf hnew (.node "as_bool" id)
        simp only [run, hscope, hclauses]
        apply hgrows.trans (hrest _ _ (hgrows.wellFormed hwf) (hfits.of_grows hwf hgrows))
  | number rest hrest | compose rest hrest | toText rest hrest | unknown name rest hrest =>
    intro handle build hwf hfits
    apply hrest.afterReport hwf hfits _

end FilterScript

namespace FilterTree

theorem Reachable.wellFormed {tree : FilterTree} (h : tree.Reachable) :
  tree.WellFormed
  := by
  induction h with
  | empty => apply wellFormed_empty
  | run script transcript strict _ ih =>
    have hroot : Handle.Fits _ (.scope root) := ⟨_, ih.kind_root, by simp⟩
    apply (script.makesGrow _ (.start _ transcript strict) ih hroot).wellFormed ih

/-- A tree that scripts build is well formed, and every node but the top scope stands below one
older node, which lists it once and which alone lists it. -/
theorem Reachable.wellFormed_and_listed_once {tree : FilterTree} (h : tree.Reachable) :
  tree.WellFormed
    ∧ ∀ id, 0 < id → id < tree.size →
      ∃ parent < id, tree.parent id = .ok (some parent)
        ∧ (tree.childrenOf parent).count id = 1
        ∧ ∀ other, other ≠ parent → id ∉ tree.childrenOf other
  := by
  have hwf := h.wellFormed
  use hwf
  intro id hpos hlt
  obtain ⟨parent, hparent, hlink⟩ := hwf.parent_lt hpos hlt
  refine ⟨parent, hparent, ?_, ?_, ?_⟩
  · rw [parent_eq hlt, hlink]
  · apply List.count_eq_one_of_mem hwf.nodup_childrenOf (hwf.mem_childrenOf.mpr hlink)
  · intro other hne hmem
    have hother := hwf.mem_childrenOf.mp hmem
    rw [hlink, Option.some.injEq] at hother
    apply hne hother.symm

/-- A script for a bool filter of which one clause holds two or-filters that make one chain. -/
def twoOrsInMust : FilterScript :=
  .bool (.clause .must
    (.chain .or (.leaf .matchAll .done .done)
      (.chain .or (.leaf (.first 3) .done .done) .done .done) .done)
    .done .done) .done

/-- The tree that the script builds. -/
def treeOfOrs : FilterTree :=
  (twoOrsInMust.run (.scope root) (.start .empty .empty false)).tree

theorem reachable_treeOfOrs :
  treeOfOrs.Reachable
  := .run twoOrsInMust .empty false .empty

theorem wellFormed_and_listed_once_treeOfOrs :
  treeOfOrs.WellFormed ∧ ∃ parent < 7, treeOfOrs.parent 7 = .ok (some parent)
  := by
  obtain ⟨hwf, hlisted⟩ := reachable_treeOfOrs.wellFormed_and_listed_once
  obtain ⟨parent, hlt, hparent, -⟩ := hlisted 7 (by decide) (by decide)
  exact ⟨hwf, parent, hlt, hparent⟩

end FilterTree

end FilteredSearch
