import FilteredSearch.Proofs.FilterScript.Transcripts
import FilteredSearch.Proofs.FilterTree.Failures
import FilteredSearch.Proofs.Json.Plain

/-!
# Trees of plain values

Callers give documents to the leaves of a tree and to the scopes that they compose themselves.  If
these are plain, then so is every document that a node composes to: field paths and the words of
the format only ever stand in names and strings.
-/

namespace FilteredSearch

/-! ### What callers give -/

/-- The values given to the leaf are plain. -/
def Leaf.IsPlain : Leaf → Prop
  | .term _ value | .equals _ value | .bound _ _ value | .raw value => value.IsPlain
  | .terms _ values | .ids values => ∀ value ∈ values, value.IsPlain
  | .range _ bounds => ∀ limit value, bounds.value limit = some value → value.IsPlain
  | .regExp _ _ | .startsWith _ _ | .fieldExists _ | .fieldMissing _ | .matchAll | .first _ => True

/-- From plain documents the caller composes plain documents. -/
def Composer.IsPlain (composer : Composer) : Prop :=
  ∀ site, (∀ document, .ok document ∈ site.parts → document.IsPlain) →
    ∀ document, composer site = .ok document → document.IsPlain

/-- A scope that a caller composes gives plain documents. -/
def Scope.IsPlain : Scope → Prop
  | .custom composer => Composer.IsPlain composer
  | .wrap | .negation => True

/-- The script puts only plain leaves and scopes into a tree. -/
def FilterScript.IsPlain (script : FilterScript) : Prop :=
  script.Every Leaf.IsPlain Scope.IsPlain

/-- What the node was given is plain. -/
def NodeKind.IsPlain : NodeKind → Prop
  | .fragment document => document.IsPlain
  | .custom composer => Composer.IsPlain composer
  | _ => True

theorem Bounds.isPlain_toJson {bounds : Bounds}
    (h : ∀ limit value, bounds.value limit = some value → value.IsPlain) :
  bounds.toJson.IsPlain
  := by
  rw [Bounds.toJson_eq]
  apply Json.IsPlain.ofMembers
  intro member hmember
  obtain ⟨limit, -, hlimit⟩ := List.mem_filterMap.mp hmember
  obtain ⟨value, hvalue, rfl⟩ := Option.map_eq_some_iff.mp hlimit
  apply h limit value hvalue

namespace Leaf

variable {field : Accessor} {test : String} {value document : Json}

theorem isPlain_of_onField (hvalue : value.IsPlain) (h : onField test field value = .ok document) :
  document.IsPlain
  := by
  obtain ⟨path, -, h⟩ := Results.bind_eq_ok_iff.mp h
  obtain rfl := Except.ok.inj h
  apply (hvalue.singleton path.dotted).singleton test

theorem isPlain_of_ofField (h : ofField test field = .ok document) :
  document.IsPlain
  := by
  obtain ⟨path, -, h⟩ := Results.bind_eq_ok_iff.mp h
  obtain rfl := Except.ok.inj h
  apply ((Json.IsPlain.string path.dotted).singleton "field").singleton test

/-- A leaf with plain values composes to a plain document. -/
theorem IsPlain.of_fragment {leaf : Leaf} (h : leaf.IsPlain) (hfragment : leaf.fragment = .ok document) :
  document.IsPlain
  := by
  cases leaf with
  | term _ value | equals _ value => exact isPlain_of_onField h hfragment
  | terms _ values => exact isPlain_of_onField (.array h) hfragment
  | range _ bounds => exact isPlain_of_onField (Bounds.isPlain_toJson h) hfragment
  | bound limit _ value =>
    refine isPlain_of_onField (Bounds.isPlain_toJson ?_) hfragment
    intro other given hgiven
    by_cases heq : other = limit
    · rw [heq, Bounds.value_set_self, Option.some.injEq] at hgiven
      exact hgiven ▸ h
    · rw [Bounds.value_set_of_ne _ _ heq, Bounds.value_unbounded] at hgiven
      cases hgiven
  | regExp _ pattern => exact isPlain_of_onField (.string pattern) hfragment
  | startsWith _ text => exact isPlain_of_onField (.string text) hfragment
  | fieldExists _ | fieldMissing _ => exact isPlain_of_ofField hfragment
  | ids values =>
    obtain rfl := Except.ok.inj hfragment
    exact (Json.IsPlain.array h).singleton "values"
  | matchAll =>
    obtain rfl := Except.ok.inj hfragment
    exact (Json.IsPlain.string "").singleton "match_all"
  | first amount =>
    obtain rfl := Except.ok.inj hfragment
    exact (Json.IsPlain.ofUInt64 amount).singleton "value"
  | raw given =>
    obtain rfl := Except.ok.inj hfragment
    exact h

theorem IsPlain.isPlain_kind {leaf : Leaf} (h : leaf.IsPlain) :
  leaf.kind.IsPlain
  := by
  rw [kind]
  cases hfragment : leaf.fragment with
  | ok document => exact h.of_fragment hfragment
  | error fault => trivial

end Leaf

theorem Scope.IsPlain.isPlain_kind {scope : Scope} (h : scope.IsPlain) :
  scope.kind.IsPlain
  := by
  cases scope with
  | custom composer => exact h
  | wrap | negation => trivial

theorem NodeKind.isPlain_ofNested (field : Accessor) :
  (NodeKind.ofNested field).IsPlain
  := by
  rw [ofNested]
  cases FieldPath.resolve field <;> trivial

/-! ### Trees -/

namespace FilterTree

variable {tree : FilterTree} {id : Nat} {document : Json}

/-- What every node of the tree was given is plain. -/
def IsPlain (tree : FilterTree) : Prop := ∀ id kind, tree.kind? id = some kind → kind.IsPlain

theorem IsPlain.append {kind : NodeKind} (h : tree.IsPlain) (hkind : kind.IsPlain) (parent : Nat) :
  (tree.append parent kind).IsPlain
  := by
  intro id other hk
  rw [kind?_append] at hk
  split at hk
  · obtain rfl := Option.some.inj hk
    apply hkind
  · apply h id other hk

theorem IsPlain.addCondition (h : tree.IsPlain) (chainRoot condition : Nat) :
  (tree.addCondition chainRoot condition).IsPlain
  := by
  intro id kind hk
  cases kind with
  | chain membership => trivial
  | _ => exact h id _ ((kind?_addCondition_eq_some_iff (by simp)).mp hk)

theorem IsPlain.addChain (h : tree.IsPlain) (parent : Nat) (connective : Connective) :
  (tree.addChain parent connective).value.IsPlain
  := by
  have hchain : ∀ membership, (NodeKind.chain membership).IsPlain := fun _ => trivial
  rw [value_addChain]
  exact (h.append (hchain _) parent).addCondition _ _

theorem IsPlain.addBool (h : tree.IsPlain) (parent : Nat) :
  (tree.addBool parent).value.IsPlain
  := by
  have hbool : (NodeKind.bool tree.nextClauses).IsPlain := trivial
  have hclause : ∀ part, (NodeKind.clause tree.size part).IsPlain := fun _ => trivial
  rw [value_addBool]
  exact (((h.append hbool _).append (hclause _) _).append (hclause _) _).append (hclause _) _

theorem isPlain_empty :
  FilterTree.empty.IsPlain
  := by
  intro id kind hk
  rw [kind?_empty] at hk
  split at hk
  · obtain rfl := Option.some.inj hk
    trivial
  · cases hk

/-- The trees that plain scripts build, one after the other, from the tree with nothing in it.  Each
script is run on a handle that can be held by then, so a script may also be a row of calls out of
the middle of another. -/
inductive PlainlyBuilt : FilterTree → Prop
  | empty : PlainlyBuilt FilterTree.empty
  | run {tree : FilterTree} {script : FilterScript} (hscript : script.IsPlain) {handle : Handle}
    (hfits : handle.Fits tree) (transcript : Transcript) (strict : Bool)
    (htree : PlainlyBuilt tree) :
    PlainlyBuilt (script.run handle (.start tree transcript strict)).tree

theorem PlainlyBuilt.wellFormed (h : tree.PlainlyBuilt) :
  tree.WellFormed
  := by
  induction h with
  | empty => apply wellFormed_empty
  | @run tree script _ handle hfits transcript strict _ ih =>
    apply (script.makesGrow handle (.start tree transcript strict) ih hfits).wellFormed ih

/-- A plain script on the top scope of a tree that plain scripts build, builds another one. -/
theorem PlainlyBuilt.run_root (h : tree.PlainlyBuilt) {script : FilterScript}
    (hscript : script.IsPlain) (transcript : Transcript) (strict : Bool) :
  (script.run (.scope root) (.start tree transcript strict)).tree.PlainlyBuilt
  := by
  have hroot : Handle.Fits tree (.scope root) := ⟨_, h.wellFormed.kind_root, by simp⟩
  apply h.run hscript hroot

end FilterTree

theorem FilterBuild.isPlain_grow {build : FilterBuild} {attach : FilterTree → Logged FilterTree}
    (h : build.tree.IsPlain) (hattach : (attach build.tree).value.IsPlain) :
  (build.grow attach).tree.IsPlain
  := by
  rw [grow]
  split
  · apply h
  · apply hattach

/-- A plain script keeps a tree plain. -/
theorem FilterScript.IsPlain.isPlain_run {script : FilterScript} (hscript : script.IsPlain)
    (handle : Handle) {build : FilterBuild} (h : build.tree.IsPlain) :
  (script.run handle build).tree.IsPlain
  := by
  refine run_keeps_of_every (fun build => build.tree.IsPlain) ?_ ?_ ?_ ?_ ?_ ?_ ?_ script hscript
    handle h
  · intro build h event
    rwa [FilterBuild.tree_report]
  · intro build h call error
    rwa [FilterBuild.tree_fail]
  · intro build test h htest parent
    exact FilterBuild.isPlain_grow h (h.append htest.isPlain_kind parent)
  · intro build opened h hopened parent
    exact FilterBuild.isPlain_grow h (h.append hopened.isPlain_kind parent)
  · intro build h parent field
    exact FilterBuild.isPlain_grow h (h.append (NodeKind.isPlain_ofNested field) parent)
  · intro build h parent connective
    exact FilterBuild.isPlain_grow h (h.addChain parent connective)
  · intro build h parent
    exact FilterBuild.isPlain_grow h (h.addBool parent)

namespace FilterTree

variable {tree : FilterTree} {id : Nat} {document : Json}

theorem PlainlyBuilt.isPlain (h : tree.PlainlyBuilt) :
  tree.IsPlain
  := by
  induction h with
  | empty => exact isPlain_empty
  | run hscript _ _ _ _ ih => exact hscript.isPlain_run _ ih

/-! ### What nodes compose to -/

/-- What a slot holds is what a child in it composes to. -/
theorem exists_mem_of_composeSole? {compose : Nat → Except SearchError Json} {slot : List Nat}
    (h : composeSole? compose slot = .ok (some document)) :
  ∃ child ∈ slot, compose child = .ok document
  := by
  cases slotGives_iff.mpr h with
  | @document filter document hslot hfilter =>
    exact ⟨filter, hslot ▸ List.mem_singleton_self filter, hfilter⟩

end FilterTree

/-- The document of a node is plain when those in its slots are. -/
theorem NodeKind.IsPlain.assemble {kind : NodeKind} (h : kind.IsPlain)
    {documents : List (Option Json)}
    (hdocuments : ∀ document, some document ∈ documents → document.IsPlain) :
  (kind.assemble documents).IsPlain
  := by
  have hpresent : ∀ document ∈ documents.filterMap id, document.IsPlain := by
    intro document hdocument
    apply hdocuments
    simpa using hdocument
  have honly := Json.IsPlain.headD hpresent
  cases kind with
  | fragment document => exact h
  | negation => exact honly.singleton "not"
  | nested path =>
    apply Json.IsPlain.singleton
    apply Json.IsPlain.ofMembers
    simp only [List.forall_mem_cons, List.not_mem_nil, false_implies, implies_true, and_true]
    exact ⟨.string path.dotted, honly⟩
  | bool clauses =>
    apply Json.IsPlain.singleton
    apply Json.IsPlain.ofMembers
    intro member hmember
    obtain ⟨⟨clause, document?⟩, hslot, hmember⟩ := List.mem_filterMap.mp hmember
    obtain ⟨document, rfl, rfl⟩ := Option.map_eq_some_iff.mp hmember
    apply hdocuments document (List.of_mem_zip hslot).2
  | chain membership => exact (Json.IsPlain.array hpresent).singleton _
  | scope | faulty _ | custom _ | clause _ _ => exact honly

namespace FilterTree

variable {tree : FilterTree} {id : Nat} {document : Json}

/-- What a node of a plain tree composes to is plain. -/
theorem IsPlain.of_composeAt (h : tree.IsPlain) (hwf : tree.WellFormed) (hid : id < tree.size)
    (hdocument : tree.composeAt id = .ok document) :
  document.IsPlain
  := by
  induction id, hid using tree.laterInduction generalizing document with
  | node id hid ih =>
    obtain ⟨kind, hk⟩ := exists_kind?_of_lt hid
    by_cases hkind : kind.IsCustom
    · obtain ⟨composer, rfl⟩ := hkind.exists_composer
      rw [composeAt_custom hk] at hdocument
      refine h id _ hk _ ?_ document hdocument
      intro part hpart
      obtain ⟨child, hchild, hcomposed⟩ := List.mem_map.mp hpart
      have hparent := hwf.mem_childrenOf.mp hchild
      have hlt := hwf.parent_lt_child hparent
      rw [composeAfter, if_pos hlt] at hcomposed
      apply ih child hlt (lt_size_of_parent? hparent) hcomposed
    · rw [composeAt_eq hwf hk hkind] at hdocument
      cases hobstacle : tree.obstacle? id kind with
      | some error => simp [hobstacle] at hdocument
      | none =>
        simp only [hobstacle, Results.map_eq_ok_iff] at hdocument
        obtain ⟨documents, hslots, rfl⟩ := hdocument
        apply (h id kind hk).assemble
        intro held hheld
        obtain ⟨slot, hslot, hcomposed⟩ := Results.exists_of_mem_mapM hslots hheld
        obtain ⟨child, hchild, hcomposed⟩ := exists_mem_of_composeSole? hcomposed
        have hcalls := calls_of_mem_slot hwf hk hslot hchild
        apply ih child (hcalls.lt hwf) hcalls.lt_size hcomposed

end FilterTree

end FilteredSearch
