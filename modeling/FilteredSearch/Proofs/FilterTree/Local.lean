import FilteredSearch.Proofs.FilterTree.Fragments
import FilteredSearch.Proofs.FilterTree.Renumbered

/-!
# Building is local

A call that puts something below a node leaves every other node alone that is not above it: such a
node lists the same children and composes to the same as before.  A member that joins a chain is
listed by the root of the chain, which may be far up, but the root is above the member.
-/

namespace FilteredSearch

/-- The script makes one call, which puts something below the node of its handle. -/
inductive FilterScript.PutsOnce : FilterScript → Prop
  | leaf (test : Leaf) : PutsOnce (.leaf test .done .done)
  | scope (opened : Scope) : PutsOnce (.scope opened .done .done)
  | nested (field : Accessor) : PutsOnce (.nested field .done .done .done)
  | chain (connective : Connective) : PutsOnce (.chain connective .done .done .done)
  | bool : PutsOnce (.bool .done .done)

namespace FilterTree

/-- The second tree is the first one with one more child below a node, and what came with it. -/
structure GrowsBelow (scope : Nat) (tree tree' : FilterTree) : Prop where
  size_le : tree.size ≤ tree'.size
  parent?_eq : ∀ id < tree.size, tree'.parent? id = tree.parent? id
  childrenOf_eq : ∀ id < tree.size, tree'.childrenOf id
    = if id = scope then tree.childrenOf id ++ [tree.size] else tree.childrenOf id
  kind?_eq : ∀ id < tree.size, ¬tree.IsOver id scope → tree'.kind? id = tree.kind? id

variable {tree tree' : FilterTree} {scope : Nat} {kind : NodeKind} {connective : Connective}

theorem growsBelow_addNode (hscope : scope < tree.size) :
  GrowsBelow scope tree (tree.addNode scope kind).value
  where
  size_le := by
    rw [size_addNode]
    omega
  parent?_eq id hid := parent?_append.trans (if_neg (Nat.ne_of_lt hid))
  childrenOf_eq _ _ := childrenOf_append hscope
  kind?_eq id hid _ := kind?_append.trans (if_neg (Nat.ne_of_lt hid))

theorem growsBelow_addBool (hscope : scope < tree.size) :
  GrowsBelow scope tree (tree.addBool scope).value
  where
  size_le := by
    rw [size_addBool]
    omega
  parent?_eq id hid := by
    rw [parent?_addBool, if_neg (Nat.ne_of_lt hid), if_neg (by omega)]
  childrenOf_eq id hid := by
    rw [childrenOf_addBool hscope, if_neg (Nat.ne_of_lt hid)]
  kind?_eq id hid _ := by
    rw [kind?_addBool, if_neg (Nat.ne_of_lt hid), if_neg (by omega), if_neg (by omega),
      if_neg (by omega)]

/-- Of the older nodes only the root of the chain of the scope changes, which is over the scope. -/
theorem growsBelow_addChain (hwf : tree.WellFormed) (hscope : scope < tree.size) :
  GrowsBelow scope tree (tree.addChain scope connective).value
  where
  size_le := by
    rw [size_addChain]
    omega
  parent?_eq id hid := by
    rw [parent?_addChain, if_neg (Nat.ne_of_lt hid)]
  childrenOf_eq _ _ := childrenOf_addChain hscope
  kind?_eq := by
    intro id hid hover
    cases hjoin : tree.joinedRoot? scope connective with
    | none => rw [kind?_addChain_of_new hjoin, if_neg (Nat.ne_of_lt hid)]
    | some chainRoot =>
      have hin := joinedRoot?_eq_some_iff.mp hjoin
      obtain ⟨conditions, hroot⟩ := hwf.root_inChain hin
      rw [kind?_addChain_of_joined hjoin hroot, if_neg (Nat.ne_of_lt hid), if_neg]
      rintro rfl
      apply hover (hwf.root_over hin)

/-- What is neither the node nor above it stands unchanged in a tree that grows below the node. -/
theorem GrowsBelow.renumbers (h : GrowsBelow scope tree tree') (hwf : tree.WellFormed) :
  Renumbers id (fun other => ¬tree.IsOver other scope) tree tree'
  where
  injective := Function.injective_id
  kind?_eq := by
    intro other kind hover hk
    rw [NodeKind.renumber_id, id, h.kind?_eq other (lt_size_of_kind? hk) hover, hk]
  childrenOf_eq := by
    intro other hover hother
    rw [List.map_id, id, h.childrenOf_eq other hother, if_neg]
    rintro rfl
    apply hover .refl
  part_child := by
    intro other child hover hchild hbelow
    apply hover (.head (hwf.mem_childrenOf.mp hchild) hbelow)

end FilterTree

/-- A call that puts something below a node makes the tree grow below the node. -/
theorem FilterScript.PutsOnce.growsBelow_run {script : FilterScript} (h : script.PutsOnce)
    {tree : FilterTree} {handle : Handle} {scope : Nat} (hwf : tree.WellFormed)
    (hscope : scope < tree.size) (hhandle : handle.scope? = some scope) (transcript : Transcript)
    (strict : Bool) :
  FilterTree.GrowsBelow scope tree (script.run handle (.start tree transcript strict)).tree
  := by
  have hgoing : (FilterBuild.start tree transcript strict).stopped.isSome = false := rfl
  cases h with
  | leaf test | scope opened =>
    simp only [run, hhandle, FilterBuild.tree_put hgoing]
    apply FilterTree.growsBelow_addNode hscope
  | nested field =>
    simp only [run, hhandle, FilterBuild.tree_report, FilterBuild.tree_grow hgoing]
    apply FilterTree.growsBelow_addNode hscope
  | chain connective =>
    simp only [run, hhandle, FilterBuild.tree_report, FilterBuild.tree_grow hgoing]
    apply FilterTree.growsBelow_addChain hwf hscope
  | bool =>
    simp only [run, hhandle, FilterBuild.tree_report, FilterBuild.tree_grow hgoing]
    apply FilterTree.growsBelow_addBool hscope

namespace FilterTree

/-- In a tree that scripts build without compositions of their own, a call that puts something below
a node leaves every older node alone that is neither the node nor above it: it composes to the same,
and lists the same children.  Every older node keeps its parent, and its children, behind which only
newer ones are put. -/
theorem unchanged_of_putsOnce {tree : FilterTree} (h : tree.Reachable) (hnative : tree.Native)
    {script : FilterScript} (hscript : script.PutsOnce) {handle : Handle} {scope : Nat}
    (hfits : handle.Fits tree) (hhandle : handle.scope? = some scope) (transcript : Transcript)
    (strict : Bool) :
  let tree' := (script.run handle (.start tree transcript strict)).tree
  (∀ id < tree.size, ¬tree.IsOver id scope →
      tree'.composeAt id = tree.composeAt id ∧ tree'.children id = tree.children id
        ∧ tree'.parent id = tree.parent id)
    ∧ ∀ id < tree.size, tree'.parent id = tree.parent id
      ∧ ∃ children news, tree.children id = .ok children
        ∧ tree'.children id = .ok (children ++ news) ∧ ∀ new ∈ news, tree.size ≤ new
  := by
  intro tree'
  have hwf := h.wellFormed
  have hwf' : tree'.WellFormed := (script.makesGrow handle _ hwf hfits).wellFormed hwf
  have hgrows : GrowsBelow scope tree tree' :=
    hscript.growsBelow_run hwf (hfits.takes hwf hhandle).lt_size hhandle transcript strict
  have hparent : ∀ id < tree.size, tree'.parent id = tree.parent id := by
    intro id hid
    rw [parent_eq hid, parent_eq (Nat.lt_of_lt_of_le hid hgrows.size_le), hgrows.parent?_eq id hid]
  constructor
  · intro id hid hover
    refine ⟨(hgrows.renumbers hwf).composeAt_eq hwf hwf' hnative hover hid, ?_, hparent id hid⟩
    have hne : id ≠ scope := by
      rintro rfl
      apply hover .refl
    rw [children_eq hid, children_eq (Nat.lt_of_lt_of_le hid hgrows.size_le),
      hgrows.childrenOf_eq id hid, if_neg hne]
  · intro id hid
    use hparent id hid, tree.childrenOf id, if id = scope then [tree.size] else []
    use children_eq hid
    rw [children_eq (Nat.lt_of_lt_of_le hid hgrows.size_le), hgrows.childrenOf_eq id hid]
    split <;> simp

/-- A further or-filter below the second of the or-filters joins their chain and leaves the filter
beside the second one alone. -/
theorem unchanged_of_putsOnce_treeOfOrs :
  let tree' := (FilterScript.run (.chain .or .done .done .done) (.scope 7)
    (.start treeOfOrs .empty false)).tree
  treeOfOrs.Reachable ∧ treeOfOrs.Native ∧ Handle.Fits treeOfOrs (.scope 7)
    ∧ ¬treeOfOrs.IsOver 6 7 ∧ tree'.composeAt 6 = treeOfOrs.composeAt 6
  := by
  intro tree'
  have hfits : Handle.Fits treeOfOrs (.scope 7) := ⟨.chain ⟨.or, 5, []⟩, rfl, by simp⟩
  have hover : ¬treeOfOrs.IsOver 6 7 := by
    intro hover
    rcases hover.cases_tail with h | ⟨parent, habove, hparent⟩
    · cases h
    · obtain rfl : 5 = parent := Option.some.inj hparent
      have := IsOver.le reachable_treeOfOrs.wellFormed.toLinked habove
      omega
  obtain ⟨hunchanged, -⟩ := unchanged_of_putsOnce reachable_treeOfOrs native_treeOfOrs
    (.chain .or) hfits rfl .empty false
  exact ⟨reachable_treeOfOrs, native_treeOfOrs, hfits, hover,
    (hunchanged 6 (by decide) hover).1⟩

end FilterTree

end FilteredSearch
