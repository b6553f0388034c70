import FilteredSearch.Proofs.FilterTree.Reachable
import FilteredSearch.Proofs.FilterTree.Slots

/-!
# Members of a chain

A chain is seen in two ways: as the nodes that list themselves with a root when they are put into
the tree, and as the nodes that are reached from the root through children that are and-filters
or or-filters alike.  In a tree that scripts build the two views agree, so the document of a
chain has one entry for every filter below the chain, in the order of its conditions, and no
filter that the chain should have taken up stands in it as a filter of its own.
-/

namespace FilteredSearch

namespace FilterTree

/-- The node is reached from the root of a chain through children with the connective. -/
inductive ChainPath (tree : FilterTree) (connective : Connective) (chainRoot : Nat) : Nat → Prop
  | root : ChainPath tree connective chainRoot chainRoot
  | child {parent id : Nat} {otherRoot : Nat} (hpath : ChainPath tree connective chainRoot parent)
    (hchild : id ∈ tree.childrenOf parent) (hid : tree.InChain connective otherRoot id) :
    ChainPath tree connective chainRoot id

open Classical in
/-- The children of a node that are not reached from the root of a chain. -/
noncomputable def unreached (tree : FilterTree) (connective : Connective) (chainRoot id : Nat) :
    List Nat :=
  (tree.childrenOf id).filter fun child => ¬tree.ChainPath connective chainRoot child

/-- What a member adds to the document of its chain, or the error with which it fails. -/
inductive Adds (tree : FilterTree) (connective : Connective) (chainRoot member : Nat) :
    Except SearchError (Option Json) → Prop
  | nothing (hfilters : tree.unreached connective chainRoot member = []) :
    Adds tree connective chainRoot member (.ok none)
  | document {filter : Nat} {document : Json}
    (hfilters : tree.unreached connective chainRoot member = [filter])
    (hfilter : tree.composeAt filter = .ok document) :
    Adds tree connective chainRoot member (.ok (some document))
  | failure {filter : Nat} {error : SearchError}
    (hfilters : tree.unreached connective chainRoot member = [filter])
    (hfilter : tree.composeAt filter = .error error) :
    Adds tree connective chainRoot member (.error error)
  | overfull (hfilters : 2 ≤ (tree.unreached connective chainRoot member).length) :
    Adds tree connective chainRoot member
      (.error (.tooManyFilters 1 (tree.unreached connective chainRoot member).length))

variable {tree : FilterTree} {connective : Connective} {chainRoot id member : Nat}

/-! ### The two views of a chain -/

theorem ChainPath.of_inChain (hwf : tree.WellFormed) (hid : tree.InChain connective chainRoot id) :
  tree.ChainPath connective chainRoot id
  := by
  induction id using Nat.strongRecOn with
  | ind id ih =>
    by_cases hroot : id = chainRoot
    · subst hroot
      exact .root
    · obtain ⟨parent, hparent, hin⟩ := hwf.parent_inChain hid hroot
      exact .child (ih parent (hwf.parent_lt_child hparent) hin) (hwf.mem_childrenOf.mpr hparent)
        hid

/-- A child with the connective of its parent is in the chain of its parent. -/
theorem WellFormed.inChain_of_child {otherRoot child : Nat} (hwf : tree.WellFormed)
    (hid : tree.InChain connective chainRoot id) (hchild : child ∈ tree.childrenOf id)
    (hin : tree.InChain connective otherRoot child) :
  tree.InChain connective chainRoot child
  := by
  have hparent := hwf.mem_childrenOf.mp hchild
  have hne : child ≠ otherRoot := by
    rintro rfl
    apply hwf.parent_not_inChain hin hparent chainRoot hid
  obtain ⟨parent, hparent', hin'⟩ := hwf.parent_inChain hin hne
  obtain rfl : id = parent := by simpa [hparent] using hparent'
  rw [(hid.unique hin').2]
  apply hin

theorem ChainPath.inChain (hwf : tree.WellFormed)
    (hroot : tree.InChain connective chainRoot chainRoot)
    (hid : tree.ChainPath connective chainRoot id) :
  tree.InChain connective chainRoot id
  := by
  induction hid with
  | root => apply hroot
  | child _ hchild hin ih => apply hwf.inChain_of_child ih hchild hin

theorem inChain_iff_chainPath (hwf : tree.WellFormed)
    (hroot : tree.InChain connective chainRoot chainRoot) :
  tree.InChain connective chainRoot id ↔ tree.ChainPath connective chainRoot id
  := ⟨ChainPath.of_inChain hwf, ChainPath.inChain hwf hroot⟩

/-- The children that a member does not share with its chain are those that the chain does not
reach. -/
theorem outsiders_eq_unreached (hwf : tree.WellFormed) {conditions : List Nat}
    (hroot : tree.InChain connective chainRoot chainRoot) :
  tree.outsiders ⟨connective, chainRoot, conditions⟩ id = tree.unreached connective chainRoot id
  := by
  apply List.filter_congr
  intro child _
  have hmember : tree.isMember ⟨connective, chainRoot, conditions⟩ child = true
      ↔ tree.InChain connective chainRoot child := isMember_iff
  rw [inChain_iff_chainPath hwf hroot] at hmember
  simp [← hmember]

theorem mem_unreached {filter : Nat} :
  filter ∈ tree.unreached connective chainRoot id
    ↔ filter ∈ tree.childrenOf id ∧ ¬tree.ChainPath connective chainRoot filter
  := by
  simp [unreached]

/-! ### The document of a chain -/

theorem adds_iff (hwf : tree.WellFormed) {conditions : List Nat}
    (hroot : tree.InChain connective chainRoot chainRoot)
    {result : Except SearchError (Option Json)} :
  tree.Adds connective chainRoot member result
    ↔ composeSole? tree.composeAt (tree.outsiders ⟨connective, chainRoot, conditions⟩ member)
      = result
  := by
  rw [outsiders_eq_unreached hwf hroot, ← slotGives_iff]
  constructor
  · intro h
    cases h with
    | nothing hfilters => exact .nothing hfilters
    | document hfilters hfilter => exact .document hfilters hfilter
    | failure hfilters hfilter => exact .failure hfilters hfilter
    | overfull hfilters => exact .overfull hfilters
  · intro h
    cases h with
    | nothing hfilters => exact .nothing hfilters
    | document hfilters hfilter => exact .document hfilters hfilter
    | failure hfilters hfilter => exact .failure hfilters hfilter
    | overfull hfilters => exact .overfull hfilters

theorem composeAt_chainRoot (hwf : tree.WellFormed) {conditions : List Nat}
    (hk : tree.kind? chainRoot = some (.chain ⟨connective, chainRoot, conditions⟩)) :
  tree.composeAt chainRoot
    = (conditions.mapM fun member =>
        composeSole? tree.composeAt (tree.outsiders ⟨connective, chainRoot, conditions⟩ member)).map
        fun added => .singleton connective.key (.array added.reduceOption)
  := by
  simp only [composeAt_eq hwf hk (fun h => h), obstacle?, slots, if_true, List.mapM_map]
  rfl

/-- In a tree that scripts build, the members of a chain are the nodes that its root reaches
through children with its connective.  The root composes to one array, in which the members
stand in the order in which they were put into the tree, each with the document of its only
child outside the chain, and those without such a child are left out.  It fails with the error
of the first member that fails, and no child outside the chain could have joined it. -/
theorem composeAt_chainRoot_iff (h : tree.Reachable)
    (hroot : tree.InChain connective chainRoot chainRoot) :
  (∀ id, tree.InChain connective chainRoot id ↔ tree.ChainPath connective chainRoot id)
    ∧ ∃ members : List Nat, members.Pairwise (· < ·)
      ∧ (∀ id, id ∈ members ↔ tree.ChainPath connective chainRoot id)
      ∧ (∀ document, tree.composeAt chainRoot = .ok document ↔
          ∃ added : List (Option Json),
            List.Forall₂ (fun member document? =>
              tree.Adds connective chainRoot member (.ok document?)) members added
            ∧ document = .singleton connective.key (.array added.reduceOption))
      ∧ (∀ error, tree.composeAt chainRoot = .error error ↔
          ∃ before member after, members = before ++ member :: after
            ∧ (∀ earlier ∈ before, ∃ document?,
              tree.Adds connective chainRoot earlier (.ok document?))
            ∧ tree.Adds connective chainRoot member (.error error))
      ∧ ∀ member ∈ members, ∀ filter ∈ tree.unreached connective chainRoot member,
          ∀ otherRoot, ¬tree.InChain connective otherRoot filter
  := by
  have hwf := h.wellFormed
  have hpath : ∀ id,
      tree.InChain connective chainRoot id ↔ tree.ChainPath connective chainRoot id := fun _ =>
    inChain_iff_chainPath hwf hroot
  obtain ⟨conditions, hk⟩ := hroot
  refine ⟨hpath, conditions, hwf.conditions_ascending hk, ?_, ?_, ?_, ?_⟩
  · intro id
    rw [hwf.mem_conditions hk, hpath]
  · intro document
    rw [composeAt_chainRoot hwf hk, Results.map_eq_ok_iff]
    simp only [Results.mapM_eq_ok_iff, ← adds_iff hwf ⟨conditions, hk⟩]
  · intro error
    rw [composeAt_chainRoot hwf hk, Results.map_eq_error_iff, Results.mapM_eq_error_iff]
    simp only [← adds_iff hwf ⟨conditions, hk⟩]
  · intro member hmember filter hfilter otherRoot hin
    obtain ⟨hchild, hnot⟩ := mem_unreached.mp hfilter
    have hin' := hwf.inChain_of_child ((hwf.mem_conditions hk).mp hmember) hchild hin
    apply hnot ((hpath filter).mp hin')

theorem inChain_treeOfOrs :
  treeOfOrs.InChain .or 5 5
  := ⟨[5, 7], rfl⟩

theorem composeAt_chainRoot_iff_treeOfOrs :
  treeOfOrs.InChain .or 5 5 ∧ treeOfOrs.ChainPath .or 5 7
  := by
  obtain ⟨hmembers, -⟩ := composeAt_chainRoot_iff reachable_treeOfOrs inChain_treeOfOrs
  exact ⟨inChain_treeOfOrs, (hmembers 7).mp ⟨[], rfl⟩⟩

end FilterTree

end FilteredSearch
