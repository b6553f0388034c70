import FilteredSearch.Proofs.FilterScript.Moved
import FilteredSearch.Proofs.FilterTree.Bools
import FilteredSearch.Proofs.FilterTree.Enclosing

/-!
# Handles on bool filters

A handle on a bool filter, or on one of its clauses, carries the numbers of all three clauses.  It
is passed on from member to member, taken again after the way back, and kept while the tree grows,
and the numbers stay those of the clauses that came into the tree with the bool filter.  So what is
called on any of these handles configures the clauses of its own family, and the bool filter
composes just what these hold.
-/

namespace FilteredSearch

open FilterTree

namespace FilterTree

/-- The clauses are the nodes that were put into the tree with the bool filter. -/
structure OwnClauses (tree : FilterTree) (bool : Nat) (clauses : Clauses) : Prop where
  kind_bool : tree.kind? bool = some (.bool clauses)
  /-- The clauses are the three nodes after the bool filter. -/
  clauses_eq : clauses = ⟨bool + 1, bool + 2, bool + 3⟩
  /-- They were put below the bool filter. -/
  parent_clause : ∀ part, tree.parent? (clauses.get part) = some bool
  /-- No other node is a clause of the bool filter. -/
  kind_clause : ∀ {id part}, tree.kind? id = some (.clause bool part) ↔ clauses.get part = id

variable {tree : FilterTree} {id bool : Nat} {clauses : Clauses}

theorem WellFormed.ownClauses (hwf : tree.WellFormed)
    (hk : tree.kind? bool = some (.bool clauses)) :
  tree.OwnClauses bool clauses
  where
  kind_bool := hk
  clauses_eq := hwf.clauses_eq hk
  parent_clause part := by
    have hpart : tree.kind? (clauses.get part) = some (.clause bool part) :=
      hwf.clause_iff.mpr ⟨clauses, hk, rfl⟩
    apply hwf.parent_clause hpart
  kind_clause := by
    intro id part
    rw [hwf.clause_iff]
    constructor
    · rintro ⟨own, hown, hget⟩
      rw [hk] at hown
      cases hown
      exact hget
    · intro hget
      exact ⟨clauses, hk, hget⟩

/-- A node of a bool filter with the clauses belongs to the family of the bool filter. -/
theorem InBool.exists_inFamily (hwf : tree.WellFormed) (h : tree.InBool clauses id) :
  ∃ familyRoot, tree.InFamily id .bool familyRoot ∧ tree.OwnClauses familyRoot clauses
  := by
  obtain ⟨familyRoot, hk, rfl | ⟨part, rfl⟩⟩ := h
  · use id
    constructor
    · apply InFamily.bool hk
    · apply hwf.ownClauses hk
  · use familyRoot
    have hown := hwf.ownClauses hk
    constructor
    · apply InFamily.clause (hown.kind_clause.mpr rfl)
    · apply hown

end FilterTree

namespace Handle

/-! ### Handles that can be held -/

/-- A call on the handle gives a further handle, on the tree that the call leaves or the one in
which it configures a scope. -/
inductive Gives (tree : FilterTree) (handle : Handle) : FilterTree → Handle → Prop where
  | leaf {id : Nat} (test : Leaf) (hscope : handle.scope? = some id) :
    Gives tree handle (tree.addNode id test.kind).value (.leaf tree.size)
  | scope {id : Nat} (opened : Scope) (hscope : handle.scope? = some id) :
    Gives tree handle (tree.addNode id opened.kind).value (.scope tree.size)
  | nested {id : Nat} (field : Accessor) (hscope : handle.scope? = some id) :
    Gives tree handle (tree.addNode id (.ofNested field)).value (.scope tree.size)
  /-- The call that configures a scope for nested documents gives the handle that it is made on. -/
  | receiver {id : Nat} (hscope : handle.scope? = some id) : Gives tree handle tree (.scope id)
  | chain {id : Nat} (connective : Connective) (hscope : handle.scope? = some id) :
    Gives tree handle (tree.addChain id connective).value (.scope tree.size)
  | bool {id : Nat} (hscope : handle.scope? = some id) :
    Gives tree handle (tree.addBool id).value (.bool tree.size tree.nextClauses)
  /-- The body of a call for a clause has a handle on the clause. -/
  | body {id : Nat} {clauses : Clauses} (part : Clause) (hhandle : handle = .bool id clauses) :
    Gives tree handle tree (.scope (clauses.get part))
  /-- The call for a clause gives a handle on the clause that knows all three. -/
  | clause {id : Nat} {clauses : Clauses} (part : Clause) (hhandle : handle = .bool id clauses) :
    Gives tree handle tree (.bool (clauses.get part) clauses)
  | back {familyRoot : Nat} (hroot : tree.familyRootAround handle.id = .ok familyRoot) :
    Gives tree handle tree (.scope familyRoot)
  | asBool {id : Nat} {clauses : Clauses} (hscope : handle.scope? = some id)
    (hclauses : tree.clausesOf? id = some clauses) :
    Gives tree handle tree (.bool id clauses)

/-- The handle can be held on the tree: it is the one on the top scope, or a call on another one
gave it, and it is kept whatever is called on the others. -/
inductive Held : FilterTree → Handle → Prop where
  | top {tree : FilterTree} (htree : tree.Reachable) : Held tree (.scope root)
  | given {tree tree' : FilterTree} {handle handle' : Handle} (hheld : Held tree handle)
    (hgives : Gives tree handle tree' handle') : Held tree' handle'
  | kept {tree : FilterTree} {handle other : Handle} (hheld : Held tree handle)
    (hother : Held tree other) (script : FilterScript) (transcript : Transcript)
    (strict : Bool) : Held (script.run other (.start tree transcript strict)).tree handle

variable {tree tree' : FilterTree} {handle handle' : Handle}

/-- A call grows the tree, and the handle that it gives fits the grown tree. -/
theorem Gives.grows_and_fits (h : Gives tree handle tree' handle') (hwf : tree.WellFormed)
    (hfits : handle.Fits tree) :
  Grows tree tree' ∧ handle'.Fits tree'
  := by
  cases h with
  | leaf test hscope =>
    constructor
    · apply (Step.node (hfits.takes hwf hscope) test.isLoose_kind).grows
    · show tree.size < _
      simp
  | scope opened hscope =>
    constructor
    · apply (Step.node (hfits.takes hwf hscope) opened.isLoose_kind).grows
    · apply takes_addNode opened.kind_ne_fragment
  | nested field hscope =>
    constructor
    · apply (Step.node (hfits.takes hwf hscope) (NodeKind.isLoose_ofNested field)).grows
    · apply takes_addNode (NodeKind.ofNested_ne_fragment field)
  | receiver hscope =>
    use Grows.refl tree
    apply hfits.takes hwf hscope
  | chain connective hscope =>
    constructor
    · apply (Step.chain connective (hfits.takes hwf hscope)).grows
    · apply takes_addChain
  | bool hscope =>
    constructor
    · apply (Step.bool (hfits.takes hwf hscope)).grows
    · use tree.size
      rw [kind?_addBool, if_pos rfl]
      exact ⟨rfl, Or.inl rfl⟩
  | body part hhandle =>
    subst hhandle
    use Grows.refl tree
    apply hwf.takes_clause hfits part
  | clause part hhandle =>
    subst hhandle
    use Grows.refl tree
    apply hfits.clause part
  | back hroot =>
    use Grows.refl tree
    apply hwf.takes_familyRootAround hroot
  | asBool hscope hclauses =>
    use Grows.refl tree
    apply hwf.inBool_of_clausesOf? hclauses

theorem Held.wellFormed_and_fits (h : Held tree handle) :
  tree.WellFormed ∧ handle.Fits tree
  := by
  induction h with
  | top htree =>
    have hwf := htree.wellFormed
    use hwf
    exact ⟨_, hwf.kind_root, by simp⟩
  | given hheld hgives ih =>
    obtain ⟨hgrows, hfits⟩ := hgives.grows_and_fits ih.1 ih.2
    use hgrows.wellFormed ih.1
  | kept hheld hother script transcript strict ih ihother =>
    have hgrows := script.makesGrow _ (.start _ transcript strict) ih.1 ihother.2
    use hgrows.wellFormed ih.1
    apply ih.2.of_grows ih.1 hgrows

/-- A handle on a member of a bool filter, however it was obtained, knows the clauses that were put
into the tree with the root of the family of its node, and what is called for a clause is run on
that clause.  Every bool filter composes what its own clauses hold. -/
theorem Held.addresses_own_clauses (h : Held tree handle) :
  (∀ id clauses, handle = .bool id clauses → ∃ familyRoot,
    tree.InFamily id .bool familyRoot ∧ tree.OwnClauses familyRoot clauses
      ∧ ∀ part clause, tree.kind? clause = some (.clause familyRoot part) →
        ∀ body next rest transcript strict,
          let entered := (FilterBuild.start tree transcript strict).report
            (.entered part.key clause)
          let configured := (body.run (.scope clause) entered).report (.node part.key clause)
          (FilterScript.clause part body next rest).run handle (.start tree transcript strict)
            = rest.run handle (next.run (.bool clause clauses) configured))
    ∧ ∀ bool clauses, tree.kind? bool = some (.bool clauses) → tree.ComposesClauses bool clauses
  := by
  obtain ⟨hwf, hfits⟩ := h.wellFormed_and_fits
  constructor
  · rintro id clauses rfl
    obtain ⟨familyRoot, hfamily, hown⟩ := InBool.exists_inFamily hwf hfits
    use familyRoot, hfamily, hown
    intro part clause hclause body next rest transcript strict
    obtain rfl := hown.kind_clause.mp hclause
    rfl
  · intro bool clauses hk
    apply hwf.composesClauses hk

/-! ### A handle on another clause -/

/-- The tree with a bool filter of which the must clause holds a leaf. -/
def treeOfMust : FilterTree :=
  ((FilterScript.clause .must (.leaf .matchAll .done .done) .done .done).run (.bool 1 ⟨2, 3, 4⟩)
    (.start (FilterTree.empty.addBool root).value .empty false)).tree

theorem held_bool_treeOfMust :
  Held treeOfMust (.bool 1 ⟨2, 3, 4⟩)
  := by
  have hbool : Held (FilterTree.empty.addBool root).value (.bool 1 ⟨2, 3, 4⟩) :=
    .given (.top .empty) (.bool rfl)
  apply Held.kept hbool hbool

/-- The handle that the must-not clause gave is on the family of the bool filter, which composes
the leaf in its must clause. -/
theorem addresses_own_clauses_mustNot :
  Held treeOfMust (.bool 3 ⟨2, 3, 4⟩) ∧ treeOfMust.InFamily 3 .bool 1
    ∧ treeOfMust.composeAt 1
      = .ok (.singleton "bool" (.record [("must", some (.singleton "match_all" (.string ""))),
          ("must_not", none), ("should", none)]))
  := by
  have hheld : Held treeOfMust (.bool 3 ⟨2, 3, 4⟩) :=
    .given held_bool_treeOfMust (.clause .mustNot rfl)
  have hkind : treeOfMust.kind? 5 = some Leaf.matchAll.kind := rfl
  have hleaf : treeOfMust.composeAt 5 = .ok (.singleton "match_all" (.string "")) :=
    composeAt_eq hheld.wellFormed_and_fits.1 hkind (fun h => h)
  obtain ⟨hhandles, hcomposes⟩ := hheld.addresses_own_clauses
  obtain ⟨familyRoot, hfamily, hown, -⟩ := hhandles 3 ⟨2, 3, 4⟩ rfl
  obtain rfl : 1 = familyRoot := by cases hown.clauses_eq; rfl
  use hheld, hfamily
  rw [(hcomposes 1 ⟨2, 3, 4⟩ rfl).document (by decide)]
  use Clause.rec (some (.singleton "match_all" (.string ""))) none none
  constructor
  · intro part
    cases part with
    | must =>
      have hslot : treeOfMust.childrenOf 2 = [5] := rfl
      exact .document hslot hleaf
    | mustNot | should => exact .nothing rfl
  · rfl

end Handle

end FilteredSearch
