import FilteredSearch.Proofs.FilterScript.Transcripts
import FilteredSearch.Proofs.FilterTree.Enclosing
import FilteredSearch.Proofs.FilterTree.Failures

/-!
# Numbers of nodes

A number that a tree stores is that of a node of the tree, so a walk along stored numbers never
comes to a node that is not there.  A tree knows no other numbers: asked about one of these it
fails, with that number.  Whatever is called on a handle on the tree, new nodes are numbered one
after the other and each of them is put below a node that is there by then, as the log tells.
-/

namespace FilteredSearch

theorem SearchError.IsOfFilters.ne_unknownNode {error : SearchError} (h : error.IsOfFilters)
    (number : Nat) :
  error ≠ .unknownNode number
  := by
  cases h <;> simp

namespace FilterTree

variable {tree tree' : FilterTree} {id stored first parent : Nat} {kind : NodeKind}
  {entries : List LogEntry}

/-! ### Stored numbers -/

/-- The node stores the number. -/
inductive Stores (tree : FilterTree) (id : Nat) : Nat → Prop
  | parent {parent : Nat} (hparent : tree.parent? id = some parent) : Stores tree id parent
  | child {child : Nat} (hchild : child ∈ tree.childrenOf id) : Stores tree id child
  /-- A bool filter stores its clauses. -/
  | clause {clauses : Clauses} (hid : tree.kind? id = some (.bool clauses)) (part : Clause) :
    Stores tree id (clauses.get part)
  /-- A clause stores its bool filter. -/
  | bool {bool : Nat} {part : Clause} (hid : tree.kind? id = some (.clause bool part)) :
    Stores tree id bool
  /-- A member of a chain stores the root. -/
  | chainRoot {membership : Chain} (hid : tree.kind? id = some (.chain membership)) :
    Stores tree id membership.root
  /-- The root of a chain stores the conditions. -/
  | condition {membership : Chain} {condition : Nat}
    (hid : tree.kind? id = some (.chain membership))
    (hcondition : condition ∈ membership.conditions) : Stores tree id condition

theorem Stores.lt_size (hwf : tree.WellFormed) (h : tree.Stores id stored) :
  stored < tree.size
  := by
  cases h with
  | parent hparent =>
    have hlt := hwf.parent_lt_child hparent
    have hid := lt_size_of_parent? hparent
    omega
  | child hchild => apply (hwf.lt_of_mem_childrenOf hchild).2
  | clause hid part =>
    apply lt_size_of_kind? (hwf.clause_iff.mpr ⟨_, hid, rfl⟩)
  | bool hid =>
    obtain ⟨clauses, hbool, -⟩ := hwf.clause_iff.mp hid
    apply lt_size_of_kind? hbool
  | @chainRoot membership hid => apply (hwf.root_inChain ⟨membership.conditions, hid⟩).lt_size
  | @condition membership condition hid hcondition =>
    obtain ⟨connective, chainRoot, conditions⟩ := membership
    by_cases hroot : id = chainRoot
    · subst hroot
      apply ((hwf.mem_conditions hid).mp hcondition).lt_size
    · obtain rfl := hwf.conditions_of_member hid hroot
      cases hcondition

/-! ### Unknown numbers -/

/-- Asked about a node, the tree does not know a node exactly when it has none of that number, and
then it is that one. -/
def KnowsItsNodes {α : Type} (tree : FilterTree) (ask : Nat → Except SearchError α) : Prop :=
  ∀ id number, ask id = .error (.unknownNode number) ↔ tree.size ≤ id ∧ number = id

theorem knowsItsNodes {α : Type} {ask : Nat → Except SearchError α}
    (hbeyond : ∀ id, tree.size ≤ id → ask id = .error (.unknownNode id))
    (hwithin : ∀ id < tree.size, ∀ number, ask id ≠ .error (.unknownNode number)) :
  tree.KnowsItsNodes ask
  := by
  intro id number
  constructor
  · intro hask
    have hid : tree.size ≤ id := by
      by_contra hlt
      exact hwithin id (Nat.lt_of_not_le hlt) number hask
    rw [hbeyond id hid] at hask
    cases hask
    exact ⟨hid, rfl⟩
  · rintro ⟨hid, rfl⟩
    apply hbeyond number hid

theorem node_of_size_le (h : tree.size ≤ id) :
  tree.node id = .error (.unknownNode id)
  := node_eq_error_iff.mpr ⟨h, rfl⟩

theorem knowsItsNodes_children :
  tree.KnowsItsNodes tree.children
  := by
  apply knowsItsNodes
  · intro id hid
    rw [children, node_of_size_le hid]
    rfl
  · intro id hid number
    simp [children_eq hid]

theorem knowsItsNodes_parent :
  tree.KnowsItsNodes tree.parent
  := by
  apply knowsItsNodes
  · intro id hid
    rw [FilterTree.parent, node_of_size_le hid]
    rfl
  · intro id hid number
    simp [parent_eq hid]

theorem composeAt_ne_unknownNode (hwf : tree.WellFormed) (hnative : tree.Native)
    (hid : id < tree.size) (number : Nat) :
  tree.composeAt id ≠ .error (.unknownNode number)
  := by
  intro hcompose
  by_cases hpart : tree.IsPart id
  · obtain ⟨family, hfamily⟩ := isPart_iff_exists_isPartOf.mp hpart
    simp [hfamily.composeAt_eq hwf] at hcompose
  · apply (isOfFilters_of_composeAt hwf hnative hid hpart hcompose).ne_unknownNode number rfl

theorem knowsItsNodes_composeAt (hwf : tree.WellFormed) (hnative : tree.Native) :
  tree.KnowsItsNodes tree.composeAt
  := by
  apply knowsItsNodes
  · intro id hid
    apply composeAt_of_size_le hid
  · intro id hid number
    apply composeAt_ne_unknownNode hwf hnative hid

/-- A visit of the children of a node knows the nodes of the tree, if no unknown node comes up from
the children. -/
theorem knowsItsNodes_ofChildren {α : Type} {visit : List Nat → Except SearchError α}
    (h : ∀ id < tree.size, ∀ number, visit (tree.childrenOf id) ≠ .error (.unknownNode number)) :
  tree.KnowsItsNodes fun id => tree.children id >>= visit
  := by
  apply knowsItsNodes
  · intro id hid
    rw [children, node_of_size_le hid]
    rfl
  · intro id hid number
    rw [children_eq hid]
    apply h id hid number

theorem composeOnly_eq_error_iff {compose : Nat → Except SearchError Json} {ids : List Nat}
    {error : SearchError} :
  composeOnly compose ids = .error error ↔ composeSole? compose ids = .error error
  := by
  rw [composeOnly]
  cases composeSole? compose ids <;> simp [bind, Except.bind, pure, Except.pure]

theorem knowsItsNodes_composeOnlyChild (hwf : tree.WellFormed) (hnative : tree.Native) :
  tree.KnowsItsNodes tree.composeOnlyChild
  := by
  apply knowsItsNodes_ofChildren
  intro id _ number hcompose
  rcases composeSole?_eq_error (composeOnly_eq_error_iff.mp hcompose) with
    ⟨-, harity⟩ | ⟨child, hchild, hfails⟩
  · cases harity
  · apply composeAt_ne_unknownNode hwf hnative (hwf.lt_of_mem_childrenOf hchild).2 number hfails

theorem knowsItsNodes_composeEachChild (hwf : tree.WellFormed) (hnative : tree.Native) :
  tree.KnowsItsNodes tree.composeEachChild
  := by
  apply knowsItsNodes_ofChildren
  intro id _ number hcompose
  obtain ⟨before, child, after, hsplit, -, hfails⟩ := Results.mapM_eq_error_iff.mp hcompose
  have hchild : child ∈ tree.childrenOf id := by simp [hsplit]
  apply composeAt_ne_unknownNode hwf hnative (hwf.lt_of_mem_childrenOf hchild).2 number hfails

theorem knowsItsNodes_familyRootAround (hwf : tree.WellFormed) :
  tree.KnowsItsNodes tree.familyRootAround
  := by
  apply knowsItsNodes
  · intro id hid
    rw [familyRootAround, FilterTree.parent, node_of_size_le hid]
    rfl
  · intro id hid number hroot
    cases eq_noEnclosingFamily_of_familyRootAround hwf hid hroot

/-! ### The log of new nodes -/

/-- The entries are those of the nodes from a number up to the last one, one after the other, each
with its parent. -/
inductive LogsFrom (tree : FilterTree) : Nat → List LogEntry → Prop
  | last : LogsFrom tree tree.size []
  | node {id parent : Nat} {entries : List LogEntry} (hparent : tree.parent? id = some parent)
    (hlater : LogsFrom tree (id + 1) entries) : LogsFrom tree id (.attached id parent :: entries)

theorem LogsFrom.append (h : tree.LogsFrom first entries) (parent : Nat) (kind : NodeKind) :
  (tree.append parent kind).LogsFrom first (entries ++ [.attached tree.size parent])
  := by
  induction h with
  | last =>
    apply LogsFrom.node
    · rw [parent?_append, if_pos rfl]
    · rw [← size_append tree parent kind]
      apply LogsFrom.last
  | node hparent _ ih => exact .node (parent?_append_of_parent? hparent) ih

theorem LogsFrom.addCondition (h : tree.LogsFrom first entries) (chainRoot condition : Nat) :
  (tree.addCondition chainRoot condition).LogsFrom first entries
  := by
  induction h with
  | last =>
    rw [← size_addCondition tree chainRoot condition]
    apply LogsFrom.last
  | node hparent _ ih => exact .node (parent?_addCondition.trans hparent) ih

theorem LogsFrom.addChain {connective : Connective} (h : tree.LogsFrom first entries) :
  (tree.addChain parent connective).value.LogsFrom first
    (entries ++ (tree.addChain parent connective).entries)
  := by
  rw [value_addChain]
  apply LogsFrom.addCondition
  apply h.append

theorem LogsFrom.addBool (h : tree.LogsFrom first entries) :
  (tree.addBool parent).value.LogsFrom first (entries ++ (tree.addBool parent).entries)
  := by
  rw [value_addBool]
  have hlogs := (((h.append parent (.bool tree.nextClauses)).append tree.size
    (.clause tree.size .must)).append tree.size (.clause tree.size .mustNot)).append tree.size
    (.clause tree.size .should)
  simpa [FilterTree.addBool, addNode] using hlogs

/-- A node that is logged has the parent that is logged with it. -/
theorem LogsFrom.parent? {node : Nat} (h : tree.LogsFrom first entries)
    (hentry : .attached node parent ∈ entries) :
  tree.parent? node = some parent
  := by
  induction h with
  | last => cases hentry
  | node hparent _ ih =>
    rcases List.mem_cons.mp hentry with heq | hentry
    · cases heq
      exact hparent
    · exact ih hentry

end FilterTree

namespace FilterBuild

/-- The log is that of the nodes of the tree from a number on. -/
def LogsFrom (build : FilterBuild) (first : Nat) : Prop :=
  build.tree.LogsFrom first build.transcript.entries.toList

variable {build : FilterBuild} {first : Nat}

theorem LogsFrom.report (h : build.LogsFrom first) (event : Event) :
  (build.report event).LogsFrom first
  := by
  rw [FilterBuild.report]
  split <;> exact h

theorem LogsFrom.fail (h : build.LogsFrom first) (call : String) (error : SearchError) :
  (build.fail call error).LogsFrom first
  := by
  rw [FilterBuild.fail]
  split <;> exact h

theorem LogsFrom.grow {attach : FilterTree → Logged FilterTree} (h : build.LogsFrom first)
    (hattach : ∀ {entries}, build.tree.LogsFrom first entries →
      (attach build.tree).value.LogsFrom first (entries ++ (attach build.tree).entries)) :
  (build.grow attach).LogsFrom first
  := by
  rw [FilterBuild.grow]
  split
  · exact h
  · simpa [LogsFrom, Transcript.log] using hattach h

end FilterBuild

/-- A run logs the nodes that it puts into the tree. -/
theorem FilterScript.logsFrom_run (script : FilterScript) (handle : Handle) {build : FilterBuild}
    {first : Nat} (h : build.LogsFrom first) :
  (script.run handle build).LogsFrom first
  := by
  refine run_keeps (·.LogsFrom first) (fun h => h.report) (fun h => h.fail) ?_ ?_ ?_ script handle h
  · intro build h parent kind
    apply h.grow
    intro entries hlogs
    apply hlogs.append
  · intro build h parent connective
    apply h.grow
    intro entries hlogs
    apply hlogs.addChain
  · intro build h parent
    apply h.grow
    intro entries hlogs
    apply hlogs.addBool

namespace FilterTree

variable {tree : FilterTree}

/-- A tree that scripts build without compositions of their own knows its nodes and no others,
whatever it is asked about them, and stores the numbers of no others.  Whatever is called on a
handle that fits the tree, the log lists the nodes that the calls put into it, one after the other
and each with its parent, which is older: the tree has the parent when the node is put below it. -/
theorem Reachable.numbers_known (h : tree.Reachable) (hnative : tree.Native) :
  (tree.KnowsItsNodes tree.children ∧ tree.KnowsItsNodes tree.parent
      ∧ tree.KnowsItsNodes tree.composeAt ∧ tree.KnowsItsNodes tree.composeOnlyChild
      ∧ tree.KnowsItsNodes tree.composeEachChild ∧ tree.KnowsItsNodes tree.familyRootAround)
    ∧ (∀ id stored, tree.Stores id stored → stored < tree.size)
    ∧ ∀ (handle : Handle) (script : FilterScript) (strict : Bool), handle.Fits tree →
      let build := script.run handle (.start tree .empty strict)
      build.tree.LogsFrom tree.size build.transcript.entries.toList
        ∧ ∀ node parent, .attached node parent ∈ build.transcript.entries.toList → parent < node
  := by
  have hwf := h.wellFormed
  refine ⟨⟨knowsItsNodes_children, knowsItsNodes_parent, knowsItsNodes_composeAt hwf hnative,
    knowsItsNodes_composeOnlyChild hwf hnative, knowsItsNodes_composeEachChild hwf hnative,
    knowsItsNodes_familyRootAround hwf⟩, ?_, ?_⟩
  · intro id stored hstored
    apply hstored.lt_size hwf
  · intro handle script strict hfits build
    have hlogs : build.LogsFrom tree.size := script.logsFrom_run handle .last
    use hlogs
    intro node parent hentry
    have hgrown := (script.makesGrow handle (.start tree .empty strict) hwf hfits).wellFormed hwf
    apply hgrown.parent_lt_child (hlogs.parent? hentry)

theorem numbers_known_treeOfOrs :
  treeOfOrs.Reachable ∧ treeOfOrs.Native
    ∧ treeOfOrs.composeEachChild 12 = .error (.unknownNode 12)
    ∧ (∀ number, treeOfOrs.composeAt 7 ≠ .error (.unknownNode number))
    ∧ ∀ node parent,
      .attached node parent ∈ (twoOrsInMust.run (.scope 7)
        (.start treeOfOrs .empty false)).transcript.entries.toList → parent < node
  := by
  obtain ⟨⟨-, -, hcomposeAt, -, hcomposeEach, -⟩, -, hlog⟩ :=
    reachable_treeOfOrs.numbers_known native_treeOfOrs
  refine ⟨reachable_treeOfOrs, native_treeOfOrs, ?_, ?_, ?_⟩
  · exact (hcomposeEach 12 12).mpr ⟨by decide, rfl⟩
  · intro number hcompose
    obtain ⟨hbeyond, -⟩ := (hcomposeAt 7 number).mp hcompose
    revert hbeyond
    decide
  · have hfits : Handle.Fits treeOfOrs (.scope 7) := ⟨.chain ⟨.or, 5, []⟩, rfl, by simp⟩
    exact (hlog (.scope 7) twoOrsInMust false hfits).2

end FilterTree

end FilteredSearch
