import FilteredSearch.Proofs.FilterTree.WellFormed
import FilteredSearch.Proofs.Results

/-!
# Slots

What a node composes to has a shape that all kinds of nodes share.  Some nodes fail outright: those
without a field path, the members of a family besides its root, and the bool filters with filters
outside their clauses.  Every other node has slots, each a list of children of which at most one
is composed, and assembles a document from what its slots hold.
-/

namespace FilteredSearch

/-- The kind is that of a node that a caller composes. -/
def NodeKind.IsCustom : NodeKind → Prop
  | .custom _ => True
  | _ => False

theorem NodeKind.IsCustom.exists_composer {kind : NodeKind} (h : kind.IsCustom) :
  ∃ composer, kind = .custom composer
  := by
  cases kind with
  | custom composer => exact ⟨composer, rfl⟩
  | _ => exact h.elim

/-- The document of a node from the documents in its slots. -/
def NodeKind.assemble : NodeKind → List (Option Json) → Json
  | .fragment document, _ => document
  | .negation, documents => .singleton "not" ((documents.filterMap id).headD (.object []))
  | .nested path, documents =>
    .singleton "nested" (.ofMembers [("path", .string path.dotted),
      ("filter", (documents.filterMap id).headD (.object []))])
  | .bool _, documents =>
    .singleton "bool" (.ofMembers ((Clause.all.zip documents).filterMap fun slot =>
      slot.2.map fun document => (slot.1.key, document)))
  | .chain membership, documents =>
    .singleton membership.connective.key (.array (documents.filterMap id))
  | _, documents => (documents.filterMap id).headD (.object [])

namespace FilterTree

/-- The children of a node that are not members of the chain. -/
def outsiders (tree : FilterTree) (chain : Chain) (id : Nat) : List Nat :=
  (tree.childrenOf id).filter fun child => !tree.isMember chain child

/-- The slots of a node of the kind. -/
def slots (tree : FilterTree) (id : Nat) : NodeKind → List (List Nat)
  | .scope | .negation | .nested _ => [tree.childrenOf id]
  | .bool clauses => Clause.all.map fun clause => tree.childrenOf (clauses.get clause)
  | .chain membership =>
    if membership.root = id then membership.conditions.map (tree.outsiders membership) else []
  | _ => []

/-- The error with which a node of the kind fails whatever its slots hold. -/
def obstacle? (tree : FilterTree) (id : Nat) : NodeKind → Option SearchError
  | .faulty fault => some (.ofPathFault fault)
  | .bool clauses =>
    let found := misplaced clauses (tree.childrenOf id)
    if 0 < found then some (.misplacedFilters found) else none
  | .clause _ _ => some (.notFamilyRoot .bool)
  | .chain membership =>
    if membership.root = id then none else some (.notFamilyRoot (.chain membership.connective))
  | _ => none

section

variable {m : Type → Type} [Monad m] [LawfulMonad m] [MonadExcept SearchError m]
  {tree : FilterTree} {compose : Nat → m Json} {id : Nat} {node : Node}

omit [LawfulMonad m] in
theorem ofExcept_children (hid : id < tree.size) :
  (MonadExcept.ofExcept (tree.children id) : m (List Nat)) = pure (tree.childrenOf id)
  := by
  rw [children_eq hid]
  rfl

theorem composeClauses_eq (hwf : tree.WellFormed) {clauses : Clauses}
    (hk : tree.kind? id = some (.bool clauses)) :
  tree.composeClauses compose (tree.childrenOf id) clauses
    = match tree.obstacle? id (.bool clauses) with
      | some error => throw error
      | none => do
        let documents ← (tree.slots id (.bool clauses)).mapM (composeSole? compose)
        return (NodeKind.bool clauses).assemble documents
  := by
  have hclause : ∀ clause, clauses.get clause < tree.size := fun clause =>
    lt_size_of_kind? (hwf.clause_iff.mpr ⟨clauses, hk, rfl⟩)
  simp only [composeClauses, obstacle?]
  split
  · rfl
  · simp [Clause.all, ofExcept_children, hclause, slots, NodeKind.assemble]
    rfl

theorem composeConditions_eq (hwf : tree.WellFormed) {membership : Chain}
    (hk : tree.kind? id = some (.chain membership)) (hroot : membership.root = id) :
  tree.composeConditions compose membership
    = do
      let documents ← (tree.slots id (.chain membership)).mapM (composeSole? compose)
      return (NodeKind.chain membership).assemble documents
  := by
  obtain ⟨connective, chainRoot, conditions⟩ := membership
  obtain rfl : chainRoot = id := hroot
  have hslots : conditions.mapM (fun condition => do
        let children ← MonadExcept.ofExcept (tree.children condition)
        composeSole? compose (children.filter fun child =>
          !tree.isMember ⟨connective, chainRoot, conditions⟩ child))
      = (conditions.map (tree.outsiders ⟨connective, chainRoot, conditions⟩)).mapM
          (composeSole? compose) := by
    rw [List.mapM_map]
    apply Results.mapM_congr
    intro condition hcondition
    rw [ofExcept_children ((hwf.mem_conditions hk).mp hcondition).lt_size, pure_bind]
    rfl
  simp only [composeConditions, slots, if_true, hslots, NodeKind.assemble]

/-- What a node composes to is assembled from what its slots hold. -/
theorem composeUsing_eq (hwf : tree.WellFormed) (hnode : tree.nodes[id]? = some node)
    (hkind : ¬node.kind.IsCustom) :
  tree.composeUsing compose id node
    = match tree.obstacle? id node.kind with
      | some error => throw error
      | none => do
        let documents ← (tree.slots id node.kind).mapM (composeSole? compose)
        return node.kind.assemble documents
  := by
  have hk : tree.kind? id = some node.kind := kind?_eq_some_iff.mpr ⟨node, hnode, rfl⟩
  have hchildren : node.children = tree.childrenOf id := by simp [childrenOf, hnode]
  rw [composeUsing]
  cases h : node.kind with
  | scope | negation | nested _ =>
    simp [hchildren, obstacle?, slots, NodeKind.assemble, composeOnly]
  | fragment document => simp [obstacle?, slots, NodeKind.assemble]
  | faulty fault => rfl
  | custom composer => exact absurd (h ▸ trivial) hkind
  | bool clauses =>
    rw [h] at hk
    rw [hchildren]
    apply composeClauses_eq hwf hk
  | clause bool part => rfl
  | chain membership =>
    rw [h] at hk
    simp only [obstacle?]
    split
    · next hroot => exact composeConditions_eq hwf hk hroot
    · rfl

end

/-- What a slot gives to the node that it belongs to: the document of its only filter, if it holds
one, or an error. -/
inductive SlotGives (compose : Nat → Except SearchError Json) (slot : List Nat) :
    Except SearchError (Option Json) → Prop
  | nothing (hslot : slot = []) : SlotGives compose slot (.ok none)
  | document {filter : Nat} {document : Json} (hslot : slot = [filter])
    (hfilter : compose filter = .ok document) : SlotGives compose slot (.ok (some document))
  | failure {filter : Nat} {error : SearchError} (hslot : slot = [filter])
    (hfilter : compose filter = .error error) : SlotGives compose slot (.error error)
  | overfull (hslot : 2 ≤ slot.length) :
    SlotGives compose slot (.error (.tooManyFilters 1 slot.length))

theorem slotGives_iff {compose : Nat → Except SearchError Json} {slot : List Nat}
    {result : Except SearchError (Option Json)} :
  SlotGives compose slot result ↔ composeSole? compose slot = result
  := by
  constructor
  · intro h
    cases h with
    | nothing hslot => rw [hslot]; rfl
    | document hslot hfilter => rw [hslot, composeSole?, hfilter]; rfl
    | failure hslot hfilter => rw [hslot, composeSole?, hfilter]; rfl
    | overfull hslot =>
      match slot with
      | [] | [_] => simp at hslot
      | _ :: _ :: _ => rfl
  · rintro rfl
    match slot with
    | [] => exact .nothing rfl
    | [filter] =>
      rw [composeSole?]
      cases hfilter : compose filter with
      | ok document => exact .document rfl hfilter
      | error error => exact .failure rfl hfilter
    | _ :: _ :: _ => exact .overfull (by simp)

/-- What holds of a node when it holds of all later nodes, holds of every node. -/
@[elab_as_elim]
theorem laterInduction (tree : FilterTree) {motive : (id : Nat) → id < tree.size → Prop}
    (node : ∀ id (hid : id < tree.size),
      (∀ later, id < later → ∀ hlater : later < tree.size, motive later hlater) → motive id hid)
    (id : Nat) (hid : id < tree.size) :
  motive id hid
  := node id hid fun later _ hlater => laterInduction tree node later hlater
  termination_by tree.size - id

/-! ### Slots of a well-formed tree -/

variable {tree : FilterTree} {id child head : Nat} {kind : NodeKind} {slot : List Nat}

/-- The node is the one on whose behalf the children of the second node are composed: the bool
filter of a clause, the root of a member of a chain, and any other node itself. -/
def Heads (tree : FilterTree) (head id : Nat) : Prop :=
  ∃ kind, tree.kind? id = some kind ∧ (kind.rootOfFamily? id).getD id = head

/-- The second node was put below a node whose children are composed on behalf of the first. -/
def Calls (tree : FilterTree) (head id : Nat) : Prop :=
  ∃ parent, tree.parent? id = some parent ∧ tree.Heads head parent

theorem Heads.le (hwf : tree.WellFormed) (h : tree.Heads head id) :
  head ≤ id
  := by
  obtain ⟨kind, hk, rfl⟩ := h
  cases kind with
  | clause bool clause =>
    obtain ⟨clauses, hbool, hget⟩ := hwf.clause_iff.mp hk
    rw [hwf.clauses_eq hbool] at hget
    cases clause <;> simp only [Clauses.get] at hget <;> simp [NodeKind.rootOfFamily?] <;> omega
  | chain membership => apply hwf.root_le ⟨membership.conditions, hk⟩
  | _ => apply Nat.le_refl _

theorem Heads.unique {other : Nat} (h : tree.Heads head id) (hother : tree.Heads other id) :
  head = other
  := by
  obtain ⟨kind, hk, rfl⟩ := h
  obtain ⟨kind', hk', rfl⟩ := hother
  rw [hk, Option.some.injEq] at hk'
  rw [hk']

theorem Calls.lt (hwf : tree.WellFormed) (h : tree.Calls head id) :
  head < id
  := by
  obtain ⟨parent, hparent, hheads⟩ := h
  apply Nat.lt_of_le_of_lt (hheads.le hwf) (hwf.parent_lt_child hparent)

theorem Calls.lt_size (h : tree.Calls head id) :
  id < tree.size
  := by
  obtain ⟨parent, hparent, -⟩ := h
  apply lt_size_of_parent? hparent

theorem Calls.unique {other : Nat} (h : tree.Calls head id) (hother : tree.Calls other id) :
  head = other
  := by
  obtain ⟨parent, hparent, hheads⟩ := h
  obtain ⟨parent', hparent', hheads'⟩ := hother
  rw [hparent, Option.some.injEq] at hparent'
  apply hheads.unique (hparent' ▸ hheads')

/-- What stands in a slot is composed on behalf of the owner of the slot. -/
theorem calls_of_mem_slot (hwf : tree.WellFormed) (hk : tree.kind? id = some kind)
    (hslot : slot ∈ tree.slots id kind) (hchild : child ∈ slot) :
  tree.Calls id child
  := by
  cases kind with
  | scope | negation | nested _ =>
    rw [slots, List.mem_singleton] at hslot
    subst hslot
    exact ⟨id, hwf.mem_childrenOf.mp hchild, _, hk, rfl⟩
  | bool clauses =>
    obtain ⟨clause, -, rfl⟩ := List.mem_map.mp hslot
    refine ⟨clauses.get clause, hwf.mem_childrenOf.mp hchild, .clause id clause, ?_, rfl⟩
    apply hwf.clause_iff.mpr ⟨clauses, hk, rfl⟩
  | chain membership =>
    obtain ⟨connective, chainRoot, conditions⟩ := membership
    rw [slots] at hslot
    split_ifs at hslot with hroot
    · subst hroot
      obtain ⟨condition, hcondition, rfl⟩ := List.mem_map.mp hslot
      obtain ⟨listed, hk'⟩ := (hwf.mem_conditions hk).mp hcondition
      exact ⟨condition, hwf.mem_childrenOf.mp (List.mem_filter.mp hchild).1, _, hk', rfl⟩
    · simp at hslot
  | fragment _ | faulty _ | custom _ | clause _ _ => simp [slots] at hslot

section

variable {m : Type → Type} [Monad m] [MonadExcept SearchError m] {f g : Nat → m Json}

theorem composeSole?_congr (h : ∀ child ∈ slot, f child = g child) :
  composeSole? f slot = composeSole? g slot
  := by
  match slot with
  | [] => rfl
  | [only] => simp only [composeSole?, h only (List.mem_singleton_self only)]
  | _ :: _ :: _ => rfl

/-- Nothing but what the later nodes compose to counts for a node. -/
theorem composeUsing_congr [LawfulMonad m] {node : Node} (hwf : tree.WellFormed)
    (hnode : tree.nodes[id]? = some node) (hkind : ¬node.kind.IsCustom)
    (h : ∀ later, id < later → f later = g later) :
  tree.composeUsing f id node = tree.composeUsing g id node
  := by
  have hslots : (tree.slots id node.kind).mapM (composeSole? f)
      = (tree.slots id node.kind).mapM (composeSole? g) := by
    apply Results.mapM_congr
    intro slot hslot
    apply composeSole?_congr
    intro child hchild
    have hk : tree.kind? id = some node.kind := kind?_eq_some_iff.mpr ⟨node, hnode, rfl⟩
    apply h child ((calls_of_mem_slot hwf hk hslot hchild).lt hwf)
  rw [composeUsing_eq hwf hnode hkind, composeUsing_eq hwf hnode hkind, hslots]

end

/-- What a node composes to is assembled from what its slots hold. -/
theorem composeAt_eq (hwf : tree.WellFormed) (hk : tree.kind? id = some kind)
    (hkind : ¬kind.IsCustom) :
  tree.composeAt id
    = match tree.obstacle? id kind with
      | some error => .error error
      | none => ((tree.slots id kind).mapM (composeSole? tree.composeAt)).map kind.assemble
  := by
  obtain ⟨node, hnode, rfl⟩ := kind?_eq_some_iff.mp hk
  have hlater : ∀ later, id < later → tree.composeAfter id later = tree.composeAt later :=
    fun _ h => if_pos h
  rw [composeAt_of_node hnode, composeUsing_congr hwf hnode hkind hlater,
    composeUsing_eq hwf hnode hkind]
  rfl

/-- What a caller composes, given the place of the node and what its children come to. -/
theorem composeAt_custom {composer : Composer} (hk : tree.kind? id = some (.custom composer)) :
  tree.composeAt id = composer ⟨id, tree.parent? id, tree.childrenOf id, tree.size,
    (tree.childrenOf id).map (tree.composeAfter id)⟩
  := by
  have houtcome : ∀ x : Except SearchError Json, outcome x = pure x := by
    intro x
    cases x <;> rfl
  obtain ⟨node, hnode, hkind⟩ := kind?_eq_some_iff.mp hk
  rw [composeAt_of_node hnode, composeUsing, hkind]
  simp only [houtcome, List.mapM_pure, pure_bind, Results.ofExcept_eq, parent?, childrenOf, hnode,
    Option.bind_some, Option.map_some, Option.getD_some]

end FilterTree

end FilteredSearch
