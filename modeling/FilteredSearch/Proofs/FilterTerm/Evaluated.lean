import FilteredSearch.Proofs.FilterTerm.Shows
import FilteredSearch.Proofs.FilterTree.Bools
import FilteredSearch.Proofs.FilterTree.Members

/-!
# Shown terms are evaluated

A node that shows a term composes to what the term evaluates to, and fails as the term does.  For
the filters below a member of a chain this is so of those outside the chain, and what the members
hold is what the members of the group of the term hold, in the same order.
-/

namespace FilteredSearch

namespace FilterTree

variable {tree : FilterTree} {around : Option (Connective × Nat)} {id : Nat} {term : FilterTerm}
  {filters : List FilterTerm} {ids members : List Nat} {connective : Connective} {chainRoot : Nat}

/-- The nodes that are not in the chain around them. -/
def apart (tree : FilterTree) : Option (Connective × Nat) → List Nat → List Nat
  | none, ids => ids
  | some (connective, chainRoot), ids =>
    ids.filter fun id => !tree.isMember ⟨connective, chainRoot, []⟩ id

/-! ### Slots and results -/

theorem composeSole?_eq_sole? (compose : Nat → Except SearchError Json) (ids : List Nat) :
  composeSole? compose ids = FilterTerm.sole? (ids.map compose)
  := by
  match ids with
  | [] => rfl
  | [only] => cases h : compose only <;> simp [composeSole?, FilterTerm.sole?, h, Except.map, bind,
      Except.bind, pure, Except.pure]
  | first :: second :: others => simp [composeSole?, FilterTerm.sole?, throw, throwThe,
      MonadExceptOf.throw]

/-- A node with one slot composes to what the slot holds. -/
theorem composeAt_of_one_slot (hwf : tree.WellFormed) {kind : NodeKind}
    (hk : tree.kind? id = some kind) (hkind : ¬kind.IsCustom)
    (hobstacle : tree.obstacle? id kind = none)
    (hslots : tree.slots id kind = [tree.childrenOf id]) (wrapped : Json → Json)
    (hwrapped : ∀ document?, kind.assemble [document?] = wrapped (document?.getD (.object []))) :
  tree.composeAt id
    = (FilterTerm.only ((tree.childrenOf id).map tree.composeAt)).map wrapped
  := by
  rw [composeAt_eq hwf hk hkind, hobstacle, hslots, FilterTerm.only, ← composeSole?_eq_sole?]
  cases h : composeSole? tree.composeAt (tree.childrenOf id) with
  | error error => simp [h, Except.map, bind, Except.bind]
  | ok document? => simp [h, hwrapped, Except.map, bind, Except.bind, pure, Except.pure]

theorem composeAt_scope (hwf : tree.WellFormed) (hk : tree.kind? id = some .scope) :
  tree.composeAt id = FilterTerm.only ((tree.childrenOf id).map tree.composeAt)
  := by
  rw [composeAt_of_one_slot hwf hk (fun h => h) rfl rfl (fun document => document)
    fun document? => by cases document? <;> rfl]
  cases FilterTerm.only ((tree.childrenOf id).map tree.composeAt) <;> rfl

theorem composeAt_negation (hwf : tree.WellFormed) (hk : tree.kind? id = some .negation) :
  tree.composeAt id
    = (FilterTerm.only ((tree.childrenOf id).map tree.composeAt)).map (.singleton "not")
  := composeAt_of_one_slot hwf hk (fun h => h) rfl rfl _ fun document? => by
    cases document? <;> rfl

theorem composeAt_nested (hwf : tree.WellFormed) {path : FieldPath}
    (hk : tree.kind? id = some (.nested path)) :
  tree.composeAt id
    = (FilterTerm.only ((tree.childrenOf id).map tree.composeAt)).map fun document =>
      .singleton "nested" (.ofMembers [("path", .string path.dotted), ("filter", document)])
  := composeAt_of_one_slot hwf hk (fun h => h) rfl rfl _ fun document? => by
    cases document? <;> rfl

theorem composeAt_leaf (hwf : tree.WellFormed) {test : Leaf}
    (hk : tree.kind? id = some test.kind) :
  tree.composeAt id = test.fragment.mapError .ofPathFault
  := by
  rw [Leaf.kind] at hk
  cases hfragment : test.fragment with
  | ok _ | error _ =>
    rw [hfragment] at hk
    rw [FilterTree.composeAt_eq hwf hk (fun h => h)]
    rfl

/-- A bool filter composes to what its clauses hold, unless it holds filters of its own. -/
theorem composeAt_bool (hwf : tree.WellFormed) {clauses : Clauses} {misplaced : List Nat}
    (hk : tree.kind? id = some (.bool clauses))
    (hsplit : tree.childrenOf id = Clause.all.map clauses.get ++ misplaced) :
  tree.composeAt id
    = if 0 < misplaced.length then .error (.misplacedFilters misplaced.length)
      else FilterTerm.ofClauses ((tree.childrenOf (clauses.get .must)).map tree.composeAt)
        ((tree.childrenOf (clauses.get .mustNot)).map tree.composeAt)
        ((tree.childrenOf (clauses.get .should)).map tree.composeAt)
  := by
  have hcount : FilterTree.misplaced clauses (tree.childrenOf id) = misplaced.length := by
    rw [hsplit]
    apply misplaced_append (hsplit ▸ hwf.nodup_childrenOf)
  rw [FilterTree.composeAt_eq hwf hk (fun h => h), obstacle?, hcount]
  by_cases hmisplaced : 0 < misplaced.length
  · simp [hmisplaced]
  · simp only [hmisplaced, if_false, slots, Clause.all, List.map_cons, List.map_nil,
      List.mapM_cons, List.mapM_nil, composeSole?_eq_sole?, FilterTerm.ofClauses]
    generalize FilterTerm.sole? ((tree.childrenOf (clauses.get .must)).map _) = must?
    generalize FilterTerm.sole? ((tree.childrenOf (clauses.get .mustNot)).map _) = mustNot?
    generalize FilterTerm.sole? ((tree.childrenOf (clauses.get .should)).map _) = should?
    cases must? <;> cases mustNot? <;> cases should? <;> rfl

/-! ### Terms and nodes -/

/-- Of the nodes that show filters in a chain, those are members whose filters join. -/
theorem Shows.isMember_eq (h : tree.Shows (some (connective, chainRoot)) term id members) :
  tree.isMember ⟨connective, chainRoot, []⟩ id = term.joins (some connective)
  := by
  cases term with
  | leaf test =>
    have hk := h.1
    rw [Leaf.kind] at hk
    cases hfragment : test.fragment <;> simp [isMember, FilterTerm.joins, hk, hfragment]
  | wrap filters | negation filters => simp [isMember, FilterTerm.joins, h.1]
  | nested field filters =>
    have hk := h.1
    rw [NodeKind.ofNested] at hk
    cases hresolve : FieldPath.resolve field <;> simp [isMember, FilterTerm.joins, hk, hresolve]
  | bool own must mustNot should =>
    obtain ⟨_, _, hk, -⟩ := h
    simp [isMember, FilterTerm.joins, hk]
  | chain own filters =>
    obtain ⟨_, _, -, ⟨haround, hin, -⟩ | ⟨haround, -, hk, -⟩⟩ := h
    · obtain ⟨rfl, rfl⟩ : connective = own ∧ chainRoot = _ := by simpa using haround
      rw [isMember_iff.mpr hin]
      simp [FilterTerm.joins]
    · have hne : connective ≠ own := fun heq => haround chainRoot (by rw [heq])
      simp [isMember, FilterTerm.joins, hk, hne, Ne.symm hne]

theorem apart_cons {others : List Nat} (h : tree.Shows around term id members) :
  tree.apart around (id :: others)
    = if term.joins (around.map Prod.fst) then tree.apart around others
      else id :: tree.apart around others
  := by
  cases around with
  | none => cases term <;> rfl
  | some chain =>
    obtain ⟨connective, chainRoot⟩ := chain
    rw [apart, List.filter_cons, h.isMember_eq, Option.map_some]
    cases term.joins (some connective) <;> rfl

mutual

/-- A node composes to what the term that it shows evaluates to, unless it is in the chain around
it. -/
theorem Shows.composeAt_eq (hwf : tree.WellFormed) {around : Option (Connective × Nat)} {id : Nat}
    {members : List Nat} :
    (term : FilterTerm) → tree.Shows around term id members →
      term.joins (around.map Prod.fst) = false → tree.composeAt id = term.eval
  | .leaf test, h, _ => composeAt_leaf hwf h.1
  | .wrap filters, h, _ => by
    obtain ⟨hk, -, hfilters⟩ := h
    rw [FilterTerm.eval, composeAt_scope hwf hk]
    apply congrArg _ (ShowsAll.map_composeAt hwf filters hfilters)
  | .negation filters, h, _ => by
    obtain ⟨hk, -, hfilters⟩ := h
    rw [FilterTerm.eval, composeAt_negation hwf hk]
    apply congrArg _ (congrArg _ (ShowsAll.map_composeAt hwf filters hfilters))
  | .nested field filters, h, _ => by
    obtain ⟨hk, -, hfilters⟩ := h
    have hall : (tree.childrenOf id).map tree.composeAt = FilterTerm.evalApart none filters :=
      ShowsAll.map_composeAt hwf filters hfilters
    rw [NodeKind.ofNested] at hk
    rw [FilterTerm.eval, ← hall]
    cases hresolve : FieldPath.resolve field with
    | ok path =>
      rw [hresolve] at hk
      apply composeAt_nested hwf hk
    | error fault =>
      rw [hresolve] at hk
      apply FilterTree.composeAt_eq hwf hk (fun h => h)
  | .bool own must mustNot should, h, _ => by
    obtain ⟨clauses, misplaced, hk, -, hsplit, hown, hmust, hmustNot, hshould⟩ := h
    have hmust' := ShowsAll.map_composeAt hwf must hmust
    have hmustNot' := ShowsAll.map_composeAt hwf mustNot hmustNot
    have hshould' := ShowsAll.map_composeAt hwf should hshould
    rw [apart, Option.map_none] at hmust' hmustNot' hshould'
    rw [FilterTerm.eval, composeAt_bool hwf hk hsplit, hown.length_eq, hmust', hmustNot', hshould']
  | .chain connective filters, h, hjoins => by
    obtain ⟨chainRoot, inner, hfilters, ⟨rfl, -⟩ | ⟨-, rfl, hk, -⟩⟩ := h
    · simp [FilterTerm.joins] at hjoins
    · have hall : ((chainRoot :: inner).map fun member =>
            (tree.apart (some (connective, chainRoot)) (tree.childrenOf member)).map tree.composeAt)
          = FilterTerm.evalApart (some connective) filters
            :: FilterTerm.evalMembers connective filters := by
        rw [List.map_cons, ShowsAll.map_members hwf filters hfilters,
          ShowsAll.map_composeAt hwf filters hfilters]
        rfl
      rw [FilterTerm.eval, composeAt_chainRoot hwf hk, FilterTerm.ofMembers, ← hall, List.mapM_map]
      simp only [composeSole?_eq_sole?]
      rfl

/-- The nodes outside the chain around them compose to what the filters apart from the group
evaluate to. -/
theorem ShowsAll.map_composeAt (hwf : tree.WellFormed) {around : Option (Connective × Nat)}
    {ids members : List Nat} :
    (filters : List FilterTerm) → tree.ShowsAll around filters ids members →
      (tree.apart around ids).map tree.composeAt
        = FilterTerm.evalApart (around.map Prod.fst) filters
  | [], h => by
    rw [h.1]
    cases around <;> rfl
  | filter :: filters, h => by
    obtain ⟨id, others, first, rest, rfl, -, hfirst, hrest⟩ := h
    have hothers := ShowsAll.map_composeAt hwf filters hrest
    rw [apart_cons hfirst, FilterTerm.evalApart]
    cases hjoins : filter.joins (around.map Prod.fst) with
    | true => apply hothers
    | false => apply congrArg₂ _ (Shows.composeAt_eq hwf filter hfirst hjoins) hothers

/-- The members that a filter adds to the chain around it hold what it adds to the group. -/
theorem Shows.map_members (hwf : tree.WellFormed) {connective : Connective} {chainRoot id : Nat}
    {members : List Nat} :
    (term : FilterTerm) → tree.Shows (some (connective, chainRoot)) term id members →
      (members.map fun member =>
        (tree.apart (some (connective, chainRoot)) (tree.childrenOf member)).map tree.composeAt)
        = term.evalMember connective
  | .leaf _, h | .wrap _, h | .negation _, h | .nested _ _, h | .bool _ _ _ _, h => by
    rw [h.members_eq_nil rfl]
    rfl
  | .chain own filters, h => by
    obtain ⟨otherRoot, inner, hfilters, ⟨haround, -, rfl⟩ | ⟨haround, -, -, rfl⟩⟩ := h
    · obtain ⟨rfl, rfl⟩ : connective = own ∧ chainRoot = otherRoot := by simpa using haround
      rw [FilterTerm.evalMember, if_pos rfl, List.map_cons,
        ShowsAll.map_members hwf filters hfilters, ShowsAll.map_composeAt hwf filters hfilters]
      rfl
    · have hne : own ≠ connective := fun heq => haround chainRoot (by rw [heq])
      rw [FilterTerm.evalMember, if_neg hne]
      rfl

/-- The members that the filters add to the chain around them hold what they add to the group. -/
theorem ShowsAll.map_members (hwf : tree.WellFormed) {connective : Connective} {chainRoot : Nat}
    {ids members : List Nat} :
    (filters : List FilterTerm) →
      tree.ShowsAll (some (connective, chainRoot)) filters ids members →
      (members.map fun member =>
        (tree.apart (some (connective, chainRoot)) (tree.childrenOf member)).map tree.composeAt)
        = FilterTerm.evalMembers connective filters
  | [], h => by
    rw [h.2]
    rfl
  | filter :: filters, h => by
    obtain ⟨id, others, first, rest, -, rfl, hfirst, hrest⟩ := h
    rw [List.map_append, Shows.map_members hwf filter hfirst,
      ShowsAll.map_members hwf filters hrest, FilterTerm.evalMembers]

end

end FilterTree

end FilteredSearch
