import FilteredSearch.Proofs.Aggregation.Nodes
import FilteredSearch.Proofs.Json.Record
import FilteredSearch.Proofs.Results

/-!
# The documents of aggregations

A metric composes to its descriptor, and a bucket to an object with the document of its filter and
those of its further aggregations, each left out when there is nothing to show.  The errors of an
aggregation come in an order: that of the filter before those of the further aggregations, which
come by name.  An aggregation without errors composes to its document, and one with errors fails
with the first of them.
-/

namespace FilteredSearch

open Results

/-! ### Parts that may be absent -/

section

variable {α : Type} {compose : α → Except SearchError Json} {part : Option α}

/-- The member for a part, if there is one. -/
def composePart (name : String) (compose : α → Except SearchError Json) :
    Option α → Except SearchError (List (String × Json))
  | some part => (compose part).map fun document => [(name, document)]
  | none => .ok []

/-- The errors of a part, if there is one. -/
def partErrors (compose : α → Except SearchError Json) (part : Option α) : List SearchError :=
  part.elim [] fun part => errors (compose part)

theorem composePart_eq_ok_iff {name : String} {members : List (String × Json)} :
  composePart name compose part = .ok members
    ↔ ∃ document?, Option.Rel (fun part document => compose part = .ok document) part document?
      ∧ members = [(name, document?)].filterMap Json.presentMember
  := by
  cases part with
  | none =>
    constructor
    · intro h
      cases h
      exact ⟨none, .none, rfl⟩
    · rintro ⟨_, ⟨⟩, rfl⟩
      rfl
  | some part =>
    rw [composePart, map_eq_ok_iff]
    constructor
    · rintro ⟨document, hdocument, rfl⟩
      exact ⟨some document, .some hdocument, rfl⟩
    · rintro ⟨_, ⟨hdocument⟩, rfl⟩
      exact ⟨_, hdocument, rfl⟩

theorem error?_composePart {name : String} :
  error? (composePart name compose part) = (partErrors compose part).head?
  := by
  cases part with
  | none => rfl
  | some part => rw [composePart, error?_map, error?_eq_head?_errors, partErrors, Option.elim_some]

theorem partErrors_eq_nil_iff :
  partErrors compose part = []
    ↔ ∀ present, part = some present → ∃ document, compose present = .ok document
  := by
  cases part with
  | none => simp [partErrors]
  | some part => simp [partErrors, errors_eq_nil_iff]

theorem mem_partErrors_iff {error : SearchError} :
  error ∈ partErrors compose part ↔ ∃ present, part = some present ∧ compose present = .error error
  := by
  cases part with
  | none => simp [partErrors]
  | some part => simp [partErrors, mem_errors_iff]

end

namespace Aggregation

theorem composeFilter_eq (filter : Option FilterTree) :
  composeFilter filter = composePart "filter" FilterTree.compose filter
  := by
  cases filter with
  | none => rfl
  | some tree => apply composeFilter_some

theorem membersIfAny_eq (name : String) (documents : List (String × Json)) :
  membersIfAny name documents
    = [(name, Json.objectIfAny documents)].filterMap Json.presentMember
  := by
  cases documents <;> rfl

/-! ### Documents -/

mutual

/-- The document of an aggregation. -/
inductive HasDocument : Aggregation → Json → Prop
  | metric (path : List String) (kind : MetricKind) (field : FieldPath)
    (filter : Option FilterTree) (children : List (String × Aggregation)) :
    HasDocument ⟨path, some ⟨kind, .ok field⟩, filter, children⟩
      (.singleton kind.key (.singleton "field" (.string field.dotted)))
  | bucket (path : List String) {filter : Option FilterTree} {filterDocument? : Option Json}
    {children : List (String × Aggregation)} {documents : List (String × Json)}
    (hfilter : Option.Rel (fun tree document => tree.compose = .ok document) filter
      filterDocument?)
    (hchildren : HaveDocuments children documents) :
    HasDocument ⟨path, none, filter, children⟩
      (.record [("aggs", Json.objectIfAny documents), ("filter", filterDocument?)])

/-- The documents of aggregations, each under the name of its aggregation. -/
inductive HaveDocuments : List (String × Aggregation) → List (String × Json) → Prop
  | nil : HaveDocuments [] []
  | cons {name : String} {aggregation : Aggregation} {document : Json}
    {rest : List (String × Aggregation)} {documents : List (String × Json)}
    (hdocument : HasDocument aggregation document) (hrest : HaveDocuments rest documents) :
    HaveDocuments ((name, aggregation) :: rest) ((name, document) :: documents)

end

/-- The members of a bucket come in ascending order. -/
theorem ofMembers_bucket (documents : List (String × Json)) (filterDocument? : Option Json) :
  Json.ofMembers ([("filter", filterDocument?)].filterMap Json.presentMember
      ++ membersIfAny "aggs" documents)
    = .record [("aggs", Json.objectIfAny documents), ("filter", filterDocument?)]
  := by
  rw [membersIfAny_eq, ← List.filterMap_append]
  apply Json.ofMembers_eq_record
  · apply List.Perm.swap
  · simp only [List.map_cons, List.map_nil]
    decide

mutual

theorem compose_eq_ok_iff : ∀ (aggregation : Aggregation) (document : Json),
    aggregation.compose = .ok document ↔ aggregation.HasDocument document
  | ⟨path, some ⟨kind, .ok field⟩, filter, children⟩, document => by
    rw [compose_of_metric rfl]
    constructor
    · intro h
      cases h
      apply HasDocument.metric
    · rintro ⟨⟩
      rfl
  | ⟨path, some ⟨kind, .error fault⟩, filter, children⟩, document => by
    rw [compose_of_metric rfl]
    constructor
    · intro h
      cases h
    · intro h
      cases h
  | ⟨path, none, filter, children⟩, document => by
    have hchildren := composeMembers_eq_ok_iff children
    rw [compose_of_no_metric rfl, bind_eq_ok_iff]
    constructor
    · rintro ⟨members, hmembers, h⟩
      obtain ⟨documents, hdocuments, h⟩ := bind_eq_ok_iff.mp h
      rw [composeFilter_eq, composePart_eq_ok_iff] at hmembers
      obtain ⟨filterDocument?, hfilter, rfl⟩ := hmembers
      cases h
      rw [ofMembers_bucket]
      apply HasDocument.bucket path hfilter ((hchildren _).mp hdocuments)
    · intro h
      cases h with
      | @bucket _ _ filterDocument? _ documents hfilter hdocuments =>
        have hmembers : composeFilter filter
            = .ok ([("filter", filterDocument?)].filterMap Json.presentMember) := by
          rw [composeFilter_eq, composePart_eq_ok_iff]
          exact ⟨filterDocument?, hfilter, rfl⟩
        have hrest : composeMembers children = .ok documents := (hchildren _).mpr hdocuments
        refine ⟨_, hmembers, bind_eq_ok_iff.mpr ⟨documents, hrest, ?_⟩⟩
        rw [ofMembers_bucket]
        rfl

theorem composeMembers_eq_ok_iff : ∀ (aggregations : List (String × Aggregation))
    (documents : List (String × Json)),
    composeMembers aggregations = .ok documents ↔ HaveDocuments aggregations documents
  | [], documents => by
    constructor
    · intro h
      cases h
      apply HaveDocuments.nil
    · rintro ⟨⟩
      rfl
  | (name, aggregation) :: rest, documents => by
    have hfirst := compose_eq_ok_iff aggregation
    have hrest := composeMembers_eq_ok_iff rest
    rw [composeMembers_cons, bind_eq_ok_iff]
    constructor
    · rintro ⟨document, hdocument, h⟩
      obtain ⟨others, hothers, h⟩ := bind_eq_ok_iff.mp h
      cases h
      apply HaveDocuments.cons ((hfirst _).mp hdocument) ((hrest _).mp hothers)
    · intro h
      cases h with
      | cons hdocument hothers =>
        exact ⟨_, (hfirst _).mpr hdocument, bind_eq_ok_iff.mpr ⟨_, (hrest _).mpr hothers, rfl⟩⟩

end

/-! ### Errors -/

mutual

/-- The errors of an aggregation, that of the filter before those of the further aggregations. -/
def faults : Aggregation → List SearchError
  | ⟨_, some setting, _, _⟩ => errors setting.compose
  | ⟨_, none, filter, children⟩ => partErrors FilterTree.compose filter ++ childFaults children

/-- The errors of aggregations, in their order. -/
def childFaults : List (String × Aggregation) → List SearchError
  | [] => []
  | (_, aggregation) :: rest => faults aggregation ++ childFaults rest

end

mutual

/-- An aggregation fails with the first of its errors. -/
theorem error?_compose : ∀ aggregation : Aggregation,
    error? aggregation.compose = aggregation.faults.head?
  | ⟨path, some setting, filter, children⟩ => by
    rw [compose_of_metric rfl, faults, error?_eq_head?_errors]
  | ⟨path, none, filter, children⟩ => by
    rw [compose_of_no_metric rfl, faults, composeFilter_eq]
    apply error?_bind error?_composePart
    intro members _
    rw [← error?_composeMembers children]
    apply error?_map

theorem error?_composeMembers : ∀ aggregations : List (String × Aggregation),
    error? (composeMembers aggregations) = (childFaults aggregations).head?
  | [] => rfl
  | (name, aggregation) :: rest => by
    rw [composeMembers_cons, childFaults]
    apply error?_bind (error?_compose aggregation)
    intro document _
    rw [← error?_composeMembers rest]
    apply error?_map

end

/-- Nothing that the aggregation itself is configured with fails to compose. -/
structure IsFine (node : Aggregation) : Prop where
  metric : ∀ setting, node.metric = some setting → ∃ field, setting.field = .ok field
  filter : ∀ tree, node.filter = some tree → ∃ document, tree.compose = .ok document

variable {top node : Aggregation} {names : List String}

theorem childFaults_eq_nil_iff {aggregations : List (String × Aggregation)} :
  childFaults aggregations = []
    ↔ ∀ name child, (name, child) ∈ aggregations → child.faults = []
  := by
  induction aggregations with
  | nil => simp [childFaults]
  | cons entry rest ih =>
    obtain ⟨name, aggregation⟩ := entry
    rw [childFaults, List.append_eq_nil_iff, ih]
    simp [or_imp, forall_and]

theorem mem_childFaults_iff {aggregations : List (String × Aggregation)} {error : SearchError} :
  error ∈ childFaults aggregations
    ↔ ∃ name aggregation, (name, aggregation) ∈ aggregations ∧ error ∈ aggregation.faults
  := by
  induction aggregations with
  | nil => simp [childFaults]
  | cons entry rest ih =>
    obtain ⟨name, aggregation⟩ := entry
    rw [childFaults, List.mem_append, ih]
    constructor
    · rintro (hfirst | ⟨other, found, hmem, hfault⟩)
      · exact ⟨name, aggregation, List.mem_cons_self, hfirst⟩
      · exact ⟨other, found, List.mem_cons_of_mem _ hmem, hfault⟩
    · rintro ⟨other, found, hmem, hfault⟩
      rcases List.mem_cons.mp hmem with heq | hmem
      · obtain ⟨rfl, rfl⟩ := Prod.mk.inj heq
        exact Or.inl hfault
      · exact Or.inr ⟨other, found, hmem, hfault⟩

theorem nodeAt_nil_iff :
  top.NodeAt [] node ↔ node = top
  := by
  constructor
  · intro h
    generalize hnil : ([] : List String) = names at h
    cases h with
    | top => rfl
    | child => simp at hnil
  · rintro rfl
    apply NodeAt.top

/-- Names lead to a node through the aggregation of the first of them. -/
theorem nodeAt_cons_iff {name : String} :
  top.NodeAt (name :: names) node
    ↔ ∃ child, (name, child) ∈ top.children ∧ child.NodeAt names node
  := by
  constructor
  · intro h
    generalize hall : name :: names = all at h
    induction h generalizing names with
    | top => cases hall
    | @child above last node child hnode hchild ih =>
      cases above with
      | nil =>
        obtain ⟨rfl, rfl⟩ : name = last ∧ names = [] := by simpa using hall
        obtain rfl := nodeAt_nil_iff.mp hnode
        exact ⟨child, hchild, .top⟩
      | cons first above =>
        obtain ⟨rfl, rfl⟩ : name = first ∧ names = above ++ [last] := by simpa using hall
        obtain ⟨found, hfound, hbelow⟩ := ih rfl
        exact ⟨found, hfound, .child hbelow hchild⟩
  · rintro ⟨child, hchild, h⟩
    induction h with
    | top => apply NodeAt.child .top hchild
    | child _ hlast ih => apply NodeAt.child ih hlast

/-- The nodes of a tree are its top and the nodes of the trees below it. -/
theorem forall_nodeAt_iff {holds : Aggregation → Prop} :
  (∀ names node, top.NodeAt names node → holds node)
    ↔ holds top ∧ ∀ name child, (name, child) ∈ top.children →
      ∀ names node, child.NodeAt names node → holds node
  := by
  constructor
  · intro h
    use h [] top .top
    intro name child hchild names node hnode
    apply h (name :: names) node (nodeAt_cons_iff.mpr ⟨child, hchild, hnode⟩)
  · rintro ⟨htop, hbelow⟩ names node hnode
    cases names with
    | nil => rwa [nodeAt_nil_iff.mp hnode]
    | cons name names =>
      obtain ⟨child, hchild, hnode⟩ := nodeAt_cons_iff.mp hnode
      apply hbelow name child hchild names node hnode

theorem exists_metricCompose_eq_ok_iff {setting : MetricSetting} :
  (∃ document, setting.compose = .ok document) ↔ ∃ field, setting.field = .ok field
  := by
  rw [MetricSetting.compose]
  cases setting.field <;> simp

theorem HasOneMode.faults_eq_nil_iff (h : top.HasOneMode) :
  top.faults = [] ↔ top.IsFine ∧ childFaults top.children = []
  := by
  obtain ⟨path, metric, filter, children⟩ := top
  cases metric with
  | none =>
    rw [faults, List.append_eq_nil_iff, partErrors_eq_nil_iff]
    apply and_congr_left'
    exact ⟨fun hfilter => ⟨by simp, hfilter⟩, fun hfine => hfine.filter⟩
  | some setting =>
    obtain ⟨rfl, rfl⟩ : filter = none ∧ children = [] := by simpa [HasOneMode] using h
    rw [faults, errors_eq_nil_iff, exists_metricCompose_eq_ok_iff, childFaults, and_iff_left rfl]
    exact ⟨fun hmetric => ⟨by simpa using hmetric, by simp⟩, fun hfine => hfine.metric _ rfl⟩

/-- A well-formed tree has no errors exactly when each of its nodes is fine. -/
theorem WellFormed.faults_eq_nil_iff (h : top.WellFormed) :
  top.faults = [] ↔ ∀ names node, top.NodeAt names node → node.IsFine
  := by
  induction h with
  | @node top mode _ _ _ ih =>
    rw [mode.faults_eq_nil_iff, forall_nodeAt_iff, childFaults_eq_nil_iff]
    apply and_congr_right'
    constructor
    · exact fun hfaults name child hchild => (ih name child hchild).mp (hfaults name child hchild)
    · exact fun hfine name child hchild => (ih name child hchild).mpr (hfine name child hchild)

end Aggregation

end FilteredSearch
