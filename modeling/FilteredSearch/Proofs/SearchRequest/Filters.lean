import FilteredSearch.Proofs.FilterTree.Plain
import FilteredSearch.Proofs.SearchRequest.Composed

/-!
# The filters of a request

A request holds a filter of its own and those of the buckets among its aggregations.  Whatever
calls configure the request, each of these filters is built by filter scripts.  What a request
composes to is plain when its filters compose to plain documents, and a request fails to carry a
value between a document and its text only as one of its filters does.
-/

namespace FilteredSearch

open Results

/-! ### Filters of aggregations -/

namespace Aggregation

variable {top child : Aggregation} {name : String} {tree : FilterTree} {document : Json}

/-- The filter is that of a bucket of the tree of aggregations. -/
def HasFilter (top : Aggregation) (tree : FilterTree) : Prop :=
  ∃ names node, top.NodeAt names node ∧ node.filter = some tree

/-- The filters are that of the top and those below it. -/
theorem hasFilter_iff :
  top.HasFilter tree
    ↔ top.filter = some tree ∨ ∃ name child, (name, child) ∈ top.children ∧ child.HasFilter tree
  := by
  constructor
  · rintro ⟨names, node, hnode, hfilter⟩
    cases names with
    | nil =>
      obtain rfl := nodeAt_nil_iff.mp hnode
      exact Or.inl hfilter
    | cons name names =>
      obtain ⟨child, hchild, hnode⟩ := nodeAt_cons_iff.mp hnode
      exact Or.inr ⟨name, child, hchild, names, node, hnode, hfilter⟩
  · rintro (hfilter | ⟨name, child, hchild, names, node, hnode, hfilter⟩)
    · exact ⟨[], top, .top, hfilter⟩
    · exact ⟨name :: names, node, nodeAt_cons_iff.mpr ⟨child, hchild, hnode⟩, hfilter⟩

/-- What has filters is a bucket. -/
theorem HasFilter.isBucket (h : top.HasFilter tree) :
  top.isBucket = true
  := by
  rcases hasFilter_iff.mp h with hfilter | ⟨name, child, hchild, -⟩
  · simp [Aggregation.isBucket, hfilter]
  · simp [Aggregation.isBucket, List.ne_nil_of_mem hchild]

/-- The metric of an aggregation counts for nothing. -/
theorem hasFilter_withoutMetric :
  { top with metric := none }.HasFilter tree ↔ top.HasFilter tree
  := by
  rw [hasFilter_iff, hasFilter_iff]

theorem HasFilter.of_child (h : (top.child name).HasFilter tree) :
  top.HasFilter tree
  := by
  cases hfind : Keyed.find? name top.children with
  | some child =>
    rw [child_of_find? hfind] at h
    exact hasFilter_iff.mpr (Or.inr ⟨name, child, Keyed.mem_of_find?_eq_some hfind, h⟩)
  | none =>
    rw [Aggregation.child, hfind, Option.getD_none] at h
    cases h.isBucket

theorem HasFilter.of_putChild (h : (top.putChild name child).HasFilter tree) :
  top.HasFilter tree ∨ child.HasFilter tree
  := by
  rcases hasFilter_iff.mp h with hfilter | ⟨other, node, hmem, hnode⟩
  · exact Or.inl (hasFilter_iff.mpr (Or.inl hfilter))
  · rcases Keyed.mem_names_insert hmem with heq | hmem
    · obtain ⟨rfl, rfl⟩ := Prod.mk.inj heq
      exact Or.inr hnode
    · exact Or.inl (hasFilter_iff.mpr (Or.inr ⟨other, node, hmem, hnode⟩))

theorem HasFilter.of_withFilter {filter : FilterTree}
    (h : { top with filter := some filter }.HasFilter tree) :
  tree = filter ∨ top.HasFilter tree
  := by
  rcases hasFilter_iff.mp h with hfilter | hbelow
  · exact Or.inl (Option.some.inj hfilter).symm
  · exact Or.inr (hasFilter_iff.mpr (Or.inr hbelow))

end Aggregation

/-! ### What plain calls build -/

/-- The filter scripts in the script are plain. -/
def AggregationScript.IsPlain : AggregationScript → Prop
  | .done => True
  | .metric _ _ rest | .name rest | .isBucket rest | .compose rest | .unknown _ rest => rest.IsPlain
  | .subAggregate _ body rest => body.IsPlain ∧ rest.IsPlain
  | .bucketFilter body rest => body.IsPlain ∧ rest.IsPlain

theorem FilterScript.IsPlain.plainlyBuilt_filtered {body : FilterScript} (hbody : body.IsPlain)
    (strict : Bool) {filter : Option FilterTree}
    (h : ∀ tree, filter = some tree → tree.PlainlyBuilt) :
  (body.filtered strict filter).PlainlyBuilt
  := by
  have htree : (filter.getD .empty).PlainlyBuilt := by
    cases filter with
    | none => exact .empty
    | some tree => exact h tree rfl
  exact htree.run_root hbody .empty strict

theorem AggregationScript.IsPlain.plainlyBuilt_result {script : AggregationScript}
    (hscript : script.IsPlain) {top : Aggregation} {tree : FilterTree}
    (htop : ∀ tree, top.HasFilter tree → tree.PlainlyBuilt)
    (h : (script.result top).HasFilter tree) :
  tree.PlainlyBuilt
  := by
  induction script generalizing top tree with
  | done => exact htop tree h
  | metric kind field rest ih =>
    refine ih hscript ?_ h
    intro filter hfilter
    rw [Aggregation.value_withMetric] at hfilter
    cases hfilter.isBucket
  | subAggregate name body rest hbody hrest =>
    obtain ⟨hbody', hrest'⟩ := hscript
    have hbucket : ∀ filter, top.clearMetric.value.HasFilter filter → filter.PlainlyBuilt := by
      intro filter hfilter
      rw [Aggregation.value_clearMetric, Aggregation.hasFilter_withoutMetric] at hfilter
      apply htop filter hfilter
    refine hrest hrest' ?_ h
    intro filter hfilter
    rcases hfilter.of_putChild with hfilter | hfilter
    · apply hbucket filter hfilter
    · exact hbody hbody' (fun other hother => hbucket other hother.of_child) hfilter
  | bucketFilter body rest ih =>
    obtain ⟨hbody, hrest⟩ := hscript
    refine ih hrest ?_ h
    intro filter hfilter
    rw [Aggregation.value_clearMetric] at hfilter
    rcases hfilter.of_withFilter with rfl | hfilter
    · apply hbody.plainlyBuilt_filtered
      intro given hgiven
      exact htop given (Aggregation.hasFilter_iff.mpr (Or.inl hgiven))
    · exact htop filter (Aggregation.hasFilter_withoutMetric.mp hfilter)
  | name rest ih | isBucket rest ih | compose rest ih | unknown call rest ih =>
    exact ih hscript htop h

/-- The document given for the query is plain. -/
def QueryCall.IsPlain : QueryCall → Prop
  | .raw body => body.IsPlain
  | .compose | .unknown _ => True

/-- What the caller gives for the part of the request is plain. -/
def RequestCall.IsPlain : RequestCall → Prop
  | .filter body | .tryFilter body => body.IsPlain
  | .query calls => ∀ call ∈ calls, call.IsPlain
  | .aggregate _ body => body.IsPlain
  | .take _ | .skip _ | .sort _ _ | .compose | .toText | .execute _ | .unknown _ => True

namespace SearchRequest

variable {request : SearchRequest} {call : RequestCall} {calls : List RequestCall}
  {tree : FilterTree} {document : Json}

/-- The filter is that of the request or of a bucket among its aggregations. -/
def HasFilter (request : SearchRequest) (tree : FilterTree) : Prop :=
  request.filter = some tree ∨ request.outermost.HasFilter tree

/-- A plain call leaves filters that plain scripts build. -/
theorem plainlyBuilt_result (hcall : call.IsPlain)
    (hrequest : ∀ tree, request.HasFilter tree → tree.PlainlyBuilt)
    (h : (call.result request).HasFilter tree) :
  tree.PlainlyBuilt
  := by
  cases call with
  | filter body | tryFilter body =>
    rcases h with hfilter | hbelow
    · obtain rfl := Option.some.inj hfilter
      apply FilterScript.IsPlain.plainlyBuilt_filtered hcall
      exact fun given hgiven => hrequest given (Or.inl hgiven)
    · exact hrequest tree (Or.inr hbelow)
  | aggregate name body =>
    rcases h with hfilter | hbelow
    · exact hrequest tree (Or.inl hfilter)
    · have hput : (request.outermost.putChild name
          (body.result (request.outermost.child name))).HasFilter tree := hbelow
      rcases hput.of_putChild with hbelow | hbelow
      · exact hrequest tree (Or.inr hbelow)
      · refine AggregationScript.IsPlain.plainlyBuilt_result hcall ?_ hbelow
        exact fun filter hfilter => hrequest filter (Or.inr hfilter.of_child)
  | _ => exact hrequest tree h

/-- A row of plain calls leaves filters that plain scripts build. -/
theorem plainlyBuilt_results (hcalls : ∀ call ∈ calls, call.IsPlain)
    (hrequest : ∀ tree, request.HasFilter tree → tree.PlainlyBuilt)
    (h : (RequestCall.results calls request).HasFilter tree) :
  tree.PlainlyBuilt
  := by
  induction calls generalizing request with
  | nil => exact hrequest tree h
  | cons call calls ih =>
    rw [List.forall_mem_cons] at hcalls
    exact ih hcalls.2 (fun filter hfilter => plainlyBuilt_result hcalls.1 hrequest hfilter) h

end SearchRequest

/-! ### Plain documents of requests -/

namespace Aggregation

variable {top : Aggregation} {aggregations : List (String × Aggregation)}
  {documents : List (String × Json)} {document : Json}

theorem HaveDocuments.names_eq (h : HaveDocuments aggregations documents) :
  documents.map Prod.fst = aggregations.map Prod.fst
  := by
  induction aggregations generalizing documents with
  | nil =>
    cases h
    rfl
  | cons entry rest ih =>
    cases h with
    | cons _ hrest => rw [List.map_cons, List.map_cons, ih hrest]

theorem HaveDocuments.exists_of_mem (h : HaveDocuments aggregations documents) {name : String}
    (hmem : (name, document) ∈ documents) :
  ∃ aggregation, (name, aggregation) ∈ aggregations ∧ aggregation.HasDocument document
  := by
  induction aggregations generalizing documents with
  | nil =>
    cases h
    cases hmem
  | cons entry rest ih =>
    cases h with
    | @cons _ aggregation _ _ _ hdocument hrest =>
      rcases List.mem_cons.mp hmem with heq | hmem
      · obtain ⟨rfl, rfl⟩ := Prod.mk.inj heq
        exact ⟨aggregation, List.mem_cons_self, hdocument⟩
      · obtain ⟨other, hother, hdocument⟩ := ih hrest hmem
        exact ⟨other, List.mem_cons_of_mem _ hother, hdocument⟩

/-- The object of the documents of aggregations is plain when each of them is. -/
theorem HaveDocuments.plainIfAny_objectIfAny (h : HaveDocuments aggregations documents)
    (hascending : Keyed.Ascending aggregations)
    (hplain : ∀ name aggregation, (name, aggregation) ∈ aggregations →
      ∀ document, aggregation.HasDocument document → document.IsPlain) :
  Json.PlainIfAny (Json.objectIfAny documents)
  := by
  apply Json.plainIfAny_objectIfAny
  · apply List.pairwise_map.mp
    rw [h.names_eq]
    exact List.pairwise_map.mpr hascending
  · rintro ⟨name, member⟩ hmember
    obtain ⟨aggregation, haggregation, hmember⟩ := h.exists_of_mem hmember
    apply hplain name aggregation haggregation member hmember

/-- What aggregations compose to is plain when their filters compose to plain documents. -/
theorem WellFormed.isPlain_of_hasDocument (hwf : top.WellFormed)
    (hfilters : ∀ tree, top.HasFilter tree → ∀ document, tree.compose = .ok document →
      document.IsPlain)
    (h : top.HasDocument document) :
  document.IsPlain
  := by
  induction hwf generalizing document with
  | @node top _ ascending _ _ ih =>
    cases h with
    | metric path kind field =>
      apply ((Json.IsPlain.string field.dotted).singleton "field").singleton kind.key
    | @bucket path filter filterDocument? children documents hfilter hchildren =>
      have hbelow : Json.PlainIfAny (Json.objectIfAny documents) := by
        apply hchildren.plainIfAny_objectIfAny ascending
        intro name child hchild composed hcomposed
        refine ih name child hchild ?_ hcomposed
        intro tree htree
        exact hfilters tree (hasFilter_iff.mpr (Or.inr ⟨name, child, hchild, htree⟩))
      have hown : Json.PlainIfAny filterDocument? := by
        apply Json.plainIfAny_of_rel hfilter
        exact fun tree htree => hfilters tree (hasFilter_iff.mpr (Or.inl htree))
      apply Json.IsPlain.record
      · simp only [List.map_cons, List.map_nil]
        decide
      · simp only [List.forall_mem_cons]
        exact ⟨hbelow, hown, List.forall_mem_nil _⟩

end Aggregation

namespace SearchRequest

variable {request : SearchRequest} {document : Json}

theorem plainIfAny_positive? (amount : Int64) :
  Json.PlainIfAny (positive? amount)
  := by
  rw [positive?]
  split
  · apply (Json.IsPlain.ofInt64 amount).plainIfAny
  · rintro _ ⟨⟩

/-- The array of the documents of sort directives is plain. -/
theorem SortDocuments.plainIfAny_arrayIfAny {keys : List SortKey} {directives : List Json}
    (h : SortDocuments keys directives) :
  Json.PlainIfAny (arrayIfAny directives)
  := by
  have hplain : ∀ directive ∈ directives, directive.IsPlain := by
    induction h with
    | nil => apply List.forall_mem_nil
    | @cons key directive keys directives hdirective _ ih =>
      obtain ⟨path, -, rfl⟩ := hdirective
      have hfirst := ((Json.IsPlain.string key.order.name).singleton "order").singleton path.dotted
      exact List.forall_mem_cons.mpr ⟨hfirst, ih⟩
  rw [arrayIfAny]
  split
  · rintro _ ⟨⟩
  · apply (Json.IsPlain.array hplain).plainIfAny

/-- What a request composes to is plain when its filters compose to plain documents and the document
given for the query is plain. -/
theorem isPlain_of_hasDocument (hwf : request.outermost.WellFormed)
    (hfilters : ∀ tree, request.HasFilter tree → ∀ document, tree.compose = .ok document →
      document.IsPlain)
    (hquery : ∀ query, request.query = some query → ∀ body, query.body = some body → body.IsPlain)
    (h : request.HasDocument document) :
  document.IsPlain
  := by
  cases h with
  | @intro filter? query? aggregations directives hfilter hbody haggregations _ hsort =>
    have hfiltered : (Json.record [("filter", filter?), ("query", query?)]).IsPlain := by
      apply Json.IsPlain.record
      · simp only [List.map_cons, List.map_nil]
        decide
      · simp only [List.forall_mem_cons]
        refine ⟨Json.plainIfAny_of_rel hfilter ?_, Json.plainIfAny_of_rel hbody hquery,
          List.forall_mem_nil _⟩
        exact fun tree htree => hfilters tree (Or.inl htree)
    have hbelow : Json.PlainIfAny (Json.objectIfAny aggregations) := by
      apply haggregations.plainIfAny_objectIfAny hwf.ascending
      intro name child hchild composed hcomposed
      refine (hwf.of_mem hchild).1.isPlain_of_hasDocument ?_ hcomposed
      intro tree htree
      exact hfilters tree
        (Or.inr (Aggregation.hasFilter_iff.mpr (Or.inr ⟨name, child, hchild, htree⟩)))
    apply Json.IsPlain.record
    · simp only [List.map_cons, List.map_nil]
      decide
    · simp only [List.forall_mem_cons]
      exact ⟨hbelow, plainIfAny_positive? _, (hfiltered.singleton "filtered").plainIfAny,
        plainIfAny_positive? _, hsort.plainIfAny_arrayIfAny, List.forall_mem_nil _⟩

end SearchRequest

/-! ### Conversion errors of requests -/

namespace Aggregation

/-- Aggregations fail to convert only as their filters do. -/
theorem WellFormed.exists_hasFilter_of_conversion {top : Aggregation} (hwf : top.WellFormed)
    {reason : String} (h : .conversion reason ∈ top.faults) :
  ∃ tree, top.HasFilter tree ∧ tree.compose = .error (.conversion reason)
  := by
  induction hwf with
  | @node top _ _ _ _ ih =>
    obtain ⟨path, metric, filter, children⟩ := top
    cases metric with
    | some setting =>
      obtain ⟨kind, field⟩ := setting
      rw [faults, mem_errors_iff] at h
      cases field <;> cases h
    | none =>
      rw [faults, List.mem_append, mem_partErrors_iff, mem_childFaults_iff] at h
      rcases h with ⟨tree, hfilter, hfails⟩ | ⟨name, child, hchild, hfault⟩
      · exact ⟨tree, hasFilter_iff.mpr (Or.inl hfilter), hfails⟩
      · obtain ⟨tree, htree, hfails⟩ := ih name child hchild hfault
        exact ⟨tree, hasFilter_iff.mpr (Or.inr ⟨name, child, hchild, htree⟩), hfails⟩

end Aggregation

/-- A request fails to convert only as one of its filters does. -/
theorem SearchRequest.exists_hasFilter_of_conversion {request : SearchRequest}
    (hwf : request.outermost.WellFormed) {reason : String}
    (h : request.compose = .error (.conversion reason)) :
  ∃ tree, request.HasFilter tree ∧ tree.compose = .error (.conversion reason)
  := by
  have hmem : .conversion reason ∈ request.faults := by
    apply List.mem_of_mem_head?
    rw [← error?_compose, h]
    rfl
  simp only [faults, List.mem_append, mem_partErrors_iff] at hmem
  rcases hmem with (((⟨tree, hfilter, hfails⟩ | ⟨query, -, hfails⟩) | hbelow) | hsize) | hsort
  · exact ⟨tree, Or.inl hfilter, hfails⟩
  · rw [Query.compose] at hfails
    cases hbody : query.body <;> simp [hbody] at hfails
  · obtain ⟨name, child, hchild, hfault⟩ := Aggregation.mem_childFaults_iff.mp hbelow
    obtain ⟨tree, htree, hfails⟩ :=
      (hwf.of_mem hchild).1.exists_hasFilter_of_conversion hfault
    exact ⟨tree, Or.inr (Aggregation.hasFilter_iff.mpr (Or.inr ⟨name, child, hchild, htree⟩)), hfails⟩
  · rw [sizeFaults] at hsize
    cases hmax : request.limit.max with
    | none => simp [hmax] at hsize
    | some max =>
      simp only [hmax] at hsize
      split at hsize <;> simp at hsize
  · obtain ⟨key, -, hfails⟩ := List.mem_flatMap.mp hsort
    rw [mem_errors_iff, SortKey.compose] at hfails
    cases hfield : key.field <;> simp [hfield, SearchError.ofPathFault] at hfails

end FilteredSearch
