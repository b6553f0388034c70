import FilteredSearch.Proofs.Json.RoundTrip
import FilteredSearch.Proofs.SearchRequest.Filters

/-!
# The texts of filters and requests

A call that writes a text composes first, and fails when that fails.  If callers give only plain
documents, then what is composed is plain, and so the text that is written holds that document and
nothing else.  Writing the text itself never fails.
-/

namespace FilteredSearch

/-- The text is that of what was composed: the error, if composing failed, and otherwise a text
that holds the document. -/
structure IsTextOf (text : Except SearchError String) (composed : Except SearchError Json) :
    Prop where
  error_iff : ∀ error, text = .error error ↔ composed = .error error
  holds : ∀ written, text = .ok written →
    ∃ document, composed = .ok document ∧ Json.ofText? written = some document

theorem isTextOf_toText {composed : Except SearchError Json}
    (h : ∀ document, composed = .ok document → document.IsPlain) :
  IsTextOf (composed.map Json.toText) composed
  where
  error_iff _ := Results.map_eq_error_iff
  holds written hwritten := by
    obtain ⟨document, hdocument, rfl⟩ := Results.map_eq_ok_iff.mp hwritten
    exact ⟨document, hdocument, Json.ofText?_toText (h document hdocument)⟩

namespace FilterTree

variable {tree : FilterTree} {id : Nat}

theorem PlainlyBuilt.isPlain_of_composeAt (h : tree.PlainlyBuilt) (id : Nat) {document : Json}
    (hdocument : tree.composeAt id = .ok document) :
  document.IsPlain
  := by
  apply h.isPlain.of_composeAt h.wellFormed _ hdocument
  by_contra hid
  rw [composeAt_of_size_le (Nat.le_of_not_lt hid)] at hdocument
  cases hdocument

/-- Only a caller's own composition brings a conversion error into a tree. -/
theorem brings_of_conversion (hwf : tree.WellFormed) {reason : String}
    (herror : tree.composeAt id = .error (.conversion reason)) :
  tree.Brings (.conversion reason)
  := by
  by_cases hid : id < tree.size
  · by_cases hpart : tree.IsPart id
    · obtain ⟨family, hpart⟩ := isPart_iff_exists_isPartOf.mp hpart
      rw [hpart.composeAt_eq hwf] at herror
      cases herror
    · apply (isOfFilters_or_brings hwf hid hpart herror).resolve_left
      rintro ⟨⟩
  · rw [composeAt_of_size_le (Nat.le_of_not_lt hid)] at herror
    cases herror

end FilterTree

namespace SearchRequest

variable {calls : List RequestCall}

/-- The request for everything has no filters. -/
theorem not_hasFilter_empty (limit : PageLimit) (tree : FilterTree) :
  ¬(empty limit).HasFilter tree
  := by
  rintro (hfilter | hbelow)
  · cases hfilter
  · cases hbelow.isBucket

theorem isPlain_of_mem_bodies {call : RequestCall} (hcall : call.IsPlain) {body : Json}
    (h : body ∈ call.bodies) :
  body.IsPlain
  := by
  cases call with
  | query calls =>
    obtain ⟨made, hmade, hbody⟩ := List.mem_filterMap.mp h
    have hplain := hcall made hmade
    cases made with
    | raw given =>
      obtain rfl := Option.some.inj hbody
      exact hplain
    | compose | unknown _ => cases hbody
  | _ => cases h

/-- The filters that plain calls leave are built by plain scripts. -/
theorem plainlyBuilt_of_hasFilter (hcalls : ∀ call ∈ calls, call.IsPlain) {limit : PageLimit}
    {session : MetricSession} {tree : FilterTree}
    (h : (RequestCall.runAll calls (.empty limit) session).1.HasFilter tree) :
  tree.PlainlyBuilt
  := by
  rw [RequestCall.fst_runAll] at h
  apply plainlyBuilt_results hcalls _ h
  intro other hother
  exact absurd hother (not_hasFilter_empty limit other)

/-- What plain calls leave composes to a plain document. -/
theorem isPlain_of_compose (hcalls : ∀ call ∈ calls, call.IsPlain) {limit : PageLimit}
    {session : MetricSession} {document : Json}
    (h : (RequestCall.runAll calls (.empty limit) session).1.compose = .ok document) :
  document.IsPlain
  := by
  have hwf := wellFormed_outermost_runAll calls limit session
  apply isPlain_of_hasDocument hwf _ _ (compose_eq_ok_iff.mp h)
  · intro tree htree composed hcomposed
    rw [FilterTree.compose_eq] at hcomposed
    apply (plainlyBuilt_of_hasFilter hcalls htree).isPlain_of_composeAt _ hcomposed
  · intro query hquery body hbody
    rw [RequestCall.fst_runAll] at hwf hquery
    rw [(builtBy_results limit calls hwf).body_eq query hquery] at hbody
    obtain ⟨call, hcall, hmem⟩ := List.mem_flatMap.mp (List.mem_of_getLast? hbody)
    apply isPlain_of_mem_bodies (hcalls call hcall) hmem

end SearchRequest

/-- If callers give only plain documents, then a text that a handle on a filter, a filter tree or a
request writes is that of what the same composes to at the same time.  It fails to convert only if a
caller's own composition brings that error into one of the filters. -/
theorem texts_hold_documents :
  (∀ {tree : FilterTree}, tree.PlainlyBuilt →
      (∀ (handle : Handle) (rest : FilterScript) (build : FilterBuild), build.tree = tree →
        ∃ text, IsTextOf text (tree.composeAt handle.id)
          ∧ (∀ reason, text = .error (.conversion reason) → tree.Brings (.conversion reason))
          ∧ (FilterScript.toText rest).run handle build
            = rest.run handle (build.report (.text "to_json" text))
          ∧ (FilterScript.compose rest).run handle build
            = rest.run handle (build.report (.document "compose" (tree.composeAt handle.id))))
      ∧ IsTextOf tree.toText tree.compose
      ∧ ∀ reason, tree.toText = .error (.conversion reason) → tree.Brings (.conversion reason))
    ∧ ∀ {calls : List RequestCall}, (∀ call ∈ calls, call.IsPlain) → ∀ limit session,
      let request := (RequestCall.runAll calls (.empty limit) session).1
      (∀ tree, request.HasFilter tree → tree.PlainlyBuilt)
        ∧ ∀ later : MetricSession, ∃ text entries, IsTextOf text request.compose
          ∧ (∀ reason, text = .error (.conversion reason) →
            ∃ tree, request.HasFilter tree ∧ tree.Brings (.conversion reason))
          ∧ RequestCall.toText.run request later
            = (request, (later.log entries).report (.text "to_json" text))
          ∧ RequestCall.compose.run request later
            = (request, (later.log entries).report (.document "compose" request.compose))
  := by
  constructor
  · intro tree htree
    have hbrings : ∀ id reason,
        (tree.composeAt id).map Json.toText = .error (.conversion reason) →
          tree.Brings (.conversion reason) := by
      intro id reason herror
      apply FilterTree.brings_of_conversion htree.wellFormed (Results.map_eq_error_iff.mp herror)
    refine ⟨?_, ?_, ?_⟩
    · rintro handle rest build rfl
      refine ⟨_, isTextOf_toText ?_, hbrings handle.id, rfl, rfl⟩
      intro document hdocument
      apply htree.isPlain_of_composeAt handle.id hdocument
    · apply isTextOf_toText
      intro document hdocument
      rw [FilterTree.compose_eq] at hdocument
      apply htree.isPlain_of_composeAt FilterTree.root hdocument
    · rw [FilterTree.toText, FilterTree.compose_eq]
      apply hbrings FilterTree.root
  · intro calls hcalls limit session request
    refine ⟨fun tree htree => SearchRequest.plainlyBuilt_of_hasFilter hcalls htree, ?_⟩
    intro later
    refine ⟨_, request.composed.entries, isTextOf_toText ?_, ?_, rfl, rfl⟩
    · intro document hdocument
      apply SearchRequest.isPlain_of_compose hcalls hdocument
    · intro reason herror
      obtain ⟨tree, htree, hfails⟩ := SearchRequest.exists_hasFilter_of_conversion
        (SearchRequest.wellFormed_outermost_runAll calls limit session)
        (Results.map_eq_error_iff.mp herror)
      rw [FilterTree.compose_eq] at hfails
      have hwf := (SearchRequest.plainlyBuilt_of_hasFilter hcalls htree).wellFormed
      exact ⟨tree, htree, FilterTree.brings_of_conversion hwf hfails⟩

/-- A query with quotation marks, a backslash, control characters and a letter beyond ASCII. -/
def quotedBody : Json :=
  .singleton "say \"é\"" (.array [.string "\\\n\x01", .ofInt64 (-3), .null])

theorem isPlain_quotedBody :
  quotedBody.IsPlain
  := by
  apply Json.IsPlain.singleton
  apply Json.IsPlain.array
  simp only [List.forall_mem_cons, List.not_mem_nil, false_implies, implies_true, and_true]
  exact ⟨.string _, .ofInt64 _, .null⟩

theorem texts_hold_documents_quotedBody :
  let calls := [RequestCall.query [.raw quotedBody]]
  let request := (RequestCall.runAll calls (.empty .standard) .empty).1
  FilterTree.treeOfOrs.PlainlyBuilt
    ∧ IsTextOf FilterTree.treeOfOrs.toText FilterTree.treeOfOrs.compose
    ∧ (∀ call ∈ calls, call.IsPlain)
    ∧ ∃ written entries, RequestCall.toText.run request .empty
        = (request, (MetricSession.empty.log entries).report (.text "to_json" (.ok written)))
      ∧ Json.ofText? written
        = some (.singleton "query" (.singleton "filtered" (.singleton "query" quotedBody)))
  := by
  intro calls request
  have htree : FilterTree.treeOfOrs.PlainlyBuilt := by
    apply FilterTree.PlainlyBuilt.empty.run_root
    simp [FilterTree.twoOrsInMust, FilterScript.IsPlain, FilterScript.Every, Leaf.IsPlain]
  have hcalls : ∀ call ∈ calls, call.IsPlain := by
    simp [calls, RequestCall.IsPlain, QueryCall.IsPlain, isPlain_quotedBody]
  obtain ⟨hfilters, hrequests⟩ := texts_hold_documents
  obtain ⟨-, hcall⟩ := hrequests hcalls .standard .empty
  obtain ⟨text, entries, htext, -, hrun, -⟩ := hcall .empty
  have hcompose : request.compose
      = .ok (.singleton "query" (.singleton "filtered" (.singleton "query" quotedBody))) := rfl
  refine ⟨htree, (hfilters htree).2.1, hcalls, ?_⟩
  cases text with
  | error error => cases hcompose.symm.trans ((htext.error_iff error).mp rfl)
  | ok written =>
    obtain ⟨document, hdocument, hread⟩ := htext.holds written rfl
    cases hcompose.symm.trans hdocument
    exact ⟨written, entries, hrun, hread⟩

end FilteredSearch
