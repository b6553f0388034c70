import FilteredSearch.Decode.Record
import FilteredSearch.Proofs.Json.Record
import FilteredSearch.Proofs.Results

/-!
# Documents with further members

A document is widened by members that are put into the objects which stand for records, under names
that are no fields of theirs.  A codec reads a value back when it decodes every document to which the
document of the value may be widened.  The layout of a record reads its values back when the codecs
of the fields do.
-/

namespace FilteredSearch

/-- The documents to which a document may be widened. -/
abbrev Widening := Json → Json → Prop

namespace Widening

/-- The document stays as it is. -/
def exact : Widening := fun document wider => wider = document

/-- The items of an array are widened. -/
def rows (item : Widening) : Widening := fun document wider =>
  ∃ items widerItems, document = .array items ∧ wider = .array widerItems
    ∧ List.Forall₂ item items widerItems

/-- The fields of a record are widened, and further members stand among them, under names that are
no fields. -/
def record (fields : List (String × Widening)) : Widening := fun document wider =>
  ∃ members widerMembers, document = .object members ∧ wider = .object widerMembers
    ∧ Keyed.Ascending widerMembers
    ∧ (∀ name value, (name, value) ∈ members → ∃ field widerValue, (name, field) ∈ fields
      ∧ (name, widerValue) ∈ widerMembers ∧ field value widerValue)
    ∧ ∀ name ∈ widerMembers.map Prod.fst, name ∉ members.map Prod.fst →
      name ∉ fields.map Prod.fst

/-- The fields of the record with the names, none of them widened. -/
def plain (names : List String) : List (String × Widening) := names.map fun name => (name, exact)

end Widening

variable {σ α β : Type}

/-- The codec decodes every document to which the document of the value is widened. -/
def Codec.ReadsBack (codec : Codec α) (widening : Widening) (value : α) : Prop :=
  ∀ document, widening (codec.encode value) document → codec.decode document = .ok value

/-- The layout writes its fields under its names, and reads its value from every object in which
the fields are widened. -/
structure Record.ReadsBack (layout : Record σ α) (fields : List (String × Widening)) (record : σ)
    (value : α) : Prop where
  names_eq : (layout.toMembers record).map Prod.fst = layout.names
  reads : ∀ members, Keyed.Ascending members →
    (∀ name value, (name, value) ∈ layout.toMembers record → ∃ field widerValue,
      (name, field) ∈ fields ∧ (name, widerValue) ∈ members ∧ field value widerValue) →
    layout.reader.ofMembers members = .ok value

/-! ### Members under their names -/

/-- In an object with ascending names a member is the only one with its name. -/
theorem FieldReader.occurrences_of_mem {κ : Type} {name : String} {value : κ}
    {members : List (String × κ)} (hascending : Keyed.Ascending members)
    (hmem : (name, value) ∈ members) :
  ∃ place, occurrences name members = [(place, value)]
  := by
  obtain ⟨before, after, rfl⟩ := List.append_of_mem hmem
  have hbefore : ∀ member ∈ before, member.1 ≠ name := by
    rintro member hmember rfl
    have hlt := (List.pairwise_append.mp hascending).2.2 member hmember (member.1, value)
      List.mem_cons_self
    apply String.lt_irrefl _ hlt
  have hafter : ∀ member ∈ after, member.1 ≠ name := by
    rintro member hmember rfl
    have htail := (List.pairwise_append.mp hascending).2.1
    apply String.lt_irrefl _ ((List.pairwise_cons.mp htail).1 member hmember)
  -- Members with other names do not occur, whatever their places.
  have hnone : ∀ {others : List (String × κ)} {select : (String × κ) × Nat → Option (Nat × κ)}
      start, (∀ member ∈ others, ∀ place, select (member, place) = none) →
      (others.zipIdx start).filterMap select = [] := by
    intro others select start hothers
    rw [List.filterMap_eq_nil_iff]
    rintro ⟨member, place⟩ hmember
    apply hothers member (List.fst_mem_of_mem_zipIdx hmember)
  refine ⟨before.length, ?_⟩
  rw [occurrences, List.zipIdx_append, List.filterMap_append, hnone, List.zipIdx_cons,
    List.filterMap_cons, hnone]
  · simp
  · intro member hmember place
    simp [hafter member hmember]
  · intro member hmember place
    simp [hbefore member hmember]

/-! ### Codecs -/

namespace Codec

variable {codec : Codec α} {value : α} {item : Widening}

theorem DecodesTo.readsBack (h : codec.DecodesTo value) :
  codec.ReadsBack .exact value
  := by
  rintro _ rfl
  exact h

theorem nullable_decodesTo (h : codec.DecodesTo value) (hnull : codec.encode value ≠ .null) :
  codec.nullable.DecodesTo (some value)
  := by
  rw [DecodesTo] at h ⊢
  simp only [nullable, h]
  rfl

theorem members_decodesTo {members : List (String × Json)}
    (h : (Json.object members).IsCanonical) :
  Codec.members.DecodesTo members
  := by
  obtain ⟨hascending, hvalues⟩ := h
  simp only [DecodesTo, Codec.members, Json.canonicalMembers_eq_self _ hvalues,
    Keyed.ofList_eq_self hascending]

/-- Rows of values are read back when each of the values is. -/
theorem list_readsBack {values : List α} (h : ∀ value ∈ values, codec.ReadsBack item value) :
  codec.list.ReadsBack (.rows item) values
  := by
  rintro _ ⟨_, widerItems, hitems, rfl, hwider⟩
  cases hitems
  rw [List.forall₂_map_left_iff] at hwider
  apply Results.mapM_eq_ok_iff.mpr
  induction hwider with
  | nil => exact .nil
  | cons hitem _ ih =>
    obtain ⟨hvalue, hvalues⟩ := List.forall_mem_cons.mp h
    exact .cons (hvalue _ hitem) (ih hvalues)

end Codec

/-! ### Layouts -/

namespace Record

variable {fields : List (String × Widening)} {record : σ}

theorem readsBack_pure (value : α) :
  (pure value : Record σ α).ReadsBack fields record value
  where
  names_eq := rfl
  reads _ _ _ := rfl

theorem ReadsBack.seq {f : Record σ (α → β)} {x : Record σ α} {apply : α → β} {value : α}
    (hf : f.ReadsBack fields record apply) (hx : x.ReadsBack fields record value) :
  (f <*> x).ReadsBack fields record (apply value)
  where
  names_eq := by
    show (f.toMembers record ++ x.toMembers record).map Prod.fst = f.names ++ x.names
    rw [List.map_append, hf.names_eq, hx.names_eq]
  reads members hascending hfields := by
    have hleft := hf.reads members hascending fun name value hmem =>
      hfields name value (List.mem_append_left _ hmem)
    have hright := hx.reads members hascending fun name value hmem =>
      hfields name value (List.mem_append_right _ hmem)
    show (f.reader.ofMembers members).apply (x.reader.ofMembers members) = .ok (apply value)
    rw [hleft, hright]
    rfl

theorem ReadsBack.map {x : Record σ α} {value : α} (f : α → β)
    (hx : x.ReadsBack fields record value) :
  (f <$> x).ReadsBack fields record (f value)
  := (readsBack_pure f).seq hx

/-- A field is read back when its codec reads its value back. -/
theorem readsBack_field {name : String} {codec : Codec α} {get : σ → α} {absence : Absence α}
    (h : ∀ field, (name, field) ∈ fields → codec.ReadsBack field (get record)) :
  (Record.field name codec get absence).ReadsBack fields record (get record)
  where
  names_eq := rfl
  reads members hascending hfields := by
    obtain ⟨field, wider, hfield, hmem, hwider⟩ :=
      hfields name (codec.encode (get record)) (List.mem_singleton_self _)
    obtain ⟨place, hplace⟩ := FieldReader.occurrences_of_mem hascending hmem
    simp only [Record.field, FieldReader.field, hplace, h field hfield wider hwider]

/-- A field that is not widened is read back when its codec decodes what it encodes. -/
theorem readsBack_plainField {names : List String} {name : String} {codec : Codec α}
    {get : σ → α} {absence : Absence α} (h : codec.DecodesTo (get record)) :
  (Record.field name codec get absence).ReadsBack (Widening.plain names) record (get record)
  := by
  apply readsBack_field
  intro field hfield
  obtain ⟨_, -, heq⟩ := List.mem_map.mp hfield
  cases heq
  exact h.readsBack

/-- A record is read back when its layout reads its fields back. -/
theorem ReadsBack.codec {layout : Record σ σ} {name : String}
    (h : layout.ReadsBack fields record record) (hnames : layout.names = fields.map Prod.fst)
    (hnodup : (fields.map Prod.fst).Nodup) :
  (layout.codec name).ReadsBack (.record fields) record
  := by
  rintro _ ⟨_, widerMembers, hmembers, rfl, hascending, hfields, -⟩
  cases hmembers
  have hmap : (layout.toMembers record).map Prod.fst = fields.map Prod.fst :=
    h.names_eq.trans hnames
  have hread := h.reads widerMembers hascending fun fieldName value hmem => by
    apply hfields
    apply Keyed.mem_of_find?_eq_some
    rwa [Keyed.find?_ofList_iff (hmap ▸ hnodup)]
  simp only [Record.codec, decode, hread]
  rfl

end Record

end FilteredSearch
