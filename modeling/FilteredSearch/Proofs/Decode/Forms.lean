import FilteredSearch.Proofs.Decode.Lookup

/-!
# Forms of documents

A codec accepts the documents of a form when it decodes these and no others.  A record is accepted
as an object in which every required field stands and every field that stands there has its form,
or as an array of the fields in order.
-/

namespace FilteredSearch

variable {σ α β : Type}

/-! ### Forms of documents -/

namespace Json

/-- The document is an unsigned integer. -/
def IsUnsigned : Json → Prop
  | .number (.integer value _) => 0 ≤ value
  | _ => False

/-- The document is a number. -/
def IsNumber : Json → Prop
  | .number _ => True
  | _ => False

/-- The document is null or has the form. -/
def IsNullOr (form : Json → Prop) (document : Json) : Prop := document = .null ∨ form document

/-- What stands for a field of a record. -/
structure Field where
  name : String
  /-- The field must stand among the members of an object. -/
  required : Bool
  form : Json → Prop

/-- The members of an object have the field, if it is required, and in its form. -/
def Field.StandsIn (field : Field) (members : List (String × Json)) : Prop :=
  match Keyed.find? field.name members with
  | none => field.required = false
  | some document => field.form document

/-- A required field stands among the members, in its form. -/
theorem Field.StandsIn.exists_of_required {field : Field} {members : List (String × Json)}
    (h : field.StandsIn members) (hrequired : field.required = true) :
  ∃ value, Keyed.find? field.name members = some value ∧ field.form value
  := by
  rw [StandsIn] at h
  split at h
  · simp [hrequired] at h
  · next value hfound => exact ⟨value, hfound, h⟩

/-- The document is a record with the fields. -/
inductive IsRecord (fields : List Field) : Json → Prop
  | object {members : List (String × Json)} (h : ∀ field ∈ fields, field.StandsIn members) :
    IsRecord fields (.object members)
  | array {items : List Json} (h : List.Forall₂ (fun item field => field.form item) items fields) :
    IsRecord fields (.array items)

end Json

open Json

/-- The codec decodes the documents of the form and no others. -/
def Codec.Accepts (codec : Codec α) (form : Json → Prop) : Prop :=
  ∀ document, document.IsCanonical → ((∃ value, codec.decode document = .ok value) ↔ form document)

/-- The layout reads the fields and nothing else. -/
structure Record.Accepts (layout : Record σ α) (fields : List Field) : Prop where
  members_iff : ∀ members, (Json.object members).IsCanonical →
    ((∃ value, layout.reader.ofMembers members = .ok value)
      ↔ ∀ field ∈ fields, field.StandsIn members)
  items_iff : ∀ position items further, (Json.array items).IsCanonical →
    ((∃ value next, layout.reader.ofItems ⟨position, items⟩ = .ok (value, ⟨next, further⟩))
      ↔ ∃ taken, items = taken ++ further
        ∧ List.Forall₂ (fun item field => field.form item) taken fields)

/-! ### Parts that are read one after the other -/

theorem Json.areCanonical_append {items more : List Json} :
  AreCanonical (items ++ more) ↔ AreCanonical items ∧ AreCanonical more
  := by
  induction items with
  | nil => simp [AreCanonical]
  | cons item items ih => simp [AreCanonical, ih, and_assoc]

theorem Verdict.exists_apply_eq_ok_iff {ε : Type} {f : Verdict ε (α → β)} {x : Verdict ε α} :
  (∃ value, f.apply x = .ok value) ↔ (∃ g, f = .ok g) ∧ ∃ value, x = .ok value
  := by
  cases f with
  | ok f => cases x <;> simp [apply]
  | error fault =>
    cases x with
    | ok value => simp [apply]
    | error other =>
      rw [apply]
      split <;> simp

theorem Verdict.toExcept_eq_ok_iff {ε : Type} {verdict : Verdict ε α} {value : α} :
  verdict.toExcept = .ok value ↔ verdict = .ok value
  := by
  cases verdict <;> simp [toExcept, Except.mapError]

/-! ### Codecs -/

namespace Codec

theorem unsigned_accepts :
  unsigned.Accepts IsUnsigned
  := by
  intro document _
  cases document with
  | number value =>
    cases value with
    | integer value fits =>
      by_cases h : 0 ≤ value <;> simp [unsigned, scalar, IsUnsigned, h]
    | real => simp [unsigned, scalar, IsUnsigned, mismatch]
  | null | bool | string | array | object => simp [unsigned, scalar, IsUnsigned, mismatch]

theorem double_accepts :
  double.Accepts IsNumber
  := by
  intro document _
  cases document <;> simp [double, scalar, IsNumber, mismatch]

theorem Accepts.nullable {codec : Codec α} {form : Json → Prop} (h : codec.Accepts form) :
  codec.nullable.Accepts (IsNullOr form)
  := by
  intro document hcanonical
  rw [IsNullOr, ← h document hcanonical]
  cases document with
  | null => simp [Codec.nullable]
  | bool | number | string | array | object => simp [Codec.nullable]

end Codec

/-! ### Layouts -/

namespace Record

variable {fields others : List Field}

theorem accepts_pure (value : α) :
  (pure value : Record σ α).Accepts []
  where
  members_iff members _ := by
    simp only [List.not_mem_nil, false_imp_iff, implies_true, iff_true]
    exact ⟨value, rfl⟩
  items_iff position items further _ := by
    constructor
    · rintro ⟨_, _, h⟩
      cases h
      exact ⟨[], rfl, .nil⟩
    · rintro ⟨taken, rfl, h⟩
      cases h
      exact ⟨value, position, rfl⟩

theorem Accepts.seq {f : Record σ (α → β)} {x : Record σ α} (hf : f.Accepts fields)
    (hx : x.Accepts others) :
  (f <*> x).Accepts (fields ++ others)
  where
  members_iff members hcanonical := by
    rw [List.forall_mem_append, ← hf.members_iff members hcanonical,
      ← hx.members_iff members hcanonical]
    exact Verdict.exists_apply_eq_ok_iff
  items_iff position items further hcanonical := by
    show (∃ value next, ((f.reader.ofItems ⟨position, items⟩) >>= fun (apply, rest) =>
      x.reader.ofItems rest >>= fun (value, rest) => pure (apply value, rest))
        = .ok (value, ⟨next, further⟩)) ↔ _
    constructor
    · rintro ⟨value, next, h⟩
      obtain ⟨⟨apply, between, rest⟩, hread, h⟩ := Results.bind_eq_ok_iff.mp h
      obtain ⟨⟨argument, last⟩, hread', h⟩ := Results.bind_eq_ok_iff.mp h
      cases h
      obtain ⟨taken, rfl, htaken⟩ :=
        (hf.items_iff position items rest hcanonical).mp ⟨_, _, hread⟩
      have hrest : (Json.array rest).IsCanonical := (Json.areCanonical_append.mp hcanonical).2
      obtain ⟨taken', rfl, htaken'⟩ :=
        (hx.items_iff between rest further hrest).mp ⟨_, _, hread'⟩
      exact ⟨taken ++ taken', (List.append_assoc ..).symm, List.rel_append htaken htaken'⟩
    · rintro ⟨taken, rfl, htaken⟩
      let first := taken.take fields.length
      let second := taken.drop fields.length
      have hsplit : taken ++ further = first ++ (second ++ further) := by
        rw [← List.append_assoc, List.take_append_drop]
      rw [hsplit] at hcanonical ⊢
      obtain ⟨g, between, hread⟩ := (hf.items_iff position _ _ hcanonical).mpr
        ⟨first, rfl, List.forall₂_take_append taken fields others htaken⟩
      obtain ⟨argument, next, hread'⟩ := (hx.items_iff between _ further
        (Json.areCanonical_append.mp hcanonical).2).mpr
        ⟨second, rfl, List.forall₂_drop_append taken fields others htaken⟩
      refine ⟨g argument, next, ?_⟩
      simp only [hread, hread', bind, Except.bind, pure, Except.pure]

theorem Accepts.map {x : Record σ α} (f : α → β) (hx : x.Accepts fields) :
  (f <$> x).Accepts fields
  := (accepts_pure f).seq hx

theorem accepts_field {name : String} {codec : Codec α} {get : σ → α} {absence : Absence α}
    {form : Json → Prop} (hcodec : codec.Accepts form) (hitem : absence.item = none) :
  (field name codec get absence).Accepts [⟨name, absence.member.isNone, form⟩]
  where
  members_iff members hcanonical := by
    have hread : ((field name codec get absence).reader.ofMembers members).toOption
        = codec.ofFound absence (Keyed.find? name members) := looksUp_field members hcanonical.1
    simp only [← Results.toOption_eq_some_iff, hread, List.forall_mem_singleton, Field.StandsIn]
    cases hfound : Keyed.find? name members with
    | none => simp [Codec.ofFound, ← Option.isSome_iff_exists]
    | some document =>
      simp only [Codec.ofFound, Results.toOption_eq_some_iff]
      exact hcodec document (isCanonical_of_find? hcanonical.2 hfound)
  items_iff position items further hcanonical := by
    cases items with
    | nil =>
      simp only [field, FieldReader.field, hitem]
      constructor
      · rintro ⟨_, _, h⟩
        cases h
      · rintro ⟨taken, htaken, h⟩
        cases h
        cases htaken
    | cons item items =>
      have hread := hcodec item hcanonical.1
      constructor
      · rintro ⟨value, next, h⟩
        simp only [field, FieldReader.field] at h
        cases hitem : codec.decode item with
        | error error => simp [hitem] at h
        | ok value =>
          simp only [hitem] at h
          cases h
          exact ⟨[item], rfl, .cons (hread.mp ⟨value, hitem⟩) .nil⟩
      · rintro ⟨taken, htaken, h⟩
        obtain ⟨first, rest, hform, hrest, rfl⟩ := List.forall₂_cons_right_iff.mp h
        obtain rfl := List.forall₂_nil_right_iff.mp hrest
        obtain ⟨rfl, rfl⟩ : item = first ∧ items = further := by simpa using htaken
        obtain ⟨value, hvalue⟩ := hread.mpr hform
        refine ⟨value, position + 1, ?_⟩
        simp only [field, FieldReader.field, hvalue]

/-- The codec of a record accepts the records with the fields of its layout. -/
theorem Accepts.codec {layout : Record σ σ} (h : layout.Accepts fields) (name : String) :
  (layout.codec name).Accepts (IsRecord fields)
  := by
  intro document hcanonical
  cases document with
  | object members =>
    constructor
    · rintro ⟨value, hread⟩
      apply IsRecord.object
      apply (h.members_iff members hcanonical).mp
      exact ⟨value, Verdict.toExcept_eq_ok_iff.mp hread⟩
    · rintro (⟨hfields⟩ | _)
      obtain ⟨value, hread⟩ := (h.members_iff members hcanonical).mpr hfields
      exact ⟨value, Verdict.toExcept_eq_ok_iff.mpr hread⟩
  | array items =>
    constructor
    · rintro ⟨value, hread⟩
      simp only [Record.codec, decode] at hread
      split at hread
      · next record position hitems =>
        obtain ⟨taken, htaken, hforms⟩ := (h.items_iff 0 items [] hcanonical).mp ⟨_, _, hitems⟩
        rw [List.append_nil] at htaken
        exact htaken ▸ .array hforms
      all_goals cases hread
    · rintro (_ | ⟨hforms⟩)
      obtain ⟨value, next, hitems⟩ := (h.items_iff 0 items [] hcanonical).mpr
        ⟨items, (List.append_nil items).symm, hforms⟩
      refine ⟨value, ?_⟩
      simp only [Record.codec, decode, hitems]
  | null | bool | number | string =>
    constructor
    · rintro ⟨value, hread⟩
      cases hread
    · rintro ⟨⟩

end Record

end FilteredSearch
