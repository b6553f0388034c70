import FilteredSearch.Proofs.Decode.Widened

/-!
# Fields found by name

In an object with ascending names a field is read from the one member with its name, wherever it
stands.  So the value that a layout reads from such an object is determined by what is found under
each name.
-/

namespace FilteredSearch

variable {σ α β : Type}

namespace Keyed

variable {entries : List (String × α)} {name : String}

/-- Under a name that is found nowhere, nothing stands. -/
theorem ne_of_find?_eq_none (h : find? name entries = none) :
  ∀ entry ∈ entries, name ≠ entry.1
  := by
  induction entries with
  | nil => simp
  | cons entry rest ih =>
    obtain ⟨key, value⟩ := entry
    by_cases hname : name = key
    · simp [find?, hname] at h
    · rw [find?, if_neg hname] at h
      exact List.forall_mem_cons.mpr ⟨hname, ih h⟩

/-- Entries chosen by their names keep what is found under these names. -/
theorem find?_filter (keeps : String → Prop) [DecidablePred keeps] (entries : List (String × α))
    (name : String) :
  find? name (entries.filter fun entry => keeps entry.1)
    = if keeps name then find? name entries else none
  := by
  induction entries with
  | nil => simp [find?]
  | cons entry rest ih =>
    obtain ⟨key, value⟩ := entry
    by_cases hkey : keeps key
    · by_cases hname : name = key
      · subst hname
        simp [find?, hkey]
      · simp [find?, hkey, hname, ih]
    · by_cases hname : name = key
      · subst hname
        simp [hkey, ih]
      · simp [find?, hkey, hname, ih]

end Keyed

/-- What is found among canonical values is canonical. -/
theorem Json.isCanonical_of_find? {members : List (String × Json)} {name : String} {value : Json}
    (hvalues : HasCanonicalValues members) (hfound : Keyed.find? name members = some value) :
  value.IsCanonical
  := by
  induction members with
  | nil => simp [Keyed.find?] at hfound
  | cons member rest ih =>
    obtain ⟨key, first⟩ := member
    rw [Keyed.find?] at hfound
    split at hfound
    · obtain rfl := Option.some.inj hfound
      exact hvalues.1
    · exact ih hvalues.2 hfound

/-! ### Verdicts without errors -/

theorem Verdict.toOption_apply {ε : Type} (f : Verdict ε (α → β)) (x : Verdict ε α) :
  (f.apply x).toOption = f.toOption <*> x.toOption
  := by
  cases f with
  | ok f => cases x <;> rfl
  | error fault =>
    cases x with
    | ok value => rfl
    | error other =>
      rw [apply]
      split <;> rfl

/-! ### Layouts -/

/-- The value of a field, given what is found under its name. -/
def Codec.ofFound (codec : Codec α) (absence : Absence α) : Option Json → Option α
  | none => absence.member
  | some document => (codec.decode document).toOption

/-- From an object with ascending names the layout reads the value that `look` has for what is
found under each name. -/
def Record.LooksUp (layout : Record σ α) (look : (String → Option Json) → Option α) : Prop :=
  ∀ members, Keyed.Ascending members →
    (layout.reader.ofMembers members).toOption = look fun name => Keyed.find? name members

/-- From an object with ascending names the codec decodes the value that `look` has for what is
found under each name. -/
def Codec.LooksUp (codec : Codec α) (look : (String → Option Json) → Option α) : Prop :=
  ∀ members, Keyed.Ascending members →
    (codec.decode (.object members)).toOption = look fun name => Keyed.find? name members

namespace Record

theorem looksUp_pure (value : α) :
  (pure value : Record σ α).LooksUp fun _ => some value
  := fun _ _ => rfl

theorem LooksUp.seq {f : Record σ (α → β)} {x : Record σ α}
    {lookF : (String → Option Json) → Option (α → β)} {look : (String → Option Json) → Option α}
    (hf : f.LooksUp lookF) (hx : x.LooksUp look) :
  (f <*> x).LooksUp fun found => lookF found <*> look found
  := by
  intro members hascending
  show ((f.reader.ofMembers members).apply (x.reader.ofMembers members)).toOption = _
  rw [Verdict.toOption_apply, hf members hascending, hx members hascending]

theorem LooksUp.map {x : Record σ α} {look : (String → Option Json) → Option α} (f : α → β)
    (hx : x.LooksUp look) :
  (f <$> x).LooksUp fun found => f <$> look found
  := (looksUp_pure f).seq hx

theorem looksUp_field {name : String} {codec : Codec α} {get : σ → α} {absence : Absence α} :
  (field name codec get absence).LooksUp fun found => codec.ofFound absence (found name)
  := by
  intro members hascending
  show ((FieldReader.field id name absence codec.decode).ofMembers members).toOption = _
  cases hfound : Keyed.find? name members with
  | none =>
    have hnone : FieldReader.occurrences name members = [] := by
      rw [FieldReader.occurrences, List.filterMap_eq_nil_iff]
      rintro ⟨member, place⟩ hmember
      apply if_neg
      exact (Keyed.ne_of_find?_eq_none hfound member (List.fst_mem_of_mem_zipIdx hmember)).symm
    simp only [FieldReader.field, hnone, hfound, Codec.ofFound]
    cases absence.member <;> rfl
  | some document =>
    obtain ⟨place, hplace⟩ :=
      FieldReader.occurrences_of_mem hascending (Keyed.mem_of_find?_eq_some hfound)
    simp only [FieldReader.field, hplace, hfound, Codec.ofFound]
    cases codec.decode document <;> rfl

/-- A codec of records looks up what its layout looks up. -/
theorem LooksUp.codec {layout : Record σ σ} {look : (String → Option Json) → Option σ}
    (h : layout.LooksUp look) (name : String) :
  (layout.codec name).LooksUp look
  := by
  intro members hascending
  show (layout.reader.ofMembers members).toExcept.toOption = _
  rw [← h members hascending]
  cases layout.reader.ofMembers members <;> rfl

end Record

end FilteredSearch
