import FilteredSearch.MetricResult
import FilteredSearch.Proofs.Decode.Lookup

/-!
# Flattened results

A search engine reports the bounds of a standard deviation in an object of their own, and a result
is answered with the bounds beside its other fields.  Reading a reported result is the same as
putting the bounds in their place first and then reading the result in the form in which it is
answered.
-/

namespace FilteredSearch.ExtendedStatsResult

/-- The names of the bounds. -/
def boundNames : List String := ["upper", "lower"]

/-- The members of the object under a name; there are none under a name without an object. -/
def membersUnder (name : String) (members : List (String × Json)) : List (String × Json) :=
  match Keyed.find? name members with
  | some (.object inner) => inner
  | _ => []

/-- The members of a reported result with its bounds, and nothing else under their names, beside
the other fields. -/
def flattenedMembers (members : List (String × Json)) : List (String × Json) :=
  Keyed.ofList
    ((members.filter fun member => member.1 ∉ "std_deviation_bounds" :: boundNames)
      ++ (membersUnder "std_deviation_bounds" members).filter fun member =>
        member.1 ∈ boundNames)

variable {α : Type}

/-- What is read from the fields apart from the bounds. -/
def lookUpFields
    (make : UInt64 → Option Float → Option Float → Option Float → Float → Option Float →
      Option Float → Option Float → α)
    (found : String → Option Json) : Option α :=
  make
    <$> Codec.unsigned.ofFound .required (found "count")
    <*> Codec.double.nullable.ofFound .optional (found "min")
    <*> Codec.double.nullable.ofFound .optional (found "max")
    <*> Codec.double.nullable.ofFound .optional (found "avg")
    <*> Codec.double.ofFound .required (found "sum")
    <*> Codec.double.nullable.ofFound .optional (found "sum_of_squares")
    <*> Codec.double.nullable.ofFound .optional (found "variance")
    <*> Codec.double.nullable.ofFound .optional (found "std_deviation")

theorem looksUp_fields {σ : Type}
    {make : UInt64 → Option Float → Option Float → Option Float → Float → Option Float →
      Option Float → Option Float → α}
    {count : σ → UInt64} {min max avg : σ → Option Float} {sum : σ → Float}
    {sumOfSquares variance stdDeviation : σ → Option Float} :
  (make
    <$> Record.field "count" .unsigned count
    <*> optionalDouble "min" min
    <*> optionalDouble "max" max
    <*> optionalDouble "avg" avg
    <*> Record.field "sum" .double sum
    <*> optionalDouble "sum_of_squares" sumOfSquares
    <*> optionalDouble "variance" variance
    <*> optionalDouble "std_deviation" stdDeviation).LooksUp (lookUpFields make)
  := (((((((Record.looksUp_field.map make).seq Record.looksUp_field).seq
    Record.looksUp_field).seq Record.looksUp_field).seq Record.looksUp_field).seq
    Record.looksUp_field).seq Record.looksUp_field).seq Record.looksUp_field

theorem codec_looksUp :
  codec.LooksUp fun found => lookUpFields mk found
    <*> Codec.double.nullable.ofFound .optional (found "upper")
    <*> Codec.double.nullable.ofFound .optional (found "lower")
  := ((looksUp_fields.seq Record.looksUp_field).seq Record.looksUp_field).codec _

theorem engineCodec_looksUp :
  engineCodec.LooksUp fun found => lookUpFields ofEngine found
    <*> DeviationBounds.codec.nullable.ofFound .optional (found "std_deviation_bounds")
  := (looksUp_fields.seq Record.looksUp_field).codec _

theorem boundsCodec_looksUp :
  DeviationBounds.codec.LooksUp fun found => DeviationBounds.mk
    <$> Codec.double.nullable.ofFound .optional (found "upper")
    <*> Codec.double.nullable.ofFound .optional (found "lower")
  := ((Record.looksUp_field.map _).seq Record.looksUp_field).codec _

/-- A reported result is completed by its bounds. -/
theorem lookUpFields_ofEngine (found : String → Option Json) :
  lookUpFields ofEngine found
    = (fun complete (bounds : Option DeviationBounds) =>
      complete (bounds.bind (·.upper)) (bounds.bind (·.lower))) <$> lookUpFields mk found
  := by
  simp only [lookUpFields, map_seq, Functor.map_map]
  rfl

/-! ### Members of the flattened result -/

variable {members : List (String × Json)}

theorem ascending_membersUnder (hcanonical : (Json.object members).IsCanonical) (name : String) :
  Keyed.Ascending (membersUnder name members)
  := by
  rw [membersUnder]
  split
  · next inner hfound => exact (Json.isCanonical_of_find? hcanonical.2 hfound).1
  · exact List.Pairwise.nil

theorem find?_flattenedMembers (hcanonical : (Json.object members).IsCanonical) (name : String) :
  Keyed.find? name (flattenedMembers members)
    = if name ∈ boundNames then Keyed.find? name (membersUnder "std_deviation_bounds" members)
      else if name = "std_deviation_bounds" then none
      else Keyed.find? name members
  := by
  have hkept : Keyed.Ascending
      (members.filter fun member => member.1 ∉ "std_deviation_bounds" :: boundNames) :=
    hcanonical.1.filter _
  have hbounds : Keyed.Ascending
      ((membersUnder "std_deviation_bounds" members).filter fun member =>
        member.1 ∈ boundNames) :=
    (ascending_membersUnder hcanonical _).filter _
  rw [flattenedMembers, Keyed.find?_ofList_append, Keyed.ofList_eq_self hkept,
    Keyed.ofList_eq_self hbounds, Keyed.find?_filter (· ∈ boundNames),
    Keyed.find?_filter (· ∉ "std_deviation_bounds" :: boundNames)]
  by_cases hname : name ∈ boundNames
  · simp [hname]
  · by_cases hbound : name = "std_deviation_bounds"
    · simp [hbound]
    · simp [hname, hbound]

/-- The bounds that are read from an object of their own are those read from its members. -/
theorem lookUp_bounds (hcanonical : (Json.object members).IsCanonical)
    (hbounds : ∀ bounds, Keyed.find? "std_deviation_bounds" members = some bounds →
      bounds = .null ∨ ∃ inner, bounds = .object inner) :
  let found name := Keyed.find? name members
  let inner name := Keyed.find? name (membersUnder "std_deviation_bounds" members)
  (fun bounds : Option DeviationBounds => (bounds.bind (·.upper), bounds.bind (·.lower)))
      <$> DeviationBounds.codec.nullable.ofFound .optional (found "std_deviation_bounds")
    = Prod.mk
      <$> Codec.double.nullable.ofFound .optional (inner "upper")
      <*> Codec.double.nullable.ofFound .optional (inner "lower")
  := by
  intro found inner
  cases hfound : Keyed.find? "std_deviation_bounds" members with
  | none =>
    simp only [found, inner, membersUnder, hfound]
    rfl
  | some bounds =>
    rcases hbounds bounds hfound with rfl | ⟨members', rfl⟩
    · simp only [found, inner, membersUnder, hfound]
      rfl
    · have hinner : membersUnder "std_deviation_bounds" members = members' := by
        simp only [membersUnder, hfound]
      have hascending : Keyed.Ascending members' :=
        hinner ▸ ascending_membersUnder hcanonical "std_deviation_bounds"
      have hread : DeviationBounds.codec.nullable.ofFound .optional (some (.object members'))
          = some <$> (DeviationBounds.codec.decode (.object members')).toOption := by
        simp only [Codec.ofFound, Codec.nullable]
        cases DeviationBounds.codec.decode (.object members') <;> rfl
      simp only [found, hfound, hread, boundsCodec_looksUp members' hascending, inner, hinner,
        map_seq, Functor.map_map]
      rfl

/-- The other fields are read as they are reported. -/
theorem lookUpFields_flattened (hcanonical : (Json.object members).IsCanonical)
    (make : UInt64 → Option Float → Option Float → Option Float → Float → Option Float →
      Option Float → Option Float → α) :
  lookUpFields make (fun name => Keyed.find? name (flattenedMembers members))
    = lookUpFields make fun name => Keyed.find? name members
  := by
  simp [lookUpFields, find?_flattenedMembers hcanonical, boundNames]

/-- A result is read as reported exactly when it is read with its bounds put beside the other
fields, and then the two are the same result.  Members of a reported result under the names of the
bounds do not matter, nor do further members of the bounds. -/
theorem engineCodec_decode_eq_ok_iff (hcanonical : (Json.object members).IsCanonical)
    (hbounds : ∀ bounds, Keyed.find? "std_deviation_bounds" members = some bounds →
      bounds = .null ∨ ∃ inner, bounds = .object inner)
    (result : ExtendedStatsResult) :
  engineCodec.decode (.object members) = .ok result
    ↔ codec.decode (.object (flattenedMembers members)) = .ok result
  := by
  let found name := Keyed.find? name members
  let flat name := Keyed.find? name (flattenedMembers members)
  have hascending : Keyed.Ascending (flattenedMembers members) := Keyed.ascending_ofList _
  have hupper : flat "upper"
      = Keyed.find? "upper" (membersUnder "std_deviation_bounds" members) := by
    simp [flat, find?_flattenedMembers hcanonical, boundNames]
  have hlower : flat "lower"
      = Keyed.find? "lower" (membersUnder "std_deviation_bounds" members) := by
    simp [flat, find?_flattenedMembers hcanonical, boundNames]
  have hsame : (engineCodec.decode (.object members)).toOption
      = (codec.decode (.object (flattenedMembers members))).toOption := by
    calc (engineCodec.decode (.object members)).toOption
      _ = lookUpFields ofEngine found
          <*> DeviationBounds.codec.nullable.ofFound .optional (found "std_deviation_bounds") :=
        engineCodec_looksUp members hcanonical.1
      _ = (fun complete (bounds : Option Float × Option Float) => complete bounds.1 bounds.2)
            <$> lookUpFields mk found
          <*> ((fun bounds : Option DeviationBounds =>
              (bounds.bind (·.upper), bounds.bind (·.lower)))
            <$> DeviationBounds.codec.nullable.ofFound .optional
              (found "std_deviation_bounds")) := by
        rw [lookUpFields_ofEngine, seq_map_assoc, Functor.map_map]
        rfl
      _ = lookUpFields mk flat
          <*> Codec.double.nullable.ofFound .optional (flat "upper")
          <*> Codec.double.nullable.ofFound .optional (flat "lower") := by
        rw [lookUp_bounds hcanonical hbounds, lookUpFields_flattened hcanonical, hupper, hlower]
        simp only [seq_assoc, seq_map_assoc, Functor.map_map]
        cases lookUpFields mk found <;> rfl
      _ = (codec.decode (.object (flattenedMembers members))).toOption :=
        (codec_looksUp _ hascending).symm
  rw [← Results.toOption_eq_some_iff, hsame, Results.toOption_eq_some_iff]

/-- A reported result with members under the names of the bounds beside them. -/
def shadowed : List (String × Json) :=
  [("count", .ofUInt64 2),
    ("std_deviation_bounds", .object [("lower", .ofUInt64 1), ("note", .bool true)]),
    ("sum", .ofUInt64 3), ("upper", .string "none")]

theorem engineCodec_decode_eq_ok_iff_shadowed :
  (Json.object shadowed).IsCanonical
    ∧ ∃ result, engineCodec.decode (.object shadowed) = .ok result
      ∧ codec.decode (.object (flattenedMembers shadowed)) = .ok result
  := by
  have hcanonical : (Json.object shadowed).IsCanonical := by
    refine ⟨?_, trivial, ⟨?_, trivial, trivial, trivial⟩, trivial, trivial, trivial⟩
    · simp only [Keyed.Ascending]
      decide
    · simp only [Keyed.Ascending]
      decide
  have hbounds : ∀ bounds, Keyed.find? "std_deviation_bounds" shadowed = some bounds →
      bounds = .null ∨ ∃ inner, bounds = .object inner := by
    rintro bounds hfound
    obtain rfl := Option.some.inj hfound
    exact Or.inr ⟨_, rfl⟩
  obtain ⟨result, hresult⟩ : ∃ result, engineCodec.decode (.object shadowed) = .ok result :=
    ⟨_, rfl⟩
  exact ⟨hcanonical, result, hresult,
    (engineCodec_decode_eq_ok_iff hcanonical hbounds result).mp hresult⟩

end FilteredSearch.ExtendedStatsResult
