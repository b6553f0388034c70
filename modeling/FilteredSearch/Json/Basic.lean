import FilteredSearch.Json.Number
import FilteredSearch.Keyed

/-!
# JSON documents

A document is null, a truth value, a number, a string, an array or an object.  An object is
the list of its members.  In a canonical document the names of every object ascend strictly,
so two canonical documents with the same members are equal, and a member is found under at
most one name.  A document as it was written may repeat names and list them in any order;
`Json.canonical` keeps the last value given for each name.
-/

namespace FilteredSearch

/-- A JSON document. -/
inductive Json where
  | null
  | bool (value : Bool)
  | number (value : Number)
  | string (value : String)
  | array (items : List Json)
  | object (members : List (String × Json))

namespace Json

/-- The object with the given members, of which the last counts for each name. -/
def ofMembers (members : List (String × Json)) : Json := .object (Keyed.ofList members)

/-- The object with one member. -/
def singleton (name : String) (value : Json) : Json := .object [(name, value)]

/-- The double as a number, or null when it is not finite. -/
def ofFloat (value : Float) : Json := (Number.ofFloat? value).elim .null .number

/-- The unsigned value as a number. -/
def ofUInt64 (value : UInt64) : Json := .number (.ofUInt64 value)

/-- The signed value as a number. -/
def ofInt64 (value : Int64) : Json := .number (.ofInt64 value)

/-- The value of a member.  Only an object has members. -/
def member? (name : String) : Json → Option Json
  | .object members => Keyed.find? name members
  | _ => none

mutual

/-- The document with the members of its objects in ascending order of names, each with the
last value given for it. -/
def canonical : Json → Json
  | .null => .null
  | .bool value => .bool value
  | .number value => .number value
  | .string value => .string value
  | .array items => .array (canonicalItems items)
  | .object members => .object (Keyed.ofList (canonicalMembers members))

/-- The canonical forms of the items of an array. -/
def canonicalItems : List Json → List Json
  | [] => []
  | item :: items => canonical item :: canonicalItems items

/-- The members of an object as they stand, with canonical values. -/
def canonicalMembers : List (String × Json) → List (String × Json)
  | [] => []
  | (name, value) :: members => (name, canonical value) :: canonicalMembers members

end

mutual

/-- The names of every object in the document are strictly ascending. -/
def IsCanonical : Json → Prop
  | .null | .bool _ | .number _ | .string _ => True
  | .array items => AreCanonical items
  | .object members => Keyed.Ascending members ∧ HasCanonicalValues members

/-- Every item is canonical. -/
def AreCanonical : List Json → Prop
  | [] => True
  | item :: items => IsCanonical item ∧ AreCanonical items

/-- Every value is canonical. -/
def HasCanonicalValues : List (String × Json) → Prop
  | [] => True
  | (_, value) :: members => IsCanonical value ∧ HasCanonicalValues members

end

theorem hasCanonicalValues_insert {name : String} {value : Json}
    {members : List (String × Json)} (hvalue : value.IsCanonical)
    (hmembers : HasCanonicalValues members) :
  HasCanonicalValues (Keyed.insert name value members)
  := by
  induction members with
  | nil => exact ⟨hvalue, trivial⟩
  | cons entry rest ih =>
    obtain ⟨key, old⟩ := entry
    obtain ⟨hold, hrest⟩ := hmembers
    rw [Keyed.insert]
    split
    · exact ⟨hvalue, hold, hrest⟩
    · split
      · exact ⟨hvalue, hrest⟩
      · exact ⟨hold, ih hrest⟩

theorem hasCanonicalValues_ofList {members : List (String × Json)}
    (hmembers : HasCanonicalValues members) :
  HasCanonicalValues (Keyed.ofList members)
  := by
  induction members with
  | nil => exact trivial
  | cons entry rest ih =>
    obtain ⟨name, value⟩ := entry
    obtain ⟨hvalue, hrest⟩ := hmembers
    rw [Keyed.ofList, Keyed.insertNew]
    split
    · exact ih hrest
    · exact hasCanonicalValues_insert hvalue (ih hrest)

/-- An object of canonical values is canonical. -/
theorem isCanonical_ofMembers {members : List (String × Json)}
    (hmembers : HasCanonicalValues members) :
  (ofMembers members).IsCanonical
  := ⟨Keyed.ascending_ofList members, hasCanonicalValues_ofList hmembers⟩

mutual

theorem isCanonical_canonical : (document : Json) → (canonical document).IsCanonical
  | .null | .bool _ | .number _ | .string _ => trivial
  | .array items => areCanonical_canonicalItems items
  | .object members => isCanonical_ofMembers (hasCanonicalValues_canonicalMembers members)

theorem areCanonical_canonicalItems : (items : List Json) → AreCanonical (canonicalItems items)
  | [] => trivial
  | item :: items => ⟨isCanonical_canonical item, areCanonical_canonicalItems items⟩

theorem hasCanonicalValues_canonicalMembers :
    (members : List (String × Json)) → HasCanonicalValues (canonicalMembers members)
  | [] => trivial
  | (_, value) :: members =>
    ⟨isCanonical_canonical value, hasCanonicalValues_canonicalMembers members⟩

end

mutual

/-- A canonical document is its own canonical form. -/
theorem canonical_eq_self : (document : Json) → document.IsCanonical →
    canonical document = document
  | .null, _ | .bool _, _ | .number _, _ | .string _, _ => rfl
  | .array items, h => congrArg Json.array (canonicalItems_eq_self items h)
  | .object members, ⟨hascending, hvalues⟩ => by
    rw [canonical, canonicalMembers_eq_self members hvalues, Keyed.ofList_eq_self hascending]

theorem canonicalItems_eq_self : (items : List Json) → AreCanonical items →
    canonicalItems items = items
  | [], _ => rfl
  | item :: items, ⟨hitem, hitems⟩ => by
    rw [canonicalItems, canonical_eq_self item hitem, canonicalItems_eq_self items hitems]

theorem canonicalMembers_eq_self : (members : List (String × Json)) →
    HasCanonicalValues members → canonicalMembers members = members
  | [], _ => rfl
  | (name, value) :: members, ⟨hvalue, hmembers⟩ => by
    rw [canonicalMembers, canonical_eq_self value hvalue,
      canonicalMembers_eq_self members hmembers]

end

end Json

end FilteredSearch
