import FilteredSearch.Decode.Codec

/-!
# Records

A record is laid out as a row of named fields, each with a codec.  It is written as an object
with one member for each field.

It is read from an object or from an array.  The members of an object are read in the order in
which they stand: the first one that does not decode, or that repeats a field, is the error,
members with other names do not matter, and a field that is missing is found out after the last
member, the fields in the order of the layout.  The items of an array are the fields in the
order of the layout, and there are no further items.

What a layout reads is kept as a verdict, a value or an error with the place where it is met, so
that of the errors of two parts of a layout the earlier one is the error of both.  The members
and items are documents, or written documents with errors of their own.
-/

namespace FilteredSearch

/-- A value, or an error and the place where it is met. -/
abbrev Verdict (ε α : Type) := Except (Nat × ε) α

namespace Verdict

variable {ε α β : Type}

/-- Applies a function to a value; of two errors the one met earlier counts, and the first of
two met at the same place. -/
def apply : Verdict ε (α → β) → Verdict ε α → Verdict ε β
  | .ok f, .ok value => .ok (f value)
  | .ok _, .error fault => .error fault
  | .error fault, .ok _ => .error fault
  | .error (i, e), .error (j, f) => if j < i then .error (j, f) else .error (i, e)

/-- The verdict without the place of its error. -/
def toExcept (verdict : Verdict ε α) : Except ε α := verdict.mapError Prod.snd

end Verdict

/-- What stands in for a field that is missing, from an object and from an array. -/
structure Absence (α : Type) where
  member : Option α
  item : Option α

namespace Absence

variable {α : Type}

/-- The field must be there. -/
def required : Absence α := ⟨none, none⟩

/-- Nothing stands in for a member; an item must be there. -/
def optional : Absence (Option α) := ⟨some none, none⟩

/-- The default value stands in for the field. -/
def default (value : α) : Absence α := ⟨some value, some value⟩

end Absence

/-- Why the items of an array are no record. -/
inductive ItemFault (ε : Type) where
  | missing (position : Nat)
  | invalid (error : ε)

/-- The items of an array from a position on. -/
structure Items (κ : Type) where
  position : Nat
  items : List κ

/-- Reads a value from fields that are carried by documents of the type `κ`. -/
structure FieldReader (κ ε α : Type) where
  /-- Reads the fields from the members of an object. -/
  ofMembers : List (String × κ) → Verdict ε α
  /-- Reads the fields from the next items of an array, and gives back the further items. -/
  ofItems : Items κ → Except (ItemFault ε) (α × Items κ)

namespace FieldReader

variable {κ ε α : Type}

/-- The values of the members with a name, with their places. -/
def occurrences (name : String) (members : List (String × κ)) : List (Nat × κ) :=
  members.zipIdx.filterMap fun ((key, value), place) =>
    if key = name then some (place, value) else none

/-- Reads a field with a name. -/
def field (lift : DecodeError → ε) (name : String) (absence : Absence α)
    (decode : κ → Except ε α) : FieldReader κ ε α where
  ofMembers members :=
    match occurrences name members with
    | [] =>
      match absence.member with
      | some value => .ok value
      | none => .error (members.length, lift (.missingField name))
    | (place, document) :: further =>
      match decode document, further with
      | .error error, _ => .error (place, error)
      | .ok value, [] => .ok value
      | .ok _, (again, _) :: _ => .error (again, lift (.duplicateField name))
  ofItems
    | ⟨position, item :: items⟩ =>
      match decode item with
      | .ok value => .ok (value, ⟨position + 1, items⟩)
      | .error error => .error (.invalid error)
    | ⟨position, []⟩ =>
      match absence.item with
      | some value => .ok (value, ⟨position + 1, []⟩)
      | none => .error (.missing position)

instance : Applicative (FieldReader κ ε) where
  pure value := ⟨fun _ => .ok value, fun items => .ok (value, items)⟩
  seq f x :=
    let x := x ()
    { ofMembers := fun members => (f.ofMembers members).apply (x.ofMembers members)
      ofItems := fun items => do
        let (apply, items) ← f.ofItems items
        let (value, items) ← x.ofItems items
        return (apply value, items) }

end FieldReader

/-- A part of the layout of a record `σ`, which holds a value of `α`. -/
structure Record (σ α : Type) where
  /-- The names of the fields. -/
  names : List String
  /-- The members that the fields are written to. -/
  toMembers : σ → List (String × Json)
  /-- Reads the fields from documents. -/
  reader : FieldReader Json DecodeError α
  /-- Reads the fields from written documents. -/
  writtenReader : Nesting → FieldReader Written TextError α

namespace Record

variable {σ α : Type}

/-- The layout of one field. -/
def field (name : String) (codec : Codec α) (get : σ → α)
    (absence : Absence α := .required) : Record σ α where
  names := [name]
  toMembers record := [(name, codec.encode (get record))]
  reader := .field id name absence codec.decode
  writtenReader nesting := .field .decode name absence (codec.decodeWritten nesting)

instance : Applicative (Record σ) where
  pure value := ⟨[], fun _ => [], pure value, fun _ => pure value⟩
  seq f x :=
    let x := x ()
    { names := f.names ++ x.names
      toMembers := fun record => f.toMembers record ++ x.toMembers record
      reader := f.reader <*> x.reader
      writtenReader := fun nesting => f.writtenReader nesting <*> x.writtenReader nesting }

/-- The object that a record is written to. -/
def encode (layout : Record σ α) (record : σ) : Json := .ofMembers (layout.toMembers record)

/-- The array has fewer items than the layout has fields. -/
def tooShort (layout : Record σ α) (name : String) (length : Nat) : DecodeError :=
  .invalidLength length (.record name layout.names.length)

/-- Reads a record from an object or an array. -/
def decode (layout : Record σ α) (name : String) : Json → Except DecodeError α
  | .object members => (layout.reader.ofMembers members).toExcept
  | .array items =>
    match layout.reader.ofItems ⟨0, items⟩ with
    | .ok (record, ⟨_, []⟩) => .ok record
    | .ok (_, ⟨_, _ :: _⟩) => .error (.invalidLength items.length .fewer)
    | .error (.missing position) => .error (layout.tooShort name position)
    | .error (.invalid error) => .error error
  | document => Codec.mismatch document (.record name)

/-- Reads a record from the members of a written object.  A flawed name is met at the place where
it stands: an error that is met before it counts, and of the others none. -/
def decodeNamed (reader : FieldReader Written TextError α)
    (members : List (Except Flaw String × Written)) : Except TextError α :=
  let (named, flaw) := Written.namedMembers members
  match reader.ofMembers named, flaw with
  | verdict, none => verdict.toExcept
  | .error (place, error), some flaw =>
    .error (if place < named.length then error else .flawed flaw)
  | .ok _, some flaw => .error (.flawed flaw)

/-- Reads a record from a written object or array. -/
def decodeWritten (layout : Record σ α) (name : String) (nesting : Nesting) :
    Written → Except TextError α
  | .object members => do
    let inner ← nesting.enter.mapError .flawed
    decodeNamed (layout.writtenReader inner) members
  | .array items => do
    let inner ← nesting.enter.mapError .flawed
    match (layout.writtenReader inner).ofItems ⟨0, items⟩ with
    | .ok (record, ⟨_, []⟩) => .ok record
    | .ok (_, ⟨_, _ :: _⟩) => .error .furtherItems
    | .error (.missing position) => .error (.decode (layout.tooShort name position))
    | .error (.invalid error) => .error error
  | written => Codec.decodeOutline (Codec.mismatch · (.record name)) written

/-- The codec of the records with a layout. -/
def codec (layout : Record σ σ) (name : String) : Codec σ :=
  ⟨layout.encode, layout.decode name, layout.decodeWritten name⟩

end Record

end FilteredSearch
