import FilteredSearch.Decode.Error
import FilteredSearch.Json.Reader

/-!
# Codecs

A codec carries the values of a type to documents and back, and reads them from texts.  A lawful
codec decodes what it encodes.

A value is read from a text in the order in which the text is written, and no further than it
takes to know the value or the first error: what a decoder passes over may be flawed.
-/

namespace FilteredSearch

/-- A way to carry values to documents and back. -/
structure Codec (α : Type) where
  encode : α → Json
  /-- Reads a value from a document. -/
  decode : Json → Except DecodeError α
  /-- Reads a value from a document as it is written. -/
  decodeWritten : Nesting → Written → Except TextError α

namespace Codec

variable {α : Type}

/-- The codec decodes the document of a value to the value. -/
def DecodesTo (codec : Codec α) (value : α) : Prop :=
  codec.decode (codec.encode value) = .ok value

/-- How many arrays and objects a decoder enters in a text, one inside the other. -/
def textNesting : Nesting := .upTo 127

/-- Reads a value from a text that follows the grammar of documents. -/
def decodeText? (codec : Codec α) (text : String) : Option (Except TextError α) :=
  (Written.ofText? text).map (codec.decodeWritten textNesting)

/-- The document has another shape than expected. -/
def mismatch (document : Json) (expected : Expectation) : Except DecodeError α :=
  .error (.invalidType document.shape expected)

/-- Decodes a written document by what it looks like from outside. -/
def decodeOutline (decode : Json → Except DecodeError α) (written : Written) :
    Except TextError α :=
  match written.outline with
  | .ok outline => (decode outline).mapError .decode
  | .error flaw => .error (.flawed flaw)

/-- The codec of values that are carried by neither arrays nor objects. -/
def scalar (encode : α → Json) (decode : Json → Except DecodeError α) : Codec α :=
  ⟨encode, decode, fun _ => decodeOutline decode⟩

/-- Unsigned integers.  A real number is none, even when it is whole. -/
def unsigned : Codec UInt64 :=
  scalar .ofUInt64 fun
    | .number (.integer value _) =>
      if 0 ≤ value then .ok (UInt64.ofNat value.toNat)
      else .error (.invalidValue (.integer value) .unsigned)
    | document => mismatch document .unsigned

/-- Doubles.  An integer is read as the double nearest to it. -/
def double : Codec Float :=
  scalar .ofFloat fun
    | .number value => .ok value.toFloat
    | document => mismatch document .double

/-- Strings. -/
def string : Codec String :=
  scalar .string fun
    | .string value => .ok value
    | document => mismatch document .string

/-- Null. -/
def unit : Codec Unit :=
  scalar (fun _ => .null) fun
    | .null => .ok ()
    | document => mismatch document .unit

/-- Documents of any shape, in their canonical form. -/
def document : Codec Json where
  encode := id
  decode document := .ok document.canonical
  decodeWritten nesting written := (written.document nesting).mapError .flawed

/-- The members of an object, in ascending order of names. -/
def members : Codec (List (String × Json)) where
  encode := .object
  decode
    | .object members => .ok (Keyed.ofList (Json.canonicalMembers members))
    | document => mismatch document .map
  decodeWritten nesting
    | .object fields => do
      let inner ← nesting.enter.mapError .flawed
      let members ← (Written.members inner fields).mapError .flawed
      return Keyed.ofList members
    | written => decodeOutline (mismatch · .map) written

/-- Values that may be null. -/
def nullable (codec : Codec α) : Codec (Option α) where
  encode
    | some value => codec.encode value
    | none => .null
  decode
    | .null => .ok none
    | document => (codec.decode document).map some
  decodeWritten nesting
    | .null => .ok none
    | written => (codec.decodeWritten nesting written).map some

/-- Rows of values. -/
def list (codec : Codec α) : Codec (List α) where
  encode values := .array (values.map codec.encode)
  decode
    | .array items => items.mapM codec.decode
    | document => mismatch document .sequence
  decodeWritten nesting
    | .array items => do
      let inner ← nesting.enter.mapError .flawed
      items.mapM (codec.decodeWritten inner)
    | written => decodeOutline (mismatch · .sequence) written

theorem unsigned_decodesTo (value : UInt64) :
  unsigned.DecodesTo value
  := by
  simp [DecodesTo, unsigned, scalar, Json.ofUInt64, Number.ofUInt64]

theorem double_decodesTo {value : Float} (h : value.isFinite = true) :
  double.DecodesTo value
  := by
  simp [DecodesTo, double, scalar, Json.ofFloat, Number.ofFloat?, h, Number.toFloat]

theorem string_decodesTo (value : String) :
  string.DecodesTo value
  := rfl

end Codec

end FilteredSearch
