import FilteredSearch.Json.Written
import FilteredSearch.Json.Writer
import FilteredSearch.Text.Quoted

/-!
# Decode errors

What a decoder found where it expected something else, and the wording of it.  A decoder that
goes along a text may also meet a flaw of the text, or stop before the end of an array or an
object.
-/

namespace FilteredSearch

/-- What a document looks like from outside. -/
inductive Shape where
  | null
  | boolean (value : Bool)
  | integer (value : Int)
  | real (value : Float)
  | string (value : String)
  | sequence
  | map

/-- What a document looks like. -/
def Json.shape : Json → Shape
  | .null => .null
  | .bool value => .boolean value
  | .number (.integer value _) => .integer value
  | .number (.real value _) => .real value
  | .string value => .string value
  | .array _ => .sequence
  | .object _ => .map

/-- The wording of a shape. -/
def Shape.text : Shape → String
  | .null => "null"
  | .boolean value => "boolean `" ++ toString value ++ "`"
  | .integer value => "integer `" ++ toString value ++ "`"
  | .real value => "floating point `" ++ String.ofList (Json.realLayout.writeFloat value) ++ "`"
  | .string value => "string " ++ Text.quoted value
  | .sequence => "sequence"
  | .map => "map"

/-- What a decoder expects. -/
inductive Expectation where
  | unsigned
  | double
  | string
  | map
  | sequence
  | unit
  | stringOrMap
  | singleKeyMap
  | record (name : String)

/-- The wording of an expectation. -/
def Expectation.text : Expectation → String
  | .unsigned => "u64"
  | .double => "f64"
  | .string => "a string"
  | .map => "a map"
  | .sequence => "a sequence"
  | .unit => "unit"
  | .stringOrMap => "string or map"
  | .singleKeyMap => "map with a single key"
  | .record name => "struct " ++ name

/-- How many items a decoder expects. -/
inductive LengthExpectation where
  /-- The array has the items of a record. -/
  | record (name : String) (count : Nat)
  /-- The array ends with the items of the record. -/
  | fewer

/-- The wording of an expected length. -/
def LengthExpectation.text : LengthExpectation → String
  | .record name count =>
    "struct " ++ name ++ " with " ++ toString count
      ++ (if count = 1 then " element" else " elements")
  | .fewer => "fewer elements in array"

/-- Why a document does not decode. -/
inductive DecodeError where
  | invalidType (found : Shape) (expected : Expectation)
  | invalidValue (found : Shape) (expected : Expectation)
  | invalidLength (length : Nat) (expected : LengthExpectation)
  | missingField (name : String)
  | duplicateField (name : String)
  | unknownVariant (name : String) (known : List String)

/-- The wording of a decode error. -/
def DecodeError.message : DecodeError → String
  | .invalidType found expected =>
    "invalid type: " ++ found.text ++ ", expected " ++ expected.text
  | .invalidValue found expected =>
    "invalid value: " ++ found.text ++ ", expected " ++ expected.text
  | .invalidLength length expected =>
    "invalid length " ++ toString length ++ ", expected " ++ expected.text
  | .missingField name => "missing field `" ++ name ++ "`"
  | .duplicateField name => "duplicate field `" ++ name ++ "`"
  | .unknownVariant name known =>
    "unknown variant `" ++ name ++ "`, expected "
      ++ " or ".intercalate (known.map fun variant => "`" ++ variant ++ "`")

/-- Why a text does not decode. -/
inductive TextError where
  /-- The document that is written there does not decode. -/
  | decode (error : DecodeError)
  /-- The text is flawed. -/
  | flawed (flaw : Flaw)
  /-- An array has items after those of the record. -/
  | furtherItems
  /-- No variant stands where one is chosen, or more than a variant. -/
  | noVariant

/-- The wording of a text error. -/
def TextError.message : TextError → String
  | .decode error => error.message
  | .flawed flaw => flaw.message
  | .furtherItems => "trailing characters"
  | .noVariant => "expected value"

end FilteredSearch
