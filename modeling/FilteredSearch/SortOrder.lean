import FilteredSearch.Decode.Codec

/-!
# Sort orders

The two directions in which documents are sorted by a field.  A direction is carried by its
name, or by an object with the name as its only member, and null there.
-/

namespace FilteredSearch

/-- A direction of sorting. -/
inductive SortOrder where
  /-- The least values first. -/
  | asc
  /-- The greatest values first. -/
  | desc
deriving DecidableEq

namespace SortOrder

/-- The direction unless another is asked for. -/
def default : SortOrder := .asc

/-- The direction that is ascending or not. -/
def ofAscending (ascending : Bool) : SortOrder := if ascending then .asc else .desc

/-- The name of a direction in a document. -/
def name : SortOrder → String
  | .asc => "asc"
  | .desc => "desc"

/-- The direction with a name. -/
def ofName (text : String) : Except DecodeError SortOrder :=
  if text = "asc" then .ok .asc
  else if text = "desc" then .ok .desc
  else .error (.unknownVariant text ["asc", "desc"])

/-- Reads a direction. -/
def decode : Json → Except DecodeError SortOrder
  | .string text => ofName text
  | .object [(text, payload)] => do
    let order ← ofName text
    Codec.unit.decode payload
    return order
  | .object _ => .error (.invalidValue .map .singleKeyMap)
  | document => .error (.invalidType document.shape .stringOrMap)

/-- Reads a direction as it is written.  Only a string or the first member of an object can be a
direction, and nothing follows that member. -/
def decodeWritten (nesting : Nesting) : Written → Except TextError SortOrder
  | .string text => do
    let text ← text.mapError .flawed
    (ofName text).mapError .decode
  | .object members => do
    discard (nesting.enter.mapError .flawed)
    match members with
    | [] => .error .noVariant
    | (name, payload) :: further =>
      let name ← name.mapError .flawed
      let order ← (ofName name).mapError .decode
      Codec.unit.decodeWritten nesting payload
      if further.isEmpty then return order else .error .noVariant
  | _ => .error .noVariant

/-- The codec of directions. -/
def codec : Codec SortOrder := ⟨fun order => .string order.name, decode, decodeWritten⟩

theorem codec_decodesTo (order : SortOrder) :
  codec.DecodesTo order
  := by
  cases order <;> rfl

end SortOrder

end FilteredSearch
