import FilteredSearch.Json.Basic

/-!
# Documents as they are written

The grammar of document texts tells the parts of a text apart, but not every part that it allows
has a value: a number may be beyond the doubles, and an escape in a string may stand for one half
of a character.  A written document keeps such a flaw where it stands, in the place of the value.
So whoever reads it meets the flaws of those parts only that are looked into, in the order of the
text.

A reader may also be held to a number of arrays and objects that it enters one inside the other.
The document that is read is canonical, however it is written.
-/

namespace FilteredSearch

/-- Why a part of a text is not read. -/
inductive Flaw where
  /-- A number is beyond the doubles. -/
  | outOfRange
  /-- The first half of a surrogate pair has no escape after it. -/
  | openPair
  /-- The second half of a surrogate pair has no first half, or the first half another escape
  after it. -/
  | loneHalf
  /-- Too many arrays and objects are entered, one inside the other. -/
  | tooDeep
deriving DecidableEq

/-- The wording of a flaw. -/
def Flaw.message : Flaw → String
  | .outOfRange => "number out of range"
  | .openPair => "unexpected end of hex escape"
  | .loneHalf => "lone leading surrogate in hex escape"
  | .tooDeep => "recursion limit exceeded"

/-- How many arrays and objects may be entered, one inside the other. -/
inductive Nesting where
  | unlimited
  | upTo (levels : Nat)

/-- The nesting that is left inside an array or object. -/
def Nesting.enter : Nesting → Except Flaw Nesting
  | .unlimited => .ok .unlimited
  | .upTo 0 => .error .tooDeep
  | .upTo (levels + 1) => .ok (.upTo levels)

/-- A document as it is written in a text: members stand in the order of the text, and a name
may stand more than once. -/
inductive Written where
  | null
  | bool (value : Bool)
  | number (value : Except Flaw Number)
  | string (value : Except Flaw String)
  | array (items : List Written)
  | object (members : List (Except Flaw String × Written))

namespace Written

mutual

/-- The document that is written, or the first flaw. -/
def document : Nesting → Written → Except Flaw Json
  | _, .null => .ok .null
  | _, .bool value => .ok (.bool value)
  | _, .number value => value.map .number
  | _, .string value => value.map .string
  | nesting, .array items => do
    let inner ← nesting.enter
    return .array (← documents inner items)
  | nesting, .object fields => do
    let inner ← nesting.enter
    return .ofMembers (← members inner fields)

/-- The documents of the items of an array. -/
def documents : Nesting → List Written → Except Flaw (List Json)
  | _, [] => .ok []
  | nesting, item :: items => do
    let item ← document nesting item
    return item :: (← documents nesting items)

/-- The members of an object as they stand. -/
def members : Nesting → List (Except Flaw String × Written) →
    Except Flaw (List (String × Json))
  | _, [] => .ok []
  | nesting, (name, value) :: fields => do
    let name ← name
    let value ← document nesting value
    return (name, value) :: (← members nesting fields)

end

/-- The document as it looks from outside: arrays and objects are not looked into. -/
def outline : Written → Except Flaw Json
  | .null => .ok .null
  | .bool value => .ok (.bool value)
  | .number value => value.map .number
  | .string value => value.map .string
  | .array _ => .ok (.array [])
  | .object _ => .ok (.object [])

/-- The members of an object up to the first flawed name, and its flaw. -/
def namedMembers : List (Except Flaw String × Written) → List (String × Written) × Option Flaw
  | [] => ([], none)
  | (.error flaw, _) :: _ => ([], some flaw)
  | (.ok name, value) :: members =>
    let (named, flaw) := namedMembers members
    ((name, value) :: named, flaw)

theorem exists_of_bind_eq_ok {α β : Type} {x : Except Flaw α} {f : α → Except Flaw β} {b : β}
    (h : x >>= f = .ok b) :
  ∃ a, x = .ok a ∧ f a = .ok b
  := by
  obtain _ | a := x
  · cases h
  · exact ⟨a, rfl, h⟩

mutual

theorem isCanonical_of_document {nesting : Nesting} {document : Json} :
    (written : Written) → written.document nesting = .ok document → document.IsCanonical
  | .null, h | .bool _, h | .number (.ok _), h | .string (.ok _), h => by
    obtain rfl := Except.ok.inj h
    trivial
  | .number (.error _), h | .string (.error _), h => nomatch h
  | .array items, h => by
    obtain ⟨_, _, h⟩ := exists_of_bind_eq_ok h
    obtain ⟨_, hitems, h⟩ := exists_of_bind_eq_ok h
    obtain rfl := Except.ok.inj h
    exact areCanonical_of_documents items hitems
  | .object fields, h => by
    obtain ⟨_, _, h⟩ := exists_of_bind_eq_ok h
    obtain ⟨_, hmembers, h⟩ := exists_of_bind_eq_ok h
    obtain rfl := Except.ok.inj h
    exact Json.isCanonical_ofMembers (hasCanonicalValues_of_members fields hmembers)

theorem areCanonical_of_documents {nesting : Nesting} {documents : List Json} :
    (items : List Written) → Written.documents nesting items = .ok documents →
      Json.AreCanonical documents
  | [], h => by
    obtain rfl := Except.ok.inj h
    trivial
  | item :: items, h => by
    obtain ⟨_, hitem, h⟩ := exists_of_bind_eq_ok h
    obtain ⟨_, hitems, h⟩ := exists_of_bind_eq_ok h
    obtain rfl := Except.ok.inj h
    exact ⟨isCanonical_of_document item hitem, areCanonical_of_documents items hitems⟩

theorem hasCanonicalValues_of_members {nesting : Nesting} {members : List (String × Json)} :
    (fields : List (Except Flaw String × Written)) →
      Written.members nesting fields = .ok members → Json.HasCanonicalValues members
  | [], h => by
    obtain rfl := Except.ok.inj h
    trivial
  | (name, value) :: fields, h => by
    obtain ⟨_, _, h⟩ := exists_of_bind_eq_ok h
    obtain ⟨_, hvalue, h⟩ := exists_of_bind_eq_ok h
    obtain ⟨_, hfields, h⟩ := exists_of_bind_eq_ok h
    obtain rfl := Except.ok.inj h
    exact ⟨isCanonical_of_document value hvalue, hasCanonicalValues_of_members fields hfields⟩

end

end Written

end FilteredSearch
