import FilteredSearch.Json.Written

/-!
# Reading document texts

A text that follows the grammar of documents is read as it is written.  A number without point
and exponent that fits into 64 bits is an integer; every other number, and the integer zero with
a sign, is the nearest double.  Blanks are the space, the tab and the line breaks.

A reader takes what it reads from the front of a text and gives back the rest.
-/

namespace FilteredSearch

namespace Written

/-- The text without the blanks in front. -/
def skipBlanks (text : List Char) : List Char :=
  text.dropWhile fun c => c = ' ' || c = '\t' || c = '\n' || c = '\r'

/-! ## Numbers -/

/-- The value of a row of decimal digits. -/
def digitsValue (digits : List Char) : Nat :=
  digits.foldl (fun value c => 10 * value + (c.toNat - '0'.toNat)) 0

/-- Reads an optional minus sign. -/
def readMinus : List Char → Bool × List Char
  | '-' :: rest => (true, rest)
  | text => (false, text)

/-- Reads the digits of a whole number, which has no leading zero. -/
def readWhole? (text : List Char) : Option (List Char × List Char) :=
  match text.span Char.isDigit with
  | ([], _) => none
  | ('0' :: _ :: _, _) => none
  | (digits, rest) => some (digits, rest)

/-- Reads an optional fraction: a point with at least one digit. -/
def readFraction? : List Char → Option (Option (List Char) × List Char)
  | '.' :: text =>
    match text.span Char.isDigit with
    | ([], _) => none
    | (digits, rest) => some (some digits, rest)
  | text => some (none, text)

/-- Reads the sign and the digits of an exponent. -/
def readPower? (text : List Char) : Option (Int × List Char) :=
  let (negative, text) := match text with
    | '-' :: rest => (true, rest)
    | '+' :: rest => (false, rest)
    | text => (false, text)
  match text.span Char.isDigit with
  | ([], _) => none
  | (digits, rest) =>
    let power : Int := digitsValue digits
    some (if negative then -power else power, rest)

/-- Reads an optional exponent of ten. -/
def readExponent? : List Char → Option (Option Int × List Char)
  | 'e' :: text | 'E' :: text => (readPower? text).map fun (power, rest) => (some power, rest)
  | text => some (none, text)

/-- The double as a number. -/
def finite (value : Float) : Except Flaw Number :=
  (Number.ofFloat? value).elim (.error .outOfRange) .ok

/-- The double nearest to `coefficient · 10 ^ exponent`, for a coefficient of the given number
of digits.  A number below `10 ^ -400` is nearest to zero and one from `10 ^ 400` on is beyond
the doubles, so that no larger power of ten is computed. -/
def nearestFloat (negative : Bool) (coefficient digits : Nat) (exponent : Int) :
    Except Flaw Number :=
  if coefficient ≠ 0 ∧ 400 < digits + exponent then .error .outOfRange
  else
    let magnitude :=
      if coefficient = 0 ∨ digits + exponent < -400 then 0
      else Float.ofScientific coefficient (exponent < 0) exponent.natAbs
    finite (if negative then -magnitude else magnitude)

/-- The number without point and exponent that the digits stand for. -/
def integerOfDigits (negative : Bool) (digits : List Char) : Except Flaw Number :=
  let magnitude := digitsValue digits
  if negative && magnitude = 0 then finite (-0.0)
  else
    let value : Int := if negative then -magnitude else magnitude
    if fits : Number.Fits value then .ok (.integer value fits)
    else nearestFloat negative magnitude digits.length 0

/-- The number that the digits before and after the point stand for, with an exponent of ten.
Zeros in front do not count as digits. -/
def realOfDigits (negative : Bool) (whole places : List Char) (exponent : Int) :
    Except Flaw Number :=
  let digits := (whole ++ places).dropWhile (· == '0')
  nearestFloat negative (digitsValue digits) digits.length (exponent - places.length)

/-- Reads a number. -/
def readNumber? (text : List Char) : Option (Except Flaw Number × List Char) := do
  let (negative, text) := readMinus text
  let (whole, text) ← readWhole? text
  let (fraction, text) ← readFraction? text
  let (exponent, text) ← readExponent? text
  match fraction, exponent with
  | none, none => return (integerOfDigits negative whole, text)
  | _, _ => return (realOfDigits negative whole (fraction.getD []) (exponent.getD 0), text)

/-! ## Strings -/

/-- The value of a hexadecimal digit. -/
def hexValue? (c : Char) : Option Nat :=
  if '0' ≤ c ∧ c ≤ '9' then some (c.toNat - '0'.toNat)
  else if 'a' ≤ c ∧ c ≤ 'f' then some (c.toNat - 'a'.toNat + 10)
  else if 'A' ≤ c ∧ c ≤ 'F' then some (c.toNat - 'A'.toNat + 10)
  else none

/-- The value of four hexadecimal digits. -/
def hexUnit? (a b c d : Char) : Option Nat := do
  let a ← hexValue? a
  let b ← hexValue? b
  let c ← hexValue? c
  let d ← hexValue? d
  some (((a * 16 + b) * 16 + c) * 16 + d)

/-- The unit is the first half of a surrogate pair. -/
def isLeading (unit : Nat) : Bool := 0xd800 ≤ unit && unit < 0xdc00

/-- The unit is the second half of a surrogate pair. -/
def isTrailing (unit : Nat) : Bool := 0xdc00 ≤ unit && unit < 0xe000

/-- The character that a surrogate pair stands for. -/
def pairChar (leading trailing : Nat) : Char :=
  Char.ofNat (0x10000 + (leading - 0xd800) * 0x400 + (trailing - 0xdc00))

/-- The character that stands for itself after a backslash, or for a control character. -/
def escapedChar? : Char → Option Char
  | '"' => some '"'
  | '\\' => some '\\'
  | '/' => some '/'
  | 'b' => some '\x08'
  | 'f' => some '\x0c'
  | 'n' => some '\n'
  | 'r' => some '\r'
  | 't' => some '\t'
  | _ => none

/-- A piece of a string: a character, or the unit that an escape stands for. -/
inductive StringPiece where
  | char (c : Char)
  | unit (value : Nat)

/-- Puts a piece in front of what was read. -/
def consRead (piece : StringPiece) :
    Option (List StringPiece × List Char) → Option (List StringPiece × List Char)
  | some (pieces, rest) => some (piece :: pieces, rest)
  | none => none

/-- Reads the pieces of a string and the closing quotation mark. -/
def readPieces? : List Char → Option (List StringPiece × List Char)
  | [] => none
  | '"' :: rest => some ([], rest)
  | '\\' :: 'u' :: a :: b :: c :: d :: rest =>
    match hexUnit? a b c d with
    | none => none
    | some unit => consRead (.unit unit) (readPieces? rest)
  | '\\' :: c :: rest =>
    match escapedChar? c with
    | none => none
    | some c => consRead (.char c) (readPieces? rest)
  | c :: rest => if c.toNat < 0x20 then none else consRead (.char c) (readPieces? rest)

/-- The characters that the pieces of a string stand for.  The two halves of a surrogate pair
stand for one character. -/
def joinPieces : List StringPiece → Except Flaw (List Char)
  | [] => .ok []
  | .char c :: pieces => (joinPieces pieces).map (c :: ·)
  | .unit unit :: pieces =>
    if isTrailing unit then .error .loneHalf
    else if isLeading unit then
      match pieces with
      | .unit trailing :: pieces =>
        if isTrailing trailing then (joinPieces pieces).map (pairChar unit trailing :: ·)
        else .error .loneHalf
      | _ => .error .openPair
    else (joinPieces pieces).map (Char.ofNat unit :: ·)

/-- Reads what follows the opening quotation mark of a string. -/
def readTail? (text : List Char) : Option (Except Flaw String × List Char) :=
  (readPieces? text).map fun (pieces, rest) => ((joinPieces pieces).map String.ofList, rest)

/-- Reads a string. -/
def readString? : List Char → Option (Except Flaw String × List Char)
  | '"' :: text => readTail? text
  | _ => none

/-! ## Documents -/

mutual

/-- Reads a document, within a number of nested steps. -/
def readValue? : Nat → List Char → Option (Written × List Char)
  | 0, _ => none
  | _ + 1, 'n' :: 'u' :: 'l' :: 'l' :: rest => some (.null, rest)
  | _ + 1, 't' :: 'r' :: 'u' :: 'e' :: rest => some (.bool true, rest)
  | _ + 1, 'f' :: 'a' :: 'l' :: 's' :: 'e' :: rest => some (.bool false, rest)
  | _ + 1, '"' :: text => (readTail? text).map fun (value, rest) => (.string value, rest)
  | steps + 1, '[' :: text =>
    match skipBlanks text with
    | ']' :: rest => some (.array [], rest)
    | text => (readItems? steps text).map fun (items, rest) => (.array items, rest)
  | steps + 1, '\x7b' :: text =>
    match skipBlanks text with
    | '\x7d' :: rest => some (.object [], rest)
    | text => (readMembers? steps text).map fun (members, rest) => (.object members, rest)
  | _ + 1, text => (readNumber? text).map fun (value, rest) => (.number value, rest)

/-- Reads the items of an array and the closing bracket. -/
def readItems? : Nat → List Char → Option (List Written × List Char)
  | 0, _ => none
  | steps + 1, text =>
    match readValue? steps (skipBlanks text) with
    | none => none
    | some (item, rest) =>
      match skipBlanks rest with
      | ',' :: rest => (readItems? steps rest).map fun (items, rest) => (item :: items, rest)
      | ']' :: rest => some ([item], rest)
      | _ => none

/-- Reads the members of an object and the closing brace. -/
def readMembers? : Nat → List Char →
    Option (List (Except Flaw String × Written) × List Char)
  | 0, _ => none
  | steps + 1, text =>
    match readString? (skipBlanks text) with
    | none => none
    | some (name, rest) =>
      match skipBlanks rest with
      | ':' :: rest =>
        match readValue? steps (skipBlanks rest) with
        | none => none
        | some (value, rest) =>
          match skipBlanks rest with
          | ',' :: rest =>
            (readMembers? steps rest).map fun (members, rest) => ((name, value) :: members, rest)
          | '\x7d' :: rest => some ([(name, value)], rest)
          | _ => none
      | _ => none

end

/-- The document that is written in a text.  Between two steps that do not shorten the text
there is one that does, so twice its length bounds the steps. -/
def ofText? (text : String) : Option Written :=
  let text := text.toList
  match readValue? (2 * text.length + 1) (skipBlanks text) with
  | some (written, rest) => if (skipBlanks rest).isEmpty then some written else none
  | none => none

end Written

/-- The document that a text holds, in its canonical form. -/
def Json.ofText? (text : String) : Option Json :=
  match Written.ofText? text with
  | some written => (written.document .unlimited).toOption
  | none => none

theorem Json.isCanonical_of_ofText {text : String} {document : Json}
    (h : Json.ofText? text = some document) :
  document.IsCanonical
  := by
  rw [Json.ofText?] at h
  split at h
  · next written _ =>
    cases hread : written.document .unlimited with
    | error => simp [hread, Except.toOption] at h
    | ok =>
      rw [hread] at h
      obtain rfl := Option.some.inj h
      exact Written.isCanonical_of_document written hread
  · cases h

end FilteredSearch
