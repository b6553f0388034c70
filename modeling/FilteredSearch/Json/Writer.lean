import FilteredSearch.Decimal.Layout
import FilteredSearch.Json.Basic

/-!
# Document texts

A document is written compactly, without blanks, the members of an object in the order in
which they stand.  In a string the quotation mark, the backslash and the control characters are
escaped and all else stands for itself.  An integer is written with its digits, a real number
with the fewest digits that read back to it.

The writers put a text in front of a given rest, so the text of a document is built from its
end and no text is copied.
-/

namespace FilteredSearch.Json

/-- Real numbers have a point when it stands at most four places before the first digit and at
most sixteen places after it, and an exponent otherwise. -/
def realLayout : Decimal.Layout := ⟨-4, 16⟩

/-- The text of a number. -/
def writeNumber : Number → List Char
  | .integer value _ =>
    if value < 0 then '-' :: Decimal.digits value.natAbs else Decimal.digits value.natAbs
  | .real value _ => realLayout.writeFloat value

/-- The digit of a number below sixteen, in lower case. -/
def hexDigit (n : Nat) : Char := Nat.digitChar n

/-- A character as it stands in a string. -/
def writeChar (c : Char) : List Char :=
  if c = '"' then ['\\', '"']
  else if c = '\\' then ['\\', '\\']
  else if c = '\x08' then ['\\', 'b']
  else if c = '\t' then ['\\', 't']
  else if c = '\n' then ['\\', 'n']
  else if c = '\x0c' then ['\\', 'f']
  else if c = '\r' then ['\\', 'r']
  else if c.toNat < 0x20 then
    ['\\', 'u', '0', '0', hexDigit (c.toNat / 16), hexDigit (c.toNat % 16)]
  else [c]

/-- Puts the characters of a string and the closing quotation mark in front of a rest. -/
def writeChars : List Char → List Char → List Char
  | [], rest => '"' :: rest
  | c :: cs, rest => writeChar c ++ writeChars cs rest

/-- Puts a string in front of a rest. -/
def writeString (text : String) (rest : List Char) : List Char :=
  '"' :: writeChars text.toList rest

mutual

/-- Puts a document in front of a rest. -/
def write : Json → List Char → List Char
  | .null, rest => 'n' :: 'u' :: 'l' :: 'l' :: rest
  | .bool true, rest => 't' :: 'r' :: 'u' :: 'e' :: rest
  | .bool false, rest => 'f' :: 'a' :: 'l' :: 's' :: 'e' :: rest
  | .number value, rest => writeNumber value ++ rest
  | .string value, rest => writeString value rest
  | .array [], rest => '[' :: ']' :: rest
  | .array (item :: items), rest => '[' :: write item (writeItems items rest)
  | .object [], rest => '\x7b' :: '\x7d' :: rest
  | .object ((name, value) :: members), rest =>
    '\x7b' :: writeString name (':' :: write value (writeMembers members rest))

/-- Puts the further items of an array and the closing bracket in front of a rest. -/
def writeItems : List Json → List Char → List Char
  | [], rest => ']' :: rest
  | item :: items, rest => ',' :: write item (writeItems items rest)

/-- Puts the further members of an object and the closing brace in front of a rest. -/
def writeMembers : List (String × Json) → List Char → List Char
  | [], rest => '\x7d' :: rest
  | (name, value) :: members, rest =>
    ',' :: writeString name (':' :: write value (writeMembers members rest))

end

/-- The text of a document. -/
def toText (document : Json) : String := String.ofList (document.write [])

end FilteredSearch.Json
