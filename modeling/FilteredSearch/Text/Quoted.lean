import FilteredSearch.Text.Graphic

/-!
# Quoted text in messages

Messages show a text between quotation marks.  The quotation mark, the backslash, the tab, the
line breaks and the null character are written as a backslash and one character, every other
character that is not graphic as its code point in lower-case hexadecimal between braces, and
all else as itself.
-/

namespace FilteredSearch.Text

/-- The digits of a number to the base sixteen, in lower case. -/
def hexDigits (n : Nat) : List Char := Nat.toDigits 16 n

/-- A character as it stands between quotation marks. -/
def quotedChar (c : Char) : List Char :=
  if c = '\x00' then ['\\', '0']
  else if c = '\t' then ['\\', 't']
  else if c = '\r' then ['\\', 'r']
  else if c = '\n' then ['\\', 'n']
  else if c = '"' then ['\\', '"']
  else if c = '\\' then ['\\', '\\']
  else if isGraphic c then [c]
  else '\\' :: 'u' :: '\x7b' :: hexDigits c.toNat ++ ['\x7d']

/-- A text between quotation marks. -/
def quoted (text : String) : String :=
  String.ofList ('"' :: text.toList.flatMap quotedChar ++ ['"'])

end FilteredSearch.Text
