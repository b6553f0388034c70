/-!
# Blank characters

The blank characters are the 25 code points with the Unicode property White_Space.
-/

namespace FilteredSearch.Text

/-- The code points with the property White_Space. -/
def blankCodes : List Nat :=
  [0x9, 0xa, 0xb, 0xc, 0xd, 0x20, 0x85, 0xa0, 0x1680, 0x2000, 0x2001, 0x2002, 0x2003, 0x2004,
   0x2005, 0x2006, 0x2007, 0x2008, 0x2009, 0x200a, 0x2028, 0x2029, 0x202f, 0x205f, 0x3000]

/-- The character is blank. -/
def isBlank (c : Char) : Bool := blankCodes.contains c.toNat

example : blankCodes.length = 25 := rfl

/-- The blanks that core knows are blank. -/
theorem isBlank_of_isWhitespace {c : Char} (h : c.isWhitespace = true) :
  isBlank c = true
  := by
  simp only [Char.isWhitespace, Bool.or_eq_true, decide_eq_true_eq] at h
  rcases h with ((h | h) | h) | h <;> subst h <;> rfl

end FilteredSearch.Text
