/-!
# Numbers of JSON documents

A number is an integer that fits into 64 bits, with or without a sign, or a finite double.
The two kinds are different values also where they denote the same real: `1` and `1.0` are
written differently and are told apart by readers of a document.
-/

namespace FilteredSearch

/-- An integer fits into 64 bits, with or without a sign. -/
abbrev Number.Fits (value : Int) : Prop :=
  -0x8000000000000000 ≤ value ∧ value < 0x10000000000000000

/-- A number of a JSON document. -/
inductive Number where
  | integer (value : Int) (fits : Number.Fits value)
  | real (value : Float) (finite : value.isFinite = true)

namespace Number

/-- The number with an unsigned value. -/
def ofUInt64 (value : UInt64) : Number :=
  .integer value.toNat ⟨by omega, by have := value.toNat_lt; omega⟩

/-- The number with a signed value. -/
def ofInt64 (value : Int64) : Number :=
  .integer value.toInt ⟨value.le_toInt, by have := value.toInt_lt; omega⟩

/-- The real number with a finite value. -/
def ofFloat? (value : Float) : Option Number :=
  if h : value.isFinite = true then some (.real value h) else none

/-- The integer if it fits, else the double nearest to it. -/
def ofInt? (value : Int) : Option Number :=
  if h : Fits value then some (.integer value h)
  else ofFloat? (Float.ofInt value)

/-- The double nearest to a number. -/
def toFloat : Number → Float
  | .integer value _ => Float.ofInt value
  | .real value _ => value

/-- The value of a natural number below `2 ^ 64`. -/
def toUInt64? : Number → Option UInt64
  | .integer value _ => if 0 ≤ value then some (UInt64.ofNat value.toNat) else none
  | .real _ _ => none

end Number

end FilteredSearch
