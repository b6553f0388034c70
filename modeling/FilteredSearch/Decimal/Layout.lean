import FilteredSearch.Decimal.Shortest

/-!
# Writing a decimal

A decimal with the digits `d₁ … dₙ` and the value `0.d₁ … dₙ · 10 ^ p` is written plainly, with
at least one digit on each side of the point, when `p` lies within the bounds of the layout.
Otherwise it is written with one digit before the point and an exponent of ten, whose sign is
always written and which is not padded.
-/

namespace FilteredSearch.Decimal

/-- The positions of the point at which a decimal is written plainly. -/
structure Layout where
  leastPlain : Int
  greatestPlain : Int

/-- The decimal digits of a natural number. -/
def digits (n : Nat) : List Char := Nat.toDigits 10 n

/-- A decimal with an exponent of ten: `d₁[.d₂ … dₙ]e±x`. -/
def scientific (digits : List Char) (exponent : Int) : List Char :=
  let mark := if exponent < 0 then ['e', '-'] else ['e', '+']
  let power := mark ++ Decimal.digits exponent.natAbs
  match digits with
  | first :: second :: rest => first :: '.' :: second :: rest ++ power
  | single => single ++ power

/-- A decimal whose point stands `point` digits after the first place. -/
def plain (digits : List Char) (point : Int) : List Char :=
  if point ≤ 0 then ['0', '.'] ++ List.replicate (-point).toNat '0' ++ digits
  else
    let whole := point.toNat
    if digits.length ≤ whole then
      digits ++ List.replicate (whole - digits.length) '0' ++ ['.', '0']
    else digits.take whole ++ '.' :: digits.drop whole

/-- The text of a decimal without its sign. -/
def Layout.write (layout : Layout) (x : Decimal) : List Char :=
  let digits := Decimal.digits x.coefficient
  let point := if x.coefficient = 0 then 1 else digits.length + x.exponent
  if layout.leastPlain ≤ point ∧ point ≤ layout.greatestPlain then plain digits point
  else scientific digits (point - 1)

/-- The shortest text of a finite double that reads back to it.  Zero keeps its sign. -/
def Layout.writeFloat (layout : Layout) (value : Float) : List Char :=
  let sign := if value.toBits.toNat < Binary.magnitudeCount then [] else ['-']
  sign ++ layout.write (Decimal.ofFloat value)

end FilteredSearch.Decimal
