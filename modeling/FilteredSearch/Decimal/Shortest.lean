/-!
# The shortest decimal of a binary number

A finite double is `mantissa · 2 ^ exponent`, up to its sign.  The reals that round to it form
an interval whose ends belong to it exactly when the mantissa is even.  Among the grids
`10 ^ e · ℕ`, from the coarsest to the finest, the first one with a point in the interval gives
the decimal with the fewest digits; of two such points the one nearer to the number is taken,
and of two equally near ones the even one.

Everything is computed with natural numbers, on the grid of quarters of the last binary place,
where the ends of the interval and the number itself are whole.
-/

namespace FilteredSearch

/-- A positive binary number `mantissa · 2 ^ exponent`, with the gap below it: half as wide as
the gap above it when the mantissa is the first one of its exponent. -/
structure Binary where
  mantissa : Nat
  exponent : Int
  narrowBelow : Bool

/-- The decimal `coefficient · 10 ^ exponent`. -/
structure Decimal where
  coefficient : Nat
  exponent : Int

namespace Binary

/-- The number in quarters of its last binary place. -/
def center (x : Binary) : Nat := 4 * x.mantissa

/-- The lower end of the interval of reals that round to the number, in quarters. -/
def lower (x : Binary) : Nat := x.center - if x.narrowBelow then 1 else 2

/-- The upper end of the interval of reals that round to the number, in quarters. -/
def upper (x : Binary) : Nat := x.center + 2

/-- The ends of the interval round to the number themselves. -/
def closed (x : Binary) : Bool := x.mantissa % 2 = 0

/-- Factors `(a, b)` such that `d · 10 ^ e` compares to `k` quarters as `d * a` to `k * b`. -/
def scales (x : Binary) (e : Int) : Nat × Nat :=
  let quarter := x.exponent - 2
  (Nat.pow 10 e.toNat * Nat.pow 2 (-quarter).toNat,
    Nat.pow 2 quarter.toNat * Nat.pow 10 (-e).toNat)

/-- The point of the grid of `10 ^ e` that rounds to the number and is nearest to it. -/
def nearestOnGrid? (x : Binary) (e : Int) : Option Nat :=
  let (a, b) := x.scales e
  let below := x.center * b / a
  let rest := x.center * b - below * a
  let belowRounds := x.lower * b < below * a || (x.closed && x.lower * b = below * a)
  let aboveRounds := (below + 1) * a < x.upper * b || (x.closed && (below + 1) * a = x.upper * b)
  if belowRounds && aboveRounds then
    if 2 * rest < a || (2 * rest = a && below % 2 = 0) then some below else some (below + 1)
  else if belowRounds then some below
  else if aboveRounds then some (below + 1)
  else none

/-- The nearest point on the first of the grids of `10 ^ e`, `10 ^ (e - 1)`, … that has one. -/
def onFirstGrid (x : Binary) : Nat → Int → Decimal
  | 0, e => ⟨x.center * (x.scales e).2 / (x.scales e).1, e⟩
  | grids + 1, e =>
    match x.nearestOnGrid? e with
    | some d => ⟨d, e⟩
    | none => x.onFirstGrid grids (e - 1)

/-- The decimal with the fewest digits that rounds to the number.  No double reaches
`10 ^ 309`, and every double is on the grid of `10 ^ -1074`. -/
def shortest (x : Binary) : Decimal := x.onFirstGrid 1384 309

/-- The number of fractions of a double. -/
def fractionCount : Nat := 0x10000000000000

/-- The number of biased exponents of a double. -/
def exponentCount : Nat := 0x800

/-- The number of magnitudes of a double.  Its bits are the magnitude, which is below this
number, and above it the sign. -/
def magnitudeCount : Nat := exponentCount * fractionCount

/-- The magnitude of a finite double that is not zero, from its bits. -/
def ofBits (bits : Nat) : Binary :=
  let fraction := bits % fractionCount
  let biased := bits / fractionCount % exponentCount
  if biased = 0 then ⟨fraction, -1074, false⟩
  else ⟨fractionCount + fraction, (biased : Int) - 1075, fraction = 0 && biased ≠ 1⟩

end Binary

/-- The shortest decimal of the magnitude of a finite double. -/
def Decimal.ofFloat (value : Float) : Decimal :=
  let bits := value.toBits.toNat
  if bits % Binary.magnitudeCount = 0 then ⟨0, 0⟩ else (Binary.ofBits bits).shortest

end FilteredSearch
