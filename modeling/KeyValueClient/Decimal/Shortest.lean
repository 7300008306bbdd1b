/-!
# Shortest decimals

A binary number of limited precision stands for all the reals that round to it.  They form an
interval, and any decimal inside the interval reads back as the number.  The shortest text of the
number is the decimal of the interval with the fewest digits, and of several such decimals the one
nearest to the number.

## The search

Decimals are searched grid by grid.  The grid of exponent `e` holds the multiples of `10 ^ e`.  If
any of its points lies in the interval, then so does one of the two neighbours of the number on that
grid, so only these two are tried (`onGrid?`).  The coarsest grid with a point in the interval gives
the fewest digits.  Of two neighbours in the interval the nearer one is taken, and **a number half
way between them goes to the larger one**.

Everything is compared in natural numbers: a multiple of a power of ten and a multiple of a power of
two are brought to one denominator first (`gridScale`).

## The text

`positional` writes a decimal without an exponent, with as many zeros as it takes, and with a point
only where digits stand behind it.
-/

namespace KeyValueClient

/-- A decimal number, `coefficient * 10 ^ exponent`. -/
structure Decimal where
  coefficient : Nat
  exponent : Int

namespace Decimal

/-- A binary number with the interval of reals that round to it.  The number and the two ends are
multiples of `2 ^ exponent`; `closed` says whether the ends round to the number too. -/
structure RoundingInterval where
  value : Nat
  low : Nat
  high : Nat
  exponent : Int
  closed : Bool

/-- How many units of a common denominator `10 ^ e` and `2 ^ x` have. -/
def gridScale (e x : Int) : Nat × Nat :=
  (10 ^ e.toNat * 2 ^ (-x).toNat, 2 ^ x.toNat * 10 ^ (-e).toNat)

namespace RoundingInterval

/-- The point of the interval that the number is nearest to on the grid of exponent `e`. -/
def onGrid? (r : RoundingInterval) (e : Int) : Option Nat :=
  let (step, unit) := gridScale e r.exponent
  let inside (c : Nat) : Bool :=
    if r.closed then r.low * unit ≤ c * step && c * step ≤ r.high * unit
    else r.low * unit < c * step && c * step < r.high * unit
  let value := r.value * unit
  let below := value / step
  let above := below + 1
  match 0 < below && inside below, inside above with
  | true, true => if value - below * step < above * step - value then below else above
  | true, false => some below
  | false, true => some above
  | false, false => none

/-- The first hit on the grids of exponents `e`, `e - 1`, …, of which `grids` are tried. -/
def search (r : RoundingInterval) : (grids : Nat) → (e : Int) → Decimal
  | 0, e =>
    let (step, unit) := gridScale e r.exponent
    ⟨r.value * unit / step, e⟩
  | grids + 1, e =>
    match r.onGrid? e with
    | some c => ⟨c, e⟩
    | none => r.search grids (e - 1)

/-- The shortest decimal of the interval.  The search begins on a grid whose first point lies
beyond the number.  Seventeen digits tell any two numbers of fifty-three bits apart, and at most
three grids are too coarse to have a digit of the number, so twenty grids are enough. -/
def shortest (r : RoundingInterval) : Decimal :=
  let bits : Int := r.value.log2 + r.exponent + 1
  r.search 20 (bits * 30103 / 100000 + 1)

end RoundingInterval

/-- A decimal written without an exponent. -/
def positional (d : Decimal) : String :=
  let digits := Nat.repr d.coefficient
  if 0 ≤ d.exponent then digits ++ String.ofList (List.replicate d.exponent.toNat '0')
  else
    let places := (-d.exponent).toNat
    let padded := List.replicate (places + 1 - digits.length) '0' ++ digits.toList
    let whole := padded.length - places
    String.ofList (padded.take whole) ++ "." ++ String.ofList (padded.drop whole)

end Decimal
end KeyValueClient
