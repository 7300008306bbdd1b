import KeyValueClient.Decimal.Shortest

/-!
# Floating-point numbers of sixty-four bits

A number is kept as its bit pattern, so that every pattern, each of the many that are not a number
included, is kept as it came.  The pattern splits into a sign, an exponent field of eleven bits and
a fraction of fifty-two.

* `ofBinary32` widens a pattern of thirty-two bits.  Every number is kept exactly; a pattern that is
  no number keeps its sign and payload and becomes quiet.
* `numericallyEqual` compares as numbers: zero equals minus zero, and what is not a number equals
  nothing.
* `text` is the shortest decimal that reads back as the number, written without an exponent; whole
  numbers have no point.
-/

namespace KeyValueClient

/-- A floating-point number as its bit pattern. -/
structure Binary64 where
  bits : UInt64
  deriving DecidableEq, Inhabited

namespace Binary64

/-! ## Fields -/

/-- Whether the sign bit is set. -/
def negative (x : Binary64) : Bool := 0x8000000000000000 ≤ x.bits.toNat

/-- The exponent field. -/
def exponentField (x : Binary64) : Nat := x.bits.toNat >>> 52 % 0x800

/-- The fraction field. -/
def fraction (x : Binary64) : Nat := x.bits.toNat % 0x10000000000000

/-- The pattern with the given fields. -/
def ofFields (negative : Bool) (exponentField fraction : Nat) : Binary64 :=
  ⟨UInt64.ofNat (negative.toNat <<< 63 + exponentField <<< 52 + fraction)⟩

/-- Whether the pattern is not a number. -/
def isNaN (x : Binary64) : Bool := x.exponentField == 2047 && x.fraction != 0

/-- Whether the number is zero, of either sign. -/
def isZero (x : Binary64) : Bool := x.exponentField == 0 && x.fraction == 0

/-- Equality of numbers. -/
def numericallyEqual (x y : Binary64) : Bool :=
  !x.isNaN && !y.isNaN && (x == y || x.isZero && y.isZero)

/-! ## Widening -/

/-- The number that a pattern of thirty-two bits stands for.  Its exponent field is one of eight
bits and its fraction one of twenty-three.  A number below the normal range becomes a normal one,
whose leading bit is the highest one of the fraction. -/
def ofBinary32 (pattern : Nat) : Binary64 :=
  let negative := pattern >>> 31 % 2 == 1
  let exponentField := pattern >>> 23 % 0x100
  let fraction := pattern % 0x800000
  if exponentField = 255 then
    if fraction = 0 then ofFields negative 2047 0
    else ofFields negative 2047 (0x8000000000000 + (fraction % 0x400000) <<< 29)
  else if exponentField = 0 then
    if fraction = 0 then ofFields negative 0 0
    else
      let top := fraction.log2
      ofFields negative (top + 874) ((fraction - 2 ^ top) * 2 ^ (52 - top))
  else ofFields negative (exponentField + 896) (fraction <<< 29)

/-! ## Text -/

/-- The interval of reals that round to a finite number other than zero.  The ends are half way to
the neighbours, and they belong to the interval when the significand is even.  Below a power of two
the neighbours stand closer. -/
def roundingInterval (x : Binary64) : Decimal.RoundingInterval :=
  let significand := if x.exponentField = 0 then x.fraction else 0x10000000000000 + x.fraction
  let value := 4 * significand
  let below := if 1 < x.exponentField ∧ x.fraction = 0 then 1 else 2
  ⟨value, value - below, value + 2, max x.exponentField 1 - 1077, x.fraction % 2 == 0⟩

/-- The number as text. -/
def text (x : Binary64) : String :=
  if x.isNaN then "NaN"
  else
    let size :=
      if x.exponentField = 2047 then "inf"
      else if x.isZero then "0"
      else Decimal.positional x.roundingInterval.shortest
    if x.negative then "-" ++ size else size

end Binary64
end KeyValueClient
