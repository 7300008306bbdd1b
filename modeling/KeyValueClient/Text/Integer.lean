/-!
# Integers in text

An integer is written as an optional single sign and one or more digits of ASCII; leading zeros are
allowed, and nothing else is: no blanks, no separators, no digits of other scripts.  `signed?` reads
such a text as an integer of any size, and `unsigned?` reads one that may have a plus sign only.

Readers for the sizes that the program stores restrict these to the integers that fit:
`int64?`, `uint64?` and `uint16?`.  The texts are of any length, so the digits are read as an
unbounded number first and compared with the bounds afterwards.
-/

namespace KeyValueClient
namespace Text

/-- Whether a character is one of the ten digits of ASCII. -/
def isDigit (c : Char) : Bool := '0' ≤ c && c ≤ '9'

/-- The number that a run of digits spells in base ten, continuing from `start`. -/
def digitsValue (start : Nat) (cs : List Char) : Nat :=
  cs.foldl (fun value c => value * 10 + (c.toNat - '0'.toNat)) start

/-- The number that a text of one or more digits spells. -/
def natural? (cs : List Char) : Option Nat :=
  if !cs.isEmpty && cs.all isDigit then some (digitsValue 0 cs) else none

/-- The number that a text spells which may begin with a plus sign. -/
def unsigned? : List Char → Option Nat
  | '+' :: cs => natural? cs
  | cs => natural? cs

/-- The integer that a text spells which may begin with a plus or a minus sign. -/
def signed? : List Char → Option Int
  | '-' :: cs => (natural? cs).map fun n => -(n : Int)
  | cs => (unsigned? cs).map fun n => (n : Int)

/-- The integer of sixty-four bits that a string spells. -/
def int64? (s : String) : Option Int64 :=
  match signed? s.toList with
  | some i =>
    if Int64.minValue.toInt ≤ i ∧ i ≤ Int64.maxValue.toInt then some (Int64.ofInt i) else none
  | none => none

/-- The natural number of sixty-four bits that a string spells. -/
def uint64? (s : String) : Option UInt64 :=
  match unsigned? s.toList with
  | some n => if n < UInt64.size then some (UInt64.ofNat n) else none
  | none => none

/-- The natural number of sixteen bits that a string spells. -/
def uint16? (s : String) : Option UInt16 :=
  match unsigned? s.toList with
  | some n => if n < UInt16.size then some (UInt16.ofNat n) else none
  | none => none

end Text
end KeyValueClient
