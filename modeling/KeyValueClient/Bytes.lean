/-!
# Byte strings

A byte string is a list of octets.  Everything that travels over a link is one, and so is every
payload that a value carries.

## Numbers in bytes

Numbers of a fixed width stand most significant byte first.  `bigEndian w n` writes the lowest
`8 * w` bits of `n` in `w` bytes, and `ofBigEndian` reads any number of bytes back, so that what is
read back of a number is what fits the width (`ofBigEndian_bigEndian`).

## Cutting

`cut? n b` takes exactly `n` bytes off the front, or none at all when `b` is too short
(`cut?_eq_some_iff`).
-/

namespace KeyValueClient

-- Powers of numbers are those of the core library here, also beside a library of algebra that has
-- powers of its own.
attribute [scoped instance (20000)] instPowNat

/-- A byte string, first byte first. -/
abbrev Bytes := List UInt8

namespace Bytes

/-! ## Numbers in bytes -/

/-- The lowest `8 * width` bits of a number, most significant byte first. -/
def bigEndian : (width : Nat) → Nat → Bytes
  | 0, _ => []
  | width + 1, n => UInt8.ofNat (n / 256 ^ width) :: bigEndian width n

/-- The number that a byte string spells, most significant byte first. -/
def ofBigEndian : Bytes → Nat
  | [] => 0
  | b :: bytes => b.toNat * 256 ^ bytes.length + ofBigEndian bytes

@[simp] theorem length_bigEndian (width n : Nat) : (bigEndian width n).length = width := by
  induction width with
  | zero => rfl
  | succ width ih => simp [bigEndian, ih]

/-- Bytes spell a number below `256` to the power of their count. -/
theorem ofBigEndian_lt (bytes : Bytes) : ofBigEndian bytes < 256 ^ bytes.length := by
  induction bytes with
  | nil => simp [ofBigEndian]
  | cons b bytes ih =>
    have hb : b.toNat < 256 := b.toNat_lt
    have hmul : b.toNat * 256 ^ bytes.length + 256 ^ bytes.length ≤ 256 ^ (bytes.length + 1) := by
      rw [← Nat.succ_mul, Nat.pow_succ, Nat.mul_comm (256 ^ bytes.length)]
      exact Nat.mul_le_mul_right _ hb
    simp only [ofBigEndian, List.length_cons]
    omega

/-- Writing a number and reading it back keeps what fits the width. -/
theorem ofBigEndian_bigEndian (width n : Nat) :
    ofBigEndian (bigEndian width n) = n % 256 ^ width := by
  induction width with
  | zero => simp [bigEndian, ofBigEndian, Nat.mod_one]
  | succ width ih =>
    have hmod : n % 256 ^ (width + 1)
        = n % 256 ^ width + 256 ^ width * (n / 256 ^ width % 256) := by
      rw [Nat.pow_succ, Nat.mod_mul]
    simp only [bigEndian, ofBigEndian, length_bigEndian, ih, hmod, UInt8.toNat_ofNat']
    rw [Nat.mul_comm, Nat.add_comm]

/-! ## Cutting -/

/-- The first `n` bytes and what follows them, if there are that many. -/
def cut? (n : Nat) (bytes : Bytes) : Option (Bytes × Bytes) :=
  let front := bytes.take n
  if front.length = n then some (front, bytes.drop n) else none

/-- Exactly the byte strings with `n` bytes in front can be cut there. -/
theorem cut?_eq_some_iff {n : Nat} {bytes front rest : Bytes} :
    cut? n bytes = some (front, rest) ↔ bytes = front ++ rest ∧ front.length = n := by
  simp only [cut?]
  constructor
  · intro h
    split at h
    · next hlen =>
      cases h
      exact ⟨(List.take_append_drop n bytes).symm, hlen⟩
    · cases h
  · rintro ⟨rfl, rfl⟩
    simp

/-! ## Hexadecimal text -/

/-- The hexadecimal digit of a number below sixteen, letters in lower case. -/
def hexDigit (n : Nat) : Char :=
  if n < 10 then Char.ofNat (48 + n) else Char.ofNat (87 + n)

/-- Two hexadecimal digits for each byte. -/
def hex (bytes : Bytes) : String :=
  String.ofList (bytes.flatMap fun b => [hexDigit (b.toNat / 16), hexDigit (b.toNat % 16)])

end Bytes
end KeyValueClient
