/-!
# Markers

Every MessagePack object begins with a marker byte, which says what kind of object it is and either
holds a small number itself or says how wide the number is that follows.  All 256 bytes are markers,
one of which, `reserved`, begins no object.

Widths are powers of two.  A marker with a width index `k` is followed by a number of `2 ^ k`
bytes, except that the shortest length of an array or a map has two bytes, so that theirs have `2 ^
(k + 1)`.

**The markers and the bytes are in bijection** (`ofByte_toByte`, `toByte_ofByte`).
-/

namespace KeyValueClient

/-- What a marker byte says. -/
inductive Marker where
  /-- A small natural number. -/
  | fixNat (n : Fin 128)
  /-- A small negative integer, `n - 32`. -/
  | fixNegative (n : Fin 32)
  | nil
  | reserved
  | bool (b : Bool)
  | float32
  | float64
  /-- A natural number of `2 ^ k` bytes. -/
  | uint (k : Fin 4)
  /-- An integer of `2 ^ k` bytes. -/
  | int (k : Fin 4)
  | fixStr (length : Fin 32)
  /-- A string with a length of `2 ^ k` bytes. -/
  | str (k : Fin 3)
  /-- Bytes with a length of `2 ^ k` bytes. -/
  | bin (k : Fin 3)
  | fixArray (length : Fin 16)
  /-- An array with a length of `2 ^ (k + 1)` bytes. -/
  | array (k : Fin 2)
  | fixMap (length : Fin 16)
  /-- A map with a length of `2 ^ (k + 1)` bytes. -/
  | map (k : Fin 2)
  /-- An extension with a payload of `2 ^ k` bytes. -/
  | fixExt (k : Fin 5)
  /-- An extension with a length of `2 ^ k` bytes. -/
  | ext (k : Fin 3)
  deriving DecidableEq

namespace Marker

/-- The number of a marker's byte. -/
def code : Marker → Nat
  | .fixNat n => n
  | .fixMap n => 0x80 + n
  | .fixArray n => 0x90 + n
  | .fixStr n => 0xa0 + n
  | .nil => 0xc0
  | .reserved => 0xc1
  | .bool b => 0xc2 + b.toNat
  | .bin k => 0xc4 + k
  | .ext k => 0xc7 + k
  | .float32 => 0xca
  | .float64 => 0xcb
  | .uint k => 0xcc + k
  | .int k => 0xd0 + k
  | .fixExt k => 0xd4 + k
  | .str k => 0xd9 + k
  | .array k => 0xdc + k
  | .map k => 0xde + k
  | .fixNegative n => 0xe0 + n

/-- The byte of a marker. -/
def toByte (m : Marker) : UInt8 := UInt8.ofNat m.code

/-- The marker with a given number.  The markers stand in the order of their first numbers. -/
def ofCode (n : Nat) : Marker :=
  if h : n < 0x80 then .fixNat ⟨n, h⟩
  else if h : n < 0x90 then .fixMap ⟨n - 0x80, by omega⟩
  else if h : n < 0xa0 then .fixArray ⟨n - 0x90, by omega⟩
  else if h : n < 0xc0 then .fixStr ⟨n - 0xa0, by omega⟩
  else if n < 0xc1 then .nil
  else if n < 0xc2 then .reserved
  else if n < 0xc4 then .bool (n == 0xc3)
  else if h : n < 0xc7 then .bin ⟨n - 0xc4, by omega⟩
  else if h : n < 0xca then .ext ⟨n - 0xc7, by omega⟩
  else if n < 0xcb then .float32
  else if n < 0xcc then .float64
  else if h : n < 0xd0 then .uint ⟨n - 0xcc, by omega⟩
  else if h : n < 0xd4 then .int ⟨n - 0xd0, by omega⟩
  else if h : n < 0xd9 then .fixExt ⟨n - 0xd4, by omega⟩
  else if h : n < 0xdc then .str ⟨n - 0xd9, by omega⟩
  else if h : n < 0xde then .array ⟨n - 0xdc, by omega⟩
  else if h : n < 0xe0 then .map ⟨n - 0xde, by omega⟩
  else .fixNegative ⟨(n - 0xe0) % 32, Nat.mod_lt _ (by decide)⟩

/-- The marker of a byte. -/
def ofByte (b : UInt8) : Marker := ofCode b.toNat

theorem code_lt (m : Marker) : m.code < 256 := by
  cases m <;> simp only [code] <;> first | omega | (next b => cases b <;> decide)

theorem ofCode_code (m : Marker) : ofCode m.code = m := by
  cases m with
  | fixNat n => revert n; decide
  | fixNegative n => revert n; decide
  | nil | reserved | float32 | float64 => rfl
  | bool b => cases b <;> rfl
  | uint k | int k | str k | bin k | ext k | array k | map k | fixExt k => revert k; decide
  | fixStr n | fixArray n | fixMap n => revert n; decide

set_option maxRecDepth 4096 in
theorem code_ofCode : ∀ n < 256, (ofCode n).code = n := by
  decide

/-- Every marker is read back from its byte. -/
@[simp] theorem ofByte_toByte (m : Marker) : ofByte m.toByte = m := by
  rw [ofByte, toByte, UInt8.toNat_ofNat_of_lt' m.code_lt, ofCode_code]

/-- Every byte is the byte of its marker. -/
@[simp] theorem toByte_ofByte (b : UInt8) : (ofByte b).toByte = b := by
  rw [ofByte, toByte, code_ofCode b.toNat b.toNat_lt]
  exact UInt8.ofNat_toNat

end Marker
end KeyValueClient
