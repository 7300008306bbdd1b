import KeyValueClient.MessagePack.Marker
import KeyValueClient.MessagePack.Value

/-!
# Writing values

`encode` writes a value as one MessagePack object.  It is total: there is no value that cannot be
written, and no limit on nesting.

## Forms

Integers take the shortest form, and a number that is not negative always takes an unsigned one,
whichever range of `Value` holds it.  Strings, arrays, maps and extensions take the shortest header
for their length; extensions of 1, 2, 4, 8 and 16 bytes have headers of their own.  Bytes have no
header shorter than a marker and one byte of length.  Floating-point numbers take all eight bytes.

## Lengths

A length is stored in at most four bytes, so what is stored of a longer one is its remainder modulo
`2 ^ 32` (`storedLength`), and the header is chosen by that.
-/

namespace KeyValueClient
namespace MessagePack

/-- A marker followed by a number of `width` bytes. -/
def field (m : Marker) (width n : Nat) : Bytes := m.toByte :: Bytes.bigEndian width n

/-! ## Integers -/

/-- The shortest form of a natural number of sixty-four bits. -/
def natural (n : Nat) : Bytes :=
  if n < 0x80 then [Marker.toByte (.fixNat (Fin.ofNat 128 n))]
  else if n < 0x100 then field (.uint 0) 1 n
  else if n < 0x10000 then field (.uint 1) 2 n
  else if n < 0x100000000 then field (.uint 2) 4 n
  else field (.uint 3) 8 n

/-- The shortest form of an integer of sixty-four bits.  A negative one is stored as its remainder
modulo the range of its width. -/
def integer (i : Int) : Bytes :=
  if 0 ≤ i then natural i.toNat
  else if -0x20 ≤ i then [Marker.toByte (.fixNegative (Fin.ofNat 32 (i + 32).toNat))]
  else if -0x80 ≤ i then field (.int 0) 1 (i + 0x100).toNat
  else if -0x8000 ≤ i then field (.int 1) 2 (i + 0x10000).toNat
  else if -0x80000000 ≤ i then field (.int 2) 4 (i + 0x100000000).toNat
  else field (.int 3) 8 (i + 0x10000000000000000).toNat

/-! ## Headers -/

/-- What is stored of a length. -/
def storedLength (n : Nat) : Nat := n % 0x100000000

/-- The header of a string of `n` bytes. -/
def strHeader (n : Nat) : Bytes :=
  let n := storedLength n
  if n < 0x20 then [Marker.toByte (.fixStr (Fin.ofNat 32 n))]
  else if n < 0x100 then field (.str 0) 1 n
  else if n < 0x10000 then field (.str 1) 2 n
  else field (.str 2) 4 n

/-- The header of `n` bytes. -/
def binHeader (n : Nat) : Bytes :=
  let n := storedLength n
  if n < 0x100 then field (.bin 0) 1 n
  else if n < 0x10000 then field (.bin 1) 2 n
  else field (.bin 2) 4 n

/-- The header of an array of `n` items. -/
def arrayHeader (n : Nat) : Bytes :=
  let n := storedLength n
  if n < 0x10 then [Marker.toByte (.fixArray (Fin.ofNat 16 n))]
  else if n < 0x10000 then field (.array 0) 2 n
  else field (.array 1) 4 n

/-- The header of a map of `n` entries. -/
def mapHeader (n : Nat) : Bytes :=
  let n := storedLength n
  if n < 0x10 then [Marker.toByte (.fixMap (Fin.ofNat 16 n))]
  else if n < 0x10000 then field (.map 0) 2 n
  else field (.map 1) 4 n

/-- The header of an extension with `n` bytes of payload, the tag excluded. -/
def extHeader (n : Nat) : Bytes :=
  let n := storedLength n
  if n = 1 then [Marker.toByte (.fixExt 0)]
  else if n = 2 then [Marker.toByte (.fixExt 1)]
  else if n = 4 then [Marker.toByte (.fixExt 2)]
  else if n = 8 then [Marker.toByte (.fixExt 3)]
  else if n = 16 then [Marker.toByte (.fixExt 4)]
  else if n < 0x100 then field (.ext 0) 1 n
  else if n < 0x10000 then field (.ext 1) 2 n
  else field (.ext 2) 4 n

/-- A string with its header. -/
def string (s : String) : Bytes :=
  let bytes := Utf8.encode s
  strHeader bytes.length ++ bytes

end MessagePack

namespace Value

open MessagePack

mutual

/-- The MessagePack object of a value. -/
def encode : Value → Bytes
  | .nil => [Marker.toByte .nil]
  | .bool b => [Marker.toByte (.bool b)]
  | .int i => integer i.toInt
  | .uint n => natural n.toNat
  | .float x => field .float64 8 x.bits.toNat
  | .str text => string text
  | .bin bytes => binHeader bytes.length ++ bytes
  | .array items => arrayHeader items.length ++ encodeItems items
  | .map entries => mapHeader entries.length ++ encodeEntries entries
  | .ext tag payload => extHeader payload.length ++ tag.toUInt8 :: payload

/-- The objects of a list of values, one after the other. -/
def encodeItems : List Value → Bytes
  | [] => []
  | item :: items => item.encode ++ encodeItems items

/-- The objects of a list of entries, each key before its value. -/
def encodeEntries : List (Value × Value) → Bytes
  | [] => []
  | entry :: entries => entry.1.encode ++ (entry.2.encode ++ encodeEntries entries)

end

end Value
end KeyValueClient
