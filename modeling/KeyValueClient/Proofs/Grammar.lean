import KeyValueClient.Proofs.ValueTree
import KeyValueClient.Proofs.Widening

/-!
# The grammar of MessagePack

`Denotes p v` says that the byte string `p` is one MessagePack object and that the object means `v`.
The grammar is a relation: it lists the formats with their marker bytes as they are, and no reader
or writer occurs in it.

## Layers

* `Scalar`: the objects that hold nothing but a number or a constant.  An integer in any format,
  the shortest or not, means the value that stands for the integer (`IsInteger`).  What does not
  depend on the format is said of the values that scalars mean (`IsAtom`).
* `Header`: the ways to announce a length, for each of the five families that have one.
* `Denotes`: an object is a scalar, or a header with what it announces behind it.  The members of
  an array or of a map are objects again; each comes as a `Piece`, which is an object together with
  its value.

The byte `0xc1` occurs in no rule.  The grammar knows no limit on nesting: how deep an object is
nested is read off its value (`Value.nesting`).
-/

namespace KeyValueClient
namespace MessagePack

open Bytes (ofBigEndian)

/-! ## Scalars -/

/-- The value that stands for an integer: an `int` if sixty-four bits with a sign hold it, and else
a `uint`. -/
inductive IsInteger : Int → Value → Prop
  | int (i : Int64) : IsInteger i.toInt (.int i)
  | uint (n : UInt64) (h : 2 ^ 63 ≤ n.toNat) : IsInteger n.toNat (.uint n)

/-- A field holds an integer in two's complement. -/
structure TwosComplement (field : Bytes) (i : Int) : Prop where
  low : -(256 ^ field.length) ≤ 2 * i
  high : 2 * i < 256 ^ field.length
  residue : i % 256 ^ field.length = ofBigEndian field

/-- The objects that hold a number or a constant. -/
inductive Scalar : Bytes → Value → Prop
  | nil : Scalar [0xc0] .nil
  | no : Scalar [0xc2] (.bool false)
  | yes : Scalar [0xc3] (.bool true)
  | fixNat {v : Value} (n : Fin 128) (h : IsInteger n v) : Scalar [UInt8.ofNat n] v
  | fixNegative {v : Value} (n : Fin 32) (h : IsInteger (n - 32) v) :
      Scalar [UInt8.ofNat (0xe0 + n)] v
  | uint {v : Value} (k : Fin 4) (field : Bytes) (hlen : field.length = 2 ^ k.val)
      (h : IsInteger (ofBigEndian field) v) : Scalar (UInt8.ofNat (0xcc + k) :: field) v
  | int {v : Value} {i : Int} (k : Fin 4) (field : Bytes) (hlen : field.length = 2 ^ k.val)
      (hi : TwosComplement field i) (h : IsInteger i v) : Scalar (UInt8.ofNat (0xd0 + k) :: field) v
  | float32 {x : Binary64} (field : Bytes) (hlen : field.length = 4)
      (h : x.Widens (ofBigEndian field)) : Scalar (0xca :: field) (.float x)
  | float64 {x : Binary64} (field : Bytes) (hlen : field.length = 8)
      (h : x.bits.toNat = ofBigEndian field) : Scalar (0xcb :: field) (.float x)

/-- The values that are one number or one constant, in the form in which the grammar means them. -/
inductive IsAtom : Value → Prop
  | nil : IsAtom .nil
  | bool (b : Bool) : IsAtom (.bool b)
  | int (i : Int64) : IsAtom (.int i)
  | uint (n : UInt64) (h : 2 ^ 63 ≤ n.toNat) : IsAtom (.uint n)
  | float (x : Binary64) : IsAtom (.float x)

theorem IsInteger.isAtom {i : Int} {v : Value} (h : IsInteger i v) : IsAtom v := by
  cases h with
  | int i => exact .int i
  | uint n h => exact .uint n h

/-- Whatever its marker is, a scalar means an atom. -/
theorem Scalar.isAtom {p : Bytes} {v : Value} (h : Scalar p v) : IsAtom v := by
  cases h with
  | nil => exact .nil
  | no | yes => exact .bool _
  | fixNat _ h | fixNegative _ h | uint _ _ _ h | int _ _ _ _ h => exact h.isAtom
  | float32 | float64 => exact .float _

/-! ## Headers -/

/-- The families of objects that announce a length. -/
inductive Family where
  | str | bin | array | map | ext
  deriving DecidableEq

/-- The headers of a family, each with the length that it announces. -/
inductive Header : Family → Bytes → Nat → Prop
  | fixStr (n : Fin 32) : Header .str [UInt8.ofNat (0xa0 + n)] n
  | fixArray (n : Fin 16) : Header .array [UInt8.ofNat (0x90 + n)] n
  | fixMap (n : Fin 16) : Header .map [UInt8.ofNat (0x80 + n)] n
  | fixExt (k : Fin 5) : Header .ext [UInt8.ofNat (0xd4 + k)] (2 ^ k.val)
  | str (k : Fin 3) (field : Bytes) (hlen : field.length = 2 ^ k.val) :
      Header .str (UInt8.ofNat (0xd9 + k) :: field) (ofBigEndian field)
  | bin (k : Fin 3) (field : Bytes) (hlen : field.length = 2 ^ k.val) :
      Header .bin (UInt8.ofNat (0xc4 + k) :: field) (ofBigEndian field)
  | array (k : Fin 2) (field : Bytes) (hlen : field.length = 2 ^ (k.val + 1)) :
      Header .array (UInt8.ofNat (0xdc + k) :: field) (ofBigEndian field)
  | map (k : Fin 2) (field : Bytes) (hlen : field.length = 2 ^ (k.val + 1)) :
      Header .map (UInt8.ofNat (0xde + k) :: field) (ofBigEndian field)
  | ext (k : Fin 3) (field : Bytes) (hlen : field.length = 2 ^ k.val) :
      Header .ext (UInt8.ofNat (0xc7 + k) :: field) (ofBigEndian field)

/-! ## Objects -/

/-- An object together with its value. -/
structure Piece where
  bytes : Bytes
  value : Value

/-- The bytes of an entry: its key, then its value. -/
def Piece.entryBytes (entry : Piece × Piece) : Bytes := entry.1.bytes ++ entry.2.bytes

/-- The key and the value of an entry. -/
def Piece.entryValue (entry : Piece × Piece) : Value × Value := (entry.1.value, entry.2.value)

/-- A byte string is one object, and the object means a value. -/
inductive Denotes : Bytes → Value → Prop
  | scalar {p : Bytes} {v : Value} (h : Scalar p v) : Denotes p v
  | text {header : Bytes} (text : String) (h : Header .str header (Utf8.encode text).length) :
      Denotes (header ++ Utf8.encode text) (.str text)
  /-- A string that is no UTF-8 means its bytes. -/
  | rawText {header : Bytes} (bytes : Bytes) (h : Header .str header bytes.length)
      (hraw : ∀ text, Utf8.encode text ≠ bytes) : Denotes (header ++ bytes) (.bin bytes)
  | bin {header : Bytes} (bytes : Bytes) (h : Header .bin header bytes.length) :
      Denotes (header ++ bytes) (.bin bytes)
  | array {header : Bytes} (items : List Piece) (h : Header .array header items.length)
      (hitems : ∀ item ∈ items, Denotes item.bytes item.value) :
      Denotes (header ++ items.flatMap Piece.bytes) (.array (items.map Piece.value))
  | map {header : Bytes} (entries : List (Piece × Piece)) (h : Header .map header entries.length)
      (hkeys : ∀ entry ∈ entries, Denotes entry.1.bytes entry.1.value)
      (hvalues : ∀ entry ∈ entries, Denotes entry.2.bytes entry.2.value) :
      Denotes (header ++ entries.flatMap Piece.entryBytes) (.map (entries.map Piece.entryValue))
  /-- The payload of an extension stands behind its tag, a byte with a sign. -/
  | ext {header : Bytes} (tag : Int8) (payload : Bytes) (h : Header .ext header payload.length) :
      Denotes (header ++ tag.toUInt8 :: payload) (.ext tag payload)

theorem Header.ne_nil {family : Family} {header : Bytes} {n : Nat} (h : Header family header n) :
    header ≠ [] := by
  cases h <;> exact List.cons_ne_nil _ _

/-- An object has at least a marker. -/
theorem Denotes.ne_nil {p : Bytes} {v : Value} (h : Denotes p v) : p ≠ [] := by
  cases h with
  | scalar h => cases h <;> exact List.cons_ne_nil _ _
  | text _ h | rawText _ h | bin _ h | array _ h | map _ h | ext _ _ h =>
    exact List.append_ne_nil_of_left_ne_nil h.ne_nil _

end MessagePack
end KeyValueClient
