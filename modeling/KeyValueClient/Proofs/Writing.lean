import KeyValueClient.MessagePack.Encoding
import KeyValueClient.Proofs.Reading
import KeyValueClient.Response.Basic

/-!
# Writers stay in the grammar

What `Value.encode` writes is an object of the grammar, and its value is the written one with every
integer in canonical form (`denotes_encode`).  The only thing to assume is that the lengths can be
stored, because a longer length is stored as a remainder.

The proof needs one fact for each size class of a number and for each header.  A number that fits a
field is the number of that field, so each class is one rule of the grammar
(`scalar_field_uint`, `scalar_field_int`); a header is the rule of its class.

Reading back is then a matter of the grammar alone: **what was written is read back in canonical
form, whatever stands behind it, if it is not nested too deep, and refused as too deep otherwise**
(`Value.ofPayload_unexpected_append`).  A value inside many arrays (`Value.boxed`) meets the limit
exactly.
-/

namespace KeyValueClient
namespace MessagePack

open Bytes (ofBigEndian bigEndian)
open Value

/-- A number that fits a field is stored in it. -/
theorem ofBigEndian_bigEndian_of_lt {width n : Nat} (h : n < 256 ^ width) :
    ofBigEndian (bigEndian width n) = n := by
  rw [Bytes.ofBigEndian_bigEndian, Nat.mod_eq_of_lt h]

/-! ## Integers -/

section Fields

variable {k : Fin 4} {width : Nat} {v : Value}

theorem scalar_field_uint {n : Nat} (hwidth : width = 2 ^ k.val) (hlt : n < 256 ^ width)
    (h : IsInteger n v) : Scalar (field (.uint k) width n) v := by
  refine .uint k _ (by rw [Bytes.length_bigEndian, hwidth]) ?_
  rwa [ofBigEndian_bigEndian_of_lt hlt]

/-- A negative integer is stored as its residue. -/
theorem scalar_field_int {i : Int} (hwidth : width = 2 ^ k.val) (hnegative : i < 0)
    (hlow : -(256 ^ width) ≤ 2 * i) (h : IsInteger i v) :
    Scalar (field (.int k) width (i + 256 ^ width).toNat) v := by
  refine .int k _ (by rw [Bytes.length_bigEndian, hwidth]) ?_ h
  obtain ⟨range, hrange⟩ : ∃ range : Nat, 256 ^ width = range := ⟨_, rfl⟩
  have hcast : (256 : Int) ^ width = range := by rw [← hrange, Nat.cast_pow]; rfl
  rw [hcast] at hlow ⊢
  have hstored : ofBigEndian (bigEndian width (i + range).toNat) = (i + range).toNat :=
    ofBigEndian_bigEndian_of_lt (by omega)
  have hresidue : i % range = (i + range).toNat := by
    rw [Int.toNat_of_nonneg (by omega), ← Int.add_emod_right,
      Int.emod_eq_of_lt (by omega) (by omega)]
  constructor
  · rw [Bytes.length_bigEndian, hcast]
    exact hlow
  · rw [Bytes.length_bigEndian, hcast]
    omega
  · rw [Bytes.length_bigEndian, hcast, hstored]
    exact hresidue

end Fields

/-- The shortest form of a natural number is one of its forms. -/
theorem scalar_natural {n : Nat} {v : Value} (hlt : n < 2 ^ 64) (h : IsInteger n v) :
    Scalar (natural n) v := by
  unfold natural
  split_ifs with h7 h8 h16 h32
  · have hn : (Fin.ofNat 128 n : Nat) = n := Nat.mod_eq_of_lt h7
    exact .fixNat (Fin.ofNat 128 n) (by rwa [hn])
  · exact scalar_field_uint rfl h8 h
  · exact scalar_field_uint rfl h16 h
  · exact scalar_field_uint rfl h32 h
  · exact scalar_field_uint rfl hlt h

/-- The shortest form of an integer is one of its forms. -/
theorem scalar_integer {i : Int} {v : Value} (hlow : -2 ^ 63 ≤ i) (hhigh : i < 2 ^ 63)
    (h : IsInteger i v) : Scalar (integer i) v := by
  unfold integer
  split_ifs with h0 h5 h7 h15 h31
  · have hi : (i.toNat : Int) = i := Int.toNat_of_nonneg h0
    exact scalar_natural (by omega) (by rwa [hi])
  · have hn : ((Fin.ofNat 32 (i + 32).toNat : Nat) : Int) - 32 = i := by
      have hmod : (Fin.ofNat 32 (i + 32).toNat : Nat) = (i + 32).toNat :=
        Nat.mod_eq_of_lt (by omega)
      omega
    exact .fixNegative (Fin.ofNat 32 (i + 32).toNat) (by rwa [hn])
  · exact scalar_field_int rfl (by omega) (by omega) h
  · exact scalar_field_int rfl (by omega) (by omega) h
  · exact scalar_field_int rfl (by omega) (by omega) h
  · exact scalar_field_int rfl (by omega) (by omega) h

/-! ## Headers -/

theorem storedLength_of_lt {n : Nat} (hlt : n < 2 ^ 32) : storedLength n = n := Nat.mod_eq_of_lt hlt

theorem Header.of_eq {family : Family} {header : Bytes} {m n : Nat} (h : Header family header m)
    (heq : m = n) : Header family header n :=
  heq ▸ h

/-- A header that has a field for the length announces what is in the field. -/
theorem header_field {family : Family} {m : Marker} {width n : Nat} (hlt : n < 256 ^ width)
    (h : ∀ length : Bytes, length.length = width →
      Header family (m.toByte :: length) (ofBigEndian length)) :
    Header family (field m width n) n := by
  have hfield := h (bigEndian width n) (Bytes.length_bigEndian width n)
  rwa [ofBigEndian_bigEndian_of_lt hlt] at hfield

section Lengths

variable {n : Nat}

theorem header_strHeader (hlt : n < 2 ^ 32) : Header .str (strHeader n) n := by
  simp only [strHeader, storedLength_of_lt hlt]
  split_ifs with h5 h8 h16
  · exact (Header.fixStr (Fin.ofNat 32 n)).of_eq (Nat.mod_eq_of_lt h5)
  · exact header_field h8 (.str 0)
  · exact header_field h16 (.str 1)
  · exact header_field hlt (.str 2)

theorem header_binHeader (hlt : n < 2 ^ 32) : Header .bin (binHeader n) n := by
  simp only [binHeader, storedLength_of_lt hlt]
  split_ifs with h8 h16
  · exact header_field h8 (.bin 0)
  · exact header_field h16 (.bin 1)
  · exact header_field hlt (.bin 2)

theorem header_arrayHeader (hlt : n < 2 ^ 32) : Header .array (arrayHeader n) n := by
  simp only [arrayHeader, storedLength_of_lt hlt]
  split_ifs with h4 h16
  · exact (Header.fixArray (Fin.ofNat 16 n)).of_eq (Nat.mod_eq_of_lt h4)
  · exact header_field h16 (.array 0)
  · exact header_field hlt (.array 1)

theorem header_mapHeader (hlt : n < 2 ^ 32) : Header .map (mapHeader n) n := by
  simp only [mapHeader, storedLength_of_lt hlt]
  split_ifs with h4 h16
  · exact (Header.fixMap (Fin.ofNat 16 n)).of_eq (Nat.mod_eq_of_lt h4)
  · exact header_field h16 (.map 0)
  · exact header_field hlt (.map 1)

theorem header_extHeader (hlt : n < 2 ^ 32) : Header .ext (extHeader n) n := by
  simp only [extHeader, storedLength_of_lt hlt]
  split_ifs with h1 h2 h4 h8 h16 hbyte htwo
  · exact (Header.fixExt 0).of_eq h1.symm
  · exact (Header.fixExt 1).of_eq h2.symm
  · exact (Header.fixExt 2).of_eq h4.symm
  · exact (Header.fixExt 3).of_eq h8.symm
  · exact (Header.fixExt 4).of_eq h16.symm
  · exact header_field hbyte (.ext 0)
  · exact header_field htwo (.ext 1)
  · exact header_field hlt (.ext 2)

end Lengths

/-! ## Values -/

theorem encodeItems_eq_flatMap (items : List Value) :
    encodeItems items = items.flatMap encode := by
  induction items with
  | nil => rfl
  | cons item items ih => rw [encodeItems, ih, List.flatMap_cons]

theorem encodeEntries_eq_flatMap (entries : List (Value × Value)) :
    encodeEntries entries = entries.flatMap fun entry => entry.1.encode ++ entry.2.encode := by
  induction entries with
  | nil => rfl
  | cons entry entries ih =>
    rw [encodeEntries, ih, List.flatMap_cons, List.append_assoc]

/-- What is written of a value, with what it means. -/
def Piece.ofValue (v : Value) : Piece := ⟨v.encode, v.canonical⟩

/-- What is written of an entry, with what it means. -/
def Piece.ofEntry (entry : Value × Value) : Piece × Piece :=
  (Piece.ofValue entry.1, Piece.ofValue entry.2)

/-- The canonical form of a `uint` stands for the same integer. -/
theorem isInteger_canonical_uint (n : UInt64) : IsInteger n.toNat (Value.uint n).canonical := by
  have hvalue : (Value.uint n).canonical = ofNatural n.toNat := by
    rw [canonical, ofNatural, UInt64.ofNat_toNat]
    rfl
  rw [hvalue]
  exact (isInteger_iff_eq_ofNatural n.toNat_lt).mpr rfl

/-- **What is written is an object that means the canonical value.** -/
theorem denotes_encode {v : Value} (hv : v.Storable) : Denotes v.encode v.canonical := by
  induction hv with
  | nil => exact .scalar .nil
  | bool b =>
    cases b with
    | false => exact .scalar .no
    | true => exact .scalar .yes
  | int i =>
    rw [canonical_int]
    exact .scalar (scalar_integer i.le_toInt i.toInt_lt (.int i))
  | uint n => exact .scalar (scalar_natural n.toNat_lt (isInteger_canonical_uint n))
  | float x =>
    refine .scalar (.float64 _ (Bytes.length_bigEndian 8 _) ?_)
    exact (ofBigEndian_bigEndian_of_lt x.bits.toNat_lt).symm
  | str h =>
    rw [canonical_str]
    exact .text _ (header_strHeader h)
  | bin h => exact .bin _ (header_binHeader h)
  | @array items h _ ih =>
    have hheader : Header .array (arrayHeader items.length) (items.map Piece.ofValue).length := by
      rw [List.length_map]
      exact header_arrayHeader h
    have hbytes : (items.map Piece.ofValue).flatMap Piece.bytes = encodeItems items := by
      rw [encodeItems_eq_flatMap, List.flatMap_map]
      rfl
    have hvalues : (items.map Piece.ofValue).map Piece.value = items.map canonical := by
      rw [List.map_map]
      rfl
    have hdenotes := Denotes.array _ hheader (List.forall_mem_map.mpr ih)
    rw [hbytes, hvalues] at hdenotes
    rwa [encode, canonical_array]
  | @map entries h _ _ ihkeys ihvalues =>
    have hheader : Header .map (mapHeader entries.length) (entries.map Piece.ofEntry).length := by
      rw [List.length_map]
      exact header_mapHeader h
    have hbytes : (entries.map Piece.ofEntry).flatMap Piece.entryBytes = encodeEntries entries := by
      rw [encodeEntries_eq_flatMap, List.flatMap_map]
      rfl
    have hvalues : (entries.map Piece.ofEntry).map Piece.entryValue =
        entries.map fun entry => (entry.1.canonical, entry.2.canonical) := by
      rw [List.map_map]
      rfl
    have hdenotes := Denotes.map _ hheader (List.forall_mem_map.mpr ihkeys)
      (List.forall_mem_map.mpr ihvalues)
    rw [hbytes, hvalues] at hdenotes
    rwa [encode, canonical_map]
  | ext h => exact .ext _ _ (header_extHeader h)

end MessagePack

/-! ## Reading back -/

namespace Value

open MessagePack

/-- A value inside so many arrays of one member. -/
def boxed : (levels : Nat) → Value → Value
  | 0, v => v
  | levels + 1, v => .array [boxed levels v]

theorem nesting_boxed (levels : Nat) (v : Value) :
    (boxed levels v).nesting = v.nesting + levels := by
  induction levels with
  | zero => rfl
  | succ levels ih =>
    rw [boxed, nesting, itemsNesting, itemsNesting, ih, Nat.max_zero, Nat.add_assoc]

theorem canonical_boxed (levels : Nat) (v : Value) :
    (boxed levels v).canonical = boxed levels v.canonical := by
  induction levels with
  | zero => rfl
  | succ levels ih => rw [boxed, canonical_array, List.map_singleton, ih, boxed]

theorem Storable.boxed {v : Value} (h : v.Storable) (levels : Nat) :
    (boxed levels v).Storable := by
  induction levels with
  | zero => exact h
  | succ levels ih => exact .array (by decide : 1 < 2 ^ 32) (List.forall_mem_singleton.mpr ih)

/-- A canonical value whose lengths can be stored is read back as it is, unless it is nested too
deep. -/
theorem ofPayload_encode_of_canonical {v : Value} (hstorable : v.Storable)
    (hcanonical : v.canonical = v) (hnesting : v.nesting ≤ nestingLimit) :
    ofPayload v.encode = .ok v := by
  have hdenotes := denotes_encode hstorable
  rw [hcanonical] at hdenotes
  have hread := ofPayload_denotes_append hdenotes []
  rwa [List.append_nil, if_pos hnesting] at hread

/-- **A value that was written is read back in canonical form**, whatever stands behind it, unless
it is nested too deep, and then it is refused for that. -/
theorem ofPayload_unexpected_append {v : Value} (hv : v.Storable) (rest : Bytes) :
    ofPayload ((Response.unexpected v).encode ++ rest) =
      if v.nesting ≤ nestingLimit then .ok v.canonical else .error (.malformed .tooDeep) := by
  show ofPayload (v.encode ++ rest) = _
  rw [ofPayload_denotes_append (denotes_encode hv), nesting_canonical]

/-- The limit is met exactly: a number inside 1023 arrays is read back, as an `int`, and a number
inside 1024 arrays is refused. -/
theorem ofPayload_unexpected_boxed :
    (∀ levels, (boxed levels (.uint 5)).Storable) ∧
      ofPayload ((Response.unexpected (boxed 1023 (.uint 5))).encode ++ [0xc1]) =
        .ok (boxed 1023 (.int 5)) ∧
      ofPayload ((Response.unexpected (boxed 1024 (.uint 5))).encode ++ [0xc1]) =
        .error (.malformed .tooDeep) := by
  have hstorable := Storable.boxed (.uint 5)
  have hflat : (Value.uint 5).nesting = 0 := rfl
  have hnesting : ∀ levels, (boxed levels (.uint 5)).nesting = levels := by
    intro levels
    rw [nesting_boxed, hflat, Nat.zero_add]
  have hfits : 1023 ≤ nestingLimit := by decide
  have hdeep : ¬ 1024 ≤ nestingLimit := by decide
  refine ⟨hstorable, ?_, ?_⟩
  · rw [ofPayload_unexpected_append (hstorable 1023), hnesting, if_pos hfits, canonical_boxed]
    rfl
  · rw [ofPayload_unexpected_append (hstorable 1024), hnesting, if_neg hdeep]

end Value
end KeyValueClient
