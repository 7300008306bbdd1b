import KeyValueClient.Payload
import KeyValueClient.Proofs.Grammar
import KeyValueClient.Proofs.ReaderLaws

/-!
# Readers accept the grammar

`Value.read levels` takes an object off the front of its input exactly when the grammar says that
one is there and its containers are nested at most `levels` deep.

## Layers

The proof has the layers of the grammar.  `readWith` looks at one marker, and it is described once
for each layer: on a scalar it is done (`readWith_scalar_append`), and behind a header it goes on
with the body of the family (`readWith_header_append`).  `readWith_eq_ok` says that it does nothing
else.  Both directions then treat bodies only, by induction on the object (`read_append`) and by
induction on the levels (`readsObjects`).

## What is behind an object

`read_append` computes the reading of an object **whatever stands behind it**, and tells the two
outcomes apart: the object is read if its nesting is within the levels, and refused as too deep
otherwise.  Hence one object is never the beginning of another (`Denotes.prefix_free`).
-/

namespace KeyValueClient
namespace MessagePack

open Bytes (ofBigEndian)
open Reader Value

/-! ## Integers -/

/-- Among natural numbers of sixty-four bits, `ofNatural` finds the value of each. -/
theorem isInteger_iff_eq_ofNatural {n : Nat} {v : Value} (hlt : n < 2 ^ 64) :
    IsInteger n v ↔ v = ofNatural n := by
  unfold ofNatural
  constructor
  · intro h
    generalize hi : (n : Int) = i at h
    cases h with
    | int a =>
      have hhigh := a.toInt_lt
      have ha : Int64.ofNat n = a := by rw [← Int64.ofInt_eq_ofNat, hi, Int64.ofInt_toInt]
      rw [if_pos (by omega), ha]
    | uint a ha =>
      have hn : n = a.toNat := by omega
      rw [if_neg (by omega), hn, UInt64.ofNat_toNat]
  · rintro rfl
    split
    · next hsmall =>
      have hto : (Int64.ofNat n).toInt = n := by
        rw [← Int64.ofInt_eq_ofNat]
        exact Int64.toInt_ofInt_of_le (by omega) (by omega)
      rw [← hto]
      exact .int _
    · next hlarge =>
      have hto : (UInt64.ofNat n).toNat = n := UInt64.toNat_ofNat_of_lt' hlt
      have h := IsInteger.uint (UInt64.ofNat n) (by omega)
      rwa [hto] at h

/-- An integer in the range of `int` is held as one. -/
theorem isInteger_iff_eq_int {i : Int} {v : Value} (hlow : -2 ^ 63 ≤ i) (hhigh : i < 2 ^ 63) :
    IsInteger i v ↔ v = .int (Int64.ofInt i) := by
  constructor
  · intro h
    cases h with
    | int a => rw [Int64.ofInt_toInt]
    | uint a ha => omega
  · rintro rfl
    have h := IsInteger.int (Int64.ofInt i)
    rwa [Int64.toInt_ofInt_of_le hlow hhigh] at h

/-- The integer in a field is its number, balanced around zero. -/
theorem twosComplement_iff_eq_bmod {field : Bytes} {i : Int} :
    TwosComplement field i ↔ Int.bmod (ofBigEndian field) (256 ^ field.length) = i := by
  have hlt := Bytes.ofBigEndian_lt field
  obtain ⟨range, hrange⟩ : ∃ range : Nat, 256 ^ field.length = range := ⟨_, rfl⟩
  have hcast : (256 : Int) ^ field.length = range := by rw [← hrange, Nat.cast_pow]; rfl
  rw [hrange] at hlt ⊢
  rw [Int.bmod_eq_iff (by omega)]
  have hself : (ofBigEndian field : Int) % range = ofBigEndian field :=
    Int.emod_eq_of_lt (by omega) (by omega)
  have hresidue : (range : Int) ∣ i - ofBigEndian field ↔ i % range = ofBigEndian field := by
    rw [Int.dvd_iff_emod_eq_zero, ← Int.emod_eq_emod_iff_emod_sub_eq_zero, hself]
  rw [hresidue]
  constructor
  · intro h
    have hlow := h.low
    have hhigh := h.high
    rw [hcast] at hlow hhigh
    exact ⟨by omega, by omega, hcast ▸ h.residue⟩
  · rintro ⟨hlow, hhigh, hmod⟩
    exact ⟨by rw [hcast]; omega, by rw [hcast]; omega, by rw [hcast]; exact hmod⟩

/-- Fields of numbers have at most sixty-four bits. -/
theorem range_le (k : Fin 4) : 256 ^ 2 ^ k.val ≤ 2 ^ 64 := by
  revert k
  decide

/-- The number in a field of a natural number. -/
theorem isInteger_field_iff {k : Fin 4} {field : Bytes} {v : Value}
    (hlen : field.length = 2 ^ k.val) :
    IsInteger (ofBigEndian field) v ↔ v = ofNatural (ofBigEndian field) := by
  refine isInteger_iff_eq_ofNatural ?_
  have hlt := Bytes.ofBigEndian_lt field
  rw [hlen] at hlt
  exact Nat.lt_of_lt_of_le hlt (range_le k)

/-- The value of a field in two's complement. -/
theorem exists_twosComplement_iff {k : Fin 4} {field : Bytes} {v : Value}
    (hlen : field.length = 2 ^ k.val) :
    (∃ i, TwosComplement field i ∧ IsInteger i v) ↔
      v = ofSigned (2 ^ k.val) (ofBigEndian field) := by
  have hrange : (256 : Int) ^ 2 ^ k.val ≤ 2 ^ 64 := by exact_mod_cast range_le k
  have hvalue : ∀ i, TwosComplement field i → (IsInteger i v ↔ v = .int (Int64.ofInt i)) := by
    intro i hi
    have hlow := hi.low
    have hhigh := hi.high
    rw [hlen] at hlow hhigh
    exact isInteger_iff_eq_int (by omega) (by omega)
  unfold ofSigned
  rw [← hlen]
  constructor
  · rintro ⟨i, hi, hv⟩
    rw [twosComplement_iff_eq_bmod.mp hi]
    exact (hvalue i hi).mp hv
  · intro hv
    have hi := twosComplement_iff_eq_bmod.mpr (Eq.refl (Int.bmod (ofBigEndian field) _))
    exact ⟨_, hi, (hvalue _ hi).mpr hv⟩

/-! ## Markers -/

/-- A scalar is read, whatever stands behind it. -/
theorem readWith_scalar_append {p : Bytes} {v : Value} (h : Scalar p v)
    (member : Option (Reader Value)) (rest : Bytes) :
    readWith member (p ++ rest) = .ok (v, rest) := by
  cases h with
  | nil => rfl
  | no => rfl
  | yes => rfl
  | fixNat n h =>
    show readWith member (Marker.toByte (.fixNat n) :: rest) = _
    rw [(isInteger_iff_eq_ofNatural (by omega)).mp h, readWith, Marker.ofByte_toByte]
  | fixNegative n h =>
    show readWith member (Marker.toByte (.fixNegative n) :: rest) = _
    rw [(isInteger_iff_eq_int (by omega) (by omega)).mp h, readWith, Marker.ofByte_toByte]
  | uint k field hlen h =>
    show readWith member (Marker.toByte (.uint k) :: (field ++ rest)) = _
    rw [(isInteger_field_iff hlen).mp h, readWith, Marker.ofByte_toByte]
    exact number_bind_append hlen rest
  | int k field hlen hi h =>
    show readWith member (Marker.toByte (.int k) :: (field ++ rest)) = _
    rw [(exists_twosComplement_iff hlen).mp ⟨_, hi, h⟩, readWith, Marker.ofByte_toByte]
    exact number_bind_append hlen rest
  | float32 field hlen h =>
    show readWith member (Marker.toByte .float32 :: (field ++ rest)) = _
    have hlt := hlen ▸ Bytes.ofBigEndian_lt field
    rw [(Binary64.widens_iff_eq_ofBinary32 hlt).mp h, readWith, Marker.ofByte_toByte]
    exact number_bind_append hlen rest
  | @float64 x field hlen h =>
    show readWith member (Marker.toByte .float64 :: (field ++ rest)) = _
    have hx : (⟨UInt64.ofNat (ofBigEndian field)⟩ : Binary64) = x := by rw [← h, UInt64.ofNat_toNat]
    rw [← hx, readWith, Marker.ofByte_toByte]
    exact number_bind_append hlen rest

/-- What follows a header: the reader of a family for the length that was announced. -/
def readBody (member : Option (Reader Value)) : Family → Nat → Reader Value
  | .str => readText
  | .bin => readBin
  | .array => readArray member
  | .map => readMap member
  | .ext => readExt member

/-- Behind a header the body is read. -/
theorem readWith_header_append {family : Family} {header : Bytes} {n : Nat}
    (h : Header family header n) (member : Option (Reader Value)) (body : Bytes) :
    readWith member (header ++ body) = readBody member family n body := by
  cases h with
  | fixStr n =>
    show readWith member (Marker.toByte (.fixStr n) :: body) = _
    rw [readWith, Marker.ofByte_toByte, readBody]
  | fixArray n =>
    show readWith member (Marker.toByte (.fixArray n) :: body) = _
    rw [readWith, Marker.ofByte_toByte, readBody]
  | fixMap n =>
    show readWith member (Marker.toByte (.fixMap n) :: body) = _
    rw [readWith, Marker.ofByte_toByte, readBody]
  | fixExt k =>
    show readWith member (Marker.toByte (.fixExt k) :: body) = _
    rw [readWith, Marker.ofByte_toByte, readBody]
  | str k field hlen =>
    show readWith member (Marker.toByte (.str k) :: (field ++ body)) = _
    rw [readWith, Marker.ofByte_toByte]
    exact number_bind_append hlen body
  | bin k field hlen =>
    show readWith member (Marker.toByte (.bin k) :: (field ++ body)) = _
    rw [readWith, Marker.ofByte_toByte]
    exact number_bind_append hlen body
  | array k field hlen =>
    show readWith member (Marker.toByte (.array k) :: (field ++ body)) = _
    rw [readWith, Marker.ofByte_toByte]
    exact number_bind_append hlen body
  | map k field hlen =>
    show readWith member (Marker.toByte (.map k) :: (field ++ body)) = _
    rw [readWith, Marker.ofByte_toByte]
    exact number_bind_append hlen body
  | ext k field hlen =>
    show readWith member (Marker.toByte (.ext k) :: (field ++ body)) = _
    rw [readWith, Marker.ofByte_toByte]
    exact number_bind_append hlen body

/-- Whatever is read from a marker on is a scalar or stands behind a header. -/
theorem readWith_eq_ok {member : Option (Reader Value)} {input rest : Bytes} {v : Value}
    (h : readWith member input = .ok (v, rest)) :
    (∃ p, Scalar p v ∧ input = p ++ rest) ∨
      ∃ family header n body, Header family header n ∧ input = header ++ body ∧
        readBody member family n body = .ok (v, rest) := by
  rcases input with _ | ⟨b, input⟩
  · cases h
  obtain ⟨m, rfl⟩ : ∃ m : Marker, b = m.toByte := ⟨.ofByte b, (Marker.toByte_ofByte b).symm⟩
  -- one case for each marker; a marker with a field first gives up the field
  rw [readWith, Marker.ofByte_toByte] at h
  cases m with
  | nil =>
    cases h
    exact .inl ⟨_, .nil, rfl⟩
  | reserved => cases h
  | bool b =>
    cases h
    cases b with
    | false => exact .inl ⟨_, .no, rfl⟩
    | true => exact .inl ⟨_, .yes, rfl⟩
  | fixNat n =>
    cases h
    exact .inl ⟨_, .fixNat n ((isInteger_iff_eq_ofNatural (by omega)).mpr rfl), rfl⟩
  | fixNegative n =>
    cases h
    exact .inl ⟨_, .fixNegative n ((isInteger_iff_eq_int (by omega) (by omega)).mpr rfl), rfl⟩
  | uint k =>
    obtain ⟨field, _, hlen, rfl, hvalue⟩ := number_bind_eq_ok_iff.mp h
    cases hvalue
    exact .inl ⟨_, .uint k field hlen ((isInteger_field_iff hlen).mpr rfl), rfl⟩
  | int k =>
    obtain ⟨field, _, hlen, rfl, hvalue⟩ := number_bind_eq_ok_iff.mp h
    cases hvalue
    obtain ⟨i, hi, hv⟩ := (exists_twosComplement_iff hlen).mpr rfl
    exact .inl ⟨_, .int k field hlen hi hv, rfl⟩
  | float32 =>
    obtain ⟨field, _, hlen, rfl, hvalue⟩ := number_bind_eq_ok_iff.mp h
    cases hvalue
    have hlt := hlen ▸ Bytes.ofBigEndian_lt field
    exact .inl ⟨_, .float32 field hlen ((Binary64.widens_iff_eq_ofBinary32 hlt).mpr rfl), rfl⟩
  | float64 =>
    obtain ⟨field, _, hlen, rfl, hvalue⟩ := number_bind_eq_ok_iff.mp h
    cases hvalue
    have hlt := hlen ▸ Bytes.ofBigEndian_lt field
    exact .inl ⟨_, .float64 field hlen (UInt64.toNat_ofNat_of_lt' hlt), rfl⟩
  | fixStr n => exact .inr ⟨.str, _, n, input, .fixStr n, rfl, h⟩
  | fixArray n => exact .inr ⟨.array, _, n, input, .fixArray n, rfl, h⟩
  | fixMap n => exact .inr ⟨.map, _, n, input, .fixMap n, rfl, h⟩
  | fixExt k => exact .inr ⟨.ext, _, 2 ^ k.val, input, .fixExt k, rfl, h⟩
  | str k =>
    obtain ⟨field, body, hlen, rfl, hbody⟩ := number_bind_eq_ok_iff.mp h
    exact .inr ⟨.str, _, _, body, .str k field hlen, rfl, hbody⟩
  | bin k =>
    obtain ⟨field, body, hlen, rfl, hbody⟩ := number_bind_eq_ok_iff.mp h
    exact .inr ⟨.bin, _, _, body, .bin k field hlen, rfl, hbody⟩
  | array k =>
    obtain ⟨field, body, hlen, rfl, hbody⟩ := number_bind_eq_ok_iff.mp h
    exact .inr ⟨.array, _, _, body, .array k field hlen, rfl, hbody⟩
  | map k =>
    obtain ⟨field, body, hlen, rfl, hbody⟩ := number_bind_eq_ok_iff.mp h
    exact .inr ⟨.map, _, _, body, .map k field hlen, rfl, hbody⟩
  | ext k =>
    obtain ⟨field, body, hlen, rfl, hbody⟩ := number_bind_eq_ok_iff.mp h
    exact .inr ⟨.ext, _, _, body, .ext k field hlen, rfl, hbody⟩

/-! ## Reading what the grammar derives -/

/-- The reader of members when containers may stand `levels` deep. -/
def memberReader : (levels : Nat) → Option (Reader Value)
  | 0 => none
  | levels + 1 => some (read levels)

theorem read_eq_readWith (levels : Nat) : read levels = readWith (memberReader levels) := by
  cases levels <;> rfl

/-- Scalars are no containers. -/
theorem Scalar.nesting_eq_zero {p : Bytes} {v : Value} (h : Scalar p v) : v.nesting = 0 := by
  cases h.isAtom <;> rfl

theorem ofText_encode (text : String) : ofText (Utf8.encode text) = .str text := by
  rw [ofText, Utf8.decode?_encode]

theorem ofText_of_forall_ne {bytes : Bytes} (h : ∀ text, Utf8.encode text ≠ bytes) :
    ofText bytes = .bin bytes := by
  unfold ofText
  split
  · next text htext => exact absurd (Utf8.encode_of_decode? htext) (h text)
  · rfl

/-- **An object is read exactly when it is not nested too deep**, whatever stands behind it. -/
theorem read_append {p : Bytes} {v : Value} (h : Denotes p v) (levels : Nat) (rest : Bytes) :
    read levels (p ++ rest) =
      if v.nesting ≤ levels then .ok (v, rest) else .error .tooDeep := by
  -- by induction on the object, for all levels: members are read with one level less
  induction h generalizing levels rest with
  | @scalar p v h =>
    have hfits : v.nesting ≤ levels := by rw [h.nesting_eq_zero]; exact Nat.zero_le levels
    rw [read_eq_readWith, readWith_scalar_append h, if_pos hfits]
  | text text h =>
    have hfits : (Value.str text).nesting ≤ levels := Nat.zero_le levels
    rw [List.append_assoc, read_eq_readWith, readWith_header_append h, if_pos hfits,
      ← ofText_encode]
    exact bind_of_eq_ok (payload_append _ rest)
  | rawText bytes h hraw =>
    have hfits : (Value.bin bytes).nesting ≤ levels := Nat.zero_le levels
    rw [List.append_assoc, read_eq_readWith, readWith_header_append h, if_pos hfits,
      ← ofText_of_forall_ne hraw]
    exact bind_of_eq_ok (payload_append _ rest)
  | bin bytes h =>
    have hfits : (Value.bin bytes).nesting ≤ levels := Nat.zero_le levels
    rw [List.append_assoc, read_eq_readWith, readWith_header_append h, if_pos hfits]
    exact bind_of_eq_ok (payload_append _ rest)
  | array items h _ ih =>
    rw [List.append_assoc, read_eq_readWith, readWith_header_append h]
    cases levels with
    | zero => rfl
    | succ levels =>
      have htimes : times (read levels) items.length (items.flatMap Piece.bytes ++ rest) =
          if ∀ item ∈ items.map Piece.value, item.nesting ≤ levels
          then .ok (items.map Piece.value, rest) else .error .tooDeep :=
        times_flatMap items (fun item hitem => ih item hitem levels) rest
      rw [if_congr nesting_array_le_succ_iff rfl rfl]
      exact bind_of_eq_ite htimes
  | map entries h _ _ ihkeys ihvalues =>
    rw [List.append_assoc, read_eq_readWith, readWith_header_append h]
    cases levels with
    | zero => rfl
    | succ levels =>
      have htimes : times (pair (read levels)) entries.length
          (entries.flatMap Piece.entryBytes ++ rest) =
          if ∀ entry ∈ entries.map Piece.entryValue,
            entry.1.nesting ≤ levels ∧ entry.2.nesting ≤ levels
          then .ok (entries.map Piece.entryValue, rest) else .error .tooDeep :=
        times_flatMap entries (fun entry hentry => pair_append (P := fun v => nesting v ≤ levels)
          (ihkeys entry hentry levels) (ihvalues entry hentry levels)) rest
      rw [if_congr nesting_map_le_succ_iff rfl rfl]
      exact bind_of_eq_ite htimes
  | ext tag payload h =>
    rw [List.append_assoc, read_eq_readWith, readWith_header_append h]
    cases levels with
    | zero => rfl
    | succ levels =>
      have hfits : (Value.ext tag payload).nesting ≤ levels + 1 := Nat.le_add_left 1 levels
      have htag : (UInt8.ofNat (ofBigEndian [tag.toUInt8])).toInt8 = tag := by
        simp [ofBigEndian]
      have hlen : [tag.toUInt8].length = 1 := rfl
      rw [if_pos hfits]
      show (number 1 ([tag.toUInt8] ++ (payload ++ rest)) >>= _) = _
      rw [number_bind_append hlen]
      refine (bind_of_eq_ok (payload_append payload rest)).trans ?_
      show Except.ok (Value.ext (UInt8.ofNat (ofBigEndian [tag.toUInt8])).toInt8 payload, rest) = _
      rw [htag]

/-! ## Deriving what was read -/

/-- What `levels` levels read is an object within these levels. -/
def ReadsObjects (levels : Nat) : Prop :=
  ∀ input v rest, read levels input = .ok (v, rest) →
    ∃ p, Denotes p v ∧ v.nesting ≤ levels ∧ input = p ++ rest

/-- A piece is an object within so many levels. -/
def Piece.Within (levels : Nat) (piece : Piece) : Prop :=
  Denotes piece.bytes piece.value ∧ piece.value.nesting ≤ levels

/-- What is read as a member is a piece. -/
theorem ReadsObjects.exists_piece {levels : Nat} (h : ReadsObjects levels) (input : Bytes)
    (v : Value) (rest : Bytes) (hread : read levels input = .ok (v, rest)) :
    ∃ piece : Piece, piece.Within levels ∧ piece.value = v ∧ input = piece.bytes ++ rest := by
  obtain ⟨p, hdenotes, hnesting, rfl⟩ := h _ _ _ hread
  exact ⟨⟨p, v⟩, ⟨hdenotes, hnesting⟩, rfl, rfl⟩

/-- What is read as an entry is a pair of pieces. -/
theorem ReadsObjects.exists_entry {levels : Nat} (h : ReadsObjects levels) (input : Bytes)
    (entry : Value × Value) (rest : Bytes) (hread : pair (read levels) input = .ok (entry, rest)) :
    ∃ pieces : Piece × Piece, (pieces.1.Within levels ∧ pieces.2.Within levels) ∧
      Piece.entryValue pieces = entry ∧ input = Piece.entryBytes pieces ++ rest := by
  obtain ⟨middle, hkey, hvalue⟩ := pair_eq_ok_iff.mp hread
  obtain ⟨key, hkeyWithin, hfirst, rfl⟩ := h.exists_piece _ _ _ hkey
  obtain ⟨value, hvalueWithin, hsecond, rfl⟩ := h.exists_piece _ _ _ hvalue
  exact ⟨(key, value), ⟨hkeyWithin, hvalueWithin⟩, Prod.ext hfirst hsecond,
    (List.append_assoc _ _ _).symm⟩

/-- What the body of a family was read from completes the header to an object. -/
theorem exists_denotes_of_readBody {levels : Nat} (hlower : ∀ lower < levels, ReadsObjects lower)
    {family : Family} {header : Bytes} {n : Nat} (hheader : Header family header n)
    {body rest : Bytes} {v : Value}
    (h : readBody (memberReader levels) family n body = .ok (v, rest)) :
    ∃ p, Denotes (header ++ p) v ∧ v.nesting ≤ levels ∧ body = p ++ rest := by
  cases family with
  | str =>
    obtain ⟨⟨bytes, rest'⟩, hpayload, h⟩ := bind_eq_ok_iff.mp h
    cases h
    obtain ⟨rfl, rfl⟩ := payload_eq_ok_iff.mp hpayload
    by_cases htext : ∃ text, Utf8.encode text = bytes
    · obtain ⟨text, rfl⟩ := htext
      rw [ofText_encode]
      exact ⟨_, .text text hheader, Nat.zero_le levels, rfl⟩
    · have hraw : ∀ text, Utf8.encode text ≠ bytes := fun text heq => htext ⟨text, heq⟩
      rw [ofText_of_forall_ne hraw]
      exact ⟨_, .rawText bytes hheader hraw, Nat.zero_le levels, rfl⟩
  | bin =>
    obtain ⟨⟨bytes, rest'⟩, hpayload, h⟩ := bind_eq_ok_iff.mp h
    cases h
    obtain ⟨rfl, rfl⟩ := payload_eq_ok_iff.mp hpayload
    exact ⟨_, .bin bytes hheader, Nat.zero_le levels, rfl⟩
  | array =>
    cases levels with
    | zero => cases h
    | succ levels =>
      obtain ⟨⟨items, rest'⟩, htimes, h⟩ := bind_eq_ok_iff.mp h
      cases h
      obtain ⟨pieces, hpieces, rfl, rfl, rfl⟩ := exists_pieces_of_times
        (hlower levels (Nat.lt_succ_self levels)).exists_piece htimes
      refine ⟨_, .array pieces hheader fun piece hpiece => (hpieces piece hpiece).1, ?_, rfl⟩
      exact nesting_array_le_succ_iff.mpr
        (List.forall_mem_map.mpr fun piece hpiece => (hpieces piece hpiece).2)
  | map =>
    cases levels with
    | zero => cases h
    | succ levels =>
      obtain ⟨⟨entries, rest'⟩, htimes, h⟩ := bind_eq_ok_iff.mp h
      cases h
      obtain ⟨pieces, hpieces, rfl, rfl, rfl⟩ := exists_pieces_of_times
        (hlower levels (Nat.lt_succ_self levels)).exists_entry htimes
      refine ⟨_, .map pieces hheader (fun entry hentry => (hpieces entry hentry).1.1)
        (fun entry hentry => (hpieces entry hentry).2.1), ?_, rfl⟩
      exact nesting_map_le_succ_iff.mpr (List.forall_mem_map.mpr fun entry hentry =>
        ⟨(hpieces entry hentry).1.2, (hpieces entry hentry).2.2⟩)
  | ext =>
    cases levels with
    | zero => cases h
    | succ levels =>
      obtain ⟨field, middle, hlen, rfl, htail⟩ := number_bind_eq_ok_iff.mp h
      obtain ⟨⟨bytes, rest'⟩, hpayload, hvalue⟩ := bind_eq_ok_iff.mp htail
      cases hvalue
      obtain ⟨rfl, rfl⟩ := payload_eq_ok_iff.mp hpayload
      obtain ⟨b, rfl⟩ := List.length_eq_one_iff.mp hlen
      have htag : (UInt8.ofNat (ofBigEndian [b])).toInt8.toUInt8 = b := by simp [ofBigEndian]
      refine ⟨b :: bytes, ?_, Nat.le_add_left 1 levels, rfl⟩
      have hdenotes := Denotes.ext (UInt8.ofNat (ofBigEndian [b])).toInt8 bytes hheader
      rwa [htag] at hdenotes

/-- Readers invent nothing. -/
theorem readsObjects (levels : Nat) : ReadsObjects levels := by
  induction levels using Nat.strong_induction_on with
  | h levels ih =>
    intro input v rest h
    rw [read_eq_readWith] at h
    rcases readWith_eq_ok h with ⟨p, hscalar, rfl⟩ | ⟨_, header, _, _, hheader, rfl, hbody⟩
    · refine ⟨p, .scalar hscalar, ?_, rfl⟩
      rw [hscalar.nesting_eq_zero]
      exact Nat.zero_le levels
    · obtain ⟨p, hdenotes, hnesting, rfl⟩ := exists_denotes_of_readBody ih hheader hbody
      exact ⟨header ++ p, hdenotes, hnesting, (List.append_assoc _ _ _).symm⟩

/-- **No object is the beginning of another.** -/
theorem Denotes.prefix_free {p q r s : Bytes} {v w : Value} (hp : Denotes p v) (hq : Denotes q w)
    (h : p ++ r = q ++ s) : p = q ∧ v = w := by
  -- with enough levels both objects are read from the same input
  have hv := read_append hp (max v.nesting w.nesting) r
  have hw := read_append hq (max v.nesting w.nesting) s
  rw [if_pos (Nat.le_max_left _ _), h] at hv
  rw [if_pos (Nat.le_max_right _ _), hv] at hw
  cases hw
  exact ⟨List.append_cancel_right h, rfl⟩

end MessagePack

/-! ## Payloads -/

namespace Value

open MessagePack

/-- A payload that begins with an object says its value, unless that is nested too deep. -/
theorem ofPayload_denotes_append {p : Bytes} {v : Value} (h : Denotes p v) (rest : Bytes) :
    ofPayload (p ++ rest) =
      if v.nesting ≤ nestingLimit then .ok v else .error (.malformed .tooDeep) := by
  have hne : p ++ rest ≠ [] := List.append_ne_nil_of_left_ne_nil h.ne_nil rest
  rw [ofPayload, if_neg hne, read_append h]
  by_cases hfits : v.nesting ≤ nestingLimit
  · rw [if_pos hfits, if_pos hfits]
  · rw [if_neg hfits, if_neg hfits]

/-- A payload that says a value begins with an object that means it. -/
theorem exists_denotes_of_ofPayload {payload : Bytes} {v : Value} (h : ofPayload payload = .ok v) :
    ∃ p rest, Denotes p v ∧ v.nesting ≤ nestingLimit ∧ payload = p ++ rest := by
  unfold ofPayload at h
  split at h
  · cases h
  · split at h
    · next v' rest hread =>
      cases h
      obtain ⟨p, hdenotes, hnesting, rfl⟩ := readsObjects nestingLimit _ _ _ hread
      exact ⟨p, rest, hdenotes, hnesting, rfl⟩
    · cases h

/-- **Payloads are read by the grammar.**  A payload says a value exactly when it begins with an
object that means this value and is not nested too deep.  Every other payload is refused. -/
theorem ofPayload_eq_ok_iff_denotes (payload : Bytes) :
    (∀ v, ofPayload payload = .ok v ↔
      ∃ p, p <+: payload ∧ Denotes p v ∧ v.nesting ≤ nestingLimit) ∧
    ((∃ fault : ProtocolFault, ofPayload payload = .error fault) ↔
      ¬ ∃ v p, p <+: payload ∧ Denotes p v ∧ v.nesting ≤ nestingLimit) := by
  have hiff : ∀ v, ofPayload payload = .ok v ↔
      ∃ p, p <+: payload ∧ Denotes p v ∧ v.nesting ≤ nestingLimit := by
    intro v
    constructor
    · intro h
      obtain ⟨p, rest, hdenotes, hnesting, rfl⟩ := exists_denotes_of_ofPayload h
      exact ⟨p, List.prefix_append p rest, hdenotes, hnesting⟩
    · rintro ⟨p, ⟨rest, rfl⟩, hdenotes, hnesting⟩
      rw [ofPayload_denotes_append hdenotes, if_pos hnesting]
  refine ⟨hiff, ?_⟩
  constructor
  · rintro ⟨fault, hfault⟩ ⟨v, hv⟩
    rw [(hiff v).mpr hv] at hfault
    cases hfault
  · intro hnone
    cases h : ofPayload payload with
    | ok v => exact absurd ⟨v, (hiff v).mp h⟩ hnone
    | error fault => exact ⟨fault, rfl⟩

end Value
end KeyValueClient
