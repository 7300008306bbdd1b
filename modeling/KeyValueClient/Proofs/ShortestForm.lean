import KeyValueClient.Proofs.Canonical
import KeyValueClient.Proofs.Footprint
import KeyValueClient.Proofs.Truncation

/-!
# What is written is shortest

An integer may come in a field that is wider than it has to be, with a sign or without one, and so
may a length.  The writer chooses anew, by the number alone.  A number that fits a field is written
in a field that is no wider (`length_natural_le`, `length_integer_le`), and a length is announced in
a header that is no longer than any header that announces it (`Header.length_written_le`).

Two values are written longer than they may be read.  A floating-point number is written in eight
bytes, also when it came in four, and a string that is no UTF-8 is written as bytes, which have no
header of one byte.  Without these **no object that means a value is shorter than what is written of
it** (`Denotes.length_encode_le`).  So a value that is sent back needs no more room than it had
(`Value.written_again_is_no_longer`).
-/

namespace KeyValueClient
namespace MessagePack

open Bytes (ofBigEndian)

/-! ## Integers -/

theorem length_field (m : Marker) (width n : Nat) : (field m width n).length = width + 1 := by
  rw [field, List.length_cons, Bytes.length_bigEndian]

section Numbers

variable {width : Nat} (hwidth : width = 1 ∨ width = 2 ∨ width = 4 ∨ width = 8)

include hwidth

/-- A natural number that fits a field is written in a field that is no wider. -/
theorem length_natural_le {n : Nat} (hlt : n < 256 ^ width) : (natural n).length ≤ width + 1 := by
  unfold natural
  rcases hwidth with rfl | rfl | rfl | rfl
  all_goals split_ifs <;> simp only [length_field, List.length_singleton] <;> omega

/-- An integer that fits a field, with a sign or without one, is written in a field that is no
wider. -/
theorem length_integer_le {i : Int} (hlow : -(256 ^ width) ≤ 2 * i) (hhigh : i < 256 ^ width) :
    (integer i).length ≤ width + 1 := by
  unfold integer
  by_cases h0 : 0 ≤ i
  · have hcast : ((256 ^ width : Nat) : Int) = 256 ^ width := by norm_cast
    rw [if_pos h0]
    exact length_natural_le hwidth (by omega)
  · rw [if_neg h0]
    rcases hwidth with rfl | rfl | rfl | rfl
    all_goals split_ifs <;> simp only [length_field, List.length_singleton] <;> omega

end Numbers

/-- The value of an integer is written as the integer. -/
theorem IsInteger.encode_eq {i : Int} {v : Value} (h : IsInteger i v) : v.encode = integer i := by
  cases h with
  | int i => rfl
  | uint n => rw [Value.encode, integer, if_pos (Int.natCast_nonneg _), Int.toNat_natCast]

/-- **No scalar that means a value is shorter than what is written of it**, unless the value is a
floating-point number. -/
theorem Scalar.length_encode_le {p : Bytes} {v : Value} (h : Scalar p v)
    (hfloat : ∀ x, v ≠ .float x) : v.encode.length ≤ p.length := by
  have hwidth : ∀ k : Fin 4, 2 ^ k.val = 1 ∨ 2 ^ k.val = 2 ∨ 2 ^ k.val = 4 ∨ 2 ^ k.val = 8 := by
    decide
  cases h with
  | nil | no | yes => exact Nat.le_refl _
  | fixNat n h =>
    have hone : ∀ n : Fin 128, (integer n).length = 1 := by decide
    rw [h.encode_eq, hone n]
    exact Nat.le_refl _
  | fixNegative n h =>
    have hone : ∀ n : Fin 32, (integer (n - 32)).length = 1 := by decide
    rw [h.encode_eq, hone n]
    exact Nat.le_refl _
  | uint k field hlen h =>
    have hlt := Bytes.ofBigEndian_lt field
    rw [hlen] at hlt
    rw [h.encode_eq, List.length_cons, hlen, integer, if_pos (Int.natCast_nonneg _),
      Int.toNat_natCast]
    exact length_natural_le (hwidth k) hlt
  | @int v i k field hlen hi h =>
    obtain ⟨hlow, hhigh, -⟩ := hi
    rw [hlen] at hlow hhigh
    rw [h.encode_eq, List.length_cons, hlen]
    exact length_integer_le (hwidth k) hlow (by omega)
  | float32 _ _ _ | float64 _ _ _ => exact absurd rfl (hfloat _)

/-! ## Headers -/

/-- The header that a family writes for a length. -/
def writtenHeader : Family → Nat → Bytes
  | .str => strHeader
  | .bin => binHeader
  | .array => arrayHeader
  | .map => mapHeader
  | .ext => extHeader

/-- The widths of the fields in which a family announces a length. -/
def Family.widths : Family → List Nat
  | .str | .bin | .ext => [1, 2, 4]
  | .array | .map => [2, 4]

/-- A length that fits a field of the family is announced in a field that is no wider. -/
theorem length_writtenHeader_le {family : Family} {width n : Nat} (hwidth : width ∈ family.widths)
    (hlt : n < 256 ^ width) : (writtenHeader family n).length ≤ width + 1 := by
  have hstored : storedLength n ≤ n := Nat.mod_le n _
  cases family with
  | str | bin | ext =>
    obtain rfl | rfl | rfl : width = 1 ∨ width = 2 ∨ width = 4 := by
      simpa [Family.widths] using hwidth
    all_goals
      simp only [writtenHeader, strHeader, binHeader, extHeader]
      split_ifs <;> simp only [length_field, List.length_singleton] <;> omega
  | array | map =>
    obtain rfl | rfl : width = 2 ∨ width = 4 := by simpa [Family.widths] using hwidth
    all_goals
      simp only [writtenHeader, arrayHeader, mapHeader]
      split_ifs <;> simp only [length_field, List.length_singleton] <;> omega

/-- **No header that announces a length is shorter than the one that is written for it.** -/
theorem Header.length_written_le {family : Family} {header : Bytes} {n : Nat}
    (h : Header family header n) : (writtenHeader family n).length ≤ header.length := by
  have hnarrow : ∀ k : Fin 3, 2 ^ k.val ∈ [1, 2, 4] := by decide
  have hwide : ∀ k : Fin 2, 2 ^ (k.val + 1) ∈ [2, 4] := by decide
  -- what is in a field fits the field
  have hfield : ∀ {family field width}, List.length field = width → width ∈ Family.widths family →
      (writtenHeader family (ofBigEndian field)).length ≤ width + 1 := by
    rintro family field _ rfl hwidth
    exact length_writtenHeader_le hwidth (Bytes.ofBigEndian_lt field)
  cases h with
  | fixStr n =>
    have hone : ∀ n : Fin 32, (strHeader n).length = 1 := by decide
    exact (hone n).le
  | fixArray n =>
    have hone : ∀ n : Fin 16, (arrayHeader n).length = 1 := by decide
    exact (hone n).le
  | fixMap n =>
    have hone : ∀ n : Fin 16, (mapHeader n).length = 1 := by decide
    exact (hone n).le
  | fixExt k =>
    have hone : ∀ k : Fin 5, (extHeader (2 ^ k.val)).length = 1 := by decide
    exact (hone k).le
  | str k field hlen | bin k field hlen | ext k field hlen =>
    rw [List.length_cons, hlen]
    exact hfield hlen (hnarrow k)
  | array k field hlen | map k field hlen =>
    rw [List.length_cons, hlen]
    exact hfield hlen (hwide k)

end MessagePack

namespace Value

/-! ## Plain values -/

/-- No floating-point number and no bytes occur in a value. -/
structure Plain (v : Value) : Prop where
  float : ∀ x, ¬ Occurs (.float x) v
  bin : ∀ bytes, ¬ Occurs (.bin bytes) v

theorem plain_array_iff {items : List Value} :
    (Value.array items).Plain ↔ ∀ item ∈ items, item.Plain := by
  constructor
  · intro h item hitem
    exact ⟨fun x hx => h.float x (.item hitem hx), fun bytes hx => h.bin bytes (.item hitem hx)⟩
  · intro h
    constructor
    · rintro x (_ | ⟨hitem, hx⟩)
      exact (h _ hitem).float x hx
    · rintro bytes (_ | ⟨hitem, hx⟩)
      exact (h _ hitem).bin bytes hx

theorem plain_map_iff {entries : List (Value × Value)} :
    (Value.map entries).Plain ↔ ∀ entry ∈ entries, entry.1.Plain ∧ entry.2.Plain := by
  constructor
  · intro h entry hentry
    exact ⟨⟨fun x hx => h.float x (.key hentry hx), fun bytes hx => h.bin bytes (.key hentry hx)⟩,
      ⟨fun x hx => h.float x (.value hentry hx), fun bytes hx => h.bin bytes (.value hentry hx)⟩⟩
  · intro h
    constructor
    · rintro x (_ | _ | ⟨hentry, hx⟩ | ⟨hentry, hx⟩)
      · exact (h _ hentry).1.float x hx
      · exact (h _ hentry).2.float x hx
    · rintro bytes (_ | _ | ⟨hentry, hx⟩ | ⟨hentry, hx⟩)
      · exact (h _ hentry).1.bin bytes hx
      · exact (h _ hentry).2.bin bytes hx

end Value

namespace MessagePack

open Value (plain_array_iff plain_map_iff)

/-! ## Objects -/

/-- **No object that means a plain value is shorter than what is written of the value.** -/
theorem Denotes.length_encode_le {p : Bytes} {v : Value} (h : Denotes p v) (hplain : v.Plain) :
    v.encode.length ≤ p.length := by
  -- the header is no longer than the one that came, and neither is any member
  induction h with
  | scalar h =>
    refine h.length_encode_le ?_
    rintro x rfl
    exact hplain.float x .self
  | text text h =>
    show (strHeader _ ++ Utf8.encode text).length ≤ _
    rw [List.length_append, List.length_append]
    exact Nat.add_le_add_right h.length_written_le _
  | rawText bytes _ _ | bin bytes _ => exact absurd .self (hplain.bin bytes)
  | ext tag payload h =>
    show (extHeader _ ++ tag.toUInt8 :: payload).length ≤ _
    rw [List.length_append, List.length_append]
    exact Nat.add_le_add_right h.length_written_le _
  | array items h _ ih =>
    have hheader := h.length_written_le
    have hmembers : ((items.map Piece.value).flatMap Value.encode).length ≤
        (items.flatMap Piece.bytes).length := by
      rw [List.flatMap_map, List.length_flatMap]
      exact sum_map_le_length_flatMap fun item hitem =>
        ih item hitem (plain_array_iff.mp hplain _ (List.mem_map_of_mem hitem))
    rw [Value.encode, encodeItems_eq_flatMap, List.length_map, List.length_append,
      List.length_append]
    exact Nat.add_le_add hheader hmembers
  | map entries h _ _ ihkeys ihvalues =>
    have hheader := h.length_written_le
    have hmembers : ((entries.map Piece.entryValue).flatMap fun entry =>
        entry.1.encode ++ entry.2.encode).length ≤ (entries.flatMap Piece.entryBytes).length := by
      rw [List.flatMap_map, List.length_flatMap]
      refine sum_map_le_length_flatMap fun entry hentry => ?_
      obtain ⟨hkey, hvalue⟩ := plain_map_iff.mp hplain _ (List.mem_map_of_mem hentry)
      rw [Piece.entryBytes, List.length_append, List.length_append]
      exact Nat.add_le_add (ihkeys entry hentry hkey) (ihvalues entry hentry hvalue)
    rw [Value.encode, encodeEntries_eq_flatMap, List.length_map, List.length_append,
      List.length_append]
    exact Nat.add_le_add hheader hmembers

end MessagePack

namespace Value

open MessagePack
open Link (Script)

/-! ## Writing again -/

/-- **What is written of a plain value is no longer than what it was read from**, and is read as the
same value.  So a connection that has room for the object that came has room for the one that is
sent back, and receives it whole. -/
theorem written_again_is_no_longer {payload rest : Bytes} {v : Value}
    (hread : read nestingLimit payload = .ok (v, rest)) (hplain : v.Plain) :
    ofPayload payload = .ok v ∧
      (Response.unexpected v).encode.length + rest.length ≤ payload.length ∧
      ofPayload (Response.unexpected v).encode = .ok v ∧
      ∀ (c : Connection) (s : Script) later, payload.length ≤ c.capacity + rest.length →
        s.reads = .data (Response.unexpected v).encode :: later →
        (Response.unexpected v).encode.length ≤ c.capacity ∧
          ((c.receive : StateM Script (Except Fault Response)).run s).1 =
            .ok (Response.ofValue v) := by
  obtain ⟨p, hdenotes, hnesting, rfl⟩ := readsObjects nestingLimit payload v rest hread
  have hwritten : ofPayload (Response.unexpected v).encode = .ok v :=
    ofPayload_encode_of_canonical hdenotes.storable hdenotes.canonical_eq hnesting
  have hlength : (Response.unexpected v).encode.length ≤ p.length :=
    hdenotes.length_encode_le hplain
  have hne : (Response.unexpected v).encode ≠ [] := (denotes_encode hdenotes.storable).ne_nil
  have hpos : 0 < (Response.unexpected v).encode.length := List.length_pos_iff.mpr hne
  refine ⟨?_, ?_, hwritten, ?_⟩
  · rw [ofPayload_denotes_append hdenotes, if_pos hnesting]
  · rw [List.length_append]
    exact Nat.add_le_add_right hlength _
  · intro c s later hroom hreads
    rw [List.length_append, Nat.add_le_add_iff_right] at hroom
    have hwhole : (Response.unexpected v).encode.length ≤ c.capacity := hlength.trans hroom
    have hcapacity : 1 ≤ c.capacity := by omega
    obtain ⟨hreceived, -⟩ := Connection.run_receive_of_data hcapacity hne hreads
    refine ⟨hwhole, ?_⟩
    rw [hreceived, List.take_of_length_le hwhole, Response.ofPayload, hwritten]
    rfl

/-- An array of the number five in nine bytes and of a string with a length in four, with a byte
behind it that begins no object: the eighteen bytes of the array are written again in four. -/
theorem written_again_is_no_longer_in_four_bytes :
    let payload : Bytes :=
      [0xdc, 0, 2, 0xd3, 0, 0, 0, 0, 0, 0, 0, 5, 0xdb, 0, 0, 0, 1, 0x61, 0xc1]
    let v := Value.array [.int 5, .str "a"]
    let c : Connection := ⟨"store", 18⟩
    let s : Script := { reads := [.data [0x92, 5, 0xa1, 0x61]] }
    read nestingLimit payload = .ok (v, [0xc1]) ∧ v.Plain ∧ ofPayload payload = .ok v ∧
      (Response.unexpected v).encode = [0x92, 5, 0xa1, 0x61] ∧ ofPayload v.encode = .ok v ∧
      ((c.receive : StateM Script (Except Fault Response)).run s).1 = .ok (.unexpected v) := by
  intro payload v c s
  have hnumber : Denotes [0xd3, 0, 0, 0, 0, 0, 0, 0, 5] (.int 5) :=
    .scalar (.int 3 _ rfl ⟨by decide, by decide, by decide⟩ (.int 5))
  have htext : Denotes [0xdb, 0, 0, 0, 1, 0x61] (.str "a") := .text "a" (.str 2 [0, 0, 0, 1] rfl)
  have harray : Denotes
      [0xdc, 0, 2, 0xd3, 0, 0, 0, 0, 0, 0, 0, 5, 0xdb, 0, 0, 0, 1, 0x61] v :=
    .array [⟨_, _⟩, ⟨_, _⟩] (.array 0 [0, 2] rfl)
      (List.forall_mem_cons.mpr ⟨hnumber, List.forall_mem_singleton.mpr htext⟩)
  have hread : read nestingLimit payload = .ok (v, [0xc1]) := read_append harray _ [0xc1]
  have hplain : v.Plain :=
    plain_array_iff.mpr (List.forall_mem_cons.mpr ⟨⟨nofun, nofun⟩,
      List.forall_mem_singleton.mpr ⟨nofun, nofun⟩⟩)
  obtain ⟨hpayload, -, hwritten, hreceive⟩ := written_again_is_no_longer hread hplain
  obtain ⟨-, hreceived⟩ := hreceive c s [] (by decide) rfl
  exact ⟨hread, hplain, hpayload, rfl, hwritten, hreceived⟩

end Value
end KeyValueClient
