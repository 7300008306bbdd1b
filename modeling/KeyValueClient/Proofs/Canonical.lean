import KeyValueClient.Proofs.Shown

/-!
# Values that come over a link

A payload may hold a number in any format that has room for it, a length in any width, a text that
is no UTF-8 and a number of thirty-two bits.  What is read from it keeps none of this.  The value is
canonical: no `uint` occurs in it, at any depth, that an `int` could hold
(`canonical_eq_self_iff`, `Denotes.canonical_eq`), and its lengths can be stored, since they were
(`Denotes.storable`).  So **a value that was read can be written, and is read back as it is**
(`Value.ofPayload_encode_of_ofPayload`).

Writing forgets which range holds a number and nothing else: two values are written alike exactly
when they have the same canonical form (`Value.encode_eq_encode_iff`).
-/

namespace KeyValueClient
namespace Value

/-! ## What occurs in a value -/

/-- A value occurs in a tree: it is the tree, or it occurs in a member. -/
inductive Occurs (part : Value) : Value → Prop
  | self : Occurs part part
  | item {items : List Value} {item : Value} (hitem : item ∈ items) (h : Occurs part item) :
      Occurs part (.array items)
  | key {entries : List (Value × Value)} {entry : Value × Value} (hentry : entry ∈ entries)
      (h : Occurs part entry.1) : Occurs part (.map entries)
  | value {entries : List (Value × Value)} {entry : Value × Value} (hentry : entry ∈ entries)
      (h : Occurs part entry.2) : Occurs part (.map entries)

theorem map_canonical_eq_self_iff {items : List Value} :
    items.map canonical = items ↔ ∀ item ∈ items, item.canonical = item := by
  have h := List.map_inj_left (l := items) (f := canonical) (g := id)
  rwa [List.map_id] at h

theorem canonical_array_eq_self_iff {items : List Value} :
    (Value.array items).canonical = .array items ↔ ∀ item ∈ items, item.canonical = item := by
  rw [canonical_array, Value.array.injEq, map_canonical_eq_self_iff]

theorem canonical_map_eq_self_iff {entries : List (Value × Value)} :
    (Value.map entries).canonical = .map entries ↔
      ∀ entry ∈ entries, entry.1.canonical = entry.1 ∧ entry.2.canonical = entry.2 := by
  have h := List.map_inj_left (l := entries)
    (f := fun entry => (entry.1.canonical, entry.2.canonical)) (g := id)
  rw [List.map_id] at h
  rw [canonical_map, Value.map.injEq, h]
  exact forall₂_congr fun entry _ => Prod.ext_iff

theorem canonical_uint_eq_self_iff {n : UInt64} :
    (Value.uint n).canonical = .uint n ↔ 2 ^ 63 ≤ n.toNat := by
  rw [canonical]
  split <;> simp <;> omega

/-- **A value is canonical when no `uint` occurs in it that an `int` could hold.** -/
theorem canonical_eq_self_iff {v : Value} :
    v.canonical = v ↔ ∀ n, Occurs (.uint n) v → 2 ^ 63 ≤ n.toNat := by
  constructor
  · intro hv n h
    induction h with
    | self => exact canonical_uint_eq_self_iff.mp hv
    | item hitem _ ih => exact ih (canonical_array_eq_self_iff.mp hv _ hitem)
    | key hentry _ ih => exact ih (canonical_map_eq_self_iff.mp hv _ hentry).1
    | value hentry _ ih => exact ih (canonical_map_eq_self_iff.mp hv _ hentry).2
  · intro h
    induction v with
    | nil | bool | int | float | str | bin | ext => rfl
    | uint n => exact canonical_uint_eq_self_iff.mpr (h n .self)
    | array items ih =>
      refine canonical_array_eq_self_iff.mpr fun item hitem => ?_
      exact ih item hitem fun n hn => h n (.item hitem hn)
    | map entries ih =>
      refine canonical_map_eq_self_iff.mpr fun entry hentry => ?_
      obtain ⟨ihkey, ihvalue⟩ := ih entry hentry
      exact ⟨ihkey fun n hn => h n (.key hentry hn), ihvalue fun n hn => h n (.value hentry hn)⟩

end Value

namespace MessagePack

open Bytes (ofBigEndian)
open Value

/-! ## What objects mean -/

/-- Objects mean canonical values. -/
theorem Denotes.canonical_eq {p : Bytes} {v : Value} (h : Denotes p v) : v.canonical = v := by
  induction h with
  | scalar h =>
    cases h.isAtom with
    | nil | bool | float => rfl
    | int i => exact canonical_int i
    | uint n hn => exact canonical_uint_eq_self_iff.mpr hn
  | text | rawText | bin | ext => rfl
  | array items _ _ ih => exact canonical_array_eq_self_iff.mpr (List.forall_mem_map.mpr ih)
  | map entries _ _ _ ihkeys ihvalues =>
    exact canonical_map_eq_self_iff.mpr
      (List.forall_mem_map.mpr fun entry hentry => ⟨ihkeys entry hentry, ihvalues entry hentry⟩)

/-- A field of at most four bytes holds a length that can be stored. -/
theorem ofBigEndian_lt_of_length_le {field : Bytes} (h : field.length ≤ 4) :
    ofBigEndian field < 2 ^ 32 :=
  Nat.lt_of_lt_of_le (Bytes.ofBigEndian_lt field) (Nat.pow_le_pow_right (by decide) h)

/-- A length that was announced can be stored. -/
theorem Header.length_lt {family : Family} {header : Bytes} {n : Nat} (h : Header family header n) :
    n < 2 ^ 32 := by
  -- fields have one, two or four bytes
  have hshort : ∀ k : Fin 3, 2 ^ k.val ≤ 4 := by decide
  have hlong : ∀ k : Fin 2, 2 ^ (k.val + 1) ≤ 4 := by decide
  have hfixed : ∀ k : Fin 5, 2 ^ k.val < 2 ^ 32 := by decide
  cases h with
  | fixStr n | fixArray n | fixMap n => omega
  | fixExt k => exact hfixed k
  | str k field hlen | bin k field hlen | ext k field hlen =>
    exact ofBigEndian_lt_of_length_le (hlen ▸ hshort k)
  | array k field hlen | map k field hlen => exact ofBigEndian_lt_of_length_le (hlen ▸ hlong k)

/-- Objects mean values whose lengths can be stored. -/
theorem Denotes.storable {p : Bytes} {v : Value} (h : Denotes p v) : v.Storable := by
  induction h with
  | scalar h =>
    cases h.isAtom with
    | nil => exact .nil
    | bool b => exact .bool b
    | int i => exact .int i
    | uint n => exact .uint n
    | float x => exact .float x
  | text _ h => exact .str h.length_lt
  | rawText _ h | bin _ h => exact .bin h.length_lt
  | ext _ _ h => exact .ext h.length_lt
  | array items h _ ih =>
    have hlength : (items.map Piece.value).length < 2 ^ 32 := by
      rw [List.length_map]
      exact h.length_lt
    exact .array hlength (List.forall_mem_map.mpr ih)
  | map entries h _ _ ihkeys ihvalues =>
    have hlength : (entries.map Piece.entryValue).length < 2 ^ 32 := by
      rw [List.length_map]
      exact h.length_lt
    exact .map hlength (List.forall_mem_map.mpr ihkeys) (List.forall_mem_map.mpr ihvalues)

end MessagePack

namespace Value

open MessagePack

/-! ## Writing again -/

/-- **A value that was read is read again from what is written of it.** -/
theorem ofPayload_encode_of_ofPayload {payload : Bytes} {v : Value}
    (h : ofPayload payload = .ok v) : ofPayload v.encode = .ok v := by
  obtain ⟨p, rest, hdenotes, hnesting, -⟩ := exists_denotes_of_ofPayload h
  exact ofPayload_encode_of_canonical hdenotes.storable hdenotes.canonical_eq hnesting

/-- The canonical form is written like the value. -/
theorem encode_canonical (v : Value) : v.canonical.encode = v.encode := by
  induction v with
  | nil | bool | int | float | str | bin | ext => rfl
  | uint n =>
    rcases canonical_uint n with h | ⟨i, hi, h⟩
    · rw [h]
    · have hnonneg : 0 ≤ i.toInt := by omega
      rw [h, encode, encode, integer, if_pos hnonneg, hi, Int.toNat_natCast]
  | array items ih =>
    have hitems : (items.map canonical).flatMap encode = items.flatMap encode := by
      rw [List.flatMap_map]
      exact List.flatMap_congr ih
    rw [canonical_array, encode, encode, encodeItems_eq_flatMap, encodeItems_eq_flatMap, hitems,
      List.length_map]
  | map entries ih =>
    have hentries : ∀ entry ∈ entries,
        entry.1.canonical.encode ++ entry.2.canonical.encode =
          entry.1.encode ++ entry.2.encode := by
      intro entry hentry
      obtain ⟨hkey, hvalue⟩ := ih entry hentry
      rw [hkey, hvalue]
    rw [canonical_map, encode, encode, encodeEntries_eq_flatMap, encodeEntries_eq_flatMap,
      List.flatMap_map, List.flatMap_congr hentries, List.length_map]

/-- **Values are written alike exactly when they have the same canonical form**, if their lengths
can be stored. -/
theorem encode_eq_encode_iff {v w : Value} (hv : v.Storable) (hw : w.Storable) :
    v.encode = w.encode ↔ v.canonical = w.canonical := by
  constructor
  · intro h
    -- the two objects are one, and no object means two values
    have hsame : v.encode ++ [] = w.encode ++ [] := congrArg (· ++ []) h
    exact ((denotes_encode hv).prefix_free (denotes_encode hw) hsame).2
  · intro h
    rw [← encode_canonical v, ← encode_canonical w, h]

/-- **Values that come over a link are canonical.**  In a value that was read no `uint` occurs that
an `int` could hold; what is written of it is an object that means it, and is read as the same
value.  So reading, writing and reading again is reading.  Two values whose lengths can be stored
are written alike exactly when they agree once each `uint` that an `int` could hold is held as
one. -/
theorem read_values_are_canonical :
    (∀ payload v, ofPayload payload = .ok v →
      (∀ n, Occurs (.uint n) v → 2 ^ 63 ≤ n.toNat) ∧
        v.Storable ∧ Denotes v.encode v ∧ ofPayload v.encode = .ok v) ∧
    (∀ payload, (ofPayload payload >>= fun v => ofPayload v.encode) = ofPayload payload) ∧
    (∀ v w : Value, v.Storable → w.Storable →
      (v.encode = w.encode ↔ v.canonical = w.canonical)) := by
  refine ⟨?_, ?_, ?_⟩
  · intro payload v hread
    obtain ⟨p, rest, hdenotes, -, -⟩ := exists_denotes_of_ofPayload hread
    have hencode := denotes_encode hdenotes.storable
    rw [hdenotes.canonical_eq] at hencode
    exact ⟨canonical_eq_self_iff.mp hdenotes.canonical_eq, hdenotes.storable, hencode,
      ofPayload_encode_of_ofPayload hread⟩
  · intro payload
    cases hread : ofPayload payload with
    | error fault => rfl
    | ok v => exact ofPayload_encode_of_ofPayload hread
  · intro v w hv hw
    exact encode_eq_encode_iff hv hw

/-- An array of the number five in nine bytes and of a string that is no UTF-8, with a byte behind
it that begins no object: the value that is read is written in five bytes and read again.  The two
ways to hold five are written alike. -/
theorem read_values_are_canonical_at_wide_number :
    let payload : Bytes := [0x92, 0xd3, 0, 0, 0, 0, 0, 0, 0, 5, 0xa1, 0xff, 0xc1]
    let v := Value.array [.int 5, .bin [0xff]]
    ofPayload payload = .ok v ∧ v.encode = [0x92, 5, 0xc4, 1, 0xff] ∧ ofPayload v.encode = .ok v ∧
      (Value.uint 5).Storable ∧ (Value.int 5).Storable ∧
      (Value.uint 5).encode = (Value.int 5).encode := by
  intro payload v
  obtain ⟨hread, -, hwritten⟩ := read_values_are_canonical
  have hnumber : Denotes [0xd3, 0, 0, 0, 0, 0, 0, 0, 5] (.int 5) :=
    .scalar (.int 3 _ rfl ⟨by decide, by decide, by decide⟩ (.int 5))
  have hraw : ∀ text, Utf8.encode text ≠ [0xff] := by
    intro text h
    have hnone : Utf8.decode? (Utf8.encode text) = none := by rw [h]; rfl
    rw [Utf8.decode?_encode] at hnone
    cases hnone
  have hbytes : Denotes [0xa1, 0xff] (.bin [0xff]) := .rawText [0xff] (.fixStr 1) hraw
  have harray : Denotes [0x92, 0xd3, 0, 0, 0, 0, 0, 0, 0, 5, 0xa1, 0xff] v :=
    .array [⟨_, _⟩, ⟨_, _⟩] (.fixArray 2)
      (List.forall_mem_cons.mpr ⟨hnumber, List.forall_mem_singleton.mpr hbytes⟩)
  have hpayload : ofPayload payload = .ok v := by
    have hfits : v.nesting ≤ nestingLimit := by decide
    have h := ofPayload_denotes_append harray [0xc1]
    rwa [if_pos hfits] at h
  obtain ⟨-, -, -, hback⟩ := hread payload v hpayload
  exact ⟨hpayload, rfl, hback, .uint 5, .int 5, (hwritten _ _ (.uint 5) (.int 5)).mpr rfl⟩

end Value
end KeyValueClient
