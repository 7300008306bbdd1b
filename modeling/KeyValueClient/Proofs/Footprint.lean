import KeyValueClient.Proofs.Reading
import Mathlib.Algebra.Order.BigOperators.Group.List

/-!
# What a payload can grow into

A payload may announce what it does not have: four bytes of a length announce four billion members.
Nothing comes of it.  The members are read one after the other, and each of them takes at least its
marker from the input, so the input ends the reading long before the count does
(`Value.progresses_read`, `Reader.Progresses.times_eq_error`).

What is read has been paid for in the same way.  `Value.total` adds up a measure over all values in
a tree, and two measures say how large a value is: the number of values in it (`Value.nodes`), and
the bytes of its strings, its byte strings and its extensions (`Value.payloadSize`).  Every value
has a marker of its own in the object that means it, and every byte of a payload stands there as it
is (`MessagePack.Denotes.size_le`).  **So a value is no larger than the bytes that it was read
from** (`Value.reading_does_not_amplify`).
-/

namespace KeyValueClient
namespace Value

/-! ## Sums over a tree -/

mutual

/-- The sum of a measure over a tree: over the value itself and all members of its containers, keys
as well as values. -/
def total (measure : Value → Nat) : Value → Nat
  | .array items => measure (.array items) + itemsTotal measure items
  | .map entries => measure (.map entries) + entriesTotal measure entries
  | v => measure v

/-- The sum of a measure over the trees of a list. -/
def itemsTotal (measure : Value → Nat) : List Value → Nat
  | [] => 0
  | item :: items => item.total measure + itemsTotal measure items

/-- The sum of a measure over the trees of a list of entries. -/
def entriesTotal (measure : Value → Nat) : List (Value × Value) → Nat
  | [] => 0
  | entry :: entries =>
    entry.1.total measure + entry.2.total measure + entriesTotal measure entries

end

section Total

variable {measure : Value → Nat}

theorem total_array (items : List Value) :
    (Value.array items).total measure =
      measure (.array items) + (items.map (total measure)).sum := by
  have hitems : itemsTotal measure items = (items.map (total measure)).sum := by
    induction items with
    | nil => rfl
    | cons item items ih => rw [itemsTotal, ih, List.map_cons, List.sum_cons]
  rw [total, hitems]

theorem total_map (entries : List (Value × Value)) :
    (Value.map entries).total measure =
      measure (.map entries) +
        (entries.map fun entry => entry.1.total measure + entry.2.total measure).sum := by
  have hentries : entriesTotal measure entries =
      (entries.map fun entry => entry.1.total measure + entry.2.total measure).sum := by
    induction entries with
    | nil => rfl
    | cons entry entries ih => rw [entriesTotal, ih, List.map_cons, List.sum_cons]
  rw [total, hentries]

end Total

/-- Two measures are added up together or one by one. -/
theorem total_add (first second : Value → Nat) (v : Value) :
    v.total (fun part => first part + second part) = v.total first + v.total second := by
  induction v with
  | nil | bool | int | uint | float | str | bin | ext => rfl
  | array items ih =>
    rw [total_array, total_array, total_array, List.map_congr_left ih, List.sum_map_add]
    omega
  | map entries ih =>
    have hentries : ∀ entry ∈ entries,
        entry.1.total (fun part => first part + second part) +
            entry.2.total (fun part => first part + second part) =
          (entry.1.total first + entry.2.total first) +
            (entry.1.total second + entry.2.total second) := by
      intro entry hentry
      obtain ⟨hkey, hvalue⟩ := ih entry hentry
      omega
    rw [total_map, total_map, total_map, List.map_congr_left hentries, List.sum_map_add]
    omega

/-! ## Sizes -/

/-- The number of values in a tree. -/
def nodes (v : Value) : Nat := v.total fun _ => 1

/-- The bytes that a value holds itself: those of a string, of bytes or of an extension. -/
def ownPayloadSize : Value → Nat
  | .str text => (Utf8.encode text).length
  | .bin bytes => bytes.length
  | .ext _ payload => payload.length
  | _ => 0

/-- The bytes that all values in a tree hold. -/
def payloadSize (v : Value) : Nat := v.total ownPayloadSize

/-- The values in a tree and the bytes that they hold. -/
def size (v : Value) : Nat := v.total fun part => 1 + part.ownPayloadSize

theorem size_eq (v : Value) : v.size = v.nodes + v.payloadSize := total_add _ _ v

end Value

namespace MessagePack

open Value

/-! ## Objects -/

/-- If everything is at most as large as its bytes, then all of it together is. -/
theorem sum_map_le_length_flatMap {ι : Type} {pieces : List ι} {measure : ι → Nat}
    {bytes : ι → Bytes} (h : ∀ piece ∈ pieces, measure piece ≤ (bytes piece).length) :
    (pieces.map measure).sum ≤ (pieces.flatMap bytes).length := by
  rw [List.length_flatMap]
  exact List.sum_le_sum h

/-- A scalar holds no bytes. -/
theorem Scalar.size_eq_one {p : Bytes} {v : Value} (h : Scalar p v) : v.size = 1 := by
  cases h.isAtom <;> rfl

/-- **A value is no larger than an object that means it.** -/
theorem Denotes.size_le {p : Bytes} {v : Value} (h : Denotes p v) : v.size ≤ p.length := by
  -- a container pays for itself with its header, and its members pay for themselves
  induction h with
  | @scalar p v h =>
    have hpos : 0 < p.length := List.length_pos_iff.mpr (Denotes.scalar h).ne_nil
    rw [h.size_eq_one]
    exact hpos
  | @text header text h =>
    have hpos : 0 < header.length := List.length_pos_iff.mpr h.ne_nil
    show 1 + (Utf8.encode text).length ≤ _
    rw [List.length_append]
    omega
  | @rawText header bytes h | @bin header bytes h =>
    have hpos : 0 < header.length := List.length_pos_iff.mpr h.ne_nil
    show 1 + bytes.length ≤ _
    rw [List.length_append]
    omega
  | @ext header tag payload h =>
    have hpos : 0 < header.length := List.length_pos_iff.mpr h.ne_nil
    show 1 + payload.length ≤ _
    rw [List.length_append, List.length_cons]
    omega
  | @array header items h _ ih =>
    have hpos : 0 < header.length := List.length_pos_iff.mpr h.ne_nil
    have hmembers : ((items.map Piece.value).map size).sum ≤
        (items.flatMap Piece.bytes).length := by
      rw [List.map_map]
      exact sum_map_le_length_flatMap ih
    have htotal : (Value.array (items.map Piece.value)).size =
        1 + ((items.map Piece.value).map size).sum := total_array _
    rw [htotal, List.length_append]
    omega
  | @map header entries h _ _ ihkeys ihvalues =>
    have hpos : 0 < header.length := List.length_pos_iff.mpr h.ne_nil
    have hmembers : ((entries.map Piece.entryValue).map fun entry =>
        entry.1.size + entry.2.size).sum ≤ (entries.flatMap Piece.entryBytes).length := by
      rw [List.map_map]
      refine sum_map_le_length_flatMap fun entry hentry => ?_
      rw [Piece.entryBytes, List.length_append]
      exact Nat.add_le_add (ihkeys entry hentry) (ihvalues entry hentry)
    have htotal : (Value.map (entries.map Piece.entryValue)).size =
        1 + ((entries.map Piece.entryValue).map fun entry =>
          entry.1.size + entry.2.size).sum := total_map _
    rw [htotal, List.length_append]
    omega

end MessagePack

namespace Value

open MessagePack
open Reader (Progresses times pair)

/-! ## Payloads -/

/-- An object takes at least its marker. -/
theorem progresses_read (levels : Nat) : Progresses (read levels) := by
  intro input v rest h
  obtain ⟨p, hdenotes, -, rfl⟩ := readsObjects levels input v rest h
  have hpos : 0 < p.length := List.length_pos_iff.mpr hdenotes.ne_nil
  rw [List.length_append]
  omega

/-- **Reading does not amplify.**  However many items or entries are announced beyond the bytes that
are there, reading them ends with one and the same failure.  A payload is refused, or it says a
value: this has been read from so many bytes at the front of the payload, it is nested within the
limit, and the values in it and the bytes that they hold are together no more than the bytes that
were read. -/
theorem reading_does_not_amplify (payload : Bytes) :
    (∀ levels,
      (∃ cause, ∀ count, payload.length < count →
        times (read levels) count payload = .error cause) ∧
      ∃ cause, ∀ count, payload.length < count →
        times (pair (read levels)) count payload = .error cause) ∧
    ((∃ v n, ofPayload payload = .ok v ∧ n ≤ payload.length ∧
        read nestingLimit payload = .ok (v, payload.drop n) ∧ v.nesting ≤ nestingLimit ∧
        v.nodes + v.payloadSize ≤ n) ∨
      ∃ fault, ofPayload payload = .error fault) := by
  refine ⟨?_, ?_⟩
  · intro levels
    exact ⟨(progresses_read levels).times_eq_error payload,
      (progresses_read levels).pair.times_eq_error payload⟩
  · cases hread : ofPayload payload with
    | error fault => exact .inr ⟨fault, rfl⟩
    | ok v =>
      obtain ⟨p, rest, hdenotes, hnesting, rfl⟩ := exists_denotes_of_ofPayload hread
      have hlen : p.length ≤ (p ++ rest).length := by
        rw [List.length_append]
        exact Nat.le_add_right _ _
      refine .inl ⟨v, p.length, rfl, hlen, ?_, hnesting, ?_⟩
      · rw [read_append hdenotes, if_pos hnesting, List.drop_left]
      · rw [← size_eq]
        exact hdenotes.size_le

/-- Of four billion items two are there, and the first that is not ends the reading.  An array of a
string of one byte is as large as the three bytes that it is read from. -/
theorem reading_does_not_amplify_at_four_billion :
    times (read nestingLimit) (2 ^ 32 - 1) [1, 2] = .error .markerMissing ∧
      let v := Value.array [.str "a"]
      ofPayload [0x91, 0xa1, 0x61, 0xc1] = .ok v ∧ v.nodes + v.payloadSize = 3 ∧
        read nestingLimit [0x91, 0xa1, 0x61, 0xc1] = .ok (v, [0xc1]) := by
  obtain ⟨hmembers, -⟩ := reading_does_not_amplify [1, 2]
  obtain ⟨⟨cause, hcause⟩, -⟩ := hmembers nestingLimit
  have hthree : times (read nestingLimit) 3 [1, 2] = .error .markerMissing := rfl
  rw [hcause 3 (by decide)] at hthree
  cases hthree
  have hstring : Denotes [0xa1, 0x61] (.str "a") := .text "a" (.fixStr 1)
  have harray : Denotes [0x91, 0xa1, 0x61] (.array [.str "a"]) :=
    .array [⟨_, _⟩] (.fixArray 1) (List.forall_mem_singleton.mpr hstring)
  exact ⟨hcause _ (by decide), ofPayload_denotes_append harray [0xc1], rfl,
    read_append harray _ [0xc1]⟩

end Value
end KeyValueClient
