import KeyValueClient.MessagePack.Decoding
import Mathlib.Data.List.Basic

/-!
# Laws of readers

Each way to build a reader has two laws.  One says what a reading that succeeded has taken off the
front of the input; it is used to show that a reader accepts nothing but the grammar.  The other
computes the reading of an input that begins with the right bytes, with anything behind them; it is
used to show that a reader accepts all of the grammar.

Lists of things are handled over a list of *pieces*: each piece has its bytes and its value, and
the input begins with the bytes of all pieces in order.

* `exists_pieces_of_times`: if every single reading is a piece, so is every repeated one, piece by
  piece.
* `times_flatMap`: if every piece is either read or refused with one and the same failure, then the
  whole list is read when no piece is refused, **and refused with that failure otherwise**.

A reader that takes at least a byte for every thing cannot be repeated more often than there are
bytes.  How many repetitions are asked for beyond that makes no difference: **the input ends them,
with one failure for all counts** (`Progresses.times_eq_error`).
-/

namespace KeyValueClient

open Bytes (ofBigEndian)

/-- A sequence of two steps succeeds when both do. -/
theorem bind_eq_ok_iff {ε α β : Type} {x : Except ε α} {f : α → Except ε β} {b : β} :
    (x >>= f) = .ok b ↔ ∃ a, x = .ok a ∧ f a = .ok b := by
  cases x with
  | error e => simp [bind, Except.bind]
  | ok a => simp [bind, Except.bind]

/-- The first step of a sequence that succeeds hands over its result. -/
theorem bind_of_eq_ok {ε α β : Type} {x : Except ε α} {f : α → Except ε β} {a : α}
    (h : x = .ok a) : (x >>= f) = f a := by
  rw [h]
  rfl

/-- A sequence whose first step depends on a condition goes on or fails by this condition. -/
theorem bind_of_eq_ite {ε α β : Type} {x : Except ε α} {f : α → Except ε β} {P : Prop}
    [Decidable P] {a : α} {e : ε} (h : x = if P then .ok a else .error e) :
    (x >>= f) = if P then f a else .error e := by
  rw [h]
  split <;> rfl

namespace Reader

/-! ## Numbers and payloads -/

theorem number_eq_ok_iff {width n : Nat} {input rest : Bytes} :
    number width input = .ok (n, rest) ↔
      ∃ field : Bytes, field.length = width ∧ input = field ++ rest ∧ n = ofBigEndian field := by
  unfold number
  constructor
  · intro h
    split at h
    · next front rest' hcut =>
      obtain ⟨rfl, hlen⟩ := Bytes.cut?_eq_some_iff.mp hcut
      cases h
      exact ⟨front, hlen, rfl, rfl⟩
    · cases h
  · rintro ⟨field, hlen, rfl, rfl⟩
    rw [Bytes.cut?_eq_some_iff.mpr ⟨rfl, hlen⟩]

/-- A field at the front of the input is read as its number. -/
theorem number_append {width : Nat} {field : Bytes} (hlen : field.length = width) (rest : Bytes) :
    number width (field ++ rest) = .ok (ofBigEndian field, rest) :=
  number_eq_ok_iff.mpr ⟨field, hlen, rfl, rfl⟩

/-- A sequence that begins with a number succeeds when a field is there and the rest succeeds. -/
theorem number_bind_eq_ok_iff {β : Type} {f : Nat × Bytes → Except Malformed β} {width : Nat}
    {input : Bytes} {b : β} :
    (number width input >>= f) = .ok b ↔
      ∃ field rest : Bytes, field.length = width ∧ input = field ++ rest ∧
        f (ofBigEndian field, rest) = .ok b := by
  rw [bind_eq_ok_iff]
  constructor
  · rintro ⟨⟨n, rest⟩, hn, h⟩
    obtain ⟨field, hlen, rfl, rfl⟩ := number_eq_ok_iff.mp hn
    exact ⟨field, rest, hlen, rfl, h⟩
  · rintro ⟨field, rest, hlen, rfl, h⟩
    exact ⟨_, number_append hlen rest, h⟩

/-- A step that comes behind a field sees its number and what stands behind it. -/
theorem number_bind_append {β : Type} {f : Nat × Bytes → Except Malformed β} {width : Nat}
    {field : Bytes} (hlen : field.length = width) (rest : Bytes) :
    (number width (field ++ rest) >>= f) = f (ofBigEndian field, rest) :=
  bind_of_eq_ok (number_append hlen rest)

theorem payload_eq_ok_iff {n : Nat} {input bytes rest : Bytes} :
    payload n input = .ok (bytes, rest) ↔ input = bytes ++ rest ∧ bytes.length = n := by
  unfold payload
  rw [← Bytes.cut?_eq_some_iff]
  cases Bytes.cut? n input with
  | none => simp
  | some cut => simp

/-- A payload at the front of the input is read as it stands. -/
theorem payload_append (bytes rest : Bytes) :
    payload bytes.length (bytes ++ rest) = .ok (bytes, rest) :=
  payload_eq_ok_iff.mpr ⟨rfl, rfl⟩

/-! ## Pairs -/

theorem pair_eq_ok_iff {α : Type} {read : Reader α} {input rest : Bytes} {first second : α} :
    pair read input = .ok ((first, second), rest) ↔
      ∃ middle, read input = .ok (first, middle) ∧ read middle = .ok (second, rest) := by
  unfold pair
  constructor
  · intro h
    obtain ⟨⟨a, middle⟩, ha, h⟩ := bind_eq_ok_iff.mp h
    obtain ⟨⟨b, rest'⟩, hb, h⟩ := bind_eq_ok_iff.mp h
    cases h
    exact ⟨middle, ha, hb⟩
  · rintro ⟨middle, ha, hb⟩
    rw [bind_of_eq_ok ha]
    exact bind_of_eq_ok hb

/-- Two things that are each read or refused with one failure are read together, or refused with
that failure if one of them is. -/
theorem pair_append {α : Type} {read : Reader α} {P : α → Prop} [DecidablePred P]
    {e : Malformed} {first second : Bytes} {a b : α}
    (hfirst : ∀ rest, read (first ++ rest) = if P a then .ok (a, rest) else .error e)
    (hsecond : ∀ rest, read (second ++ rest) = if P b then .ok (b, rest) else .error e)
    (rest : Bytes) :
    pair read (first ++ second ++ rest) =
      if P a ∧ P b then .ok ((a, b), rest) else .error e := by
  unfold pair
  rw [List.append_assoc, bind_of_eq_ite (hfirst _), ite_and]
  refine if_congr Iff.rfl ?_ rfl
  exact bind_of_eq_ite (hsecond rest)

/-! ## Repetition -/

section Times

variable {α ι : Type} {read : Reader α} {bytes : ι → Bytes} {value : ι → α}

/-- What was read several times consists of pieces, if what is read once is always a piece. -/
theorem exists_pieces_of_times {Good : ι → Prop}
    (hread : ∀ input a rest, read input = .ok (a, rest) →
      ∃ piece, Good piece ∧ value piece = a ∧ input = bytes piece ++ rest)
    {n : Nat} {input rest : Bytes} {as : List α} (h : times read n input = .ok (as, rest)) :
    ∃ pieces : List ι, (∀ piece ∈ pieces, Good piece) ∧ pieces.length = n ∧
      as = pieces.map value ∧ input = pieces.flatMap bytes ++ rest := by
  induction n generalizing input as with
  | zero =>
    rw [times_zero] at h
    cases h
    exact ⟨[], fun _ hmem => absurd hmem List.not_mem_nil, rfl, rfl, rfl⟩
  | succ n ih =>
    rw [times_succ] at h
    obtain ⟨⟨a, middle⟩, ha, h⟩ := bind_eq_ok_iff.mp h
    obtain ⟨⟨as', rest'⟩, has, h⟩ := bind_eq_ok_iff.mp h
    cases h
    obtain ⟨piece, hgood, rfl, rfl⟩ := hread _ _ _ ha
    obtain ⟨pieces, hgoods, hlen, rfl, rfl⟩ := ih has
    refine ⟨piece :: pieces, List.forall_mem_cons.mpr ⟨hgood, hgoods⟩, ?_, rfl, ?_⟩
    · rw [List.length_cons, hlen]
    · rw [List.flatMap_cons, List.append_assoc]

/-- Pieces that are each read or refused with one failure are read together, or refused with that
failure if one of them is. -/
theorem times_flatMap {P : α → Prop} [DecidablePred P] {e : Malformed} (pieces : List ι)
    (hread : ∀ piece ∈ pieces, ∀ rest, read (bytes piece ++ rest) =
      if P (value piece) then .ok (value piece, rest) else .error e) (rest : Bytes) :
    times read pieces.length (pieces.flatMap bytes ++ rest) =
      if ∀ a ∈ pieces.map value, P a then .ok (pieces.map value, rest) else .error e := by
  induction pieces with
  | nil => simp
  | cons piece pieces ih =>
    obtain ⟨hpiece, hpieces⟩ := List.forall_mem_cons.mp hread
    rw [List.length_cons, times_succ, List.flatMap_cons, List.append_assoc, List.map_cons,
      bind_of_eq_ite (hpiece _), if_congr List.forall_mem_cons rfl rfl, ite_and]
    refine if_congr Iff.rfl ?_ rfl
    exact bind_of_eq_ite (ih hpieces)

end Times

/-! ## Progress -/

section Progress

variable {α : Type} {read : Reader α}

/-- A reader takes at least a byte for whatever it reads. -/
def Progresses (read : Reader α) : Prop :=
  ∀ input a rest, read input = .ok (a, rest) → rest.length < input.length

theorem Progresses.pair (h : Progresses read) : Progresses (pair read) := by
  intro input a rest hpair
  obtain ⟨middle, hfirst, hsecond⟩ := pair_eq_ok_iff.mp hpair
  exact Nat.lt_trans (h _ _ _ hsecond) (h _ _ _ hfirst)

/-- **The input ends a repetition.**  All counts beyond the number of bytes are refused, and with
one failure. -/
theorem Progresses.times_eq_error (h : Progresses read) (input : Bytes) :
    ∃ cause, ∀ count, input.length < count → times read count input = .error cause := by
  -- by induction on the bytes that are left: every thing that is read takes some of them
  induction hlen : input.length using Nat.strongRecOn generalizing input with
  | ind length ih =>
    subst hlen
    cases hread : read input with
    | error cause =>
      refine ⟨cause, ?_⟩
      intro count hcount
      obtain ⟨count, rfl⟩ := Nat.exists_eq_succ_of_ne_zero (Nat.ne_zero_of_lt hcount)
      rw [times_succ, hread]
      rfl
    | ok result =>
      obtain ⟨a, rest⟩ := result
      have hrest := h _ _ _ hread
      obtain ⟨cause, hcause⟩ := ih rest.length hrest rest rfl
      refine ⟨cause, ?_⟩
      intro count hcount
      obtain ⟨count, rfl⟩ := Nat.exists_eq_succ_of_ne_zero (Nat.ne_zero_of_lt hcount)
      rw [times_succ, bind_of_eq_ok hread]
      show (times read count rest >>= _) = _
      rw [hcause count (by omega)]
      rfl

end Progress

end Reader
end KeyValueClient
