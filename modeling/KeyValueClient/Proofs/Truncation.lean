import KeyValueClient.Connection
import KeyValueClient.Link.Script
import KeyValueClient.Proofs.Reading

/-!
# Payloads that are cut off

A payload that says a value has an *extent*: the number of bytes at its front that the value takes
up.  With these bytes the value is read whatever stands behind them, and with fewer nothing is read
at all.  A payload that says a value has an extent (`exists_extent`), since no object is the
beginning of another, and it has only one (`Extent.unique`).

So a client that receives with one bounded read gets **the whole response or an error, and never
another response**: what counts is only whether the extent fits the capacity
(`Connection.receive_extent`).  The warning is about the bytes that were brought, not about the
extent: it is left whenever there were at least as many as the capacity.
-/

namespace KeyValueClient

open MessagePack
open Link (Script)

namespace Value

/-! ## Extents -/

/-- The value that a payload says takes up `n` bytes at its front. -/
structure Extent (payload : Bytes) (v : Value) (n : Nat) : Prop where
  pos : 1 ≤ n
  le : n ≤ payload.length
  /-- These bytes are enough, whatever stands behind them. -/
  enough : ∀ rest, ofPayload (payload.take n ++ rest) = .ok v
  /-- With fewer bytes the payload is refused. -/
  needed : ∀ m < n, ∃ fault : ProtocolFault, ofPayload (payload.take m) = .error fault

/-- The object at the front of a payload is the extent of its value. -/
theorem Extent.of_denotes {p rest : Bytes} {v : Value} (h : Denotes p v)
    (hnesting : v.nesting ≤ nestingLimit) : Extent (p ++ rest) v p.length where
  pos := List.length_pos_iff.mpr h.ne_nil
  le := by rw [List.length_append]; exact Nat.le_add_right _ _
  enough rest' := by
    rw [List.take_left, ofPayload_denotes_append h, if_pos hnesting]
  needed m hm := by
    cases hcut : ofPayload ((p ++ rest).take m) with
    | error fault => exact ⟨fault, rfl⟩
    | ok w =>
      -- a value in the cut payload would be an object in front of the longer one
      obtain ⟨q, rest', hq, -, htake⟩ := exists_denotes_of_ofPayload hcut
      have hsplit : p ++ rest = q ++ (rest' ++ (p ++ rest).drop m) := by
        rw [← List.append_assoc, ← htake, List.take_append_drop]
      obtain ⟨rfl, -⟩ := h.prefix_free hq hsplit
      have hlen := congrArg List.length htake
      rw [List.length_take, List.length_append, List.length_append] at hlen
      omega

/-- A payload that says a value has an extent. -/
theorem exists_extent {payload : Bytes} {v : Value} (h : ofPayload payload = .ok v) :
    ∃ n, Extent payload v n := by
  obtain ⟨p, rest, hdenotes, hnesting, rfl⟩ := exists_denotes_of_ofPayload h
  exact ⟨p.length, .of_denotes hdenotes hnesting⟩

/-- The bytes of an extent are not refused. -/
theorem Extent.le_of_extent {payload : Bytes} {v w : Value} {m n : Nat}
    (hm : Extent payload v m) (hn : Extent payload w n) : n ≤ m := by
  by_contra hlt
  obtain ⟨fault, hfault⟩ := hn.needed m (by omega)
  have hok := hm.enough []
  rw [List.append_nil, hfault] at hok
  cases hok

/-- A payload has one extent. -/
theorem Extent.unique {payload : Bytes} {v w : Value} {m n : Nat} (hm : Extent payload v m)
    (hn : Extent payload w n) : m = n :=
  Nat.le_antisymm (hn.le_of_extent hm) (hm.le_of_extent hn)

/-- As long as the extent is kept, the value is read from what is left of a payload. -/
theorem Extent.ofPayload_take {payload : Bytes} {v : Value} {n k : Nat} (h : Extent payload v n)
    (hk : n ≤ k) : ofPayload (payload.take k) = .ok v := by
  have hsplit : payload.take k = payload.take n ++ (payload.take k).drop n := by
    conv_lhs => rw [← List.take_append_drop n (payload.take k)]
    rw [List.take_take, Nat.min_eq_left hk]
  rw [hsplit]
  exact h.enough _

end Value

/-! ## Bounded reads -/

namespace Connection

variable {c : Connection} {s : Script} {payload : Bytes}

/-- What is received from a read that brought something. -/
theorem run_receive_of_read {s' : Script} (hread : s.read c.capacity = (.ok payload, s'))
    (hne : payload ≠ []) :
    (c.receive : StateM Script (Except Fault Response)).run s =
      ((Response.ofPayload payload).mapError .protocol,
        if payload.length = c.capacity then s'.warn c.truncationWarning else s') := by
  have hlink : (Link.read c.capacity : StateM Script _).run s = (.ok payload, s') := hread
  unfold receive
  rw [StateT.run_bind, hlink]
  show StateT.run (if payload = [] then _ else _) s' = _
  rw [if_neg hne]
  by_cases hfull : payload.length = c.capacity
  · rw [if_pos hfull, if_pos hfull]
    rfl
  · rw [if_neg hfull, if_neg hfull]
    rfl

/-- A read of data brings as much of it as it asks for, and leaves no warning. -/
theorem read_data {k : Nat} {later : List Link.ReadEvent}
    (h : s.reads = .data payload :: later) :
    ∃ s', s.read k = (.ok (payload.take k), s') ∧ s'.warnings = s.warnings := by
  unfold Script.read
  rw [h]
  exact ⟨_, rfl, rfl⟩

/-- What is received from data, and the warnings that it leaves. -/
theorem run_receive_of_data {later : List Link.ReadEvent} (hcapacity : 1 ≤ c.capacity)
    (hne : payload ≠ []) (h : s.reads = .data payload :: later) :
    let received := (c.receive : StateM Script (Except Fault Response)).run s
    received.1 = (Response.ofPayload (payload.take c.capacity)).mapError .protocol ∧
      received.2.warnings =
        s.warnings ++ if c.capacity ≤ payload.length then [c.truncationWarning] else [] := by
  obtain ⟨s', hread, hwarnings⟩ := read_data (k := c.capacity) h
  have htake : payload.take c.capacity ≠ [] := by
    rw [Ne, List.take_eq_nil_iff, not_or]
    exact ⟨by omega, hne⟩
  intro received
  have hreceived : received = _ := run_receive_of_read hread htake
  rw [hreceived, List.length_take]
  refine ⟨rfl, ?_⟩
  by_cases hfull : c.capacity ≤ payload.length
  · rw [if_pos hfull, if_pos (Nat.min_eq_left hfull)]
    show s'.warnings ++ [c.truncationWarning] = _
    rw [hwarnings]
  · rw [if_neg hfull, if_neg (by omega), List.append_nil]
    exact hwarnings

/-- **A payload that is cut off is never taken for another one.**  A payload that says a value has
exactly one extent.  A client whose next read brings this payload, as much of it as fits, receives
the response of the value if the capacity is as large as the extent, and a fault of protocol if it
is smaller.  It warns exactly when the payload fills the capacity. -/
theorem receive_extent {v : Value} (h : Value.ofPayload payload = .ok v) :
    ∃ n, (Value.Extent payload v n ∧ ∀ m, Value.Extent payload v m → m = n) ∧
      ∀ (c : Connection) (s : Script) (later : List Link.ReadEvent),
        1 ≤ c.capacity → s.reads = .data payload :: later →
        let received := (c.receive : StateM Script (Except Fault Response)).run s
        (n ≤ c.capacity → received.1 = .ok (Response.ofValue v)) ∧
        (c.capacity < n → ∃ fault, received.1 = .error (.protocol fault)) ∧
        received.2.warnings =
          s.warnings ++ if c.capacity ≤ payload.length then [c.truncationWarning] else [] := by
  obtain ⟨n, hn⟩ := Value.exists_extent h
  refine ⟨n, ⟨hn, fun m hm => hm.unique hn⟩, ?_⟩
  intro c s later hcapacity hreads
  have hne : payload ≠ [] := by
    rintro rfl
    have hpos := hn.pos
    have hle : n ≤ 0 := hn.le
    omega
  obtain ⟨hresult, hwarnings⟩ := run_receive_of_data (c := c) hcapacity hne hreads
  refine ⟨?_, ?_, hwarnings⟩
  · intro hfits
    rw [hresult, Response.ofPayload, hn.ofPayload_take hfits]
    rfl
  · intro hcut
    obtain ⟨fault, hfault⟩ := hn.needed c.capacity hcut
    refine ⟨fault, ?_⟩
    rw [hresult, Response.ofPayload, hfault]
    rfl

/-- A pair with one byte behind it fills a capacity of six, and is received with a warning.  A
capacity of four cuts it off, and it is refused. -/
theorem receive_extent_of_pair :
    let payload : Bytes := [0x92, 1, 0xc4, 1, 0xff, 0]
    let script : Script := { reads := [.data payload] }
    let received := fun capacity =>
      ((⟨"peer", capacity⟩ : Connection).receive : StateM Script (Except Fault Response)).run script
    Value.ofPayload payload = .ok (.array [.int 1, .bin [0xff]]) ∧
      (received 6).1 = .ok (.unexpected (.array [.int 1, .bin [0xff]])) ∧
      (received 6).2.warnings =
        ["Response from peer filled the 6 byte receive buffer and may be truncated"] ∧
      ∃ fault, (received 4).1 = .error (.protocol fault) := by
  intro payload script received
  have h : Value.ofPayload payload = .ok (.array [.int 1, .bin [0xff]]) := rfl
  obtain ⟨n, ⟨hn, -⟩, hreceive⟩ := receive_extent h
  have hlong : 4 < n := by
    by_contra hshort
    have hcut := hn.ofPayload_take (k := 4) (by omega)
    cases hcut
  obtain ⟨hwhole, -, hwarnings⟩ := hreceive ⟨"peer", 6⟩ script [] (by decide) rfl
  obtain ⟨-, hcut, -⟩ := hreceive ⟨"peer", 4⟩ script [] (by decide) rfl
  exact ⟨h, hwhole hn.le, hwarnings, hcut hlong⟩

end Connection
end KeyValueClient
