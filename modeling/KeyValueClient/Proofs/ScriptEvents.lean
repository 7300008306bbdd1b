import KeyValueClient.Connection
import KeyValueClient.Link.Script
import Mathlib.Data.List.Basic

/-!
# What a script does with a message and with a read

A scripted link answers each call with the next event of a list.  This module says in closed form
what comes of sending a message and of reading, so that nothing after it has to run a script again.

## Sending

The events take the message from its front: what was accepted is always a beginning of the message
(`offer_accepted_prefix`), and **the attempt succeeds exactly when all of it was accepted**
(`offer_result_eq_ok_iff`).  A flush comes only behind that.  `Script.delivery` is how sending ends
and `Script.afterSend` what is left; both depend on the writes and flushes to come and on nothing
that has to do with reads.

A script is *obliging* when its writes make progress or ask for another attempt and its flushes
succeed.  On such a script every message is delivered whole (`Obliging.delivery`).

## Reading

What a read brings depends on the event at its turn alone (`ReadEvent.brings`).  Whether the event
is used up depends on `keepRest` (`Script.readsAfter`).
-/

namespace KeyValueClient
namespace Link

/-! ## Offering a message -/

/-- A write that makes progress, or asks for another attempt. -/
def WriteEvent.Obliging : WriteEvent → Prop
  | .accept most => most ≠ 0
  | .fail fault => fault.interrupted = true

/-- What is accepted of a message is a beginning of it. -/
theorem offer_accepted_prefix (writes : List WriteEvent) (message : Bytes) :
    (offer writes message).accepted <+: message := by
  fun_induction offer writes message with
  | case1 => exact List.nil_prefix
  | case2 => exact List.prefix_rfl
  | case3 _ _ _ _ _ ih => exact ih
  | case4 => exact List.nil_prefix
  | case5 => exact List.nil_prefix
  | case6 most _ message _ _ later ih =>
    -- what later events accept is a beginning of what this one leaves
    have h := (List.prefix_append_right_inj (message.take most)).mpr ih
    rwa [List.take_append_drop] at h

/-- A message was written exactly when all of it was accepted. -/
theorem offer_result_eq_ok_iff (writes : List WriteEvent) (message : Bytes) :
    (offer writes message).result = .ok () ↔ (offer writes message).accepted = message := by
  fun_induction offer writes message with
  | case1 => simp
  | case2 => simp
  | case3 _ _ _ _ _ ih => exact ih
  | case4 _ _ message hne => simpa using fun h : [] = message => hne h.symm
  | case5 _ message hne => simpa using fun h : [] = message => hne h.symm
  | case6 most _ message _ _ later ih =>
    refine ih.trans ⟨fun h => ?_, fun h => ?_⟩
    · show message.take most ++ later.accepted = message
      rw [h, List.take_append_drop]
    · refine (List.append_right_inj (message.take most)).mp ?_
      rw [List.take_append_drop]
      exact h

/-- Events are used up from the front. -/
theorem offer_writes_suffix (writes : List WriteEvent) (message : Bytes) :
    (offer writes message).writes <:+ writes := by
  fun_induction offer writes message with
  | case1 => exact List.suffix_rfl
  | case2 => exact List.suffix_rfl
  | case3 _ _ _ _ _ ih => exact ih.trans (List.suffix_cons _ _)
  | case4 => exact List.suffix_cons _ _
  | case5 => exact List.suffix_cons _ _
  | case6 _ _ _ _ _ _ ih => exact ih.trans (List.suffix_cons _ _)

/-- Obliging events accept a message. -/
theorem offer_result_of_obliging {writes : List WriteEvent}
    (h : ∀ event ∈ writes, event.Obliging) (message : Bytes) :
    (offer writes message).result = .ok () := by
  fun_induction offer writes message with
  | case1 => rfl
  | case2 => rfl
  | case3 _ _ _ _ _ ih => exact ih (List.forall_mem_cons.mp h).2
  | case4 _ _ _ _ hfault => exact absurd (List.forall_mem_cons.mp h).1 hfault
  | case5 => exact absurd rfl (List.forall_mem_cons.mp h).1
  | case6 _ _ _ _ _ _ ih => exact ih (List.forall_mem_cons.mp h).2

/-! ## What a read brings -/

/-- The bytes of an event. -/
def ReadEvent.bytes : ReadEvent → Bytes
  | .data bytes => bytes
  | .fail _ => []

/-- What a read brings when an event, or the end of the list, is at its turn. -/
def ReadEvent.brings (capacity : Nat) : Option ReadEvent → Except IOFault Bytes
  | none => .ok []
  | some (.fail fault) => .error fault
  | some (.data bytes) => .ok (bytes.take capacity)

namespace Script

/-! ## Sending -/

/-- How the sending of a message ends. -/
def delivery (message : Bytes) (s : Script) : Except IOFault Unit :=
  match (offer s.writes message).result, s.flushes with
  | .error fault, _ => .error fault
  | .ok (), some fault :: _ => .error fault
  | .ok (), _ => .ok ()

/-- What is left when a message has been sent, or its sending has failed.  A flush is used up only
when the message was written. -/
def afterSend (message : Bytes) (s : Script) : Script :=
  { s with
    writes := (offer s.writes message).writes
    flushes := if (offer s.writes message).result.toBool then s.flushes.tail else s.flushes
    written := s.written ++ (offer s.writes message).accepted }

theorem run_send (message : Bytes) (s : Script) :
    (Link.send message : StateM Script (Except IOFault Nat)).run s =
      ((s.delivery message).map fun _ => message.length, s.afterSend message) := by
  obtain ⟨attempt, hattempt⟩ : ∃ attempt, offer s.writes message = attempt := ⟨_, rfl⟩
  have hwrite : (Link.writeAll message : StateM Script (Except IOFault Unit)).run s =
      (attempt.result,
        { s with writes := attempt.writes, written := s.written ++ attempt.accepted }) := by
    rw [← hattempt]
    rfl
  unfold Link.send delivery afterSend
  rw [StateT.run_bind, hwrite, hattempt]
  obtain ⟨result, accepted, writes⟩ := attempt
  cases result with
  | error fault => rfl
  | ok =>
    -- the message was written, so the flush at the front of the list decides
    rcases hflushes : s.flushes with _ | ⟨_ | fault, flushes⟩
    · rfl
    · rfl
    · rfl

@[simp] theorem afterSend_reads (message : Bytes) (s : Script) :
    (s.afterSend message).reads = s.reads := rfl

@[simp] theorem afterSend_keepRest (message : Bytes) (s : Script) :
    (s.afterSend message).keepRest = s.keepRest := rfl

theorem afterSend_written (message : Bytes) (s : Script) :
    (s.afterSend message).written = s.written ++ (offer s.writes message).accepted := rfl

/-- A message that was delivered was written whole. -/
theorem accepted_of_delivery {message : Bytes} {s : Script} (h : s.delivery message = .ok ()) :
    (offer s.writes message).accepted = message := by
  refine (offer_result_eq_ok_iff s.writes message).mp ?_
  unfold delivery at h
  cases hresult : (offer s.writes message).result with
  | ok => rfl
  | error fault =>
    rw [hresult] at h
    cases h

/-- Every write of the script obliges, and every flush succeeds. -/
structure Obliging (s : Script) : Prop where
  writes : ∀ event ∈ s.writes, event.Obliging
  flushes : ∀ flush ∈ s.flushes, flush = none

/-- On an obliging script every message is delivered. -/
theorem Obliging.delivery {s : Script} (h : s.Obliging) (message : Bytes) :
    s.delivery message = .ok () := by
  unfold Script.delivery
  rw [offer_result_of_obliging h.writes]
  rcases hflushes : s.flushes with _ | ⟨_ | fault, flushes⟩
  · rfl
  · rfl
  · have hnone := h.flushes (some fault) (hflushes ▸ List.mem_cons_self ..)
    cases hnone

/-- A script that obliges goes on to do so. -/
theorem Obliging.afterSend {s : Script} (h : s.Obliging) (message : Bytes) :
    (s.afterSend message).Obliging where
  writes event hevent := h.writes event ((offer_writes_suffix s.writes message).subset hevent)
  flushes flush hflush := by
    refine h.flushes flush ?_
    unfold Script.afterSend at hflush
    split at hflush
    · exact List.mem_of_mem_tail hflush
    · exact hflush

/-! ## Reading -/

/-- The events that are left when one has been read. -/
def readsAfter (capacity : Nat) (s : Script) : List ReadEvent :=
  match s.reads with
  | .data bytes :: later =>
    if s.keepRest && !(bytes.drop capacity).isEmpty then .data (bytes.drop capacity) :: later
    else later
  | reads => reads.tail

/-- What is left when something has been read. -/
def afterRead (capacity : Nat) (s : Script) : Script :=
  { s with reads := s.readsAfter capacity, clock := s.clock + s.delay }

theorem read_eq (capacity : Nat) (s : Script) :
    s.read capacity = (ReadEvent.brings capacity s.reads.head?, s.afterRead capacity) := by
  unfold Script.read afterRead readsAfter
  rcases hreads : s.reads with _ | ⟨bytes | fault, later⟩
  · rfl
  · rfl
  · rfl

/-- When what did not fit is lost, every read uses up one event. -/
theorem readsAfter_of_not_keepRest {s : Script} (h : s.keepRest = false) (capacity : Nat) :
    s.readsAfter capacity = s.reads.tail := by
  unfold readsAfter
  rcases s.reads with _ | ⟨bytes | fault, later⟩
  · rfl
  · rw [h]
    rfl
  · rfl

/-- When it is kept, it is the next event. -/
theorem readsAfter_of_keepRest {s : Script} (h : s.keepRest = true) {bytes : Bytes}
    {later : List ReadEvent} (hreads : s.reads = .data bytes :: later) (capacity : Nat) :
    s.readsAfter capacity =
      if bytes.drop capacity = [] then later else .data (bytes.drop capacity) :: later := by
  simp only [readsAfter, hreads, h, Bool.true_and]
  cases bytes.drop capacity with
  | nil => rfl
  | cons => rfl

end Script
end Link
end KeyValueClient
