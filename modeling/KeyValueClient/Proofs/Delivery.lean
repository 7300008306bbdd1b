import KeyValueClient.Proofs.Lines

/-!
# Sending is all or an error

A message is offered to the writes of a script until all of it has been accepted.  A write that
obliges takes its part, none at all if it was interrupted, and the rest is offered to the next one
(`offer_cons_of_obliging`).  After several obliging writes that have too little `room` for the
message, the rest that did not fit is what the next one meets (`offer_append_of_obliging`).  So what
was accepted and what is still offered make up the message, through every mixture of partial writes
and interruptions, and an attempt fails exactly when a write refuses the rest
(`offer_result_eq_error_iff`).

`SendsAll` says what this means for sending: the bytes that are added are a beginning of the
message, sending succeeds exactly when they are all of it and the flush succeeds, a flush is used
only then, and a fault is that of the flush or of the write that refused.  **This is so for every
command and every response, on every script** (`sends_all_or_fails`).
-/

namespace KeyValueClient
namespace Link

/-! ## Writes that take a part -/

/-- How much of a message a write takes at most.  A failure takes nothing. -/
def WriteEvent.most : WriteEvent → Nat
  | .accept most => most
  | .fail _ => 0

/-- How much of a message some writes take at most. -/
def room (events : List WriteEvent) : Nat := (events.map WriteEvent.most).sum

theorem room_cons (event : WriteEvent) (events : List WriteEvent) :
    room (event :: events) = event.most + room events := by
  rw [room, List.map_cons, List.sum_cons, ← room]

/-- Some of a message was accepted before the rest was offered. -/
def Attempt.behind (attempt : Attempt) (part : Bytes) : Attempt :=
  { attempt with accepted := part ++ attempt.accepted }

/-- A write that obliges takes its part of a message, and the rest is offered to the next ones. -/
theorem offer_cons_of_obliging {event : WriteEvent} {message : Bytes} (h : event.Obliging)
    (hmessage : message ≠ []) (later : List WriteEvent) :
    offer (event :: later) message =
      (offer later (message.drop event.most)).behind (message.take event.most) := by
  cases event with
  | accept most =>
    have hmost : most ≠ 0 := h
    rw [offer, if_neg hmost]
    · rfl
    · exact hmessage
  | fail fault =>
    have hinterrupted : fault.interrupted = true := h
    rw [offer, if_pos hinterrupted]
    · rfl
    · exact hmessage

/-- After obliging writes with too little room, the rest of the message meets the next ones. -/
theorem offer_append_of_obliging {used : List WriteEvent} {message : Bytes}
    (h : ∀ event ∈ used, event.Obliging) (hroom : room used < message.length)
    (later : List WriteEvent) :
    offer (used ++ later) message =
      (offer later (message.drop (room used))).behind (message.take (room used)) := by
  induction used generalizing message with
  | nil => rfl
  | cons event used ih =>
    obtain ⟨hevent, hused⟩ := List.forall_mem_cons.mp h
    rw [room_cons] at hroom
    have hmessage : message ≠ [] := by
      rintro rfl
      exact absurd hroom (Nat.not_lt_zero _)
    have hrest : room used < (message.drop event.most).length := by
      rw [List.length_drop]
      omega
    rw [List.cons_append, offer_cons_of_obliging hevent hmessage, ih hused hrest, room_cons,
      List.drop_drop, List.take_add, Attempt.behind, Attempt.behind, Attempt.behind,
      List.append_assoc]

/-! ## Writes that refuse -/

/-- A write that refuses a message, with the fault that comes of it: it accepts nothing, or it fails
and does not ask for another attempt. -/
inductive WriteEvent.Refuses : WriteEvent → IOFault → Prop
  | nothing : Refuses (.accept 0) nothingAccepted
  | failure {fault : IOFault} (h : fault.interrupted = false) : Refuses (.fail fault) fault

/-- A refusal is not an interruption. -/
theorem WriteEvent.Refuses.interrupted {event : WriteEvent} {fault : IOFault}
    (h : event.Refuses fault) : fault.interrupted = false := by
  cases h with
  | nothing => rfl
  | failure h => exact h

/-- A write that does not oblige refuses. -/
theorem WriteEvent.exists_refuses {event : WriteEvent} (h : ¬ event.Obliging) :
    ∃ fault, event.Refuses fault := by
  cases event with
  | accept most =>
    obtain rfl : most = 0 := not_not.mp h
    exact ⟨_, .nothing⟩
  | fail fault => exact ⟨fault, .failure (Bool.not_eq_true _ ▸ h)⟩

theorem offer_cons_of_refuses {event : WriteEvent} {fault : IOFault} {message : Bytes}
    (h : event.Refuses fault) (hmessage : message ≠ []) (later : List WriteEvent) :
    offer (event :: later) message = ⟨.error fault, [], later⟩ := by
  cases h with
  | nothing =>
    rw [offer, if_pos rfl]
    exact hmessage
  | failure hfault =>
    have hnot : ¬ fault.interrupted = true := Bool.not_eq_true _ ▸ hfault
    rw [offer, if_neg hnot]
    exact hmessage

/-- The writes take a part of a message, and the next one refuses the rest. -/
def Refused (writes : List WriteEvent) (message part : Bytes) (fault : IOFault) : Prop :=
  ∃ used event later, writes = used ++ event :: later ∧ (∀ e ∈ used, e.Obliging) ∧
    room used < message.length ∧ event.Refuses fault ∧ part = message.take (room used)

/-- A message that is refused is written as far as it was taken. -/
theorem Refused.offer_eq {writes : List WriteEvent} {message part : Bytes} {fault : IOFault}
    (h : Refused writes message part fault) :
    (offer writes message).result = .error fault ∧ (offer writes message).accepted = part := by
  obtain ⟨used, event, later, rfl, hused, hroom, hevent, rfl⟩ := h
  have hrest : message.drop (room used) ≠ [] := by
    rw [Ne, List.drop_eq_nil_iff]
    omega
  rw [offer_append_of_obliging hused hroom, offer_cons_of_refuses hevent hrest]
  exact ⟨rfl, List.append_nil _⟩

/-- **An attempt fails exactly when a write refuses the rest of the message.** -/
theorem offer_result_eq_error_iff {writes : List WriteEvent} {message : Bytes} {fault : IOFault} :
    (offer writes message).result = .error fault ↔
      Refused writes message (offer writes message).accepted fault := by
  refine ⟨?_, fun h => h.offer_eq.1⟩
  induction writes generalizing message with
  | nil =>
    intro h
    cases message <;> cases h
  | cons event writes ih =>
    intro h
    have hmessage : message ≠ [] := by
      rintro rfl
      cases h
    by_cases hevent : event.Obliging
    · -- the event takes its part, and a later one refuses what it leaves
      rw [offer_cons_of_obliging hevent hmessage] at h ⊢
      obtain ⟨used, refusing, later, rfl, hused, hroom, hrefuses, haccepted⟩ := ih h
      refine ⟨event :: used, refusing, later, rfl, List.forall_mem_cons.mpr ⟨hevent, hused⟩, ?_,
        hrefuses, ?_⟩
      · rw [List.length_drop] at hroom
        rw [room_cons]
        omega
      · rw [room_cons, List.take_add, ← haccepted]
        rfl
    · obtain ⟨other, hrefuses⟩ := WriteEvent.exists_refuses hevent
      rw [offer_cons_of_refuses hrefuses hmessage] at h ⊢
      cases h
      exact ⟨[], event, writes, rfl, List.forall_mem_nil _, List.length_pos_iff.mpr hmessage,
        hrefuses, rfl⟩

namespace Script

/-! ## Sending -/

/-- How the next flush fails, if it fails. -/
def flushFault? (s : Script) : Option IOFault := s.flushes.head?.join

variable {s : Script} {message : Bytes}

/-- A message is delivered when all of it was accepted and the flush succeeds. -/
theorem delivery_eq_ok_iff :
    s.delivery message = .ok () ↔
      (offer s.writes message).accepted = message ∧ s.flushFault? = none := by
  rw [← offer_result_eq_ok_iff, delivery, flushFault?]
  cases (offer s.writes message).result with
  | error fault => simp
  | ok =>
    rcases s.flushes with _ | ⟨_ | fault, flushes⟩ <;> simp

/-- A fault of sending is that of the flush behind the whole message, or that of the write that
refused the rest of it. -/
theorem delivery_eq_error_iff {fault : IOFault} :
    s.delivery message = .error fault ↔
      (offer s.writes message).accepted = message ∧ s.flushFault? = some fault ∨
        Refused s.writes message (offer s.writes message).accepted fault := by
  rw [← offer_result_eq_ok_iff, ← offer_result_eq_error_iff, delivery, flushFault?]
  cases (offer s.writes message).result with
  | error fault => simp
  | ok =>
    rcases s.flushes with _ | ⟨_ | fault, flushes⟩ <;> simp

/-- What sending a message does on a script, when `accepted` is what the writes accepted of it. -/
structure SendsAll (message : Bytes) (s : Script) (accepted : Bytes)
    (run : Except IOFault Nat × Script) : Prop where
  /-- Nothing but the accepted bytes is added to what was written. -/
  written : run.2.written = s.written ++ accepted
  /-- No byte is repeated, skipped or moved. -/
  beginning : accepted <+: message
  /-- Events are used up from the front, so that the attempts end. -/
  writes : run.2.writes <:+ s.writes
  /-- Sending succeeds exactly when all of the message was accepted and the flush succeeds. -/
  ok_iff : ∀ count, run.1 = .ok count ↔
    accepted = message ∧ s.flushFault? = none ∧ count = message.length
  /-- A flush is used exactly when all of the message was accepted. -/
  flushes : run.2.flushes = if accepted = message then s.flushes.tail else s.flushes
  /-- A flush that fails is a fault. -/
  unflushed : ∀ fault, accepted = message → s.flushFault? = some fault → run.1 = .error fault
  /-- A write that refuses the rest of the message is a fault, at the part that was taken. -/
  refused : ∀ part fault, Refused s.writes message part fault →
    run.1 = .error fault ∧ accepted = part
  /-- There are no other faults. -/
  fault_cases : ∀ fault, run.1 = .error fault →
    accepted = message ∧ s.flushFault? = some fault ∨ Refused s.writes message accepted fault
  /-- An interruption is not a fault of a write. -/
  interrupted : ∀ fault, run.1 = .error fault → fault.interrupted = true →
    accepted = message ∧ s.flushFault? = some fault

theorem run_send_eq_ok_iff {count : Nat} :
    ((Link.send message : StateM Script (Except IOFault Nat)).run s).1 = .ok count ↔
      s.delivery message = .ok () ∧ count = message.length := by
  rw [run_send]
  cases s.delivery message <;> simp [Except.map, eq_comm]

theorem run_send_eq_error_iff {fault : IOFault} :
    ((Link.send message : StateM Script (Except IOFault Nat)).run s).1 = .error fault ↔
      s.delivery message = .error fault := by
  rw [run_send]
  cases s.delivery message <;> simp [Except.map]

/-- **Sending is all or an error**, whatever the events are. -/
theorem sendsAll (message : Bytes) (s : Script) :
    SendsAll message s (offer s.writes message).accepted
      ((Link.send message : StateM Script (Except IOFault Nat)).run s) where
  written := by
    rw [run_send]
    rfl
  beginning := offer_accepted_prefix s.writes message
  writes := by
    rw [run_send]
    exact offer_writes_suffix s.writes message
  ok_iff count := by rw [run_send_eq_ok_iff, delivery_eq_ok_iff, and_assoc]
  flushes := by
    have hwhole : (offer s.writes message).result.toBool = true ↔
        (offer s.writes message).accepted = message := by
      rw [← offer_result_eq_ok_iff]
      cases (offer s.writes message).result <;> simp [Except.toBool]
    rw [run_send]
    exact if_congr hwhole rfl rfl
  unflushed fault haccepted hfault :=
    run_send_eq_error_iff.mpr (delivery_eq_error_iff.mpr (.inl ⟨haccepted, hfault⟩))
  refused part fault h := by
    obtain ⟨-, rfl⟩ := h.offer_eq
    exact ⟨run_send_eq_error_iff.mpr (delivery_eq_error_iff.mpr (.inr h)), rfl⟩
  fault_cases fault h := delivery_eq_error_iff.mp (run_send_eq_error_iff.mp h)
  interrupted fault h hinterrupted := by
    rcases delivery_eq_error_iff.mp (run_send_eq_error_iff.mp h) with hflush | hrefused
    · exact hflush
    · obtain ⟨used, event, later, -, -, -, hevent, -⟩ := hrefused
      rw [hevent.interrupted] at hinterrupted
      cases hinterrupted

/-- Two bytes are taken, the interruption takes none, and the next write refuses the third byte. -/
example :
    let writes := [.accept 2, .fail ⟨"interrupted", true⟩, .accept 0]
    let run := (Link.send [1, 2, 3] : StateM Script (Except IOFault Nat)).run { writes }
    run.1 = .error nothingAccepted ∧ run.2.written = [1, 2] := by
  decide

end Script
end Link

namespace Connection

open Link (Script)

/-- **Every command and every response is sent whole, or there is an error.**  On every script the
sending of it ends as `SendsAll` says, and for a connection that sends a command the fault is one of
the link. -/
theorem sends_all_or_fails :
    (∀ (command : Command) (s : Script), ∃ accepted, Script.SendsAll command.encode s accepted
      ((Link.send command.encode : StateM Script (Except IOFault Nat)).run s)) ∧
    (∀ (response : Response) (s : Script), ∃ accepted, Script.SendsAll response.encode s accepted
      ((Link.send response.encode : StateM Script (Except IOFault Nat)).run s)) ∧
    (∀ (command : Command) (s : Script),
      (send command : StateM Script (Except Fault Unit)).run s =
        let run := (Link.send command.encode : StateM Script (Except IOFault Nat)).run s
        ((run.1.map fun _ => ()).mapError .io, run.2)) := by
  refine ⟨fun command s => ⟨_, Script.sendsAll command.encode s⟩,
    fun response s => ⟨_, Script.sendsAll response.encode s⟩, ?_⟩
  intro command s
  rw [run_send, Script.run_send]
  cases s.delivery command.encode with
  | error fault => rfl
  | ok => rfl

end Connection
end KeyValueClient
