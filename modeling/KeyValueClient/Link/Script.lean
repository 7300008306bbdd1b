import KeyValueClient.Link.Basic

/-!
# Scripted links

A scripted link plays a stream from three lists, one event for each call: what the reads bring, what
the writes accept, and how the flushes end.  It keeps what was written, the warnings and a clock.

When a list is at its end the peer is at its most obliging: a read brings nothing, a write accepts
everything, a flush succeeds.

## Reads

A read that brings data brings as many bytes as it asks for.  If more were there, `keepRest` says
what becomes of them: they are the next event, or they are lost.  The first is how a stream of bytes
behaves, the second how a stream of messages does.  A read takes `delay` by the clock.

## Writes

A message is offered to the writes until all of it has been accepted.  An event accepts at most so
many bytes; one that accepts none is a failure of its own.  An interruption is passed over, and any
other failure ends the attempt.  Whatever was accepted before stays written.  The attempts follow
the list of events, so they end.
-/

namespace KeyValueClient
namespace Link

/-- What one read brings. -/
inductive ReadEvent where
  | data (bytes : Bytes)
  | fail (fault : IOFault)
  deriving DecidableEq, Repr

/-- What one write does. -/
inductive WriteEvent where
  /-- It accepts at most so many bytes. -/
  | accept (most : Nat)
  | fail (fault : IOFault)
  deriving DecidableEq, Repr

/-- The events to come on a link, and what has happened on it. -/
structure Script where
  reads : List ReadEvent := []
  writes : List WriteEvent := []
  /-- How each flush fails, if it fails. -/
  flushes : List (Option IOFault) := []
  keepRest : Bool := false
  /-- How long a read takes, in nanoseconds. -/
  delay : Nat := 0
  /-- All that has been written. -/
  written : Bytes := []
  clock : Nat := 0
  /-- The warnings, in order. -/
  warnings : List String := []
  deriving Inhabited

/-- The failure of a write that accepts nothing. -/
def nothingAccepted : IOFault := ⟨"failed to write whole buffer", false⟩

/-- How an attempt to write a message ended. -/
structure Attempt where
  result : Except IOFault Unit
  /-- The part of the message that was accepted. -/
  accepted : Bytes
  /-- The events that are left. -/
  writes : List WriteEvent

/-- Offers a message to the events of a list. -/
def offer : List WriteEvent → (message : Bytes) → Attempt
  | writes, [] => ⟨.ok (), [], writes⟩
  | [], message => ⟨.ok (), message, []⟩
  | .fail fault :: writes, message =>
    if fault.interrupted then offer writes message else ⟨.error fault, [], writes⟩
  | .accept most :: writes, message =>
    if most = 0 then ⟨.error nothingAccepted, [], writes⟩
    else
      let later := offer writes (message.drop most)
      { later with accepted := message.take most ++ later.accepted }

namespace Script

/-- One read. -/
def read (capacity : Nat) (s : Script) : Except IOFault Bytes × Script :=
  match s.reads with
  | [] => (.ok [], { s with clock := s.clock + s.delay })
  | .fail fault :: reads => (.error fault, { s with reads := reads, clock := s.clock + s.delay })
  | .data bytes :: reads =>
    let rest := bytes.drop capacity
    let reads := if s.keepRest && !rest.isEmpty then .data rest :: reads else reads
    (.ok (bytes.take capacity), { s with reads := reads, clock := s.clock + s.delay })

/-- Writes a message as far as the events allow. -/
def writeAll (message : Bytes) (s : Script) : Except IOFault Unit × Script :=
  let attempt := offer s.writes message
  (attempt.result, { s with writes := attempt.writes, written := s.written ++ attempt.accepted })

/-- One flush. -/
def flush (s : Script) : Except IOFault Unit × Script :=
  match s.flushes with
  | [] => (.ok (), s)
  | none :: flushes => (.ok (), { s with flushes := flushes })
  | some fault :: flushes => (.error fault, { s with flushes := flushes })

/-- One warning more. -/
def warn (text : String) (s : Script) : Script := { s with warnings := s.warnings ++ [text] }

end Script

instance : Link (StateM Script) where
  read capacity := fun s => s.read capacity
  writeAll message := fun s => s.writeAll message
  flush := fun s => s.flush
  now := fun s => (s.clock, s)
  warn text := fun s => ((), s.warn text)

end Link
end KeyValueClient
