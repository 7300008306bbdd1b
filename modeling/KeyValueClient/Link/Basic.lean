import KeyValueClient.Fault

/-!
# Links

A link is the two-way stream of bytes between a client and a store, with the clock by which the
client measures and the place where it leaves its warnings.  What a client does is written once, for
every link (`Connection`, `Session`); a socket is one, and a script that plays a stream from a list
is another (`Link.Script`).

Nothing on a link is repeated by itself except a write that was interrupted.  In particular a read
is one read: it brings at least one byte and at most as many as it asks for, or none at all when
the peer has closed its side.
-/

namespace KeyValueClient

/-- A monad in which bytes can be exchanged with a peer. -/
class Link (m : Type → Type) where
  /-- One read of at most so many bytes. -/
  read : (capacity : Nat) → m (Except IOFault Bytes)
  /-- Writes all bytes, however many attempts it takes, or fails. -/
  writeAll : Bytes → m (Except IOFault Unit)
  /-- Sees to it that what was written is on its way. -/
  flush : m (Except IOFault Unit)
  /-- The time by a clock that never goes back, in nanoseconds. -/
  now : m Nat
  /-- Leaves a warning. -/
  warn : String → m Unit

namespace Link

variable {m : Type → Type} [Monad m] [Link m]

/-- Sends a message whole and says how long it was.  It is flushed only after all of it has been
written. -/
def send (message : Bytes) : m (Except IOFault Nat) := do
  match ← writeAll message with
  | .error fault => return .error fault
  | .ok () =>
    match ← flush with
    | .error fault => return .error fault
    | .ok () => return .ok message.length

end Link
end KeyValueClient
