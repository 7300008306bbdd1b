import KeyValueClient.Command.Wire
import KeyValueClient.Link.Basic
import KeyValueClient.Response.Basic

/-!
# Connections

A connection exchanges one command for one response at a time.  A response is received with one
read, of at most `capacity` bytes, and decoded from what that read brought.  A response that is
longer than that is cut off and fails to decode; since the client cannot tell whether there was
more, **a read that fills the capacity leaves a warning**, before anything is decoded.

A command whose sending fails is not followed by a read.
-/

namespace KeyValueClient

/-- What a client knows about its end of a link. -/
structure Connection where
  /-- The peer as it is named to people. -/
  peer : String
  /-- How many bytes one read asks for. -/
  capacity : Nat
  deriving DecidableEq, Repr

namespace Connection

variable {m : Type → Type} [Monad m] [Link m]

/-- Sends a command. -/
def send (command : Command) : m (Except Fault Unit) := do
  match ← Link.send command.encode with
  | .ok _ => return .ok ()
  | .error fault => return .error (.io fault)

/-- The warning for a read that filled the capacity. -/
def truncationWarning (c : Connection) : String :=
  "Response from " ++ c.peer ++ " filled the " ++ toString c.capacity
    ++ " byte receive buffer and may be truncated"

/-- Receives a response. -/
def receive (c : Connection) : m (Except Fault Response) := do
  match ← Link.read c.capacity with
  | .error fault => return .error (.io fault)
  | .ok payload =>
    if payload = [] then return .error (.closed c.peer)
    if payload.length = c.capacity then Link.warn c.truncationWarning
    return (Response.ofPayload payload).mapError .protocol

/-- Sends a command and receives the response, with the time that both took together. -/
def roundTrip (c : Connection) (command : Command) : m (Except Fault (Response × Nat)) := do
  let start ← Link.now
  match ← send command with
  | .error fault => return .error fault
  | .ok () =>
    match ← c.receive with
    | .error fault => return .error fault
    | .ok response =>
      let stop ← Link.now
      return .ok (response, stop - start)

end Connection
end KeyValueClient
