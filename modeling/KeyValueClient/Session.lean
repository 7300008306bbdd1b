import KeyValueClient.Command.Line
import KeyValueClient.Connection
import KeyValueClient.Response.Outcome
import KeyValueClient.Text.Blank

/-!
# Sessions

A session turns lines into what is shown for them.  A line is trimmed first; a blank one is passed
over in silence.  A line that is no command is answered without touching the link.  A command is
sent and its response awaited, and whatever goes wrong with that becomes the answer to this line,
so that the session goes on with the next one.
-/

namespace KeyValueClient

/-- What comes of a line that is not blank. -/
inductive LineOutcome where
  /-- The store replied, after so many nanoseconds. -/
  | reply (outcome : Outcome) (latency : Nat)
  /-- The line is no command; nothing was sent. -/
  | invalidInput (fault : InputFault)
  /-- The exchange failed. -/
  | communicationError (fault : Fault)
  deriving DecidableEq, Repr

namespace LineOutcome

/-- How a failed exchange is shown, given the text of its fault. -/
def failureText (message : String) : String := "Error communicating with server: " ++ message

/-- What is shown for a line.  A time is shown in whole milliseconds, rounded down. -/
def display : LineOutcome → String
  | .reply outcome latency =>
    outcome.display ++ "\nResponse time: " ++ toString (latency / 1000000) ++ " ms"
  | .invalidInput fault => "Error: " ++ fault.message
  | .communicationError fault => failureText fault.message

end LineOutcome

namespace Connection

variable {m : Type → Type} [Monad m] [Link m]

/-- The warning for a failed exchange. -/
def failureWarning (c : Connection) (command : Command) (fault : Fault) : String :=
  command.name.text ++ " to " ++ c.peer ++ " failed: " ++ fault.message

/-- What comes of a line; nothing does of a blank one. -/
def handleLine (c : Connection) (line : String) : m (Option LineOutcome) := do
  let line := Text.strip line
  if line = "" then return none
  match Command.parse line with
  | .error fault => return some (.invalidInput fault)
  | .ok command =>
    match ← c.roundTrip command with
    | .ok (response, latency) => return some (.reply response.outcome latency)
    | .error fault =>
      Link.warn (c.failureWarning command fault)
      return some (.communicationError fault)

end Connection
end KeyValueClient
