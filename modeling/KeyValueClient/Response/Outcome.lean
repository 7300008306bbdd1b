import KeyValueClient.MessagePack.Display
import KeyValueClient.Response.Basic

/-!
# Outcomes

An outcome is what a person is told about a response.  On success the message is shown if it says
something, else the value if it says something, else a bare acknowledgement.  Numbers say something,
zero included.  On failure the message is shown unless it is missing or nil; an empty one is shown
too.  Anything else is shown as it came.
-/

namespace KeyValueClient

/-- What a person is told about a response. -/
inductive Outcome where
  | message (text : String)
  | value (text : String)
  | acknowledged
  | serverError (text : Option String)
  | unexpected (text : String)
  deriving DecidableEq, Repr

namespace Outcome

/-- Whether the store did what it was asked for. -/
def isSuccess : Outcome → Bool
  | .message _ | .value _ | .acknowledged => true
  | .serverError _ | .unexpected _ => false

/-- What is shown with the outcome. -/
def text? : Outcome → Option String
  | .message text | .value text | .unexpected text => some text
  | .acknowledged => none
  | .serverError text => text

/-- The line that tells the outcome. -/
def display : Outcome → String
  | .message text | .value text => "Server: " ++ text
  | .acknowledged => "Server: OK"
  | .serverError (some text) => "Server Error: " ++ text
  | .serverError none => "Server Error:"
  | .unexpected text => "Unexpected server response: " ++ text

end Outcome

namespace Response

/-- What a failure shows of its message. -/
def errorText? : Option Value → Option String
  | none | some .nil => none
  | some message => some message.display

/-- The outcome of a response. -/
def outcome : Response → Outcome
  | .ok message value =>
    match message.bind Value.displayText?, value.bind Value.displayText? with
    | some text, _ => .message text
    | none, some text => .value text
    | none, none => .acknowledged
  | .error message => .serverError (errorText? message)
  | .unexpected raw => .unexpected raw.display

end Response
end KeyValueClient
