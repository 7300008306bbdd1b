import KeyValueClient.MessagePack.Encoding
import KeyValueClient.Payload

/-!
# Responses

A reply is classified by its `status`.  `OK` may come with a message and a value, `ERROR` with a
message, and a reply of any other status, of none, or that is no map at all, is unexpected and kept
as it came.

`ofValue` classifies a value and `toValue` is the value of a response, with the entries in the order
status, message, value.  Of several entries of a name the first counts.
-/

namespace KeyValueClient

/-- The statuses that a reply can have. -/
inductive Status where
  | ok | error
  deriving DecidableEq, Repr

namespace Status

/-- The text of a status on the wire. -/
def text : Status → String
  | .ok => "OK"
  | .error => "ERROR"

/-- The status that a value reads as. -/
def ofValue? (v : Value) : Option Status :=
  match v.asText? with
  | some text => [Status.ok, Status.error].find? fun status => status.text == text
  | none => none

end Status

/-- A reply of the store. -/
inductive Response where
  | ok (message value : Option Value)
  | error (message : Option Value)
  /-- A reply without a status that is known. -/
  | unexpected (raw : Value)
  deriving Inhabited

namespace Response

/-! ## Common replies -/

/-- A bare acknowledgement. -/
def acknowledge : Response := .ok none none

/-- Success with a message. -/
def withMessage (message : String) : Response := .ok (some (.str message)) none

/-- Success with a value. -/
def withValue (value : Value) : Response := .ok none (some value)

/-- Failure with a message. -/
def failure (message : String) : Response := .error (some (.str message))

/-! ## Responses and values -/

/-- The status of a response. -/
def status? : Response → Option Status
  | .ok _ _ => some .ok
  | .error _ => some .error
  | .unexpected _ => none

/-- The response that a value says. -/
def ofValue (raw : Value) : Response :=
  match (raw.get? "status").bind Status.ofValue? with
  | some .ok => .ok (raw.get? "message") (raw.get? "value")
  | some .error => .error (raw.get? "message")
  | none => .unexpected raw

/-- The entry of a name, if there is a value for it. -/
def entry (name : String) (value : Option Value) : List (String × Value) :=
  value.toList.map fun v => (name, v)

/-- The value of a response. -/
def toValue : Response → Value
  | .ok message value =>
    .record (("status", .str Status.ok.text) :: (entry "message" message ++ entry "value" value))
  | .error message => .record (("status", .str Status.error.text) :: entry "message" message)
  | .unexpected raw => raw

/-! ## Responses and payloads -/

/-- The bytes of a response. -/
def encode (r : Response) : Bytes := r.toValue.encode

/-- The response that a payload says.  Every payload that holds an object holds a response. -/
def ofPayload (payload : Bytes) : Except ProtocolFault Response :=
  (Value.ofPayload payload).map ofValue

end Response
end KeyValueClient
