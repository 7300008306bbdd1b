import KeyValueClient.Command.Basic
import KeyValueClient.MessagePack.Display
import KeyValueClient.MessagePack.Encoding
import KeyValueClient.Payload

/-!
# Commands on the wire

A command travels as a map: the name under `command`, then the fields of the command.  `encode`
writes this map straight from the fields.

`ofPayload` is the other end.  It looks the fields up by name, in a map of any layout: the order of
the entries, the entries of other names and the later entries of a name make no difference.  The
name of the command may be in any letter case.  An expiry may be missing, but one that is there has
to be an integer.
-/

namespace KeyValueClient
namespace Command

/-! ## Writing -/

/-- A field's value on the wire. -/
def FieldValue.encode : FieldValue → Bytes
  | .text s => MessagePack.string s
  | .integer i => MessagePack.integer i.toInt

/-- The bytes of a command. -/
def encode (c : Command) : Bytes :=
  MessagePack.mapHeader (c.fields.length + 1)
    ++ (MessagePack.string "command" ++ MessagePack.string c.name.text)
    ++ c.fields.flatMap fun entry => MessagePack.string entry.1 ++ entry.2.encode

/-! ## Reading -/

/-- The text in a field that a command needs. -/
def textField (request : Value) (name : CommandName) (field : String) :
    Except ProtocolFault String :=
  match (request.get? field).bind Value.asText? with
  | some text => .ok text
  | none => .error (.noTextField name field)

/-- The expiry of a request, if it has one. -/
def expiryField (request : Value) : Except ProtocolFault (Option Int64) :=
  match request.get? "exp" with
  | none => .ok none
  | some v =>
    match v.asInt64? with
    | some expiry => .ok (some expiry)
    | none => .error (.invalidExpiry v.display)

/-- The command of a given name whose fields a request holds. -/
def ofFields (request : Value) (name : CommandName) : Except ProtocolFault Command :=
  let text := textField request name
  match name with
  | .ping => return .ping
  | .flushdb => return .flushdb
  | .echo => return .echo (← text "message")
  | .set => return .set (← text "key") (← text "value") (← expiryField request)
  | .get => return .get (← text "key")
  | .incr => return .incr (← text "key") (← text "offset")
  | .push => return .push (← text "key") (← text "value")
  | .lpop => return .lpop (← text "key")
  | .rpop => return .rpop (← text "key")

/-- The command that a request says. -/
def ofValue (request : Value) : Except ProtocolFault Command :=
  if request.asMap?.isNone then .error (.notAMap request.display)
  else
    match (request.get? "command").bind Value.asText? with
    | none => .error .noCommandField
    | some text =>
      match CommandName.ofText? text with
      | none => .error (.unknownCommand (Text.uppercase text))
      | some name => ofFields request name

/-- The command that a payload says. -/
def ofPayload (payload : Bytes) : Except ProtocolFault Command := do
  let request ← Value.ofPayload payload
  ofValue request

end Command
end KeyValueClient
