import KeyValueClient.Fault

/-!
# Payloads

Requests and replies have no frame around them: a payload is one object, and whatever stands behind
the object is ignored.  `Value.ofPayload` reads it, to the nesting limit of the link.
-/

namespace KeyValueClient
namespace Value

/-- The value of the object at the front of a payload. -/
def ofPayload (payload : Bytes) : Except ProtocolFault Value :=
  if payload = [] then .error .emptyPayload
  else
    match read nestingLimit payload with
    | .ok (v, _) => .ok v
    | .error cause => .error (.malformed cause)

end Value
end KeyValueClient
