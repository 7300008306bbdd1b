import KeyValueClient.Command.Name
import KeyValueClient.MessagePack.Decoding

/-!
# Faults

Everything that can go wrong is a value that names its cause.  The causes are grouped by where they
arise, and each group has one function that words it:

* `InputFault`: a line that was typed is no command;
* `IOFault`: the link failed, in the words of the link;
* `ProtocolFault`: bytes that arrived are not what they should be;
* `ConfigFault`: the configuration cannot work.

A `Fault` is any of these, or the end of the connection.  Its message is its reason behind the label
of its category, except that a fault of input is worded without a label.
-/

namespace KeyValueClient

/-! ## Causes -/

/-- Why a line is no command. -/
inductive InputFault where
  /-- The line ends inside quotes. -/
  | unmatchedQuotes
  /-- The line has no tokens. -/
  | noCommand
  /-- No command has this name, which is given in capitals. -/
  | unknownCommand (capitals : String)
  /-- The command needs more arguments. -/
  | missingArguments (command : CommandName)
  /-- The command takes no arguments. -/
  | unexpectedArguments (command : CommandName)
  /-- The expiry is no integer of sixty-four bits. -/
  | invalidExpiry (token : String)
  deriving DecidableEq, Repr

/-- The text of a fault of input. -/
def InputFault.message : InputFault → String
  | .unmatchedQuotes => "unmatched quotes in input"
  | .noCommand => "no command entered"
  | .unknownCommand capitals => "unknown command: " ++ capitals
  | .missingArguments command => command.text ++ " requires " ++ command.arguments
  | .unexpectedArguments command => command.text ++ " does not require any arguments"
  | .invalidExpiry token => "invalid expiry value: " ++ token

/-- What a link says when it fails.  `interrupted` marks a failure that asks for another attempt. -/
structure IOFault where
  message : String
  interrupted : Bool := false
  deriving DecidableEq, Repr

/-- Why bytes that arrived cannot be used.  Values appear as they are shown to people. -/
inductive ProtocolFault where
  /-- There are no bytes. -/
  | emptyPayload
  /-- The bytes begin with no object. -/
  | malformed (cause : Malformed)
  /-- A request is not a map. -/
  | notAMap (shown : String)
  /-- A request has no text that names its command. -/
  | noCommandField
  /-- No command has this name, which is given in capitals. -/
  | unknownCommand (capitals : String)
  /-- A field that the command needs is missing or no text. -/
  | noTextField (command : CommandName) (field : String)
  /-- The expiry is no integer of sixty-four bits. -/
  | invalidExpiry (shown : String)
  deriving DecidableEq, Repr

/-- The text of a fault of protocol. -/
def ProtocolFault.reason : ProtocolFault → String
  | .emptyPayload => "Empty payload"
  | .malformed cause => "Malformed payload: " ++ cause.message
  | .notAMap shown => "Request is not a map: " ++ shown
  | .noCommandField => "Invalid or missing 'command' field"
  | .unknownCommand capitals => (InputFault.unknownCommand capitals).message
  | .noTextField command field =>
    command.text ++ " command: missing or non-string '" ++ field ++ "' field"
  | .invalidExpiry shown => "SET: invalid type for 'exp': " ++ shown

/-- Why a configuration cannot work. -/
inductive ConfigFault where
  | emptyAddress
  | emptyBuffer
  deriving DecidableEq, Repr

/-- The text of a fault of configuration. -/
def ConfigFault.reason : ConfigFault → String
  | .emptyAddress => "server address is empty"
  | .emptyBuffer => "receive buffer size must be greater than zero"

/-! ## Faults and their categories -/

/-- Anything that can go wrong. -/
inductive Fault where
  | io (cause : IOFault)
  | input (cause : InputFault)
  /-- The peer has closed the connection. -/
  | closed (peer : String)
  | protocol (cause : ProtocolFault)
  | config (cause : ConfigFault)
  deriving DecidableEq, Repr

/-- The categories under which faults are reported.  Every value can be written, so no fault of this
library falls under `serialization`; the category is there for the reports of other writers. -/
inductive FaultCategory where
  | io | input | serialization | network | protocol | config
  deriving DecidableEq, Repr

/-- A reason as reported under a category. -/
def FaultCategory.report (category : FaultCategory) (reason : String) : String :=
  match category with
  | .io => "IO error: " ++ reason
  | .input => reason
  | .serialization => "Serialization error: " ++ reason
  | .network => "Network error: " ++ reason
  | .protocol => "Protocol error: " ++ reason
  | .config => "Configuration error: " ++ reason

namespace Fault

/-- The category of a fault. -/
def category : Fault → FaultCategory
  | .io _ => .io
  | .input _ => .input
  | .closed _ => .network
  | .protocol _ => .protocol
  | .config _ => .config

/-- What a fault says without its category. -/
def reason : Fault → String
  | .io cause => cause.message
  | .input cause => cause.message
  | .closed peer => "connection closed by " ++ peer
  | .protocol cause => cause.reason
  | .config cause => cause.reason

/-- The text of a fault. -/
def message (f : Fault) : String := f.category.report f.reason

end Fault
end KeyValueClient
