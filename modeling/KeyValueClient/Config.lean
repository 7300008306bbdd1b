import KeyValueClient.Fault
import KeyValueClient.Text.Blank
import KeyValueClient.Text.Integer

/-!
# Configuration

A configuration says where the store is, how many bytes one reply may bring, how long to wait, and
what to show before each line.  A wait of zero milliseconds is unlimited.

`check` finds the mistakes that would show only later.  `endpoint` checks a configuration and takes
its address apart: the port stands behind the last colon, and everything before it is the host.
-/

namespace KeyValueClient

/-- The settings of a client. -/
structure Config where
  /-- Host and port of the store, with a colon between them. -/
  address : String := "127.0.0.1:6379"
  /-- How many bytes are read for a reply. -/
  receiveBuffer : UInt64 := 4096
  /-- How long to wait for a reply, in milliseconds. -/
  readTimeout : UInt64 := 0
  /-- How long to wait while sending, in milliseconds. -/
  writeTimeout : UInt64 := 0
  /-- What is shown before each line. -/
  prompt : String := ">> "
  deriving DecidableEq, Repr

/-- Where a client connects to. -/
structure Endpoint where
  host : String
  port : UInt16
  deriving DecidableEq, Repr

/-- An endpoint as an address. -/
def Endpoint.address (e : Endpoint) : String := e.host ++ ":" ++ toString e.port.toNat

namespace Config

/-- The configuration with another endpoint. -/
def withEndpoint (config : Config) (e : Endpoint) : Config := { config with address := e.address }

/-- What is wrong with a configuration, if anything; the address is looked at first. -/
def check (config : Config) : Except ConfigFault Unit :=
  if Text.trim config.address.toList = [] then .error .emptyAddress
  else if config.receiveBuffer = 0 then .error .emptyBuffer
  else .ok ()

/-- What stands before and behind the last colon of a text. -/
def splitAtLastColon? (cs : List Char) : Option (List Char × List Char) :=
  match cs.reverse.span (· != ':') with
  | (_, []) => none
  | (port, _ :: host) => some (host.reverse, port.reverse)

/-- The endpoint that an address names. -/
def parseAddress (address : String) : Except IOFault Endpoint :=
  match splitAtLastColon? address.toList with
  | none => .error ⟨"invalid socket address", false⟩
  | some (host, port) =>
    match Text.uint16? (String.ofList port) with
    | some port => .ok ⟨String.ofList host, port⟩
    | none => .error ⟨"invalid port value", false⟩

/-- The endpoint that a configuration names, if the configuration can work. -/
def endpoint (config : Config) : Except Fault Endpoint :=
  match config.check with
  | .error cause => .error (.config cause)
  | .ok () => (parseAddress config.address).mapError .io

end Config
end KeyValueClient
