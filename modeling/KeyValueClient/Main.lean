import KeyValueClient.CommandLine.Shell
import Std.Async.DNS
import Std.Async.Signal
import Std.Async.TCP
import Std.Async.Timer

/-!
# The program

The outer layer of the interactive program: a socket as a link, standard input and output, and the
interrupt signal.  What is sent, received and shown is decided by the modules that this one imports.
-/

namespace KeyValueClient

open Std.Async Std.Net CommandLine

/-! ## Sockets as links -/

/-- A connected socket with its limits of time, in milliseconds; zero is no limit. -/
structure Socket where
  client : TCP.Socket.Client
  readTimeout : UInt64
  writeTimeout : UInt64

/-- What a failure of the system says. -/
def IOFault.ofError (e : IO.Error) : IOFault := ⟨toString e, false⟩

/-- The failure of an operation that ran out of time. -/
def timedOut : IOFault := ⟨"Resource temporarily unavailable (os error 11)", false⟩

/-- Runs an action and turns an error into a fault. -/
def attempt {α : Type} (action : IO α) : IO (Except IOFault α) := do
  try
    return .ok (← action)
  catch e =>
    return .error (.ofError e)

/-- What a task brings, unless an event comes first. -/
def unlessFirst {α β : Type} (task : Task α) (event : Task β) : IO (Option α) :=
  IO.waitAny [Task.map some task, Task.map (fun _ => none) event]

/-- The result of an event if it comes in time. -/
def within {α : Type} (limit : UInt64) (event : Selector α) : IO (Except IOFault α) := do
  let timer ← (Selector.sleep (.ofNat limit.toNat)).block
  let race : Async (Except IOFault α) :=
    Selectable.one
      #[.case event fun result => return .ok result, .case timer fun _ => return .error timedOut]
  match ← attempt race.block with
  | .ok result => return result
  | .error fault => return .error fault

/-- One read from a socket. -/
def Socket.read (s : Socket) (capacity : Nat) : IO (Except IOFault Bytes) := do
  let size := UInt64.ofNat capacity
  let result ←
    if s.readTimeout = 0 then attempt (s.client.recv? size).block
    else within s.readTimeout (s.client.recvSelector size)
  return result.map fun bytes => (bytes.getD .empty).toList

/-- Writes a whole message to a socket. -/
def Socket.write (s : Socket) (message : Bytes) : IO (Except IOFault Unit) := do
  let sending := s.client.send message.toByteArray
  if s.writeTimeout = 0 then attempt sending.block
  else
    let sent ← sending.asTask
    let timer ← (sleep (.ofNat s.writeTimeout.toNat)).asTask
    match ← unlessFirst sent timer with
    | some (.ok ()) => return .ok ()
    | some (.error e) => return .error (.ofError e)
    | none => return .error timedOut

instance : Link (ReaderT Socket IO) where
  read capacity := fun s => s.read capacity
  writeAll message := fun s => s.write message
  flush := return .ok ()
  now := fun _ => IO.monoNanosNow
  warn text := fun _ => IO.eprintln ("WARN " ++ text)

/-- A socket that is connected to one of the addresses of an endpoint. -/
def connectSocket (e : Endpoint) : IO TCP.Socket.Client := do
  let addresses ← (DNS.getAddrInfo e.host "").block
  let mut failure : IO.Error := .userError "could not resolve to any addresses"
  for address in addresses do
    let client ← TCP.Socket.Client.mk
    try
      match address with
      | .v4 address => (client.connect (.v4 ⟨address, e.port⟩)).block
      | .v6 address => (client.connect (.v6 ⟨address, e.port⟩)).block
      client.noDelay
      return client
    catch error =>
      failure := error
  throw failure

/-- The peer of a socket as text. -/
def peerText : SocketAddress → String
  | .v4 address => toString address
  | .v6 address => toString address

/-- Connects to the store that a configuration names. -/
def dial (config : Config) : IO (Except Fault (Socket × Connection)) := do
  match config.endpoint with
  | .error fault => return .error fault
  | .ok e =>
    match ← attempt (connectSocket e) with
    | .error fault => return .error (.io fault)
    | .ok client =>
      let peer ← try peerText <$> client.getPeerName catch _ => pure config.address
      return .ok (⟨client, config.readTimeout, config.writeTimeout⟩,
        ⟨peer, config.receiveBuffer.toNat⟩)

/-! ## Standard input and output -/

/-- Prints a text at once. -/
def printNow (text : String) : IO Unit := do
  let output ← IO.getStdout
  output.putStr text
  output.flush

/-- Waits until a line feed has come, or the input is over, and gives what has come. -/
partial def awaitPiece (input : IO.FS.Stream) (come : ByteArray) : IO Bytes := do
  -- one byte at a time: a stream waits until it has as many as it is asked for
  let more ← input.read 1
  let come := come ++ more
  if more.isEmpty || more.toList.contains lineFeed then return come.toList
  awaitPiece input come

/-- Takes the turns of a session until one of them is the last. -/
partial def converse (socket : Socket) (c : Connection) (prompt : String)
    (input : IO.FS.Stream) : IO Unit := do
  printNow prompt
  let reading := readLine .endOfInput (← awaitPiece input .empty)
  printNow (← (respond c reading : ReaderT Socket IO String) socket)
  if reading.rest?.isSome then converse socket c prompt input

/-- Runs a session until the input is over or the program is interrupted. -/
def serve (config : Config) (socket : Socket) (c : Connection) : IO Unit := do
  printNow (banner config)
  let signal ← Signal.Waiter.mk .sigint false
  let interrupt ← signal.wait
  let session ← (converse socket c config.prompt (← IO.getStdin)).asTask .dedicated
  match ← unlessFirst session interrupt with
  | some result => IO.ofExcept result
  | none => printNow interruptedFarewell
  try socket.client.shutdown.block catch _ => pure ()

/-- Runs the program with its arguments and gives its exit code. -/
def runProgram (arguments : List String) : IO UInt32 := do
  match start arguments with
  | .finished report =>
    if report.exitCode = 2 then IO.eprintln "For more information, try '--help'."
    printNow report.output
    return report.exitCode
  | .connect config =>
    match ← dial config with
    | .error fault =>
      let report := connectFailure config fault
      printNow report.output
      return report.exitCode
    | .ok (socket, c) =>
      serve config socket c
      return 0

end KeyValueClient

/-- The program. -/
def main (arguments : List String) : IO UInt32 := KeyValueClient.runProgram arguments
