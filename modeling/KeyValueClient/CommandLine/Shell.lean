import KeyValueClient.CommandLine.Options
import KeyValueClient.Session

/-!
# The interactive program

The program looks at its arguments, connects, and then answers one line after the other until its
input ends.

## Before the first line

`start` decides what the arguments lead to.  Help, the version and mistakes end the program at once,
and so does a configuration that cannot work; otherwise there is an address to connect to.  Mistakes
end with the code 2 and a failed connection with the code 1.

## Lines

A line of input ends with a line feed, which belongs to it, or with the input.  Input that ends
with a line feed has no line behind it.  A line that is no UTF-8 ends the input.

A turn of a session waits for a line, prints what the line calls for (`respond`) and goes on with
the input behind the line; a turn that has found no line is the last (`Reading.rest?`).
`transcript` is what all turns print: for each line the prompt and then the answer, if there is one,
and a last prompt and the farewell when the input is over.  The program may be interrupted while it
waits for input (`Ending.interrupt`); then the farewell stands on a line of its own, and an
unfinished last line has not been read.
-/

namespace KeyValueClient
namespace CommandLine

/-! ## Before the first line -/

/-- How the program ended: its exit code and what it printed. -/
structure Report where
  exitCode : UInt32
  output : String
  deriving DecidableEq, Repr

/-- The version of the program. -/
def version : String := "0.1.0"

/-- The name and the version of the program. -/
def versionText : String := "quillkv-cli " ++ version ++ "\n"

/-- The help text. -/
def helpText : String :=
  "\n".intercalate
    ["Interactive client for the QuillKV key-value store",
      "",
      "Usage: quillkv-cli [OPTIONS]",
      "",
      "Options:",
      "      --host <HOST>",
      "          Server host [default: localhost]",
      "  -p, --port <PORT>",
      "          Port number of the server [default: 6379]",
      "  -b, --buffer-size <BUFFER_SIZE>",
      "          Bytes read per response (larger replies are truncated) [default: 4096]",
      "      --read-timeout-ms <READ_TIMEOUT_MS>",
      "          Response read timeout in milliseconds (0 waits forever) [default: 0]",
      "      --write-timeout-ms <WRITE_TIMEOUT_MS>",
      "          Request write timeout in milliseconds (0 waits forever) [default: 0]",
      "      --prompt <PROMPT>",
      "          Prompt shown before each command [default: \">> \"]",
      "  -h, --help",
      "          Print help",
      "  -V, --version",
      "          Print version",
      ""]

/-- The report of a connection that could not be made. -/
def connectFailure (config : Config) (fault : Fault) : Report :=
  ⟨1, "Error connecting to server at " ++ config.address ++ ": " ++ fault.message ++ "\n"⟩

/-- What the arguments lead to. -/
inductive Start where
  | finished (report : Report)
  | connect (config : Config)

/-- Decides what the arguments lead to. -/
def start (arguments : List String) : Start :=
  match Invocation.ofArguments arguments with
  | .help => .finished ⟨0, helpText⟩
  | .version => .finished ⟨0, versionText⟩
  | .misuse => .finished ⟨2, ""⟩
  | .run options =>
    match options.config.check with
    | .error cause => .finished (connectFailure options.config (.config cause))
    | .ok () => .connect options.config

/-- What is printed once the connection stands. -/
def banner (config : Config) : String :=
  "Connected to server at " ++ config.address ++ ". Type commands ("
    ++ ", ".intercalate (CommandName.all.map CommandName.usage) ++ ") and press Enter.\n"

/-- The last line. -/
def farewell : String := "Closing connection.\n"

/-- The last line of a program that was interrupted. -/
def interruptedFarewell : String := "\n" ++ farewell

/-! ## Lines -/

/-- The line feed as a byte. -/
def lineFeed : UInt8 := 10

/-- The bytes up to the first line feed, which is included, and the bytes behind it. -/
def cutLine? : Bytes → Option (Bytes × Bytes)
  | [] => none
  | b :: bytes =>
    if b = lineFeed then some ([b], bytes)
    else (cutLine? bytes).map fun cut => (b :: cut.1, cut.2)

/-- Behind a line there is less input than before. -/
theorem length_lt_of_cutLine? {bytes line rest : Bytes} (h : cutLine? bytes = some (line, rest)) :
    rest.length < bytes.length := by
  induction bytes generalizing line with
  | nil => simp [cutLine?] at h
  | cons b bytes ih =>
    unfold cutLine? at h
    split at h
    · cases h
      exact Nat.lt_succ_self _
    · obtain ⟨cut, hcut, heq⟩ := Option.map_eq_some_iff.mp h
      obtain ⟨_, rfl⟩ := Prod.mk.inj heq
      exact Nat.lt_succ_of_lt (ih hcut)

/-- How input ends. -/
inductive Ending where
  | endOfInput
  | interrupt
  deriving DecidableEq, Repr

/-- What waiting for a line brings. -/
inductive Reading where
  | line (text : String) (rest : Bytes)
  | ended
  | interrupted
  deriving DecidableEq, Repr

/-- The input behind a line.  Without one the session is over. -/
def Reading.rest? : Reading → Option Bytes
  | .line _ rest => some rest
  | .ended | .interrupted => none

/-- A line as bytes is the line that it spells, or the end of the input. -/
def Reading.ofBytes (line rest : Bytes) : Reading :=
  match Utf8.decode? line with
  | some text => .line text rest
  | none => .ended

/-- Waits for a line. -/
def readLine (ending : Ending) (input : Bytes) : Reading :=
  match cutLine? input with
  | some (line, rest) => .ofBytes line rest
  | none =>
    match ending with
    | .interrupt => .interrupted
    | .endOfInput => if input = [] then .ended else .ofBytes input []

theorem Reading.eq_of_rest?_ofBytes {line later rest : Bytes}
    (h : (Reading.ofBytes line later).rest? = some rest) : rest = later := by
  unfold Reading.ofBytes at h
  split at h <;> cases h
  rfl

/-- From one turn to the next the input gets shorter. -/
theorem length_lt_of_rest?_readLine {ending : Ending} {input rest : Bytes}
    (h : (readLine ending input).rest? = some rest) : rest.length < input.length := by
  unfold readLine at h
  split at h
  · next line later hcut =>
    rw [Reading.eq_of_rest?_ofBytes h]
    exact length_lt_of_cutLine? hcut
  · split at h
    · cases h
    · split at h
      · cases h
      · next hne =>
        rw [Reading.eq_of_rest?_ofBytes h]
        exact List.length_pos_iff.mpr hne

/-! ## Sessions -/

variable {m : Type → Type} [Monad m] [Link m]

/-- What is printed for a line. -/
def answer (c : Connection) (line : String) : m String := do
  match ← c.handleLine line with
  | some outcome => return outcome.display ++ "\n"
  | none => return ""

/-- What is printed in a turn, behind the prompt. -/
def respond (c : Connection) : Reading → m String
  | .line text _ => answer c text
  | .ended => return farewell
  | .interrupted => return interruptedFarewell

/-- What a session prints. -/
def transcript (c : Connection) (prompt : String) (ending : Ending) (input : Bytes) : m String :=
  let reading := readLine ending input
  match _h : reading.rest? with
  | none => return prompt ++ (← respond c reading)
  | some rest => do
    let shown ← respond c reading
    let later ← transcript c prompt ending rest
    return prompt ++ shown ++ later
termination_by input.length
decreasing_by exact length_lt_of_rest?_readLine ‹_›

/-- How a program ends that has connected. -/
def session (config : Config) (peer : String) (ending : Ending) (input : Bytes) : m Report := do
  let c : Connection := ⟨peer, config.receiveBuffer.toNat⟩
  let shown ← transcript c config.prompt ending input
  return ⟨0, banner config ++ shown⟩

end CommandLine
end KeyValueClient
