import KeyValueClient.Config
import KeyValueClient.Text.Integer

/-!
# Command-line options

Every argument of the program is an option.  Six of them are settings and take a value, and two ask
for the help text and for the version.

## How options are written

A long name stands behind two dashes.  The value of a setting follows as the next argument or
behind an equals sign.  A setting with a letter can also be written with one dash; then its value
follows as the next argument, at once, or behind an equals sign.  Names are complete, and their
case matters.

A value that is an argument of its own may not begin with a dash, unless it is a dash and nothing
else.  `--` ends the options, and no argument may follow it.

## What decides

The arguments are looked at from left to right (`Invocation.ofArguments`).  The first one that asks
for help or for the version decides, and so does the first one that is wrong: an unknown option or
an argument that is no option, a setting without a value, with a value that it cannot take, or
given twice.
-/

namespace KeyValueClient
namespace CommandLine

/-- The values of the settings. -/
structure Options where
  host : String := "localhost"
  port : UInt16 := 6379
  bufferSize : UInt64 := 4096
  readTimeout : UInt64 := 0
  writeTimeout : UInt64 := 0
  prompt : String := ">> "
  deriving DecidableEq, Repr

/-- The configuration that the options ask for. -/
def Options.config (o : Options) : Config where
  address := Endpoint.address ⟨o.host, o.port⟩
  receiveBuffer := o.bufferSize
  readTimeout := o.readTimeout
  writeTimeout := o.writeTimeout
  prompt := o.prompt

/-- The settings. -/
inductive Setting where
  | host | port | bufferSize | readTimeout | writeTimeout | prompt
  deriving DecidableEq, Repr

namespace Setting

/-- The setting of a long name. -/
def ofName? : String → Option Setting
  | "host" => some .host
  | "port" => some .port
  | "buffer-size" => some .bufferSize
  | "read-timeout-ms" => some .readTimeout
  | "write-timeout-ms" => some .writeTimeout
  | "prompt" => some .prompt
  | _ => none

/-- The setting of a letter. -/
def ofLetter? : Char → Option Setting
  | 'p' => some .port
  | 'b' => some .bufferSize
  | _ => none

/-- The port that a text spells.  It is read as an integer with a sign and has to be in range. -/
def port? (value : String) : Option UInt16 :=
  match Text.signed? value.toList with
  | some i => if 0 ≤ i ∧ i < UInt16.size then some (UInt16.ofNat i.toNat) else none
  | none => none

/-- The options with one setting changed, if the setting can take the value. -/
def assign? (s : Setting) (value : String) (o : Options) : Option Options :=
  match s with
  | .host => some { o with host := value }
  | .port => (port? value).map fun port => { o with port := port }
  | .bufferSize => (Text.uint64? value).map fun size => { o with bufferSize := size }
  | .readTimeout => (Text.uint64? value).map fun time => { o with readTimeout := time }
  | .writeTimeout => (Text.uint64? value).map fun time => { o with writeTimeout := time }
  | .prompt => some { o with prompt := value }

end Setting

/-! ## Single arguments -/

/-- What an argument is by itself. -/
inductive Argument where
  | help
  | version
  /-- The end of the options. -/
  | ending
  /-- A setting, with its value if the argument holds one. -/
  | setting (s : Setting) (value : Option String)
  /-- No option. -/
  | unknown
  deriving DecidableEq, Repr

namespace Argument

/-- The option of a long name, with what stands behind the equals sign if there is one. -/
def ofLong (name : String) (value : Option String) : Argument :=
  match name, value with
  | "help", none => .help
  | "version", none => .version
  | name, value =>
    match Setting.ofName? name with
    | some s => .setting s value
    | none => .unknown

/-- The value in an argument behind the letter of a setting. -/
def attached? : List Char → Option String
  | [] => none
  | '=' :: value => some (String.ofList value)
  | value => some (String.ofList value)

/-- The option of a letter, with what stands behind the letter. -/
def ofLetter (letter : Char) (behind : List Char) : Argument :=
  match letter with
  | 'h' => .help
  | 'V' => .version
  | letter =>
    match Setting.ofLetter? letter with
    | some s => .setting s (attached? behind)
    | none => .unknown

/-- What the text of an argument is. -/
def ofText (text : String) : Argument :=
  match text.toList with
  | ['-', '-'] => .ending
  | '-' :: '-' :: body =>
    match body.span (· != '=') with
    | (name, []) => ofLong (String.ofList name) none
    | (name, _ :: value) => ofLong (String.ofList name) (some (String.ofList value))
  | '-' :: letter :: behind => ofLetter letter behind
  | _ => .unknown

end Argument

/-! ## All arguments -/

/-- Whether an argument can be the value of the setting before it. -/
def isValue (text : String) : Bool :=
  match text.toList with
  | ['-'] => true
  | '-' :: _ => false
  | _ => true

/-- What the program is asked to do. -/
inductive Invocation where
  | run (options : Options)
  | help
  | version
  /-- The arguments are wrong. -/
  | misuse
  deriving DecidableEq, Repr

/-- The settings given so far. -/
structure Given where
  options : Options := {}
  settings : List Setting := []

/-- One setting more, unless it has been given or cannot take the value. -/
def Given.add? (g : Given) (s : Setting) (value : String) : Option Given :=
  if s ∈ g.settings then none
  else (s.assign? value g.options).map fun options => ⟨options, s :: g.settings⟩

namespace Invocation

/-- What the remaining arguments ask for. -/
def scan (g : Given) : List String → Invocation
  | [] => .run g.options
  | text :: rest =>
    match Argument.ofText text with
    | .help => .help
    | .version => .version
    | .unknown => .misuse
    | .ending => if rest = [] then .run g.options else .misuse
    | .setting s (some value) =>
      match g.add? s value with
      | some g => scan g rest
      | none => .misuse
    | .setting s none =>
      match rest with
      | [] => .misuse
      | value :: rest =>
        if isValue value then
          match g.add? s value with
          | some g => scan g rest
          | none => .misuse
        else .misuse

/-- What the arguments of the program ask for. -/
def ofArguments (arguments : List String) : Invocation := scan {} arguments

end Invocation

end CommandLine
end KeyValueClient
