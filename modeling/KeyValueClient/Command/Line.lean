import KeyValueClient.Command.Basic
import KeyValueClient.Fault
import KeyValueClient.Text.Integer

/-!
# Commands as typed lines

A line is cut into tokens, and the tokens are read as a command: the first names it, and the others
are its arguments.

## Tokens

A double quote opens or closes a quotation.  Outside quotations a space ends the token in progress,
if one is; runs of spaces count as one.  Inside a quotation a space is part of the token.  **The end
of a quotation always ends a token, even an empty one**, so that `""` is an argument; the start of a
quotation does not, so that `a"b"` is one token.  A line that ends inside a quotation has no tokens.

The scan goes through the line once and carries a `Scan`: the tokens that are finished, the token in
progress and whether a quotation is open.

## Arguments

Commands that take no arguments refuse any.  The others need as many as they have fields and ignore
what follows; a message is made of all its arguments with single spaces between them, and the third
argument of `SET`, if there is one, is its expiry.
-/

namespace KeyValueClient

/-- How far a line has been cut into tokens.  Tokens and characters stand latest first. -/
structure Scan where
  done : List (List Char)
  current : List Char
  quoted : Bool

namespace Scan

/-- The scan of nothing. -/
def start : Scan := ⟨[], [], false⟩

/-- The token in progress is finished. -/
def emit (s : Scan) : Scan := ⟨s.current :: s.done, [], false⟩

/-- One character more. -/
def step (s : Scan) (c : Char) : Scan :=
  if c = '"' then
    if s.quoted then s.emit else { s with quoted := true }
  else if c = ' ' ∧ ¬ s.quoted then
    if s.current = [] then s else s.emit
  else { s with current := c :: s.current }

/-- The tokens when the line is over, unless a quotation is open. -/
def finish? (s : Scan) : Option (List String) :=
  if s.quoted then none
  else
    let done := if s.current = [] then s.done else s.current :: s.done
    some (done.reverse.map fun token => String.ofList token.reverse)

end Scan

/-- The tokens of a line. -/
def tokenize (line : String) : Except InputFault (List String) :=
  match (line.toList.foldl Scan.step Scan.start).finish? with
  | some tokens => .ok tokens
  | none => .error .unmatchedQuotes

/-- The command that a name in any letter case selects, or what is wrong with the name. -/
def CommandName.ofToken (token : String) : Except InputFault CommandName :=
  match CommandName.ofText? token with
  | some name => .ok name
  | none => .error (.unknownCommand (Text.uppercase token))

namespace Command

/-- The expiry that a token spells. -/
def readExpiry (token : String) : Except InputFault Int64 :=
  match Text.int64? token with
  | some expiry => .ok expiry
  | none => .error (.invalidExpiry token)

/-- The command with a given name and given arguments. -/
def ofArguments (name : CommandName) (arguments : List String) : Except InputFault Command :=
  match name, arguments with
  | .ping, [] => .ok .ping
  | .flushdb, [] => .ok .flushdb
  | .ping, _ | .flushdb, _ => .error (.unexpectedArguments name)
  | .echo, word :: words => .ok (.echo (" ".intercalate (word :: words)))
  | .set, [key, value] => .ok (.set key value none)
  | .set, key :: value :: token :: _ => do
    let expiry ← readExpiry token
    return .set key value (some expiry)
  | .get, key :: _ => .ok (.get key)
  | .incr, key :: offset :: _ => .ok (.incr key offset)
  | .push, key :: value :: _ => .ok (.push key value)
  | .lpop, key :: _ => .ok (.lpop key)
  | .rpop, key :: _ => .ok (.rpop key)
  | name, _ => .error (.missingArguments name)

/-- The command that tokens spell. -/
def ofTokens : List String → Except InputFault Command
  | [] => .error .noCommand
  | token :: arguments => do
    let name ← CommandName.ofToken token
    ofArguments name arguments

/-- The command that a line spells. -/
def parse (line : String) : Except InputFault Command := do
  let tokens ← tokenize line
  ofTokens tokens

end Command
end KeyValueClient
