import KeyValueClient.Text.Uppercase

/-!
# The names of the commands

There are nine commands.  Each has a name in capitals, which is also its name on the wire, a usage
line for the people who type it, and a phrase for the arguments that it cannot do without.

`ofText?` finds a command by a name in any letter case.  The name is brought to upper case as a text
of Unicode and then compared, so a name need not be of ASCII to be found: the ligature in `ﬂushdb`
has the upper case `FL`.
-/

namespace KeyValueClient

/-- The commands that the store knows. -/
inductive CommandName where
  | ping | echo | set | get | incr | push | lpop | rpop | flushdb
  deriving DecidableEq, Repr

namespace CommandName

/-- Every command, in the order in which they are listed for people. -/
def all : List CommandName := [.ping, .echo, .set, .get, .incr, .push, .lpop, .rpop, .flushdb]

/-- The name in capitals. -/
def text : CommandName → String
  | .ping => "PING"
  | .echo => "ECHO"
  | .set => "SET"
  | .get => "GET"
  | .incr => "INCR"
  | .push => "PUSH"
  | .lpop => "LPOP"
  | .rpop => "RPOP"
  | .flushdb => "FLUSHDB"

/-- The usage line. -/
def usage : CommandName → String
  | .ping => "PING"
  | .echo => "ECHO <message...>"
  | .set => "SET <key> <value> [expiry]"
  | .get => "GET <key>"
  | .incr => "INCR <key> <offset>"
  | .push => "PUSH <key> <value>"
  | .lpop => "LPOP <key>"
  | .rpop => "RPOP <key>"
  | .flushdb => "FLUSHDB"

/-- What the command asks for.  Two commands ask for nothing. -/
def arguments : CommandName → String
  | .ping | .flushdb => "no arguments"
  | .echo => "a message"
  | .set => "a key, value, and optional expiry"
  | .get | .lpop | .rpop => "a key"
  | .incr => "a key and offset"
  | .push => "a key and value"

/-- The command with a given name in capitals. -/
def ofCapitals? (capitals : String) : Option CommandName :=
  all.find? fun name => name.text == capitals

/-- The command that a name in any letter case selects. -/
def ofText? (name : String) : Option CommandName := ofCapitals? (Text.uppercase name)

theorem mem_all (name : CommandName) : name ∈ all := by
  cases name <;> decide

/-- A command is found by its own name. -/
theorem ofCapitals?_eq_some_iff {capitals : String} {name : CommandName} :
    ofCapitals? capitals = some name ↔ capitals = name.text := by
  constructor
  · intro h
    have hfound := List.find?_some h
    exact (eq_of_beq hfound).symm
  · rintro rfl
    cases name <;> decide

end CommandName
end KeyValueClient
