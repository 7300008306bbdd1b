import KeyValueClient.Command.Name

/-!
# Commands

A command carries the texts that its name calls for, and `set` may carry an expiry, an integer of
sixty-four bits.  The store reads what a text means: an offset, for one, is a text here.

`fields` lists what a command carries, under the names and in the order that the wire uses.
-/

namespace KeyValueClient

/-- A request to the store. -/
inductive Command where
  | ping
  | echo (message : String)
  | set (key value : String) (expiry : Option Int64)
  | get (key : String)
  | incr (key offset : String)
  | push (key value : String)
  | lpop (key : String)
  | rpop (key : String)
  | flushdb
  deriving DecidableEq, Repr

namespace Command

/-- The name of a command. -/
def name : Command → CommandName
  | .ping => .ping
  | .echo _ => .echo
  | .set _ _ _ => .set
  | .get _ => .get
  | .incr _ _ => .incr
  | .push _ _ => .push
  | .lpop _ => .lpop
  | .rpop _ => .rpop
  | .flushdb => .flushdb

/-- What stands in a field. -/
inductive FieldValue where
  | text (s : String)
  | integer (i : Int64)
  deriving DecidableEq, Repr

/-- The fields of a command, without its name. -/
def fields : Command → List (String × FieldValue)
  | .ping | .flushdb => []
  | .echo message => [("message", .text message)]
  | .set key value none => [("key", .text key), ("value", .text value)]
  | .set key value (some expiry) =>
    [("key", .text key), ("value", .text value), ("exp", .integer expiry)]
  | .get key | .lpop key | .rpop key => [("key", .text key)]
  | .incr key offset => [("key", .text key), ("offset", .text offset)]
  | .push key value => [("key", .text key), ("value", .text value)]

end Command
end KeyValueClient
