import KeyValueClient.MessagePack.Value

/-!
# Values as text for people

`display` shows a value on one line.  Scalars are shown plainly, a string without quotes, bytes as
the text that they spell or else as a count, arrays in brackets, maps in braces with a colon after
each key, and an extension as its tag and its payload in hexadecimal.

`displayText?` is the text of a value that says something: nil, the empty string and no bytes at all
say nothing.
-/

namespace KeyValueClient
namespace Value

mutual

/-- The text of a value. -/
def display : Value → String
  | .nil => "nil"
  | .bool true => "true"
  | .bool false => "false"
  | .int i => toString i.toInt
  | .uint n => toString n.toNat
  | .float x => x.text
  | .str text => text
  | .bin bytes =>
    match Utf8.decode? bytes with
    | some text => text
    | none => "<" ++ toString bytes.length ++ " bytes>"
  | .array items => "[" ++ ", ".intercalate (displayItems items) ++ "]"
  | .map entries => "\x7b" ++ ", ".intercalate (displayEntries entries) ++ "\x7d"
  | .ext tag payload => "ext(" ++ toString tag.toInt ++ ", 0x" ++ Bytes.hex payload ++ ")"

/-- The texts of a list of values. -/
def displayItems : List Value → List String
  | [] => []
  | item :: items => item.display :: displayItems items

/-- The texts of a list of entries. -/
def displayEntries : List (Value × Value) → List String
  | [] => []
  | entry :: entries => (entry.1.display ++ ": " ++ entry.2.display) :: displayEntries entries

end

theorem displayItems_eq_map (items : List Value) : displayItems items = items.map display := by
  induction items with
  | nil => rfl
  | cons item items ih => rw [displayItems, ih, List.map_cons]

theorem displayEntries_eq_map (entries : List (Value × Value)) :
    displayEntries entries =
      entries.map fun entry => entry.1.display ++ ": " ++ entry.2.display := by
  induction entries with
  | nil => rfl
  | cons entry entries ih => rw [displayEntries, ih, List.map_cons]

/-- The text of a value that says something. -/
def displayText? : Value → Option String
  | .nil => none
  | .str text => if text = "" then none else some text
  | .bin [] => none
  | v => some v.display

end Value
end KeyValueClient
