import KeyValueClient.Binary64
import KeyValueClient.Text.Utf8

/-!
# Values

A value is what one MessagePack object says.  Maps keep their entries in the order in which they
came, repeated keys included, and any value may be a key.

Integers come in two ranges.  `int` holds every integer of sixty-four bits with a sign, and `uint`
every natural number of sixty-four bits; the numbers that are in both ranges can be held either way,
and these are different values that stand for one integer (`asInt64?`).  In the same way a text can
be held as a string or as the bytes of its UTF-8 form (`asText?`).

## Looking a name up

`get? name` is the value of the first entry whose key reads as the name.  Keys that are no text are
passed over.
-/

namespace KeyValueClient

/-- What a MessagePack object says. -/
inductive Value where
  | nil
  | bool (b : Bool)
  | int (i : Int64)
  | uint (n : UInt64)
  | float (x : Binary64)
  | str (text : String)
  | bin (bytes : Bytes)
  | array (items : List Value)
  | map (entries : List (Value × Value))
  /-- An application's own kind of value: its tag and its payload. -/
  | ext (tag : Int8) (payload : Bytes)
  deriving Inhabited

namespace Value

/-! ## Reading a value as something -/

/-- The text that a value reads as: a string, or bytes that are UTF-8. -/
def asText? : Value → Option String
  | .str text => some text
  | .bin bytes => Utf8.decode? bytes
  | _ => none

/-- The integer of sixty-four bits that a value reads as. -/
def asInt64? : Value → Option Int64
  | .int i => some i
  | .uint n => if n.toNat < 0x8000000000000000 then some (Int64.ofNat n.toNat) else none
  | _ => none

/-- The entries of a map. -/
def asMap? : Value → Option (List (Value × Value))
  | .map entries => some entries
  | _ => none

/-- The value of the first entry whose key reads as a name. -/
def lookup (name : String) (entries : List (Value × Value)) : Option Value :=
  (entries.find? fun entry => entry.1.asText? == some name).map Prod.snd

/-- The first entry is tried before the others. -/
theorem lookup_cons (name : String) (entry : Value × Value) (entries : List (Value × Value)) :
    lookup name (entry :: entries) =
      if entry.1.asText? = some name then some entry.2 else lookup name entries := by
  unfold lookup
  rw [List.find?_cons]
  by_cases h : entry.1.asText? = some name
  · simp [h]
  · simp [h, beq_eq_false_iff_ne.mpr h]

/-- Entries in front are tried before those behind them. -/
theorem lookup_append (name : String) (before after : List (Value × Value)) :
    lookup name (before ++ after) = (lookup name before).or (lookup name after) := by
  rw [lookup, List.find?_append, Option.map_or]
  rfl

/-- The value that a map holds under a name. -/
def get? (v : Value) (name : String) : Option Value :=
  v.asMap?.bind (lookup name)

/-- The map with the given texts as keys. -/
def record (entries : List (String × Value)) : Value :=
  .map (entries.map fun entry => (.str entry.1, entry.2))

/-! ## Comparing as numbers

Two values agree when they have the same shape and the same contents, with floating-point numbers
compared as numbers.  Which of two shapes holds an integer or a text matters. -/

mutual

/-- Whether two values agree. -/
def agrees : Value → Value → Bool
  | .nil, .nil => true
  | .bool a, .bool b => a == b
  | .int a, .int b => a == b
  | .uint a, .uint b => a == b
  | .float a, .float b => a.numericallyEqual b
  | .str a, .str b => a == b
  | .bin a, .bin b => a == b
  | .array a, .array b => itemsAgree a b
  | .map a, .map b => entriesAgree a b
  | .ext s a, .ext t b => s == t && a == b
  | _, _ => false

/-- Whether two lists of values agree, one by one. -/
def itemsAgree : List Value → List Value → Bool
  | [], [] => true
  | a :: as, b :: bs => a.agrees b && itemsAgree as bs
  | _, _ => false

/-- Whether two lists of entries agree, one by one. -/
def entriesAgree : List (Value × Value) → List (Value × Value) → Bool
  | [], [] => true
  | a :: as, b :: bs => a.1.agrees b.1 && (a.2.agrees b.2 && entriesAgree as bs)
  | _, _ => false

end

end Value
end KeyValueClient
