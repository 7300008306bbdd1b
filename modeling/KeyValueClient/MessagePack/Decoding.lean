import KeyValueClient.MessagePack.Marker
import KeyValueClient.MessagePack.Value

/-!
# Reading values

`Value.read` takes one MessagePack object off the front of a byte string and returns the value with
the bytes that follow.  Every width of every form is accepted, the shortest or not.

## What a form denotes

A number of an unsigned form that has a sign bit to spare is an `int`, a larger one a `uint`.  A
string whose bytes are no UTF-8 is kept as those bytes (`Value.ofText`).  A floating-point number of
thirty-two bits is widened.

## Nesting

Arrays, maps and extensions are the containers.  `read levels` accepts containers nested `levels`
deep: the members of a container are read with one level less, and with no level left a container is
refused once its length has been read.  The recursion is on the levels, and the number of members
announced is counted down, so reading ends on every input; a count that promises more than there is
fails at the end of the input.

## Failures

`Malformed` says what is wrong with bytes that begin no object.  It tells apart where the input
ends: before a marker, inside a number or a length or a tag, or inside a payload.
-/

namespace KeyValueClient

/-- Why a byte string begins with no object. -/
inductive Malformed where
  /-- The input ends where a marker should stand. -/
  | markerMissing
  /-- The input ends inside a number, a length or a tag. -/
  | fieldCut
  /-- The input ends inside the payload of a string, of bytes or of an extension. -/
  | payloadCut
  /-- The marker that begins no object. -/
  | reservedMarker
  /-- A container stands deeper than the levels allowed. -/
  | tooDeep
  deriving DecidableEq, Repr

/-- The text of a failure. -/
def Malformed.message : Malformed → String
  | .markerMissing => "IO error while reading marker: failed to fill whole buffer"
  | .fieldCut => "IO error while reading data: failed to fill whole buffer"
  | .payloadCut => "IO error while reading data: unexpected end of file"
  | .reservedMarker => "wrong msgpack marker Reserved"
  | .tooDeep => "depth limit exceeded"

/-- A reader takes something off the front of a byte string. -/
abbrev Reader (α : Type) := Bytes → Except Malformed (α × Bytes)

namespace Reader

/-- A number of `width` bytes. -/
def number (width : Nat) : Reader Nat := fun input =>
  match input.cut? width with
  | some (front, rest) => .ok (Bytes.ofBigEndian front, rest)
  | none => .error .fieldCut

/-- A payload of `n` bytes. -/
def payload (n : Nat) : Reader Bytes := fun input =>
  match input.cut? n with
  | some cut => .ok cut
  | none => .error .payloadCut

/-- Two things of one kind, one after the other. -/
def pair {α : Type} (read : Reader α) : Reader (α × α) := fun input => do
  let (first, input) ← read input
  let (second, input) ← read input
  return ((first, second), input)

/-- `n` things of one kind, behind those that have been read already, latest first. -/
def timesOnto {α : Type} (read : Reader α) : Nat → List α → Reader (List α)
  | 0, done, input => .ok (done.reverse, input)
  | n + 1, done, input =>
    match read input with
    | .ok (a, input) => timesOnto read n (a :: done) input
    | .error e => .error e

/-- `n` things of one kind, one after the other. -/
def times {α : Type} (read : Reader α) (n : Nat) : Reader (List α) := timesOnto read n []

theorem timesOnto_eq {α : Type} (read : Reader α) (n : Nat) (done : List α) (input : Bytes) :
    timesOnto read n done input =
      (times read n input).map fun (items, rest) => (done.reverse ++ items, rest) := by
  unfold times
  induction n generalizing done input with
  | zero => simp [timesOnto, Except.map]
  | succ n ih =>
    unfold timesOnto
    cases read input with
    | error e => rfl
    | ok r =>
      obtain ⟨a, rest⟩ := r
      simp only [ih (a :: done), ih [a]]
      cases timesOnto read n [] rest <;> simp [Except.map]

@[simp] theorem times_zero {α : Type} (read : Reader α) (input : Bytes) :
    times read 0 input = .ok ([], input) := rfl

/-- Reading one thing more is reading it first. -/
theorem times_succ {α : Type} (read : Reader α) (n : Nat) (input : Bytes) :
    times read (n + 1) input = (do
      let (a, input) ← read input
      let (items, input) ← times read n input
      return (a :: items, input)) := by
  rw [times, timesOnto]
  cases read input with
  | error e => rfl
  | ok r =>
    obtain ⟨a, rest⟩ := r
    simp only [timesOnto_eq read n [a]]
    cases h : times read n rest <;> simp [bind, Except.bind, h, Except.map, pure, Except.pure]

end Reader

namespace Value

open Reader

/-- The value of a natural number of sixty-four bits. -/
def ofNatural (n : Nat) : Value :=
  if n < 0x8000000000000000 then .int (Int64.ofNat n) else .uint (UInt64.ofNat n)

/-- The value of a number of `width` bytes whose highest bit is its sign. -/
def ofSigned (width n : Nat) : Value := .int (Int64.ofInt (Int.bmod n (256 ^ width)))

/-- The value of the bytes of a string. -/
def ofText (bytes : Bytes) : Value :=
  match Utf8.decode? bytes with
  | some text => .str text
  | none => .bin bytes

/-- A string of `n` bytes. -/
def readText (n : Nat) : Reader Value := fun input => do
  let (bytes, input) ← payload n input
  return (ofText bytes, input)

/-- `n` bytes. -/
def readBin (n : Nat) : Reader Value := fun input => do
  let (bytes, input) ← payload n input
  return (.bin bytes, input)

/-- An array of `n` items, if there is a reader for members. -/
def readArray (member : Option (Reader Value)) (n : Nat) : Reader Value := fun input =>
  match member with
  | none => .error .tooDeep
  | some member => do
    let (items, input) ← times member n input
    return (.array items, input)

/-- A map of `n` entries, if there is a reader for members. -/
def readMap (member : Option (Reader Value)) (n : Nat) : Reader Value := fun input =>
  match member with
  | none => .error .tooDeep
  | some member => do
    let (entries, input) ← times (pair member) n input
    return (.map entries, input)

/-- An extension of `n` bytes, if members are allowed. -/
def readExt (member : Option (Reader Value)) (n : Nat) : Reader Value := fun input =>
  match member with
  | none => .error .tooDeep
  | some _ => do
    let (tag, input) ← number 1 input
    let (bytes, input) ← payload n input
    return (.ext (UInt8.ofNat tag).toInt8 bytes, input)

/-- One object, with a reader for the members of a container if containers are allowed. -/
def readWith (member : Option (Reader Value)) : Reader Value
  | [] => .error .markerMissing
  | b :: input =>
    match Marker.ofByte b with
    | .nil => .ok (.nil, input)
    | .reserved => .error .reservedMarker
    | .bool b => .ok (.bool b, input)
    | .fixNat n => .ok (ofNatural n, input)
    | .fixNegative n => .ok (.int (Int64.ofInt (n - 32 : Int)), input)
    | .uint k => do
      let (n, input) ← number (2 ^ k.val) input
      return (ofNatural n, input)
    | .int k => do
      let (n, input) ← number (2 ^ k.val) input
      return (ofSigned (2 ^ k.val) n, input)
    | .float32 => do
      let (n, input) ← number 4 input
      return (.float (.ofBinary32 n), input)
    | .float64 => do
      let (n, input) ← number 8 input
      return (.float ⟨UInt64.ofNat n⟩, input)
    | .fixStr n => readText n input
    | .str k => do
      let (n, input) ← number (2 ^ k.val) input
      readText n input
    | .bin k => do
      let (n, input) ← number (2 ^ k.val) input
      readBin n input
    | .fixArray n => readArray member n input
    | .array k => do
      let (n, input) ← number (2 ^ (k.val + 1)) input
      readArray member n input
    | .fixMap n => readMap member n input
    | .map k => do
      let (n, input) ← number (2 ^ (k.val + 1)) input
      readMap member n input
    | .fixExt k => readExt member (2 ^ k.val) input
    | .ext k => do
      let (n, input) ← number (2 ^ k.val) input
      readExt member n input

/-- One object whose containers are nested at most `levels` deep. -/
def read : (levels : Nat) → Reader Value
  | 0 => readWith none
  | levels + 1 => readWith (some (read levels))

/-- How deep the containers of an object that comes over a link may be nested.  A counter of 1024 is
lowered at each container and tested for zero only then, so the last of its levels is never used. -/
def nestingLimit : Nat := 1023

end Value
end KeyValueClient
