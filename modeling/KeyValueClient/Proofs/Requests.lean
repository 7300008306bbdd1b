import KeyValueClient.Command.Wire
import KeyValueClient.Proofs.Writing

/-!
# Requests are read back

A command is written straight from its fields, and read by looking names up in a value.  What joins
the two is the value of a command (`Command.toValue`): a map with the name under `command` and then
the fields.

* The writer writes this value (`encode_eq_encode_toValue`), so what holds of written values holds
  of commands.
* The value is canonical and one level deep, so it comes back as it is (`canonical_toValue`,
  `nesting_toValue_le`).
* No two entries have one name, so the lookups find in it what the command carries
  (`get?_toValue`, `ofValue_toValue`).

**Every command is read back from its bytes, whatever stands behind them**
(`Command.ofPayload_encode_append`), if its texts have lengths that can be stored.
-/

namespace KeyValueClient
namespace Command

open MessagePack

/-! ## The value of a command -/

/-- A field's value. -/
def FieldValue.toValue : FieldValue → Value
  | .text s => .str s
  | .integer i => .int i

/-- The entries of a command: its name, then its fields. -/
def entries (c : Command) : List (String × Value) :=
  ("command", .str c.name.text) :: c.fields.map fun entry => (entry.1, entry.2.toValue)

/-- The value of a command. -/
def toValue (c : Command) : Value := .record c.entries

theorem FieldValue.encode_toValue (v : FieldValue) : v.toValue.encode = v.encode := by
  cases v <;> rfl

/-- The objects of a record: each name with its value. -/
theorem encodeEntries_record (entries : List (String × Value)) :
    Value.encodeEntries (entries.map fun entry => (.str entry.1, entry.2)) =
      entries.flatMap fun entry => string entry.1 ++ entry.2.encode := by
  rw [encodeEntries_eq_flatMap, List.flatMap_map]
  rfl

/-- **A command is written as its value.** -/
theorem encode_eq_encode_toValue (c : Command) : c.encode = c.toValue.encode := by
  have hfields : (c.fields.map fun entry => (entry.1, entry.2.toValue)).flatMap
      (fun entry => string entry.1 ++ entry.2.encode) =
      c.fields.flatMap fun entry => string entry.1 ++ entry.2.encode := by
    simp only [List.flatMap_map, FieldValue.encode_toValue]
  have hlen : c.entries.length = c.fields.length + 1 := by
    rw [entries, List.length_cons, List.length_map]
  rw [toValue, Value.record, Value.encode, encodeEntries_record, List.length_map, hlen, entries,
    List.flatMap_cons, hfields, encode, List.append_assoc]
  rfl

/-- Every text that a command carries has a length that can be stored. -/
def Storable (c : Command) : Prop :=
  ∀ name text, (name, FieldValue.text text) ∈ c.fields → (Utf8.encode text).length < 2 ^ 32

theorem canonical_toValue (c : Command) : c.toValue.canonical = c.toValue := by
  have hfield : ∀ v : FieldValue, v.toValue.canonical = v.toValue := by
    intro v
    cases v <;> rfl
  rw [toValue, Value.record, Value.canonical_map, List.map_map]
  refine congrArg Value.map (List.map_congr_left ?_)
  intro entry hentry
  have hvalue : entry.2.canonical = entry.2 := by
    rcases List.mem_cons.mp hentry with rfl | hentry
    · rfl
    · obtain ⟨field, -, rfl⟩ := List.mem_map.mp hentry
      exact hfield field.2
  rw [Function.comp_apply, Value.canonical_str, hvalue]

theorem nesting_toValue_le (c : Command) : c.toValue.nesting ≤ 1 := by
  refine Value.nesting_map_le_succ_iff.mpr (List.forall_mem_map.mpr ?_)
  intro entry hentry
  refine ⟨Nat.zero_le 0, ?_⟩
  rcases List.mem_cons.mp hentry with rfl | hentry
  · exact Nat.zero_le 0
  · obtain ⟨⟨name, value⟩, -, rfl⟩ := List.mem_map.mp hentry
    cases value <;> exact Nat.zero_le 0

theorem length_fields_le (c : Command) : c.fields.length ≤ 3 := by
  cases c with
  | set key value expiry => cases expiry <;> simp [fields]
  | _ => simp [fields]

/-- The names under which commands are written. -/
def entryNames : List String := ["command", "message", "key", "value", "offset", "exp"]

theorem mem_entryNames {c : Command} {entry : String × Value} (h : entry ∈ c.entries) :
    entry.1 ∈ entryNames := by
  have hnames : ∀ name ∈ c.entries.map Prod.fst, name ∈ entryNames := by
    cases c with
    | set key value expiry => cases expiry <;> simp [entries, fields, entryNames]
    | _ => simp [entries, fields, entryNames]
  exact hnames _ (List.mem_map_of_mem h)

/-- The names themselves are short. -/
theorem length_encode_name_lt :
    (∀ name ∈ entryNames, (Utf8.encode name).length < 2 ^ 32) ∧
      ∀ name ∈ CommandName.all, (Utf8.encode name.text).length < 2 ^ 32 := by
  decide

/-- A command whose texts can be stored has a value that can be stored. -/
theorem Storable.toValue {c : Command} (h : c.Storable) : c.toValue.Storable := by
  have hlen : c.entries.length < 2 ^ 32 := by
    have hfields := c.length_fields_le
    rw [entries, List.length_cons, List.length_map]
    omega
  refine .map (by rwa [List.length_map]) (List.forall_mem_map.mpr ?_)
    (List.forall_mem_map.mpr ?_)
  · intro entry hentry
    exact .str (length_encode_name_lt.1 _ (mem_entryNames hentry))
  · intro entry hentry
    rcases List.mem_cons.mp hentry with rfl | hentry
    · exact .str (length_encode_name_lt.2 _ c.name.mem_all)
    · obtain ⟨⟨name, value⟩, hfield, rfl⟩ := List.mem_map.mp hentry
      cases value with
      | text s => exact .str (h name s hfield)
      | integer i => exact .int i

/-- The bytes of a command are an object, and it means the value of the command. -/
theorem Storable.denotes {c : Command} (hc : c.Storable) : Denotes c.encode c.toValue := by
  have h := denotes_encode hc.toValue
  rwa [canonical_toValue, ← encode_eq_encode_toValue] at h

/-- The value of a command is read from its bytes, whatever stands behind them. -/
theorem valueOfPayload_encode_append {c : Command} (hc : c.Storable) (rest : Bytes) :
    Value.ofPayload (c.encode ++ rest) = .ok c.toValue := by
  have hfits : c.toValue.nesting ≤ Value.nestingLimit :=
    Nat.le_trans (nesting_toValue_le c) (by decide)
  rw [Value.ofPayload_denotes_append hc.denotes, if_pos hfits]

/-! ## Looking fields up -/

theorem get?_record_nil (name : String) : (Value.record []).get? name = none := rfl

/-- In a record the name of the first entry is tried first. -/
theorem get?_record_cons (name : String) (entry : String × Value)
    (entries : List (String × Value)) :
    (Value.record (entry :: entries)).get? name =
      if entry.1 = name then some entry.2 else (Value.record entries).get? name := by
  have hkey : (Value.str entry.1).asText? = some name ↔ entry.1 = name := Option.some_inj
  show Value.lookup name ((Value.str entry.1, entry.2) :: _) = _
  rw [Value.lookup_cons]
  exact if_congr hkey rfl rfl

/-- No two entries of a command have one name, so every field is found under its name. -/
theorem get?_toValue {c : Command} {name : String} {v : FieldValue} (h : (name, v) ∈ c.fields) :
    c.toValue.get? name = some v.toValue := by
  unfold toValue entries
  cases c with
  | ping | flushdb => cases h
  | echo | get | lpop | rpop =>
    simp only [fields, List.mem_singleton, Prod.mk.injEq] at h
    obtain ⟨rfl, rfl⟩ := h
    simp [fields, get?_record_cons]
  | incr | push =>
    simp only [fields, List.mem_cons, List.not_mem_nil, or_false, Prod.mk.injEq] at h
    rcases h with ⟨rfl, rfl⟩ | ⟨rfl, rfl⟩ <;> simp [fields, get?_record_cons]
  | set key value expiry =>
    cases expiry with
    | none =>
      simp only [fields, List.mem_cons, List.not_mem_nil, or_false, Prod.mk.injEq] at h
      rcases h with ⟨rfl, rfl⟩ | ⟨rfl, rfl⟩ <;> simp [fields, get?_record_cons]
    | some expiry =>
      simp only [fields, List.mem_cons, List.not_mem_nil, or_false, Prod.mk.injEq] at h
      rcases h with ⟨rfl, rfl⟩ | ⟨rfl, rfl⟩ | ⟨rfl, rfl⟩ <;> simp [fields, get?_record_cons]

theorem textField_toValue {c : Command} {field text : String}
    (h : (field, FieldValue.text text) ∈ c.fields) (name : CommandName) :
    textField c.toValue name field = .ok text := by
  rw [textField, get?_toValue h]
  rfl

theorem expiryField_toValue (key value : String) (expiry : Option Int64) :
    expiryField (Command.set key value expiry).toValue = .ok expiry := by
  cases expiry with
  | none =>
    have hget : (Command.set key value none).toValue.get? "exp" = none := by
      simp [toValue, entries, fields, get?_record_cons, get?_record_nil]
    rw [expiryField, hget]
  | some expiry =>
    have hget : (Command.set key value (some expiry)).toValue.get? "exp" = some (.int expiry) :=
      get?_toValue (v := .integer expiry) (by simp [fields])
    rw [expiryField, hget]
    rfl

/-- The lookups find what the command carries. -/
theorem ofFields_toValue (c : Command) : ofFields c.toValue c.name = .ok c := by
  cases c with
  | ping | flushdb => rfl
  | echo message =>
    have hmessage : textField (Command.echo message).toValue .echo "message" = .ok message :=
      textField_toValue (List.mem_cons_self ..) .echo
    simp only [ofFields, name, hmessage]
    rfl
  | get key =>
    have hkey : textField (Command.get key).toValue .get "key" = .ok key :=
      textField_toValue (List.mem_cons_self ..) .get
    simp only [ofFields, name, hkey]
    rfl
  | lpop key =>
    have hkey : textField (Command.lpop key).toValue .lpop "key" = .ok key :=
      textField_toValue (List.mem_cons_self ..) .lpop
    simp only [ofFields, name, hkey]
    rfl
  | rpop key =>
    have hkey : textField (Command.rpop key).toValue .rpop "key" = .ok key :=
      textField_toValue (List.mem_cons_self ..) .rpop
    simp only [ofFields, name, hkey]
    rfl
  | incr key offset =>
    have hkey : textField (Command.incr key offset).toValue .incr "key" = .ok key :=
      textField_toValue (List.mem_cons_self ..) .incr
    have hoffset : textField (Command.incr key offset).toValue .incr "offset" = .ok offset :=
      textField_toValue (List.mem_cons_of_mem _ (List.mem_cons_self ..)) .incr
    simp only [ofFields, name, hkey, hoffset]
    rfl
  | push key value =>
    have hkey : textField (Command.push key value).toValue .push "key" = .ok key :=
      textField_toValue (List.mem_cons_self ..) .push
    have hvalue : textField (Command.push key value).toValue .push "value" = .ok value :=
      textField_toValue (List.mem_cons_of_mem _ (List.mem_cons_self ..)) .push
    simp only [ofFields, name, hkey, hvalue]
    rfl
  | set key value expiry =>
    have hkey : textField (Command.set key value expiry).toValue .set "key" = .ok key :=
      textField_toValue (by cases expiry <;> simp [fields]) .set
    have hvalue : textField (Command.set key value expiry).toValue .set "value" = .ok value :=
      textField_toValue (by cases expiry <;> simp [fields]) .set
    simp only [ofFields, name, hkey, hvalue, expiryField_toValue]
    rfl

/-- A command is found by its own name. -/
theorem ofText?_text (name : CommandName) : CommandName.ofText? name.text = some name := by
  cases name <;> decide

theorem ofValue_toValue (c : Command) : ofValue c.toValue = .ok c := by
  have hmap : c.toValue.asMap?.isNone = false := rfl
  have hname : (c.toValue.get? "command").bind Value.asText? = some c.name.text := by
    rw [toValue, entries, get?_record_cons, if_pos rfl]
    rfl
  simp only [ofValue, hmap, hname, ofText?_text]
  exact ofFields_toValue c

/-! ## Requests -/

/-- **Every command is read back from its bytes**, whatever stands behind them. -/
theorem ofPayload_encode_append {c : Command} (hc : c.Storable) (rest : Bytes) :
    ofPayload (c.encode ++ rest) = .ok c := by
  rw [ofPayload, bind_of_eq_ok (valueOfPayload_encode_append hc rest), ofValue_toValue]

/-- A command with an expiry at the end of the range and a text that is not ASCII is read back, with
a byte behind it that begins no object. -/
theorem ofPayload_encode_set_append :
    (Command.set "clé" "" (some (-9223372036854775808))).Storable ∧
      ofPayload ((Command.set "clé" "" (some (-9223372036854775808))).encode ++ [0xc1]) =
        .ok (.set "clé" "" (some (-9223372036854775808))) := by
  have hstorable : (Command.set "clé" "" (some (-9223372036854775808))).Storable := by
    intro name text h
    simp only [fields, List.mem_cons, List.not_mem_nil, or_false, Prod.mk.injEq,
      FieldValue.text.injEq] at h
    rcases h with ⟨-, rfl⟩ | ⟨-, rfl⟩ | ⟨-, h⟩
    · decide
    · decide
    · cases h
  exact ⟨hstorable, ofPayload_encode_append hstorable [0xc1]⟩

end Command
end KeyValueClient
