import KeyValueClient.Proofs.ReaderLaws
import KeyValueClient.Proofs.Tokens

/-!
# Lines that are commands

Reading a line goes through three stages, each of which can refuse it: the tokens, the name and the
arguments.  `Command.parse_eq_ok_iff` says when none of them does.  The arguments are treated by a
relation: `Command.Takes arguments c` lists, for each command, the arguments with which it comes out
as `c`, and `Command.ofArguments_eq_ok_iff` says that this is what the reader of arguments accepts.
Whatever is said about lines that are commands goes through these two equivalences.

A name of ASCII letters selects the command whose name it is in capitals
(`CommandName.ofText?_of_toUpper`).
-/

namespace KeyValueClient

/-! ## Names -/

namespace CommandName

/-- A character is its own ASCII capital, or it is a small letter. -/
theorem toUpper_cases (c : Char) :
    c.toUpper = c ∨ 97 ≤ c.toNat ∧ c.toNat ≤ 122 := by
  unfold Char.toUpper
  split
  · next hsmall => exact .inr hsmall
  · exact .inl rfl

/-- ASCII capitals of a string are those of its characters. -/
theorem toUpper_eq_iff {s t : String} : s.toUpper = t ↔ s.toList.map Char.toUpper = t.toList := by
  rw [← String.toList_inj, String.toUpper, String.toList_map]

/-- Names are made of capitals. -/
theorem capital_of_mem_text (command : CommandName) :
    ∀ c ∈ command.text.toList, 65 ≤ c.toNat ∧ c.toNat ≤ 90 := by
  have hall : command.text.toList.all (fun c => 65 ≤ c.toNat ∧ c.toNat ≤ 90) = true := by
    cases command <;> rfl
  intro c hc
  exact of_decide_eq_true (List.all_eq_true.mp hall c hc)

/-- The characters of a name in capitals and small letters stand between `A` and `z`. -/
theorem letter_of_toUpper {name : String} {command : CommandName}
    (h : name.toUpper = command.text) : ∀ c ∈ name.toList, 65 ≤ c.toNat ∧ c.toNat ≤ 122 := by
  intro c hc
  rcases toUpper_cases c with hsame | hsmall
  · have hmem : c ∈ command.text.toList := by
      rw [← h, String.toUpper, String.toList_map, ← hsame]
      exact List.mem_map_of_mem hc
    have hcapital := capital_of_mem_text command c hmem
    omega
  · omega

/-- A name has letters. -/
theorem toList_ne_nil_of_toUpper {name : String} {command : CommandName}
    (h : name.toUpper = command.text) : name.toList ≠ [] := by
  intro hnil
  have hempty : command.text.toList = [] := by
    rw [← toUpper_eq_iff.mp h, hnil, List.map_nil]
  revert hempty
  cases command <;> decide

/-- **A name in capitals and small letters selects the command of the name.** -/
theorem ofText?_of_toUpper {name : String} {command : CommandName}
    (h : name.toUpper = command.text) : ofText? name = some command := by
  have hascii : ∀ c ∈ name.toList, c.toNat < 0x80 := by
    intro c hc
    have hletter := letter_of_toUpper h c hc
    omega
  refine ofCapitals?_eq_some_iff.mpr ?_
  rw [Text.uppercase, Text.upper_of_ascii hascii, toUpper_eq_iff.mp h, String.ofList_toList]

theorem toUpper_text (command : CommandName) : command.text.toUpper = command.text := by
  refine toUpper_eq_iff.mpr ?_
  cases command <;> decide

theorem ofToken_eq_ok_iff {token : String} {command : CommandName} :
    ofToken token = .ok command ↔ ofText? token = some command := by
  unfold ofToken
  cases ofText? token <;> simp

end CommandName

namespace Command

/-! ## Arguments -/

/-- The arguments that each command takes.  Behind those that it needs, most commands take any. -/
inductive Takes : List String → Command → Prop
  | ping : Takes [] .ping
  | flushdb : Takes [] .flushdb
  | echo (word : String) (words : List String) :
      Takes (word :: words) (.echo (" ".intercalate (word :: words)))
  | set (key value : String) : Takes [key, value] (.set key value none)
  | setExpiring (key value : String) {token : String} {expiry : Int64}
      (h : Text.int64? token = some expiry) (later : List String) :
      Takes (key :: value :: token :: later) (.set key value (some expiry))
  | get (key : String) (later : List String) : Takes (key :: later) (.get key)
  | incr (key offset : String) (later : List String) :
      Takes (key :: offset :: later) (.incr key offset)
  | push (key value : String) (later : List String) :
      Takes (key :: value :: later) (.push key value)
  | lpop (key : String) (later : List String) : Takes (key :: later) (.lpop key)
  | rpop (key : String) (later : List String) : Takes (key :: later) (.rpop key)

theorem readExpiry_eq_ok_iff {token : String} {expiry : Int64} :
    readExpiry token = .ok expiry ↔ Text.int64? token = some expiry := by
  unfold readExpiry
  cases Text.int64? token <;> simp

/-- **The reader of arguments accepts what the command of the name takes.** -/
theorem ofArguments_eq_ok_iff {name : CommandName} {arguments : List String} {c : Command} :
    ofArguments name arguments = .ok c ↔ c.name = name ∧ Takes arguments c := by
  constructor
  · fun_cases ofArguments name arguments with
    | case1 =>
      rintro ⟨⟩
      exact ⟨rfl, .ping⟩
    | case2 =>
      rintro ⟨⟩
      exact ⟨rfl, .flushdb⟩
    | case3 | case4 | case13 => rintro ⟨⟩
    | case5 word words =>
      rintro ⟨⟩
      exact ⟨rfl, .echo word words⟩
    | case6 key value =>
      rintro ⟨⟩
      exact ⟨rfl, .set key value⟩
    | case7 key value token later =>
      intro h
      obtain ⟨expiry, hexpiry, h⟩ := bind_eq_ok_iff.mp h
      cases h
      exact ⟨rfl, .setExpiring key value (readExpiry_eq_ok_iff.mp hexpiry) later⟩
    | case8 key later =>
      rintro ⟨⟩
      exact ⟨rfl, .get key later⟩
    | case9 key offset later =>
      rintro ⟨⟩
      exact ⟨rfl, .incr key offset later⟩
    | case10 key value later =>
      rintro ⟨⟩
      exact ⟨rfl, .push key value later⟩
    | case11 key later =>
      rintro ⟨⟩
      exact ⟨rfl, .lpop key later⟩
    | case12 key later =>
      rintro ⟨⟩
      exact ⟨rfl, .rpop key later⟩
  · rintro ⟨rfl, h⟩
    cases h with
    | setExpiring key value h later =>
      rw [name, ofArguments, readExpiry_eq_ok_iff.mpr h]
      rfl
    | _ => rfl

/-! ## Lines -/

/-- **When a line is a command**: it has tokens, the first one names the command, and the command
takes the others. -/
theorem parse_eq_ok_iff {line : String} {c : Command} :
    parse line = .ok c ↔ ∃ token arguments, tokenize line = .ok (token :: arguments) ∧
      CommandName.ofText? token = some c.name ∧ Takes arguments c := by
  unfold parse
  rw [bind_eq_ok_iff]
  constructor
  · rintro ⟨_ | ⟨token, arguments⟩, htokens, h⟩
    · cases h
    · obtain ⟨name, hname, harguments⟩ := bind_eq_ok_iff.mp h
      obtain ⟨rfl, htakes⟩ := ofArguments_eq_ok_iff.mp harguments
      exact ⟨token, arguments, htokens, CommandName.ofToken_eq_ok_iff.mp hname, htakes⟩
  · rintro ⟨token, arguments, htokens, hname, htakes⟩
    refine ⟨token :: arguments, htokens, ?_⟩
    exact bind_eq_ok_iff.mpr ⟨c.name, CommandName.ofToken_eq_ok_iff.mpr hname,
      ofArguments_eq_ok_iff.mpr ⟨rfl, htakes⟩⟩

end Command
end KeyValueClient
