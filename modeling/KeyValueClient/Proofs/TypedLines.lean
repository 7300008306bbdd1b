import KeyValueClient.Proofs.Numerals
import KeyValueClient.Proofs.Outgoing
import KeyValueClient.Proofs.Parsing

/-!
# The lines on which a command can be typed

A quote groups what stands behind it, and there is no way to write one inside a group.  So a line
never says a command with a quote in one of its texts, and this is the only restriction: every other
command can be typed, whatever its texts are, by putting each of them in quotes.

`Command.TypedOn line c` says that `c` is typed on `line` in this way: its name, in capitals and
small letters at will, then its fields in order, each text in quotes and an expiry in decimal, with
one or more spaces in front of each field.  The quotes take care of empty texts, of spaces and of
everything else that the scan or the trimming of a line might act on: such a line begins with a
letter and ends with a letter, a quote or a digit, so trimming leaves it alone
(`strip_of_typedOn`).

**The lines say the commands without quotes and no others** (`Command.lines_say_quoteFree`), and a
session sends the bytes of the command that was typed.
-/

namespace KeyValueClient

open Link (Script)

/-- The characters that a line keeps as they are: neither the scan nor the trimming acts on them. -/
structure Plain (c : Char) : Prop where
  not_quote : c ≠ '"'
  not_space : c ≠ ' '
  not_blank : Text.isBlank c = false

/-- The visible characters of ASCII behind the quote are plain. -/
theorem plain_of_visible {c : Char} (hlow : 0x22 < c.toNat) (hhigh : c.toNat < 0x85) :
    Plain c where
  not_quote := by
    rintro rfl
    exact absurd hlow (by decide)
  not_space := by
    rintro rfl
    exact absurd hlow (by decide)
  not_blank := by
    simp [Text.isBlank, Text.blankRuns]
    omega

/-- A numeral is plain. -/
theorem plain_of_mem_toString {i : Int} {c : Char} (h : c ∈ (toString i).toList) : Plain c := by
  have hvisible := Text.visible_of_mem_toString c h
  exact plain_of_visible (by omega) (by omega)

/-- A name in capitals and small letters is plain. -/
theorem plain_of_toUpper {name : String} {command : CommandName}
    (hname : name.toUpper = command.text) {c : Char} (h : c ∈ name.toList) : Plain c := by
  have hletter := CommandName.letter_of_toUpper hname c h
  exact plain_of_visible (by omega) (by omega)

namespace Command

/-! ## Texts without quotes -/

/-- No text that a command carries has a quote in it. -/
def QuoteFree (c : Command) : Prop :=
  ∀ field text, (field, FieldValue.text text) ∈ c.fields → '"' ∉ text.toList

/-- A command takes its texts from its arguments, so it has no quotes if they have none. -/
theorem Takes.quoteFree {arguments : List String} {c : Command} (h : Takes arguments c)
    (hquote : ∀ argument ∈ arguments, '"' ∉ argument.toList) : c.QuoteFree := by
  intro field text hfield
  cases h with
  | ping | flushdb => cases hfield
  | echo word words =>
    simp only [fields, List.mem_singleton, Prod.mk.injEq, FieldValue.text.injEq] at hfield
    rw [hfield.2]
    exact notMem_quote_intercalate hquote
  | set | setExpiring | get | incr | push | lpop | rpop =>
    refine hquote text ?_
    simp only [fields, List.mem_cons, List.not_mem_nil, or_false, Prod.mk.injEq,
      FieldValue.text.injEq, reduceCtorEq, and_false] at hfield ⊢
    tauto

/-- A line never says a command with a quote. -/
theorem quoteFree_of_parse {line : String} {c : Command} (h : parse line = .ok c) :
    c.QuoteFree := by
  obtain ⟨token, arguments, htokens, -, htakes⟩ := parse_eq_ok_iff.mp h
  exact htakes.quoteFree (List.forall_mem_cons.mp (notMem_quote_of_tokenize htokens)).2

/-! ## Typing a command -/

/-- What the tokenizer finds of a field. -/
def FieldValue.token : FieldValue → List Char
  | .text s => s.toList
  | .integer i => (toString i.toInt).toList

/-- A field as it is typed: a text in quotes, an integer in decimal. -/
def FieldValue.typed : FieldValue → List Char
  | .text s => '"' :: (s.toList ++ ['"'])
  | .integer i => (toString i.toInt).toList

/-- Fields as they are typed, with one or more spaces in front of each. -/
inductive FieldsTyped : List (String × FieldValue) → List Char → Prop
  | nil : FieldsTyped [] []
  | cons (gap : Nat) (field : String × FieldValue) {fields : List (String × FieldValue)}
      {text : List Char} (h : FieldsTyped fields text) :
      FieldsTyped (field :: fields) (List.replicate (gap + 1) ' ' ++ field.2.typed ++ text)

/-- A command is typed on a line: its name, in capitals and small letters, and then its fields. -/
def TypedOn (line : String) (c : Command) : Prop :=
  ∃ (name : String) (text : List Char), name.toUpper = c.name.text ∧ FieldsTyped c.fields text ∧
    line = name ++ String.ofList text

theorem FieldValue.written_typed (v : FieldValue) : Written v.token v.typed := by
  cases v with
  | text s => exact .quoted s.toList
  | integer i =>
    refine .bare (Text.toList_toString_ne_nil i.toInt) fun hspace => ?_
    exact (plain_of_mem_toString hspace).not_space rfl

/-- Behind a word the fields of a command are tokens of the line. -/
theorem FieldsTyped.renders {fields : List (String × FieldValue)} {text token word : List Char}
    (h : FieldsTyped fields text) (hword : Written token word) :
    Renders (token :: fields.map fun field => field.2.token) (word ++ text) := by
  induction h generalizing token word with
  | nil => simpa using Renders.last hword
  | cons gap field _ ih =>
    have hlater := (ih field.2.written_typed).replicate_append gap
    simpa [List.replicate_succ] using Renders.cons hword hlater

/-- A field ends with a quote or a digit. -/
theorem FieldValue.exists_getLast?_typed (v : FieldValue) :
    ∃ c, v.typed.getLast? = some c ∧ Text.isBlank c = false := by
  cases v with
  | text s => exact ⟨'"', by rw [typed, ← List.cons_append, List.getLast?_concat], by decide⟩
  | integer i =>
    have hne := Text.toList_toString_ne_nil i.toInt
    exact ⟨_, List.getLast?_eq_some_getLast hne,
      (plain_of_mem_toString (List.getLast_mem hne)).not_blank⟩

/-- No blank ends the fields. -/
theorem FieldsTyped.isBlank_getLast? {fields : List (String × FieldValue)} {text : List Char}
    (h : FieldsTyped fields text) : ∀ c ∈ text.getLast?, Text.isBlank c = false := by
  induction h with
  | nil => simp
  | @cons gap field _ text _ ih =>
    intro c hc
    obtain ⟨last, hlast, hblank⟩ := field.2.exists_getLast?_typed
    rw [List.getLast?_append, List.getLast?_append, hlast] at hc
    cases htext : text.getLast? with
    | none =>
      rw [htext] at hc
      cases hc
      exact hblank
    | some d =>
      rw [htext] at hc
      cases hc
      exact ih c htext

/-- Fields can be typed, with single spaces. -/
theorem exists_fieldsTyped (fields : List (String × FieldValue)) :
    ∃ text, FieldsTyped fields text := by
  induction fields with
  | nil => exact ⟨[], .nil⟩
  | cons field fields ih =>
    obtain ⟨text, h⟩ := ih
    exact ⟨_, .cons 0 field h⟩

/-! ## Reading a typed command -/

/-- A command takes its own fields. -/
theorem takes_fields (c : Command) :
    Takes (c.fields.map fun field => String.ofList field.2.token) c := by
  cases c with
  | ping => exact .ping
  | flushdb => exact .flushdb
  | echo message => simpa [fields, FieldValue.token] using Takes.echo message []
  | set key value expiry =>
    cases expiry with
    | none => simpa [fields, FieldValue.token] using Takes.set key value
    | some expiry =>
      simpa [fields, FieldValue.token] using
        Takes.setExpiring key value (Text.int64?_toString expiry) []
  | get key => simpa [fields, FieldValue.token] using Takes.get key []
  | incr key offset => simpa [fields, FieldValue.token] using Takes.incr key offset []
  | push key value => simpa [fields, FieldValue.token] using Takes.push key value []
  | lpop key => simpa [fields, FieldValue.token] using Takes.lpop key []
  | rpop key => simpa [fields, FieldValue.token] using Takes.rpop key []

/-- A field of a command without quotes is a token without quotes. -/
theorem QuoteFree.notMem_token {c : Command} (h : c.QuoteFree) {field : String × FieldValue}
    (hfield : field ∈ c.fields) : '"' ∉ field.2.token := by
  obtain ⟨name, text | i⟩ := field
  · exact h name text hfield
  · intro hquote
    exact (plain_of_mem_toString hquote).not_quote rfl

section TypedOn

variable {line : String} {c : Command}

/-- **A typed command is read.** -/
theorem parse_of_typedOn (hc : c.QuoteFree) (h : TypedOn line c) : parse line = .ok c := by
  obtain ⟨name, text, hname, hfields, rfl⟩ := h
  have hword : Written name.toList name.toList :=
    .bare (CommandName.toList_ne_nil_of_toUpper hname) fun hspace =>
      (plain_of_toUpper hname hspace).not_space rfl
  have hquote : ∀ token ∈ name.toList :: c.fields.map fun field => field.2.token,
      '"' ∉ token := by
    refine List.forall_mem_cons.mpr ⟨?_, List.forall_mem_map.mpr ?_⟩
    · exact fun hmem => (plain_of_toUpper hname hmem).not_quote rfl
    · exact fun field hfield => hc.notMem_token hfield
  have htokens : tokenize (name ++ String.ofList text) =
      .ok (name :: c.fields.map fun field => String.ofList field.2.token) := by
    rw [tokenize_of_renders (by simpa using hfields.renders hword) hquote]
    simp
  exact parse_eq_ok_iff.mpr ⟨name, _, htokens, CommandName.ofText?_of_toUpper hname,
    takes_fields c⟩

/-- Trimming leaves the line of a typed command alone. -/
theorem strip_of_typedOn (h : TypedOn line c) : Text.strip line = line := by
  obtain ⟨name, text, hname, hfields, rfl⟩ := h
  have hplain : ∀ c ∈ name.toList, Text.isBlank c = false :=
    fun c hc => (plain_of_toUpper hname hc).not_blank
  have hfirst : ∀ c ∈ (name.toList ++ text).head?, Text.isBlank c = false := by
    intro c hc
    rw [List.head?_append_of_ne_nil _ (CommandName.toList_ne_nil_of_toUpper hname)] at hc
    exact hplain c (List.mem_of_mem_head? hc)
  have hlast : ∀ c ∈ (name.toList ++ text).getLast?, Text.isBlank c = false := by
    intro c hc
    rw [List.getLast?_append, Option.mem_def, Option.or_eq_some_iff] at hc
    rcases hc with htext | ⟨-, hc⟩
    · exact hfields.isBlank_getLast? c htext
    · exact hplain c (List.mem_of_getLast? hc)
  have htrim := Text.trim_eq_self hfirst hlast
  rw [Text.strip, String.toList_append, String.toList_ofList, htrim, String.ofList_append,
    String.ofList_toList]

/-- A session reads a typed command from its line. -/
theorem ofLine?_of_typedOn (hc : c.QuoteFree) (h : TypedOn line c) : ofLine? line = some c := by
  rw [ofLine?_eq_some_iff, strip_of_typedOn h]
  exact parse_of_typedOn hc h

end TypedOn

/-- **The lines say the commands without quotes and no others.**  A command that a line says has no
quote in its texts.  Every command can be typed on lines, and one without quotes is read from each
of them; on an obliging link a session sends the bytes of the command for such a line, and nothing
else. -/
theorem lines_say_quoteFree :
    (∀ line c, parse line = .ok c → c.QuoteFree) ∧
    (∀ c, ∃ line, TypedOn line c) ∧
    (∀ line c, c.QuoteFree → TypedOn line c →
      parse line = .ok c ∧
        ∀ (connection : Connection) (s : Script), s.Obliging →
          (connection.afterLine line s).written = s.written ++ c.encode) := by
  refine ⟨?_, ?_, ?_⟩
  · intro line c h
    exact quoteFree_of_parse h
  · intro c
    obtain ⟨text, htext⟩ := exists_fieldsTyped c.fields
    exact ⟨_, c.name.text, text, c.name.toUpper_text, htext, rfl⟩
  · intro line c hc htyped
    refine ⟨parse_of_typedOn hc htyped, ?_⟩
    intro connection s hs
    have hline := ofLine?_of_typedOn hc htyped
    rw [(Connection.sameSending_afterLine hline).written, Script.afterSend_written,
      Script.accepted_of_delivery (hs.delivery _)]

/-- A name in both letter cases, an empty text, one with spaces and a line feed in it, and the least
expiry, over a link that takes one byte first. -/
theorem lines_say_set_with_spaces :
    let line := "sEt \"\" \" a \n\"   -9223372036854775808"
    let c := Command.set "" " a \n" (some (-9223372036854775808))
    let script : Script := { writes := [.accept 1] }
    c.QuoteFree ∧ TypedOn line c ∧ parse line = .ok c ∧ script.Obliging ∧
      ((⟨"peer", 16⟩ : Connection).afterLine line script).written = c.encode := by
  intro line c script
  obtain ⟨hfree, -, htyped⟩ := lines_say_quoteFree
  have hline : TypedOn line c :=
    ⟨"sEt", _, CommandName.toUpper_eq_iff.mpr (by decide), .cons 0 _ (.cons 0 _ (.cons 2 _ .nil)),
      by decide⟩
  have hquote : c.QuoteFree := (takes_fields c).quoteFree (by decide)
  have hobliging : script.Obliging :=
    ⟨List.forall_mem_singleton.mpr one_ne_zero, fun _ h => absurd h List.not_mem_nil⟩
  obtain ⟨hparse, hwritten⟩ := htyped line c hquote hline
  exact ⟨hfree line c hparse, hline, hparse, hobliging, hwritten ⟨"peer", 16⟩ script hobliging⟩

end Command
end KeyValueClient
