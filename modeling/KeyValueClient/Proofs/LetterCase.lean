import KeyValueClient.Command.Wire
import KeyValueClient.Proofs.Classification
import KeyValueClient.Proofs.Parsing

/-!
# The letters of a command's name

A name is brought to upper case as a text of Unicode before it is compared.  This is more than the
ASCII case of its letters: a few characters beyond ASCII have capitals of ASCII for their upper
case, and one that stands for several capitals changes the length.  So a name is not always found by
a text of its own length, and `ﬂushdb`, which begins with a ligature, selects `FLUSHDB`
(`ligature_selects_flushdb`).

How far this goes is a question about the table, answered in two steps.

* A character beyond ASCII whose upper case stands somewhere in one of the nine names is the dotless
  i, the long s or the ligature fl (`isLetterForm_of_infix_name`).  The other ligatures and the
  sharp s have capitals too, but no name has these next to each other.
* So a character of a name can be replaced by the ASCII letters for which it stands
  (`asciiLetters`), and the upper case of the name is the ASCII upper case of the letters
  (`upperChar_of_infix_name`, `upperChar_of_forall_mem`).

**A text selects a command exactly when its letters are the name in capitals and small letters**
(`selected_by_letters`), on a typed line as in a request that was received.
-/

namespace KeyValueClient
namespace CommandName

open Text (upper upperChar caseExpansions caseRuns)

/-! ## Letters beyond ASCII -/

/-- The ASCII letters for which a character stands in a name: the dotless i, the long s and the
ligature fl stand for capitals, and any other character for itself. -/
def asciiLetters (c : Char) : List Char :=
  if c = '\u0131' then ['I']
  else if c = '\u017f' then ['S']
  else if c = '\ufb02' then ['F', 'L']
  else [c]

/-- A character that stands for other letters. -/
def IsLetterForm (c : Char) : Prop := c = '\u0131' ∨ c = '\u017f' ∨ c = '\ufb02'

instance (c : Char) : Decidable (IsLetterForm c) := inferInstanceAs (Decidable (_ ∨ _ ∨ _))

/-- A text is a name when its letters are, in capitals and small letters. -/
def Spells (text : String) (name : CommandName) : Prop :=
  (text.toList.flatMap asciiLetters).map Char.toUpper = name.text.toList

instance (text : String) (name : CommandName) : Decidable (Spells text name) :=
  inferInstanceAs (Decidable (_ = _))

theorem asciiLetters_of_not_isLetterForm {c : Char} (h : ¬ IsLetterForm c) :
    asciiLetters c = [c] := by
  unfold IsLetterForm at h
  rw [not_or, not_or] at h
  rw [asciiLetters, if_neg h.1, if_neg h.2.1, if_neg h.2.2]

/-- The upper case of these characters is made of the letters for which they stand. -/
theorem upperChar_of_isLetterForm {c : Char} (h : IsLetterForm c) :
    upperChar c = (asciiLetters c).map Char.toUpper := by
  rcases h with rfl | rfl | rfl
  · decide +kernel
  · decide +kernel
  · decide +kernel

/-! ## The table and the names -/

/-- Of the texts in the table only one stands in a name. -/
theorem eq_of_expansion_infix_name : ∀ entry ∈ caseExpansions, ∀ name ∈ all,
    entry.2.map Char.ofNat <:+: name.text.toList → entry.1 = 0xfb02 := by
  decide +kernel

/-- Of the runs in the table only two reach down to the capitals, each of a single character. -/
theorem eq_of_run_low : ∀ run ∈ caseRuns, (run.first : Int) + run.shift ≤ 90 →
    run.first = run.last ∧ (run.first = 0x131 ∨ run.first = 0x17f) := by
  decide +kernel

/-- A number that is no character spells the character zero, which stands in no name. -/
theorem capital_of_ofNat_mem_text {n : Nat} {name : CommandName}
    (h : Char.ofNat n ∈ name.text.toList) : 65 ≤ n ∧ n ≤ 90 := by
  have hcapital := capital_of_mem_text name _ h
  by_cases hvalid : n.isValidChar
  · rwa [Char.ofNat, dif_pos hvalid] at hcapital
  · rw [Char.ofNat, dif_neg hvalid] at hcapital
    exact absurd hcapital.1 (by decide)

/-- **A character beyond ASCII whose upper case stands in a name** is one of three. -/
theorem isLetterForm_of_infix_name {c : Char} (name : CommandName) (hc : 0x80 ≤ c.toNat)
    (h : upperChar c <:+: name.text.toList) : IsLetterForm c := by
  unfold upperChar at h
  rw [if_neg (by omega)] at h
  split at h
  · next entry hentry =>
    have hfound := List.find?_some hentry
    have hcode : entry.1 = 0xfb02 :=
      eq_of_expansion_infix_name entry (List.mem_of_find?_eq_some hentry) name name.mem_all h
    refine .inr (.inr (Char.toNat_inj.mp ?_))
    rw [← eq_of_beq hfound, hcode]
    rfl
  · split at h
    · next run hrun =>
      have hcovers := List.find?_some hrun
      simp only [Text.CaseRun.covers, Bool.and_eq_true, decide_eq_true_eq] at hcovers
      have hcapital := capital_of_ofNat_mem_text (h.subset (List.mem_singleton.mpr rfl))
      obtain ⟨hsingle, hfirst⟩ :=
        eq_of_run_low run (List.mem_of_find?_eq_some hrun) (by omega)
      rcases hfirst with hfirst | hfirst
      · refine .inl (Char.toNat_inj.mp ?_)
        show c.toNat = 0x131
        omega
      · refine .inr (.inl (Char.toNat_inj.mp ?_))
        show c.toNat = 0x17f
        omega
    · have hcapital := capital_of_mem_text name c (h.subset (List.mem_singleton.mpr rfl))
      omega

/-- A character that is one of the three, or of ASCII, has the upper case of its letters. -/
theorem upperChar_eq_letters {c : Char} (h : ¬ IsLetterForm c → c.toNat < 0x80) :
    upperChar c = (asciiLetters c).map Char.toUpper := by
  by_cases hform : IsLetterForm c
  · exact upperChar_of_isLetterForm hform
  · rw [asciiLetters_of_not_isLetterForm hform, Text.upperChar_of_ascii (h hform)]
    rfl

/-- The upper case of a character that stands in a name is that of its letters. -/
theorem upperChar_of_infix_name {c : Char} (name : CommandName)
    (h : upperChar c <:+: name.text.toList) :
    upperChar c = (asciiLetters c).map Char.toUpper := by
  refine upperChar_eq_letters fun hform => ?_
  by_contra hc
  exact hform (isLetterForm_of_infix_name name (by omega) h)

/-- The same holds if the capitals of its letters stand in a name. -/
theorem upperChar_of_forall_mem {c : Char} (name : CommandName)
    (h : ∀ d ∈ (asciiLetters c).map Char.toUpper, d ∈ name.text.toList) :
    upperChar c = (asciiLetters c).map Char.toUpper := by
  refine upperChar_eq_letters fun hform => ?_
  rw [asciiLetters_of_not_isLetterForm hform] at h
  have hmem := h c.toUpper (List.mem_singleton.mpr rfl)
  rcases toUpper_cases c with hsame | hsmall
  · have hcapital := capital_of_mem_text name c (hsame ▸ hmem)
    omega
  · omega

/-! ## Texts that select a command -/

/-- The upper case of each character stands in the upper case of a text. -/
theorem upperChar_infix_of_mem {c : Char} {cs : List Char} (hc : c ∈ cs) :
    upperChar c <:+: upper cs := by
  rw [upper, List.flatMap_def]
  exact List.infix_of_mem_flatten (List.mem_map_of_mem hc)

theorem ofText?_eq_some_iff_upper {text : String} {name : CommandName} :
    ofText? text = some name ↔ upper text.toList = name.text.toList := by
  rw [ofText?, ofCapitals?_eq_some_iff, ← String.toList_inj, Text.uppercase, String.toList_ofList]

/-- **A text selects the command that its letters spell.** -/
theorem ofText?_eq_some_iff_spells {text : String} {name : CommandName} :
    ofText? text = some name ↔ Spells text name := by
  rw [ofText?_eq_some_iff_upper, Spells, List.map_flatMap]
  constructor
  · intro h
    rw [← h]
    refine (List.flatMap_congr fun c hc => upperChar_of_infix_name name ?_).symm
    rw [← h]
    exact upperChar_infix_of_mem hc
  · intro h
    rw [← h]
    refine List.flatMap_congr fun c hc => upperChar_of_forall_mem name fun d hd => ?_
    rw [← h]
    exact List.mem_flatMap.mpr ⟨c, hc, hd⟩

theorem ofToken_eq_ok_iff_spells {text : String} {name : CommandName} :
    ofToken text = .ok name ↔ Spells text name := by
  rw [ofToken_eq_ok_iff, ofText?_eq_some_iff_spells]

/-- A text that spells no name is refused, and shown in its upper case. -/
theorem ofText?_eq_none_of_forall {text : String} (h : ∀ name, ¬ Spells text name) :
    ofText? text = none := by
  rw [Option.eq_none_iff_forall_ne_some]
  intro name hname
  exact h name (ofText?_eq_some_iff_spells.mp hname)

theorem ofToken_of_forall {text : String} (h : ∀ name, ¬ Spells text name) :
    ofToken text = .error (.unknownCommand (Text.uppercase text)) := by
  rw [ofToken, ofText?_eq_none_of_forall h]

/-- Beyond ASCII, a text that spells a name has the three characters only. -/
theorem Spells.isLetterForm {text : String} {name : CommandName} (h : Spells text name) :
    ∀ c ∈ text.toList, 0x80 ≤ c.toNat → IsLetterForm c := by
  intro c hc hbeyond
  refine isLetterForm_of_infix_name name hbeyond ?_
  rw [← ofText?_eq_some_iff_upper.mp (ofText?_eq_some_iff_spells.mpr h)]
  exact upperChar_infix_of_mem hc

/-- A text without these characters spells a name when it is the name up to the case of ASCII. -/
theorem spells_iff_of_forall_not_isLetterForm {text : String} {name : CommandName}
    (h : ∀ c ∈ text.toList, ¬ IsLetterForm c) :
    Spells text name ↔ text.length = name.text.length ∧ text.toUpper = name.text := by
  have hletters : text.toList.flatMap asciiLetters = text.toList := by
    have hself := List.flatMap_congr fun c hc => asciiLetters_of_not_isLetterForm (h c hc)
    rw [hself, List.flatMap_singleton']
  rw [Spells, hletters, ← toUpper_eq_iff]
  constructor
  · intro hname
    refine ⟨?_, hname⟩
    rw [← hname, String.toUpper, String.length_map]
  · exact fun hname => hname.2

/-! ## Lines and requests -/

/-- A line whose first token spells a name is read as the command of the name. -/
theorem Spells.parse_eq {line token : String} {arguments : List String} {name : CommandName}
    (hline : tokenize line = .ok (token :: arguments)) (h : Spells token name) :
    Command.parse line = Command.ofArguments name arguments := by
  rw [Command.parse, bind_of_eq_ok hline, Command.ofTokens,
    bind_of_eq_ok (ofToken_eq_ok_iff_spells.mpr h)]

theorem parse_of_forall {line token : String} {arguments : List String}
    (hline : tokenize line = .ok (token :: arguments)) (h : ∀ name, ¬ Spells token name) :
    Command.parse line = .error (.unknownCommand (Text.uppercase token)) := by
  rw [Command.parse, bind_of_eq_ok hline, Command.ofTokens, ofToken_of_forall h]
  rfl

/-- A request is read by the text under `command`. -/
theorem ofValue_of_holds {request v : Value} {text : String} (hv : request.Holds "command" v)
    (htext : v.asText? = some text) :
    Command.ofValue request =
      match ofText? text with
      | none => .error (.unknownCommand (Text.uppercase text))
      | some name => Command.ofFields request name := by
  have hget : (request.get? "command").bind Value.asText? = some text := by
    rw [Value.get?_eq_some_iff.mpr hv, Option.bind_some, htext]
  have hmap : request.asMap?.isNone = false := by
    obtain ⟨before, key, after, rfl, -⟩ := hv
    rfl
  unfold Command.ofValue
  simp only [hmap, hget]
  rfl

/-- **A command is selected by the letters of its name**, where the dotless i, the long s and the
ligature fl stand for their capitals.  A text that spells no name in this way is refused with its
upper case, and of the texts beyond ASCII only those with these characters spell one; without them a
text spells a name exactly when it is the name up to the case of ASCII, letter by letter.  So it is
for the first token of a typed line, and for the text under `command` in a request that was
received. -/
theorem selected_by_letters :
    (∀ text name, ofToken text = .ok name ↔ Spells text name) ∧
    (∀ text, (∀ name, ¬ Spells text name) →
      ofToken text = .error (.unknownCommand (Text.uppercase text))) ∧
    (∀ text name, Spells text name → ∀ c ∈ text.toList, 0x80 ≤ c.toNat → IsLetterForm c) ∧
    (∀ text name, (∀ c ∈ text.toList, ¬ IsLetterForm c) →
      (Spells text name ↔ text.length = name.text.length ∧ text.toUpper = name.text)) ∧
    (∀ line token arguments, tokenize line = .ok (token :: arguments) →
      (∀ name, Spells token name → Command.parse line = Command.ofArguments name arguments) ∧
      ((∀ name, ¬ Spells token name) →
        Command.parse line = .error (.unknownCommand (Text.uppercase token)))) ∧
    (∀ payload request v text, Value.ofPayload payload = .ok request →
      request.Holds "command" v → v.asText? = some text →
      (∀ name, Spells text name → Command.ofPayload payload = Command.ofFields request name) ∧
      ((∀ name, ¬ Spells text name) →
        Command.ofPayload payload = .error (.unknownCommand (Text.uppercase text)))) := by
  refine ⟨fun text name => ofToken_eq_ok_iff_spells, fun text => ofToken_of_forall,
    fun text name h => h.isLetterForm, fun text name => spells_iff_of_forall_not_isLetterForm,
    ?_, ?_⟩
  · intro line token arguments hline
    exact ⟨fun name h => h.parse_eq hline, parse_of_forall hline⟩
  · intro payload request v text hpayload hv htext
    rw [Command.ofPayload, bind_of_eq_ok hpayload, ofValue_of_holds hv htext]
    constructor
    · intro name h
      rw [ofText?_eq_some_iff_spells.mpr h]
    · intro h
      rw [ofText?_eq_none_of_forall h]

/-- A line and a request with letters beyond ASCII, and a name with a letter too many. -/
theorem selected_by_letters_with_long_s :
    let request := Value.map [(.str "command", .str "\ufb02u\u017fhdb")]
    (∀ name, ¬ Spells "gets" name) ∧ ofToken "gets" = .error (.unknownCommand "GETS") ∧
      Spells "PU\u017fh" .push ∧ IsLetterForm '\u017f' ∧
      (∀ c ∈ "sEt".toList, ¬ IsLetterForm c) ∧ Spells "sEt" .set ∧
      Command.parse "PU\u017fh k v" = .ok (.push "k" "v") ∧
      Command.parse "gets k" = .error (.unknownCommand "GETS") ∧
      Value.ofPayload request.encode = .ok request ∧
      Command.ofPayload request.encode = .ok .flushdb := by
  intro request
  obtain ⟨-, hrefused, hforms, hascii, hline, hrequest⟩ := selected_by_letters
  have hnone : ∀ name, ¬ Spells "gets" name := by
    intro name
    cases name <;> decide
  have hpush : Spells "PU\u017fh" .push := by decide
  have hplain : ∀ c ∈ "sEt".toList, ¬ IsLetterForm c := by simp [IsLetterForm]
  have hread : Value.ofPayload request.encode = .ok request :=
    Value.ofPayload_encode_of_canonical
      (.map_of_forall (by decide)
        (List.forall_mem_singleton.mpr ⟨.str (by decide), .str (by decide)⟩)) rfl (by decide)
  have hholds : request.Holds "command" (.str "\ufb02u\u017fhdb") :=
    ⟨[], .str "command", [], rfl, rfl, fun _ h => absurd h List.not_mem_nil⟩
  exact ⟨hnone, hrefused "gets" hnone, hpush, hforms _ _ hpush _ (by decide) (by decide), hplain,
    (hascii _ _ hplain).mpr ⟨rfl, toUpper_eq_iff.mpr (by decide)⟩,
    (hline _ _ ["k", "v"] rfl).1 .push hpush, (hline _ _ ["k"] rfl).2 hnone, hread,
    (hrequest _ _ _ _ hread hholds rfl).1 .flushdb (by decide)⟩

/-- **A text of another length selects a command.**  The ligature fl is one character, and its upper
case is two letters. -/
theorem ligature_selects_flushdb :
    let text := "\ufb02ushdb"
    ofToken text = .ok .flushdb ∧ Command.parse text = .ok .flushdb ∧
      ¬ (text.length = CommandName.flushdb.text.length ∧
        text.toUpper = CommandName.flushdb.text) := by
  decide +kernel

end CommandName
end KeyValueClient
