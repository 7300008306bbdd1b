import KeyValueClient.Proofs.Parsing
import KeyValueClient.Proofs.Segments

/-!
# Lines with more behind them

A line that is a command can be made longer: a space, and then any text.  Behind the space the scan
begins anew, so the tokens of the text come behind the tokens of the line
(`tokenize_append_space`), and the command gets them as arguments behind its own.

What it makes of them is a matter of the command alone.  Two commands refuse them, a message grows
by them, an expiry is read from the first of them if there was none before, and all others ignore
them (`Command.extended`).  **The longer line says the extended command**, or what is wrong with it
(`Command.parse_append_space`).
-/

namespace KeyValueClient

/-! ## Tokens -/

/-- **The tokens behind a space come behind those before it**, and if what follows ends inside a
quotation, so does the longer line. -/
theorem tokenize_append_space {line : String} {tokens : List String}
    (h : tokenize line = .ok tokens) (text : String) :
    tokenize (line ++ " " ++ text) = (tokenize text).map (tokens ++ ·) := by
  have hspace : (line ++ " " ++ text).toList = line.toList ++ ' ' :: text.toList := by
    rw [String.toList_append, String.toList_append, List.append_assoc]
    rfl
  unfold tokenize
  rw [hspace, Scan.finish?_foldl_step_append_space (tokenize_eq_ok_iff.mp h)]
  cases (text.toList.foldl Scan.step Scan.start).finish? with
  | none => rfl
  | some later => rfl

namespace Command

/-! ## Arguments -/

/-- What becomes of a command that gets more arguments, behind those that it has taken. -/
def extended : Command → List String → Except InputFault Command
  | c, [] => .ok c
  | .ping, _ :: _ => .error (.unexpectedArguments .ping)
  | .flushdb, _ :: _ => .error (.unexpectedArguments .flushdb)
  | .echo message, words => .ok (.echo (message ++ " " ++ " ".intercalate words))
  | .set key value none, token :: _ =>
    match Text.int64? token with
    | some expiry => .ok (.set key value (some expiry))
    | none => .error (.invalidExpiry token)
  | c, _ :: _ => .ok c

theorem extended_nil (c : Command) : c.extended [] = .ok c := by cases c <;> rfl

/-- With more arguments behind those that a command takes, what is read is what becomes of the
command. -/
theorem Takes.ofArguments_append {arguments : List String} {c : Command} (h : Takes arguments c)
    (later : List String) : ofArguments c.name (arguments ++ later) = c.extended later := by
  rcases later with _ | ⟨token, later⟩
  · rw [List.append_nil, extended_nil]
    exact ofArguments_eq_ok_iff.mpr ⟨rfl, h⟩
  · cases h with
    | echo word words =>
      have hwords : " ".intercalate (word :: words ++ token :: later) =
          " ".intercalate (word :: words) ++ " " ++ " ".intercalate (token :: later) :=
        String.intercalate_append_of_ne_nil (List.cons_ne_nil word words)
          (List.cons_ne_nil token later)
      exact congrArg (fun message => Except.ok (Command.echo message)) hwords
    | set key value =>
      show ofArguments .set (key :: value :: token :: later) = _
      rcases hexpiry : Text.int64? token with _ | expiry
      · simp only [ofArguments, readExpiry, extended, hexpiry]
        rfl
      · simp only [ofArguments, readExpiry, extended, hexpiry]
        rfl
    | setExpiring key value hexpiry own =>
      exact ofArguments_eq_ok_iff.mpr ⟨rfl, .setExpiring key value hexpiry (own ++ token :: later)⟩
    | _ => rfl

/-! ## Lines -/

variable {line : String} {c : Command}

/-- **A longer line says the extended command.** -/
theorem parse_append_space (h : parse line = .ok c) (text : String) :
    parse (line ++ " " ++ text) = tokenize text >>= c.extended := by
  obtain ⟨name, arguments, htokens, hname, htakes⟩ := parse_eq_ok_iff.mp h
  unfold parse
  rw [tokenize_append_space htokens]
  cases tokenize text with
  | error fault => rfl
  | ok later =>
    show ofTokens (name :: (arguments ++ later)) = c.extended later
    rw [ofTokens, CommandName.ofToken_eq_ok_iff.mpr hname]
    exact htakes.ofArguments_append later

/-- **What more behind a line does.**  If the quotes pair off on both sides of a space, the tokens
behind it come behind the tokens before it.  If a line says a command, a longer line ends inside a
quotation with what was added, and otherwise says what becomes of the command with the added tokens
as more arguments. -/
theorem parse_longer_line :
    (∀ line text : String, Even (line.toList.count '"') → Even (text.toList.count '"') →
      ∃ tokens later, tokenize line = .ok tokens ∧ tokenize text = .ok later ∧
        tokenize (line ++ " " ++ text) = .ok (tokens ++ later)) ∧
    (∀ (line text : String) (c : Command), parse line = .ok c →
      (Odd (text.toList.count '"') →
        parse (line ++ " " ++ text) = .error .unmatchedQuotes) ∧
      (Even (text.toList.count '"') →
        ∃ later, tokenize text = .ok later ∧ parse (line ++ " " ++ text) = c.extended later)) := by
  refine ⟨?_, ?_⟩
  · intro line text hline htext
    have hfound := tokenize_of_even htext
    refine ⟨_, _, tokenize_of_even hline, hfound, ?_⟩
    rw [tokenize_append_space (tokenize_of_even hline), hfound]
    rfl
  · intro line text c h
    refine ⟨?_, ?_⟩
    · intro hodd
      rw [parse_append_space h, tokenize_of_odd hodd]
      rfl
    · intro heven
      have hfound := tokenize_of_even heven
      refine ⟨_, hfound, ?_⟩
      rw [parse_append_space h, hfound]
      rfl

/-- A line without an expiry: one is added, one that is no integer is added, and a quotation is
added that is left open. -/
theorem parse_longer_line_of_set :
    let line := "set k \"a b\""
    parse line = .ok (.set "k" "a b" none) ∧
      parse (line ++ " " ++ " -5 x") = .ok (.set "k" "a b" (some (-5))) ∧
      parse (line ++ " " ++ "\"\" 5") = .error (.invalidExpiry "") ∧
      parse (line ++ " " ++ "\"5") = .error .unmatchedQuotes ∧
      tokenize (line ++ " " ++ "\"\" 5") = .ok (["set", "k", "a b"] ++ ["", "5"]) := by
  intro line
  obtain ⟨htokens, hparse⟩ := parse_longer_line
  have hline : parse line = .ok (.set "k" "a b" none) := by decide
  obtain ⟨later, hlater, hset⟩ := (hparse line " -5 x" _ hline).2 (by decide)
  obtain rfl : later = ["-5", "x"] := Except.ok.inj (hlater.symm.trans (by decide))
  obtain ⟨later, hlater, hempty⟩ := (hparse line "\"\" 5" _ hline).2 (by decide)
  obtain rfl : later = ["", "5"] := Except.ok.inj (hlater.symm.trans (by decide))
  have hopen := (hparse line "\"5" _ hline).1 (by decide)
  obtain ⟨tokens, later, hfirst, hsecond, hboth⟩ :=
    htokens line "\"\" 5" (by decide) (by decide)
  obtain rfl : tokens = ["set", "k", "a b"] := Except.ok.inj (hfirst.symm.trans (by decide))
  obtain rfl : later = ["", "5"] := Except.ok.inj (hsecond.symm.trans (by decide))
  exact ⟨hline, hset.trans (by decide), hempty.trans (by decide), hopen, hboth⟩

end Command
end KeyValueClient
