import KeyValueClient.Proofs.Lines
import KeyValueClient.Proofs.Parsing
import KeyValueClient.Proofs.Segments

/-!
# Blank lines, and blanks around a line

Two notions of a blank meet in a session.  A line is trimmed of all white space, and what is left is
cut into tokens at the spaces.  A line has no tokens exactly if it consists of spaces
(`tokenize_eq_ok_nil_iff`): a tab, say, is a token, and so is an empty quotation.  That there is no
command on a line is said of these lines and no others (`Command.parse_eq_noCommand_iff`).

**A session never says it.**  What trimming leaves of a line is empty or has something else in it
than white space, and a space is white space.  So the lines of which it would be said are passed
over before they are cut into tokens, and all other blank lines with them
(`Connection.answer_eq_none_iff`).

Around a line, blanks are trimmed away before anything is done with it, so they make no difference
to what is done, on any link.  A session is a session over the lines that are not blank, trimmed
(`Connection.answers_stripLines`).
-/

namespace KeyValueClient

open Link (Script)

/-! ## Lines without tokens -/

/-- A text has no words if it consists of spaces. -/
theorem words_eq_nil_iff {text : List Char} : words text = [] ↔ ∀ c ∈ text, c = ' ' := by
  have hflatten : words text = [] ↔ (words text).flatten = [] := by
    rw [List.eq_nil_iff_forall_not_mem, List.flatten_eq_nil_iff]
    refine forall₂_congr fun word hword => ?_
    exact iff_of_false id (mem_words hword).1
  rw [hflatten, flatten_words, List.filter_eq_nil_iff]
  simp

/-- A quotation makes a token, so segments without tokens are one segment without words. -/
theorem segmentTokens_cons_eq_nil_iff {bare : List Char} {later : List (List Char)} :
    segmentTokens (bare :: later) = [] ↔ later = [] ∧ words bare = [] := by
  cases later with
  | nil => simp [segmentTokens]
  | cons quoted later => simp [segmentTokens]

/-- A line without tokens has no quotes on it. -/
theorem notMem_quote_of_tokenize_nil {line : String} (h : tokenize line = .ok []) :
    '"' ∉ line.toList := by
  rcases Nat.even_or_odd (line.toList.count '"') with heven | hodd
  · rw [tokenize_of_even heven, Except.ok.injEq, List.map_eq_nil_iff] at h
    obtain ⟨bare, later, hsegments⟩ :=
      List.exists_cons_of_ne_nil (List.splitOn_ne_nil '"' line.toList)
    rw [segments, hsegments, segmentTokens_cons_eq_nil_iff] at h
    have hlength := length_splitOn '"' line.toList
    rw [hsegments, h.1, List.length_singleton] at hlength
    exact List.count_eq_zero.mp (by omega)
  · rw [tokenize_of_odd hodd] at h
    cases h

/-- **A line has no tokens if it consists of spaces**, and only then. -/
theorem tokenize_eq_ok_nil_iff {line : String} :
    tokenize line = .ok [] ↔ ∀ c ∈ line.toList, c = ' ' := by
  have hwords (hquote : '"' ∉ line.toList) :
      tokenize line = .ok [] ↔ ∀ c ∈ line.toList, c = ' ' := by
    rw [tokenize_of_notMem_quote hquote, Except.ok.injEq, List.map_eq_nil_iff, words_eq_nil_iff]
  constructor
  · intro h
    exact (hwords (notMem_quote_of_tokenize_nil h)).mp h
  · intro h
    exact (hwords fun hmem => absurd (h _ hmem) (by decide)).mpr h

/-! ## Lines on which there is no command -/

theorem CommandName.ofToken_ne_noCommand (token : String) :
    ofToken token ≠ .error .noCommand := by
  unfold ofToken
  cases ofText? token <;> simp

namespace Command

theorem readExpiry_ne_noCommand (token : String) : readExpiry token ≠ .error .noCommand := by
  unfold readExpiry
  cases Text.int64? token <;> simp

/-- Whatever is wrong with arguments, there was a name in front of them. -/
theorem ofArguments_ne_noCommand (name : CommandName) (arguments : List String) :
    ofArguments name arguments ≠ .error .noCommand := by
  fun_cases ofArguments name arguments with
  | case7 key value token later =>
    have hexpiry := readExpiry_ne_noCommand token
    cases h : readExpiry token with
    | error fault =>
      rintro ⟨⟩
      exact hexpiry h
    | ok expiry => rintro ⟨⟩
  | _ => rintro ⟨⟩

theorem ofTokens_eq_noCommand_iff {tokens : List String} :
    ofTokens tokens = .error .noCommand ↔ tokens = [] := by
  cases tokens with
  | nil => exact iff_of_true rfl rfl
  | cons token arguments =>
    refine iff_of_false ?_ (List.cons_ne_nil token arguments)
    have hname := CommandName.ofToken_ne_noCommand token
    rw [ofTokens]
    cases h : CommandName.ofToken token with
    | error fault =>
      rintro ⟨⟩
      exact hname h
    | ok name => exact ofArguments_ne_noCommand name arguments

/-- **There is no command on a line if it consists of spaces**, and only then. -/
theorem parse_eq_noCommand_iff {line : String} :
    parse line = .error .noCommand ↔ ∀ c ∈ line.toList, c = ' ' := by
  rw [← tokenize_eq_ok_nil_iff, parse]
  rcases Nat.even_or_odd (line.toList.count '"') with heven | hodd
  · rw [tokenize_of_even heven, Except.ok.injEq]
    exact ofTokens_eq_noCommand_iff
  · rw [tokenize_of_odd hodd]
    exact iff_of_false nofun nofun

/-- An empty quotation is a token, and no command has this name. -/
example : parse "\"\"" = .error (.unknownCommand "") := by decide

/-- What trimming leaves of a line, if it leaves anything, has more on it than spaces. -/
theorem parse_strip_ne_noCommand {line : String} (h : ¬ Text.Blank line) :
    parse (Text.strip line) ≠ .error .noCommand := by
  intro hparse
  have hblank : Text.Blank (Text.strip line) := by
    refine List.all_eq_true.mpr fun c hc => ?_
    rw [parse_eq_noCommand_iff.mp hparse c hc]
    decide
  rw [← Text.strip_eq_empty_iff, Text.strip_strip, Text.strip_eq_empty_iff] at hblank
  exact h hblank

end Command

/-! ## Lines in a session -/

/-- The lines that are not blank, without the blanks around them. -/
def Text.stripLines (lines : List String) : List String :=
  (lines.map Text.strip).filter (· ≠ "")

namespace Connection

/-- Of a line only that counts which trimming leaves. -/
theorem handleLine_congr {m : Type → Type} [Monad m] [Link m] (c : Connection)
    {line other : String} (h : Text.strip line = Text.strip other) :
    (c.handleLine line : m (Option LineOutcome)) = c.handleLine other := by
  unfold handleLine
  rw [h]

variable {c : Connection} {line : String} {s : Script}

theorem answer_of_blank (h : Text.Blank line) : c.answer line s = none := by
  rw [answer, handleLine_of_blank (Text.strip_eq_empty_iff.mpr h)]
  rfl

theorem afterLine_of_blank (h : Text.Blank line) : c.afterLine line s = s :=
  afterLine_of_none (Command.ofLine?_of_blank (Text.strip_eq_empty_iff.mpr h))

/-- Any other line is no command, for a reason that is given, or it is a command and there is an
answer to it. -/
theorem answer_of_not_blank (h : ¬ Text.Blank line) :
    (∃ fault, Command.parse (Text.strip line) = .error fault ∧
        c.answer line s = some (.invalidInput fault)) ∨
      ∃ latency received, c.answer line s = some (.ofReceived latency received) := by
  have hstrip : Text.strip line ≠ "" := mt Text.strip_eq_empty_iff.mp h
  rcases hparse : Command.parse (Text.strip line) with fault | command
  · refine .inl ⟨fault, rfl, ?_⟩
    rw [answer, run_handleLine_of_invalid hstrip hparse]
  · have hline := Command.ofLine?_eq_some_iff.mpr hparse
    rcases hsend : s.delivery command.encode with fault | _
    · refine .inr ⟨0, .error (.io fault), ?_⟩
      rw [answer, run_handleLine_of_unsent hline hsend]
      rfl
    · refine .inr ⟨s.delay, c.received (Link.ReadEvent.brings c.capacity s.reads.head?), ?_⟩
      rw [answer, run_handleLine_of_sent hline hsend]

/-- **A line has no answer if it is blank**, and only then. -/
theorem answer_eq_none_iff : c.answer line s = none ↔ Text.Blank line := by
  constructor
  · intro hnone
    by_contra h
    rcases answer_of_not_blank (c := c) (s := s) h with ⟨_, -, hsome⟩ | ⟨_, _, hsome⟩
    · cases hnone.symm.trans hsome
    · cases hnone.symm.trans hsome
  · exact answer_of_blank

/-- **A session never answers that there is no command on a line.** -/
theorem answer_ne_noCommand : c.answer line s ≠ some (.invalidInput .noCommand) := by
  by_cases h : Text.Blank line
  · rw [answer_of_blank h]
    nofun
  · rcases answer_of_not_blank (c := c) (s := s) h with
      ⟨fault, hparse, hsome⟩ | ⟨_, received, hsome⟩
    · rw [hsome]
      rintro ⟨⟩
      exact Command.parse_strip_ne_noCommand h hparse
    · rw [hsome]
      cases received with
      | ok response => nofun
      | error fault => nofun

/-- **Blank lines and the blanks around lines make no difference to a session.** -/
theorem answers_stripLines (c : Connection) (lines : List String) (s : Script) :
    c.answers (Text.stripLines lines) s = (c.answers lines s).filter Option.isSome ∧
      c.afterLines (Text.stripLines lines) s = c.afterLines lines s := by
  unfold Text.stripLines
  induction lines generalizing s with
  | nil => exact ⟨rfl, rfl⟩
  | cons line lines ih =>
    rw [List.map_cons, answers_cons, afterLines_cons]
    by_cases h : Text.Blank line
    · rw [List.filter_cons_of_neg (by simpa using Text.strip_eq_empty_iff.mpr h),
        answer_of_blank h, afterLine_of_blank h]
      exact ih s
    · have hstrip : Text.strip line ≠ "" := mt Text.strip_eq_empty_iff.mp h
      have hsome : (c.answer line s).isSome = true := by
        rw [Option.isSome_iff_ne_none]
        exact fun hnone => h (answer_eq_none_iff.mp hnone)
      have hline := handleLine_congr (m := StateM Script) c (Text.strip_strip line)
      obtain ⟨hanswers, hafter⟩ := ih (c.afterLine line s)
      rw [List.filter_cons_of_pos (by simpa using hstrip), answers_cons, afterLines_cons, answer,
        afterLine, hline, List.filter_cons_of_pos hsome]
      exact ⟨congrArg _ hanswers, hafter⟩

/-- **What blanks do to a line and to a session.**  There is no command on a line exactly if it
consists of spaces.  On every link a blank line is passed over without a trace, and a line with
blanks around it is handled as the line itself.  A line has no answer exactly if it is blank, and no
answer says that there is no command.  So a session is a session over the lines that are not blank,
trimmed: it has their answers, and it leaves the link as they do. -/
theorem blanks_make_no_difference :
    (∀ line : String, Command.parse line = .error .noCommand ↔ ∀ ch ∈ line.toList, ch = ' ') ∧
    (∀ {m : Type → Type} [Monad m] [Link m] (c : Connection) (line : String),
      (Text.Blank line → (c.handleLine line : m (Option LineOutcome)) = pure none) ∧
      ∀ front back : String, Text.Blank front → Text.Blank back →
        (c.handleLine (front ++ line ++ back) : m (Option LineOutcome)) = c.handleLine line) ∧
    (∀ (c : Connection) (line : String) (s : Script),
      (c.answer line s = none ↔ Text.Blank line) ∧
      c.answer line s ≠ some (.invalidInput .noCommand)) ∧
    (∀ (c : Connection) (lines : List String) (s : Script),
      c.answers (Text.stripLines lines) s = (c.answers lines s).filter Option.isSome ∧
      c.afterLines (Text.stripLines lines) s = c.afterLines lines s) := by
  refine ⟨?_, ?_, ?_, ?_⟩
  · intro line
    exact Command.parse_eq_noCommand_iff
  · intro m _ _ c line
    refine ⟨?_, ?_⟩
    · intro hblank
      exact handleLine_of_blank (Text.strip_eq_empty_iff.mpr hblank)
    · intro front back hfront hback
      exact handleLine_congr c (Text.strip_append_append hfront hback line)
  · intro c line s
    exact ⟨answer_eq_none_iff, answer_ne_noCommand⟩
  · intro c lines s
    exact answers_stripLines c lines s

/-- A line of a tab and a line separator, which alone would be an unknown command, and a command
between an ideographic space, a tab, a no-break space and the end of the line. -/
theorem blanks_make_no_difference_around_get :
    let c : Connection := ⟨"peer", 4096⟩
    let s : Script := { reads := [.data (Response.withMessage "one").encode] }
    let blank := "\t\u2028"
    let front := "\u3000\t"
    let back := "\u00a0\r\n"
    Text.Blank blank ∧ Text.Blank front ∧ Text.Blank back ∧
      Command.parse blank = .error (.unknownCommand blank) ∧
      (c.handleLine blank : StateM Script (Option LineOutcome)).run s = (none, s) ∧
      (c.handleLine (front ++ "GET k" ++ back) : StateM Script (Option LineOutcome)).run s =
        (c.handleLine "GET k" : StateM Script (Option LineOutcome)).run s ∧
      (c.answers [blank, front ++ "GET k" ++ back] s).filter Option.isSome =
        [some (.reply (.message "one") 0)] := by
  intro c s blank front back
  obtain ⟨-, hlinks, -, hsessions⟩ := blanks_make_no_difference
  have hblank : Text.Blank blank := by decide
  have hfront : Text.Blank front := by decide
  have hback : Text.Blank back := by decide
  have hpassed := (hlinks (m := StateM Script) c blank).1 hblank
  have haround := (hlinks (m := StateM Script) c "GET k").2 front back hfront hback
  obtain ⟨hanswers, -⟩ := hsessions c [blank, front ++ "GET k" ++ back] s
  refine ⟨hblank, hfront, hback, by decide, ?_, ?_, ?_⟩
  · rw [hpassed]
    rfl
  · rw [haround]
  · rw [← hanswers]
    decide

end Connection
end KeyValueClient
