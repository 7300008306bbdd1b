import KeyValueClient.CommandLine.Shell
import KeyValueClient.Proofs.Lines
import Mathlib.Data.List.SplitBy

/-!
# What the interactive program prints

The program waits for a line, answers it and prompts for the next one, until its input is over.
What it prints can be said at once: cut the input behind each line feed, and go on with the pieces
up to the first that is no UTF-8.  These are the lines (`inputLines`), and for each of them the
program prints the prompt and what a session answers to the line, and at last a prompt and the
farewell.

So **each line is answered once, in order, whatever is answered to the lines before it**
(`session_answers_every_line`): no answer ends the program before its input does, and it ends with
the code 0.

The program is compared with the session on every lawful link (`transcript_eq_map`).  A turn of it
takes the first piece off the input, and what is left is cut into the other pieces; the induction
is on the length of the input, as in the program.  It makes no difference whether the input is there
at once or comes line by line: a line is read as soon as its line feed has come (`readLine_append`).
-/

namespace KeyValueClient
namespace CommandLine

open Link (Script)

/-! ## The lines of the input -/

/-- The input cut behind each of its line feeds. -/
def inputPieces (input : Bytes) : List Bytes := input.splitBy fun b _ => b != lineFeed

/-- The lines of the input: what its pieces spell, up to the first that spells nothing. -/
def inputLines (input : Bytes) : List String :=
  (((inputPieces input).map Utf8.decode?).takeWhile Option.isSome).filterMap id

section Pieces

variable {input line rest : Bytes}

theorem isChain_append_singleton {body : Bytes} (h : lineFeed ∉ body) (b : UInt8) :
    (body ++ [b]).IsChain fun x _ => (x != lineFeed) = true := by
  induction body with
  | nil => exact List.isChain_singleton b
  | cons x body ih =>
    rw [List.mem_cons, not_or] at h
    rw [List.cons_append, List.isChain_cons]
    exact ⟨fun _ _ => bne_iff_ne.mpr (Ne.symm h.1), ih h.2⟩

/-- A line feed ends a piece. -/
theorem inputPieces_append {body : Bytes} (h : lineFeed ∉ body) (rest : Bytes) :
    inputPieces (body ++ [lineFeed] ++ rest) = (body ++ [lineFeed]) :: inputPieces rest := by
  have hends : ∀ x ∈ (body ++ [lineFeed]).getLast?, ∀ y ∈ rest.head?,
      (x != lineFeed) = false := by
    intro x hx _ _
    rw [List.getLast?_concat, Option.mem_some_iff] at hx
    rw [← hx]
    exact bne_self_eq_false lineFeed
  have hchain := isChain_append_singleton h lineFeed
  rw [inputPieces, List.splitBy_append hends,
    List.splitBy_of_isChain (List.concat_ne_nil lineFeed body) hchain]
  rfl

/-- Input without a line feed is one piece, unless it is empty. -/
theorem inputPieces_of_notMem (h : lineFeed ∉ input) (hne : input ≠ []) :
    inputPieces input = [input] := by
  refine List.splitBy_of_isChain hne ?_
  rw [← List.dropLast_append_getLast hne]
  exact isChain_append_singleton (fun hmem => h (List.dropLast_subset input hmem)) _

theorem notMem_of_cutLine? (h : cutLine? input = none) : lineFeed ∉ input := by
  induction input with
  | nil => exact List.not_mem_nil
  | cons b input ih =>
    unfold cutLine? at h
    split at h
    · cases h
    · next hb =>
      rw [List.mem_cons, not_or]
      exact ⟨Ne.symm hb, ih (Option.map_eq_none_iff.mp h)⟩

/-- What is cut off ends with the first line feed. -/
theorem cutLine?_eq_some_iff :
    cutLine? input = some (line, rest) ↔
      ∃ body, lineFeed ∉ body ∧ line = body ++ [lineFeed] ∧ input = body ++ [lineFeed] ++ rest := by
  constructor
  · intro h
    induction input generalizing line with
    | nil => cases h
    | cons b input ih =>
      unfold cutLine? at h
      split at h
      · next hb =>
        cases h
        rw [hb]
        exact ⟨[], List.not_mem_nil, rfl, rfl⟩
      · next hb =>
        obtain ⟨⟨later, rest'⟩, hcut, heq⟩ := Option.map_eq_some_iff.mp h
        cases heq
        obtain ⟨body, hbody, rfl, rfl⟩ := ih hcut
        refine ⟨b :: body, ?_, rfl, rfl⟩
        rw [List.mem_cons, not_or]
        exact ⟨Ne.symm hb, hbody⟩
  · rintro ⟨body, h, rfl, rfl⟩
    induction body with
    | nil => rfl
    | cons b body ih =>
      rw [List.mem_cons, not_or] at h
      simp only [List.cons_append, cutLine?, if_neg (Ne.symm h.1), ih h.2, Option.map_some]

/-- As soon as its line feed has come, a line can be read.  It is the same line whatever comes
behind it, and however the input ends. -/
theorem readLine_append {body : Bytes} (h : lineFeed ∉ body) (ending : Ending) (rest : Bytes) :
    readLine ending (body ++ [lineFeed] ++ rest) = .ofBytes (body ++ [lineFeed]) rest := by
  unfold readLine
  rw [cutLine?_eq_some_iff.mpr ⟨body, h, rfl, rfl⟩]

/-- Waiting for a line takes the first piece off the input. -/
theorem readLine_eq (input : Bytes) :
    (inputPieces input = [] ∧ readLine .endOfInput input = .ended) ∨
      ∃ line rest, inputPieces input = line :: inputPieces rest ∧
        readLine .endOfInput input = .ofBytes line rest := by
  cases hcut : cutLine? input with
  | none =>
    have hmem := notMem_of_cutLine? hcut
    unfold readLine
    rw [hcut]
    by_cases hne : input = []
    · exact .inl ⟨by rw [hne]; rfl, if_pos hne⟩
    · refine .inr ⟨input, [], ?_, if_neg hne⟩
      exact inputPieces_of_notMem hmem hne
  | some cut =>
    obtain ⟨line, rest⟩ := cut
    obtain ⟨body, hbody, rfl, rfl⟩ := cutLine?_eq_some_iff.mp hcut
    exact .inr ⟨_, rest, inputPieces_append hbody rest, readLine_append hbody .endOfInput rest⟩

/-- What waiting for a line says about the lines of the input. -/
theorem inputLines_eq (input : Bytes) :
    (readLine .endOfInput input = .ended ∧ inputLines input = []) ∨
      ∃ text rest, readLine .endOfInput input = .line text rest ∧
        inputLines input = text :: inputLines rest := by
  unfold inputLines
  rcases readLine_eq input with ⟨hpieces, hread⟩ | ⟨line, rest, hpieces, hread⟩
  · exact .inl ⟨hread, by rw [hpieces]; rfl⟩
  · rw [hread, hpieces]
    unfold Reading.ofBytes
    cases htext : Utf8.decode? line with
    | none => exact .inl ⟨rfl, by simp [htext]⟩
    | some text => exact .inr ⟨text, rest, rfl, by simp [htext]⟩

/-- The line feed belongs to its line, the last line needs none, and an empty line is one. -/
example : inputLines [0x61, 0x0d, 0x0a, 0x0a, 0xc3, 0xa9, 0x0a, 0x62] =
    ["a\r\n", "\n", "é\n", "b"] := by
  decide

/-- A line that is no UTF-8 is not read, nor is any behind it. -/
example : inputLines [0x61, 0x0a, 0x62, 0xff, 0x0a, 0x63, 0x0a] = ["a\n"] := by cbv

end Pieces

/-! ## What is printed -/

/-- What is printed for an answer. -/
def shownAnswer : Option LineOutcome → String
  | some outcome => outcome.display ++ "\n"
  | none => ""

/-- What is printed for all answers, with a prompt in front of each and the farewell at last. -/
def shownAnswers (prompt : String) (answers : List (Option LineOutcome)) : String :=
  String.join (answers.map fun answer => prompt ++ shownAnswer answer) ++ (prompt ++ farewell)

theorem shownAnswers_nil (prompt : String) : shownAnswers prompt [] = prompt ++ farewell := by
  rw [shownAnswers, List.map_nil, String.join_nil, String.empty_append]

theorem shownAnswers_cons (prompt : String) (answer : Option LineOutcome)
    (answers : List (Option LineOutcome)) :
    shownAnswers prompt (answer :: answers) =
      prompt ++ shownAnswer answer ++ shownAnswers prompt answers := by
  rw [shownAnswers, List.map_cons, String.join_cons, String.append_assoc]
  rfl

section Links

variable {m : Type → Type} [Monad m] [Link m] {c : Connection} {prompt text : String}
  {input rest : Bytes}

theorem transcript_of_line (h : readLine .endOfInput input = .line text rest) :
    (transcript c prompt .endOfInput input : m String) = (do
      let shown ← answer c text
      let later ← transcript c prompt .endOfInput rest
      return prompt ++ shown ++ later) := by
  rw [transcript]
  split
  · next hrest =>
    rw [h] at hrest
    cases hrest
  · next hrest =>
    rw [h] at hrest
    cases hrest
    rw [h, respond]

variable [LawfulMonad m]

theorem transcript_of_ended (h : readLine .endOfInput input = .ended) :
    (transcript c prompt .endOfInput input : m String) = pure (prompt ++ farewell) := by
  rw [transcript]
  split
  · rw [h, respond, pure_bind]
  · next hrest =>
    rw [h] at hrest
    cases hrest

theorem answer_eq_map (c : Connection) (line : String) :
    (answer c line : m String) = shownAnswer <$> c.handleLine line := by
  unfold answer
  rw [map_eq_pure_bind]
  refine congrArg _ (funext fun outcome => ?_)
  cases outcome with
  | none => rfl
  | some outcome => rfl

/-- **The program prints what a session over its lines answers**, on every lawful link. -/
theorem transcript_eq_map (c : Connection) (prompt : String) (input : Bytes) :
    (transcript c prompt .endOfInput input : m String) =
      shownAnswers prompt <$> c.handleLines (inputLines input) := by
  induction hlength : input.length using Nat.strong_induction_on generalizing input with
  | _ length ih =>
  rcases inputLines_eq input with ⟨hread, hlines⟩ | ⟨text, rest, hread, hlines⟩
  · have hsession : (c.handleLines [] : m (List (Option LineOutcome))) = pure [] := List.mapM_nil
    rw [hlines, hsession, transcript_of_ended hread, map_pure, shownAnswers_nil]
  · have hrest : (readLine .endOfInput input).rest? = some rest := by rw [hread]; rfl
    have hlater := ih rest.length (hlength ▸ length_lt_of_rest?_readLine hrest) rest rfl
    have hsession : (c.handleLines (text :: inputLines rest) : m (List (Option LineOutcome))) =
        c.handleLine text >>= fun answer =>
          c.handleLines (inputLines rest) >>= fun answers => pure (answer :: answers) :=
      List.mapM_cons
    rw [hlines, hsession, transcript_of_line hread, hlater, answer_eq_map]
    simp only [map_bind, map_pure, bind_map_left, shownAnswers_cons]

theorem session_eq_map (config : Config) (peer : String) (input : Bytes) :
    (session config peer .endOfInput input : m Report) =
      (fun answers => ⟨0, banner config ++ shownAnswers config.prompt answers⟩) <$>
        Connection.handleLines ⟨peer, config.receiveBuffer.toNat⟩ (inputLines input) := by
  unfold session
  simp only [transcript_eq_map, map_eq_pure_bind, bind_assoc, pure_bind]

end Links

/-- **Each line of the input is answered once, in order, and then the program ends.**  On every
scripted link, whatever its reads bring and however its writes fail, the program that has connected
ends with the code 0.  Behind the banner it has printed, for each line, the prompt and the answer
that a session gives to the line, and at last a prompt and the farewell; and it leaves the link as
the session does. -/
theorem session_answers_every_line (config : Config) (peer : String) (input : Bytes) (s : Script) :
    let c : Connection := ⟨peer, config.receiveBuffer.toNat⟩
    let lines := inputLines input
    (session config peer .endOfInput input : StateM Script Report).run s =
        (⟨0, banner config ++
            (String.join ((c.answers lines s).map fun answer =>
                config.prompt ++ shownAnswer answer) ++
              (config.prompt ++ "Closing connection.\n"))⟩,
          c.afterLines lines s) ∧
      (c.answers lines s).length = lines.length := by
  intro c lines
  refine ⟨?_, c.length_answers lines s⟩
  rw [session_eq_map]
  rfl

end CommandLine
end KeyValueClient
