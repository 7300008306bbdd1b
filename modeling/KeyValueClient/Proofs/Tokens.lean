import KeyValueClient.Command.Line
import Mathlib.Data.List.Basic

/-!
# Tokens and the lines they stand on

`tokenize` scans a line from left to right.  Two things are said of it here.

* No token has a double quote in it (`notMem_quote_of_tokenize`): a quote changes what the scan is
  doing and is never taken into a token.
* Tokens without quotes can be written on a line, and they are found on it again
  (`tokenize_of_renders`).  `Renders tokens text` says that `text` is one of the ways to write them:
  each token stands in quotes or, if it is not empty and has no spaces, as it is (`Written`), one or
  more spaces stand between neighbours, and any number of them at the ends.

## What a scan comes to

A token in progress is finished by the next space or by the end of the line, so outside quotations
it counts as one of the tokens already; `Scan.settled` is the list with it.  **Behind a space there
the scan begins anew**, and what it finds comes behind the tokens in front of the space
(`Scan.finish?_foldl_step_append_space`).  So a line may be looked at token by token: a token in
quotes is finished by its quote and a bare one is not, but each of them is all that is found on its
part of the line (`Written.finish?_foldl_step`).
-/

namespace KeyValueClient
namespace Scan

variable {s : Scan} {text : List Char}

/-! ## Steps -/

@[simp] theorem step_quote_of_quoted (done : List (List Char)) (current : List Char) :
    step ⟨done, current, true⟩ '"' = ⟨current :: done, [], false⟩ := rfl

@[simp] theorem step_quote_of_not_quoted (done : List (List Char)) (current : List Char) :
    step ⟨done, current, false⟩ '"' = ⟨done, current, true⟩ := rfl

/-- Any other character than a quote, and than a space outside quotations, is part of a token. -/
theorem step_of_plain {c : Char} (hquote : c ≠ '"') (hspace : c ≠ ' ' ∨ s.quoted = true) :
    s.step c = { s with current := c :: s.current } := by
  have hnot : ¬ (c = ' ' ∧ ¬ s.quoted) := by
    rintro ⟨hc, hs⟩
    rcases hspace with hspace | hspace
    · exact hspace hc
    · exact hs hspace
  rw [step, if_neg hquote, if_neg hnot]

/-- A text of such characters is part of one token. -/
theorem foldl_step_of_plain (hquote : '"' ∉ text) (hspace : ' ' ∉ text ∨ s.quoted = true) :
    text.foldl step s = { s with current := text.reverse ++ s.current } := by
  induction text generalizing s with
  | nil => rfl
  | cons c text ih =>
    rw [List.mem_cons, not_or] at hquote
    have hc : c ≠ ' ' ∨ s.quoted = true := by
      rcases hspace with hspace | hspace
      · exact .inl fun h => hspace (h ▸ List.mem_cons_self ..)
      · exact .inr hspace
    have htext : ' ' ∉ text ∨ s.quoted = true := by
      rcases hspace with hspace | hspace
      · exact .inl fun h => hspace (List.mem_cons_of_mem c h)
      · exact .inr hspace
    have hlater := ih (s := { s with current := c :: s.current }) hquote.2 htext
    rw [List.foldl_cons, step_of_plain (Ne.symm hquote.1) hc, hlater]
    simp

/-! ## Tokens that are settled -/

/-- The tokens of a scan when the one in progress is over, latest first. -/
def settled (s : Scan) : List (List Char) :=
  if s.current = [] then s.done else s.current :: s.done

/-- Outside quotations a space settles the tokens. -/
theorem step_space (h : s.quoted = false) : s.step ' ' = ⟨s.settled, [], false⟩ := by
  obtain ⟨done, current, quoted⟩ := s
  cases h
  cases current <;> simp [step, settled, emit]

/-- Outside quotations the end of the line settles the tokens. -/
theorem finish?_of_not_quoted (h : s.quoted = false) :
    s.finish? = some (s.settled.reverse.map fun token => String.ofList token.reverse) := by
  rw [finish?, h, settled]
  simp

/-- Inside a quotation the line cannot end. -/
theorem finish?_eq_some_iff {tokens : List String} :
    s.finish? = some tokens ↔ s.quoted = false ∧
      s.settled.reverse.map (fun token => String.ofList token.reverse) = tokens := by
  cases hquoted : s.quoted with
  | true => simp [finish?, hquoted]
  | false => simp [finish?_of_not_quoted hquoted]

/-! ## Tokens that were finished before -/

/-- The same scan, with other tokens finished before. -/
def behind (done : List (List Char)) (s : Scan) : Scan := { s with done := s.done ++ done }

section Behind

variable (done : List (List Char)) (s : Scan)

/-- What was finished before makes no difference to a step. -/
theorem step_behind (c : Char) : (s.behind done).step c = (s.step c).behind done := by
  obtain ⟨finished, current, quoted⟩ := s
  dsimp only [step, behind]
  split_ifs <;> rfl

theorem foldl_step_behind (text : List Char) :
    text.foldl step (s.behind done) = (text.foldl step s).behind done := by
  induction text generalizing s with
  | nil => rfl
  | cons c text ih => rw [List.foldl_cons, List.foldl_cons, step_behind, ih]

theorem finish?_behind :
    (s.behind done).finish? =
      s.finish?.map fun tokens =>
        (done.reverse.map fun token => String.ofList token.reverse) ++ tokens := by
  unfold finish?
  cases hquoted : s.quoted with
  | true => simp [behind, hquoted]
  | false => by_cases hcurrent : s.current = [] <;> simp [behind, hquoted, hcurrent]

end Behind

/-- **Behind a space the scan begins anew**, unless the space is inside a quotation. -/
theorem finish?_foldl_step_append_space {tokens : List String}
    (h : (text.foldl step start).finish? = some tokens) (later : List Char) :
    ((text ++ ' ' :: later).foldl step start).finish? =
      ((later.foldl step start).finish?).map (tokens ++ ·) := by
  obtain ⟨hquoted, rfl⟩ := finish?_eq_some_iff.mp h
  have hbehind : ∀ done, (⟨done, [], false⟩ : Scan) = start.behind done := fun _ => rfl
  rw [List.foldl_append, List.foldl_cons, step_space hquoted, hbehind, foldl_step_behind,
    finish?_behind]

/-! ## Quotes -/

/-- No token of a scan has a quote in it. -/
structure QuoteFree (s : Scan) : Prop where
  done : ∀ token ∈ s.done, '"' ∉ token
  current : '"' ∉ s.current

theorem QuoteFree.emit (h : s.QuoteFree) : s.emit.QuoteFree where
  done := List.forall_mem_cons.mpr ⟨h.current, h.done⟩
  current := List.not_mem_nil

theorem QuoteFree.step (h : s.QuoteFree) (c : Char) : (s.step c).QuoteFree := by
  unfold Scan.step
  split_ifs with hquote hquoted hspace hempty
  · exact h.emit
  · exact ⟨h.done, h.current⟩
  · exact h
  · exact h.emit
  · exact ⟨h.done, by simpa [Ne.symm hquote] using h.current⟩

theorem QuoteFree.foldl_step (h : s.QuoteFree) (text : List Char) :
    (text.foldl Scan.step s).QuoteFree := by
  induction text generalizing s with
  | nil => exact h
  | cons c text ih => exact ih (h.step c)

theorem QuoteFree.notMem_settled (h : s.QuoteFree) : ∀ token ∈ s.settled, '"' ∉ token := by
  unfold settled
  split_ifs
  · exact h.done
  · exact List.forall_mem_cons.mpr ⟨h.current, h.done⟩

end Scan

/-- A line has tokens exactly when the scan of it ends outside quotations. -/
theorem tokenize_eq_ok_iff {line : String} {tokens : List String} :
    tokenize line = .ok tokens ↔
      (line.toList.foldl Scan.step Scan.start).finish? = some tokens := by
  unfold tokenize
  cases (line.toList.foldl Scan.step Scan.start).finish? <;> simp

/-- **No token has a quote in it.** -/
theorem notMem_quote_of_tokenize {line : String} {tokens : List String}
    (h : tokenize line = .ok tokens) : ∀ token ∈ tokens, '"' ∉ token.toList := by
  have hstart : Scan.start.QuoteFree := ⟨by simp [Scan.start], by simp [Scan.start]⟩
  have hfree := (hstart.foldl_step line.toList).notMem_settled
  obtain ⟨-, rfl⟩ := Scan.finish?_eq_some_iff.mp (tokenize_eq_ok_iff.mp h)
  intro token htoken
  obtain ⟨settled, hsettled, rfl⟩ := List.mem_map.mp htoken
  simpa using hfree settled (List.mem_reverse.mp hsettled)

/-- Words without quotes make a message without quotes. -/
theorem notMem_quote_intercalate {words : List String} (h : ∀ word ∈ words, '"' ∉ word.toList) :
    '"' ∉ (" ".intercalate words).toList := by
  induction words with
  | nil => simp
  | cons word words ih =>
    obtain ⟨hword, hwords⟩ := List.forall_mem_cons.mp h
    cases words with
    | nil => simpa using hword
    | cons next words =>
      rw [String.intercalate_cons_cons, String.toList_append, String.toList_append, List.mem_append,
        List.mem_append, not_or, not_or]
      exact ⟨⟨hword, by decide⟩, ih hwords⟩

/-! ## Writing tokens on a line -/

/-- The ways to write a token: in quotes, or as it is, if it is not empty and has no spaces. -/
inductive Written : List Char → List Char → Prop
  | quoted (token : List Char) : Written token ('"' :: (token ++ ['"']))
  | bare {token : List Char} (hne : token ≠ []) (hspace : ' ' ∉ token) : Written token token

/-- The ways to write tokens on a line, with one or more spaces between neighbours and any number of
them at the ends. -/
inductive Renders : List (List Char) → List Char → Prop
  | nil : Renders [] []
  | space {tokens : List (List Char)} {text : List Char} (h : Renders tokens text) :
      Renders tokens (' ' :: text)
  | last {token word : List Char} (h : Written token word) : Renders [token] word
  | cons {token word : List Char} {tokens : List (List Char)} {text : List Char}
      (h : Written token word) (hlater : Renders tokens text) :
      Renders (token :: tokens) (word ++ ' ' :: text)

/-- Spaces in front make no difference. -/
theorem Renders.replicate_append {tokens : List (List Char)} {text : List Char}
    (h : Renders tokens text) (n : Nat) : Renders tokens (List.replicate n ' ' ++ text) := by
  induction n with
  | zero => exact h
  | succ n ih => exact ih.space

/-- However a token is written, by itself it is the only token. -/
theorem Written.finish?_foldl_step {token word : List Char} (h : Written token word)
    (hquote : '"' ∉ token) :
    (word.foldl Scan.step Scan.start).finish? = some [String.ofList token] := by
  unfold Scan.start
  cases h with
  | quoted =>
    rw [List.foldl_cons, Scan.step_quote_of_not_quoted, List.foldl_append,
      Scan.foldl_step_of_plain hquote (.inr rfl)]
    simp [Scan.finish?]
  | bare hne hspace =>
    rw [Scan.foldl_step_of_plain hquote (.inl hspace)]
    simp [Scan.finish?, hne]

/-- The tokens of a rendering are found. -/
theorem Renders.finish?_foldl_step {tokens : List (List Char)} {text : List Char}
    (h : Renders tokens text) (hquote : ∀ token ∈ tokens, '"' ∉ token) :
    (text.foldl Scan.step Scan.start).finish? = some (tokens.map String.ofList) := by
  induction h with
  | nil => rfl
  | space _ ih =>
    have hnothing : ([].foldl Scan.step Scan.start).finish? = some [] := rfl
    have hspace := Scan.finish?_foldl_step_append_space hnothing
    rw [← List.nil_append (' ' :: _), hspace, ih hquote]
    rfl
  | last h => exact h.finish?_foldl_step (hquote _ (List.mem_singleton_self _))
  | cons h _ ih =>
    obtain ⟨htoken, hlater⟩ := List.forall_mem_cons.mp hquote
    rw [Scan.finish?_foldl_step_append_space (h.finish?_foldl_step htoken), ih hlater]
    rfl

/-- **Tokens that are written on a line are the tokens of the line.** -/
theorem tokenize_of_renders {tokens : List (List Char)} {line : String}
    (h : Renders tokens line.toList) (hquote : ∀ token ∈ tokens, '"' ∉ token) :
    tokenize line = .ok (tokens.map String.ofList) :=
  tokenize_eq_ok_iff.mpr (h.finish?_foldl_step hquote)

end KeyValueClient
