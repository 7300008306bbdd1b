import KeyValueClient.Proofs.Tokens
import Mathlib.Algebra.Ring.Parity
import Mathlib.Data.List.Count

/-!
# Lines cut at their quotes

The scan goes through a line character by character.  This module says what it finds without a scan:
cut the line at its quotes, and the segments stand outside and inside quotations in turn, the first
one outside.  Then the tokens can be read off the segments (`segmentTokens`).  Outside quotations
they are the words between the spaces, but a quotation is joined to what stands directly in front of
it, and the token of the two ends with the quotation, whatever follows.

**This is what the scan finds** (`tokenize_of_even`), unless there is an odd number of quotes, so
that the line ends inside a quotation (`tokenize_of_odd`).  The tokens together are the line without
its quotes and without the spaces outside quotations, and the only empty tokens are those of empty
quotations with nothing in front of them (`tokens_between_quotes`).

## How the scan is followed

`Scan.of tokens word quoted` is the scan that has finished `tokens` and is in the middle of `word`.
Each of the steps, and each of the segments, leads from one such scan to another, and the induction
goes through the segments two at a time, as `segmentTokens` does.

## Writing tokens again

Tokens that are written on a line are the tokens of the line, in quotes or not.  Without quotes, and
with single spaces between them, this holds for the tokens of a line **exactly if none of them needs
quotes** (`tokens_written_again`): what stands between spaces is not empty and has no spaces.
-/

namespace KeyValueClient

/-! ## Cutting a list -/

section SplitOn

variable {α : Type} [BEq α]

/-- A list is cut once for each separator. -/
theorem length_splitOn (a : α) (l : List α) : (l.splitOn a).length = l.count a + 1 := by
  induction l with
  | nil => rfl
  | cons b l ih =>
    rw [List.splitOn_cons_eq_if_modifyHead, List.count_cons]
    split
    · rw [List.length_cons, ih]
    · rw [List.length_modifyHead, ih, Nat.add_zero]

theorem odd_length_splitOn_iff (a : α) (l : List α) :
    Odd (l.splitOn a).length ↔ Even (l.count a) := by
  rw [length_splitOn, Nat.odd_add_one, Nat.not_odd_iff_even]

variable [LawfulBEq α] {a : α} {l : List α}

/-- The separators are in none of the pieces. -/
theorem notMem_of_mem_splitOn {piece : List α} (h : piece ∈ l.splitOn a) : a ∉ piece := by
  induction l generalizing piece with
  | nil =>
    rw [List.splitOn_nil, List.mem_singleton] at h
    rw [h]
    exact List.not_mem_nil
  | cons b l ih =>
    obtain ⟨first, later, hsplit⟩ := List.exists_cons_of_ne_nil (List.splitOn_ne_nil a l)
    rw [List.splitOn_cons_eq_if_modifyHead] at h
    split at h
    · rcases List.mem_cons.mp h with rfl | h
      · exact List.not_mem_nil
      · exact ih h
    · next hb =>
      rw [hsplit, List.modifyHead_cons] at h
      rcases List.mem_cons.mp h with rfl | h
      · have hfirst : a ∉ first := ih (hsplit ▸ List.mem_cons_self ..)
        rw [List.mem_cons, not_or]
        exact ⟨fun heq => hb (beq_iff_eq.mpr heq.symm), hfirst⟩
      · exact ih (hsplit ▸ List.mem_cons_of_mem _ h)

/-- The pieces together are the list without its separators. -/
theorem flatten_splitOn (a : α) (l : List α) : (l.splitOn a).flatten = l.filter (· != a) := by
  induction l with
  | nil => rfl
  | cons b l ih =>
    obtain ⟨first, later, hsplit⟩ := List.exists_cons_of_ne_nil (List.splitOn_ne_nil a l)
    rw [List.splitOn_cons_eq_if_modifyHead, List.filter_cons, ← ih]
    by_cases hb : b = a
    · simp [hb]
    · simp [hb, hsplit]

end SplitOn

/-! ## Words between spaces -/

/-- The words of a text: what stands between its spaces, unless nothing does. -/
def words (text : List Char) : List (List Char) := (text.splitOn ' ').filter (· ≠ [])

/-- The words of a text that are in front of a space. -/
def endedWords (text : List Char) : List (List Char) :=
  (text.splitOn ' ').dropLast.filter (· ≠ [])

/-- What stands behind the last space of a text. -/
def lastPiece (text : List Char) : List Char :=
  (text.splitOn ' ').getLast (List.splitOn_ne_nil ' ' text)

section Words

variable {word text : List Char}

/-- What stands behind the last space is a word, unless it is empty. -/
theorem words_eq (text : List Char) :
    words text = endedWords text ++ [lastPiece text].filter (· ≠ []) := by
  rw [words, endedWords, lastPiece, ← List.filter_append, List.dropLast_append_getLast]

theorem mem_words (h : word ∈ words text) : word ≠ [] ∧ ' ' ∉ word := by
  obtain ⟨hpiece, hne⟩ := List.mem_filter.mp h
  exact ⟨of_decide_eq_true hne, notMem_of_mem_splitOn hpiece⟩

theorem nil_notMem_words (text : List Char) : [] ∉ words text := fun h => (mem_words h).1 rfl

theorem nil_notMem_endedWords (text : List Char) : [] ∉ endedWords text := by
  intro h
  refine nil_notMem_words text ?_
  rw [words_eq]
  exact List.mem_append_left _ h

theorem endedWords_of_notMem (h : ' ' ∉ word) : endedWords word = [] := by
  rw [endedWords, List.splitOn_eq_singleton h]
  rfl

theorem lastPiece_of_notMem (h : ' ' ∉ word) : lastPiece word = word := by
  simp only [lastPiece, List.splitOn_eq_singleton h]
  rfl

theorem endedWords_append_space (h : ' ' ∉ word) (text : List Char) :
    endedWords (word ++ ' ' :: text) = [word].filter (· ≠ []) ++ endedWords text := by
  rw [endedWords, List.splitOn_append_cons_self_of_not_mem h,
    List.dropLast_cons_of_ne_nil (List.splitOn_ne_nil ' ' text), ← List.singleton_append,
    List.filter_append]
  rfl

theorem lastPiece_append_space (h : ' ' ∉ word) (text : List Char) :
    lastPiece (word ++ ' ' :: text) = lastPiece text := by
  simp only [lastPiece, List.splitOn_append_cons_self_of_not_mem h]
  exact List.getLast_cons _

theorem flatten_words (text : List Char) : (words text).flatten = text.filter (· != ' ') := by
  rw [words, ← flatten_splitOn]
  exact List.flatten_filter_ne_nil

theorem flatten_endedWords_append (text : List Char) :
    (endedWords text).flatten ++ lastPiece text = text.filter (· != ' ') := by
  rw [← flatten_words, words_eq, List.flatten_append, List.flatten_filter_ne_nil,
    List.flatten_singleton]

end Words

/-! ## Tokens of segments -/

/-- What stands between the quotes of a line, and in front of the first and behind the last. -/
def segments (line : String) : List (List Char) := line.toList.splitOn '"'

/-- The tokens of a line that has been cut at its quotes.  Outside quotations words are tokens, and
what stands directly in front of a quotation makes one token with it. -/
def segmentTokens : List (List Char) → List (List Char)
  | [] => []
  | [bare] => words bare
  | bare :: quoted :: later => endedWords bare ++ (lastPiece bare ++ quoted) :: segmentTokens later

/-- The tokens among them that the ends of quotations end. -/
def quotedTokens : List (List Char) → List (List Char)
  | bare :: quoted :: later => (lastPiece bare ++ quoted) :: quotedTokens later
  | _ => []

/-- What a line has written on it when it has been cut at its quotes: every other segment, from the
first one on, stands outside quotations, and there spaces do not count. -/
def writtenText (segments : List (List Char)) : List Char :=
  (segments.mapIdx fun i segment =>
    if Even i then segment.filter (· != ' ') else segment).flatten

theorem writtenText_cons_cons (bare quoted : List Char) (later : List (List Char)) :
    writtenText (bare :: quoted :: later) =
      bare.filter (· != ' ') ++ (quoted ++ writtenText later) := by
  simp only [writtenText, List.mapIdx_cons, List.flatten_cons, Nat.even_add_one, not_not]
  rfl

/-- Tokens leave nothing out and have nothing added. -/
theorem flatten_segmentTokens (segments : List (List Char)) :
    (segmentTokens segments).flatten = writtenText segments := by
  fun_induction segmentTokens segments with
  | case1 => rfl
  | case2 bare =>
    rw [flatten_words]
    exact (List.append_nil _).symm
  | case3 bare quoted later ih =>
    rw [List.flatten_append, List.flatten_cons, ih, writtenText_cons_cons,
      ← flatten_endedWords_append, List.append_assoc, List.append_assoc]

/-- Words are not empty, so an empty token ends with a quotation. -/
theorem count_nil_segmentTokens (segments : List (List Char)) :
    (segmentTokens segments).count [] = (quotedTokens segments).count [] := by
  fun_induction segmentTokens segments with
  | case1 => rfl
  | case2 bare => exact List.count_eq_zero_of_not_mem (nil_notMem_words bare)
  | case3 bare quoted later ih =>
    rw [List.count_append, List.count_eq_zero_of_not_mem (nil_notMem_endedWords bare), Nat.zero_add,
      quotedTokens, List.count_cons, List.count_cons, ih]

/-! ## The scan of segments -/

namespace Scan

variable {tokens : List (List Char)} {word text : List Char}

/-- The scan that has finished some tokens and is in the middle of a word. -/
def of (tokens : List (List Char)) (word : List Char) (quoted : Bool) : Scan :=
  ⟨(tokens.map List.reverse).reverse, word.reverse, quoted⟩

theorem step_of_opening : (of tokens word false).step '"' = of tokens word true := rfl

theorem step_of_closing : (of tokens word true).step '"' = of (tokens ++ [word]) [] false := by
  simp [of]

theorem step_of_space :
    (of tokens word false).step ' ' = of (tokens ++ [word].filter (· ≠ [])) [] false := by
  rw [step_space rfl]
  by_cases hword : word = [] <;> simp [of, settled, hword]

theorem finish?_of_not_quoted_word :
    (of tokens word false).finish? =
      some ((tokens ++ [word].filter (· ≠ [])).map String.ofList) := by
  rw [finish?_of_not_quoted rfl]
  by_cases hword : word = [] <;> simp [of, settled, hword]

/-- Inside a quotation everything is part of the word. -/
theorem foldl_step_of_quoted (h : '"' ∉ text) :
    text.foldl step (of tokens word true) = of tokens (word ++ text) true := by
  rw [foldl_step_of_plain h (.inr rfl)]
  simp [of]

/-- Outside quotations spaces end words. -/
theorem foldl_step_of_bare (htext : '"' ∉ text) (hword : ' ' ∉ word) :
    text.foldl step (of tokens word false) =
      of (tokens ++ endedWords (word ++ text)) (lastPiece (word ++ text)) false := by
  induction text generalizing tokens word with
  | nil => simp [endedWords_of_notMem hword, lastPiece_of_notMem hword]
  | cons c text ih =>
    rw [List.mem_cons, not_or] at htext
    rw [List.foldl_cons]
    by_cases hc : c = ' '
    · rw [hc, step_of_space, ih htext.2 List.not_mem_nil, endedWords_append_space hword,
        lastPiece_append_space hword, List.append_assoc, List.nil_append]
    · have hstep : (of tokens word false).step c = of tokens (word ++ [c]) false := by
        rw [step_of_plain (Ne.symm htext.1) (.inl hc)]
        simp [of]
      have hlonger : ' ' ∉ word ++ [c] := by simpa [hword] using Ne.symm hc
      rw [hstep, ih htext.2 hlonger, List.append_assoc, List.singleton_append]

end Scan

/-- What the scan of segments finds, behind tokens that were finished before. -/
theorem finish?_foldl_step_segments {segments : List (List Char)} (hne : segments ≠ [])
    (hquote : ∀ segment ∈ segments, '"' ∉ segment) (tokens : List (List Char)) :
    ((['"'].intercalate segments).foldl Scan.step (.of tokens [] false)).finish? =
      if Odd segments.length then some ((tokens ++ segmentTokens segments).map String.ofList)
      else none := by
  fun_induction segmentTokens segments generalizing tokens with
  | case1 => exact absurd rfl hne
  | case2 bare =>
    have hbare := hquote bare (List.mem_singleton_self bare)
    rw [List.intercalate_singleton, Scan.foldl_step_of_bare hbare List.not_mem_nil,
      Scan.finish?_of_not_quoted_word, List.nil_append, words_eq, List.append_assoc]
    rfl
  | case3 bare quoted later ih =>
    obtain ⟨hbare, hrest⟩ := List.forall_mem_cons.mp hquote
    obtain ⟨hquoted, hlater⟩ := List.forall_mem_cons.mp hrest
    rw [List.intercalate_cons_cons, List.append_assoc, List.singleton_append, List.foldl_append,
      Scan.foldl_step_of_bare hbare List.not_mem_nil, List.foldl_cons, Scan.step_of_opening]
    rcases later with _ | ⟨next, later⟩
    · -- nothing closes the quotation
      have heven : ¬ Odd 2 := by decide
      rw [List.intercalate_singleton, Scan.foldl_step_of_quoted hquoted]
      exact (if_neg heven).symm
    · have hodd : Odd (bare :: quoted :: next :: later).length ↔ Odd (next :: later).length := by
        simp only [List.length_cons, Nat.odd_add_one, not_not]
      rw [List.intercalate_cons_cons, List.append_assoc, List.singleton_append, List.foldl_append,
        Scan.foldl_step_of_quoted hquoted, List.foldl_cons, Scan.step_of_closing,
        ih (List.cons_ne_nil next later) hlater]
      simp only [hodd, List.nil_append, List.append_assoc, List.singleton_append]

section Tokenize

variable {line : String}

theorem finish?_foldl_step_line (line : String) :
    (line.toList.foldl Scan.step Scan.start).finish? =
      if Odd (segments line).length then some ((segmentTokens (segments line)).map String.ofList)
      else none := by
  have hfinish := finish?_foldl_step_segments (List.splitOn_ne_nil '"' line.toList)
    (fun _ => notMem_of_mem_splitOn) []
  rwa [List.intercalate_splitOn, List.nil_append] at hfinish

/-- **The tokens of a line are those of its segments**, if the quotes pair off. -/
theorem tokenize_of_even (h : Even (line.toList.count '"')) :
    tokenize line = .ok ((segmentTokens (segments line)).map String.ofList) := by
  have hodd : Odd (segments line).length := (odd_length_splitOn_iff '"' line.toList).mpr h
  rw [tokenize, finish?_foldl_step_line, if_pos hodd]

theorem tokenize_of_odd (h : Odd (line.toList.count '"')) :
    tokenize line = .error .unmatchedQuotes := by
  have heven : ¬ Odd (segments line).length := by
    rwa [segments, odd_length_splitOn_iff, Nat.not_even_iff_odd]
  rw [tokenize, finish?_foldl_step_line, if_neg heven]

/-- The tokens of a line without quotes are its words. -/
theorem tokenize_of_notMem_quote (h : '"' ∉ line.toList) :
    tokenize line = .ok ((words line.toList).map String.ofList) := by
  have heven : Even (line.toList.count '"') := by
    rw [List.count_eq_zero_of_not_mem h]
    exact Even.zero
  have htokens := tokenize_of_even heven
  rwa [segments, List.splitOn_eq_singleton h] at htokens

end Tokenize

/-- **The tokens of a line, read off what stands between its quotes.**  With an odd number of quotes
there are none.  With an even number they are those of the segments; together they are what is
written on the line, and as many of them are empty as quotations end on an empty token. -/
theorem tokens_between_quotes (line : String) :
    (segments line).length = line.toList.count '"' + 1 ∧
    (Odd (line.toList.count '"') → tokenize line = .error .unmatchedQuotes) ∧
    (Even (line.toList.count '"') →
      ∃ tokens, tokenize line = .ok tokens ∧
        tokens = (segmentTokens (segments line)).map String.ofList ∧
        (String.join tokens).toList = writtenText (segments line) ∧
        tokens.count "" = (quotedTokens (segments line)).count []) := by
  refine ⟨length_splitOn '"' line.toList, tokenize_of_odd, ?_⟩
  intro heven
  refine ⟨_, tokenize_of_even heven, rfl, ?_, ?_⟩
  · rw [String.toList_join, List.flatMap_map]
    simp only [String.toList_ofList]
    rw [← flatten_segmentTokens, List.flatMap_id']
  · have hinj : Function.Injective String.ofList := by
      intro s t h
      simpa using congrArg String.toList h
    have hcount := List.count_map_of_injective (segmentTokens (segments line)) String.ofList hinj []
    rw [← count_nil_segmentTokens, ← hcount]

/-- Text on both sides of a quotation, an empty quotation behind a space and a quotation with spaces
in it; and a line that ends inside a quotation. -/
theorem tokens_between_quotes_of_glued :
    let line := "ab\"c  d\"ef  \"\" \" g\""
    Even (line.toList.count '"') ∧ tokenize line = .ok ["abc  d", "ef", "", " g"] ∧
      tokenize "GET \"k" = .error .unmatchedQuotes := by
  intro line
  have heven : Even (line.toList.count '"') := by decide
  obtain ⟨tokens, htokens, hsegments, -⟩ := (tokens_between_quotes line).2.2 heven
  have hlist : tokens = ["abc  d", "ef", "", " g"] := hsegments.trans (by decide)
  have hopen := (tokens_between_quotes "GET \"k").2.1 (by decide)
  exact ⟨heven, hlist ▸ htokens, hopen⟩

/-! ## Writing tokens again -/

/-- Joined by single spaces, words are found again. -/
theorem words_intercalate {tokens : List (List Char)}
    (h : ∀ token ∈ tokens, token ≠ [] ∧ ' ' ∉ token) :
    words ([' '].intercalate tokens) = tokens := by
  rcases tokens with _ | ⟨token, tokens⟩
  · rfl
  · rw [words, List.splitOn_intercalate ' ' (fun word hword => (h word hword).2)
      (List.cons_ne_nil token tokens), List.filter_eq_self]
    exact fun word hword => decide_eq_true (h word hword).1

/-- Joined by single spaces, texts without quotes are found again if and only if they are words. -/
theorem tokenize_intercalate_eq_iff {tokens : List String}
    (hquote : ∀ token ∈ tokens, '"' ∉ token.toList) :
    tokenize (" ".intercalate tokens) = .ok tokens ↔
      ∀ token ∈ tokens, token ≠ "" ∧ ' ' ∉ token.toList := by
  have htext : (" ".intercalate tokens).toList = [' '].intercalate (tokens.map String.toList) :=
    String.toList_intercalate
  rw [tokenize_of_notMem_quote (notMem_quote_intercalate hquote), htext, Except.ok.injEq]
  constructor
  · intro h token htoken
    rw [← h, List.mem_map] at htoken
    obtain ⟨word, hword, rfl⟩ := htoken
    have hmem := mem_words hword
    simpa using hmem
  · intro h
    have hwords : ∀ word ∈ tokens.map String.toList, word ≠ [] ∧ ' ' ∉ word := by
      rw [List.forall_mem_map]
      intro token htoken
      simpa using h token htoken
    rw [words_intercalate hwords, List.map_map]
    simp

/-- **Tokens written on a line are found there again.**  Tokens without quotes are the tokens of
every line on which they are written.  The tokens of a line can be written with single spaces and no
quotes if and only if none of them is empty or has a space in it. -/
theorem tokens_written_again :
    (∀ (tokens : List String) (line : String), (∀ token ∈ tokens, '"' ∉ token.toList) →
      Renders (tokens.map String.toList) line.toList → tokenize line = .ok tokens) ∧
    (∀ (line : String) (tokens : List String), tokenize line = .ok tokens →
      (tokenize (" ".intercalate tokens) = .ok tokens ↔
        ∀ token ∈ tokens, token ≠ "" ∧ ' ' ∉ token.toList)) := by
  refine ⟨?_, ?_⟩
  · intro tokens line hquote h
    have hfound := tokenize_of_renders h (List.forall_mem_map.mpr hquote)
    rw [hfound, List.map_map]
    simp
  · intro line tokens h
    exact tokenize_intercalate_eq_iff (notMem_quote_of_tokenize h)

/-- Three tokens, the second of them in quotes, with spaces at both ends; they are not found again
without the quotes. -/
theorem tokens_written_again_in_quotes :
    let tokens := ["ECHO", "", "a"]
    let line := "  ECHO \"\"   a "
    (∀ token ∈ tokens, '"' ∉ token.toList) ∧ Renders (tokens.map String.toList) line.toList ∧
      tokenize line = .ok tokens ∧ tokenize (" ".intercalate tokens) ≠ .ok tokens := by
  intro tokens line
  obtain ⟨hfound, hagain⟩ := tokens_written_again
  have hquote : ∀ token ∈ tokens, '"' ∉ token.toList := by decide
  have hecho : Written "ECHO".toList "ECHO".toList := .bare (by decide) (by decide)
  have ha : Written "a".toList "a".toList := .bare (by decide) (by decide)
  have htext : line.toList = ' ' :: ' ' :: ("ECHO".toList ++ ' ' :: ('"' :: ([] ++ ['"']) ++
      ' ' :: ' ' :: ' ' :: ("a".toList ++ [' ']))) := by decide
  have hwritten : Renders (tokens.map String.toList) line.toList := by
    rw [htext]
    exact .space (.space (.cons hecho (.cons (.quoted []) (.space (.space (.cons ha .nil))))))
  have hline := hfound tokens line hquote hwritten
  refine ⟨hquote, hwritten, hline, fun h => ?_⟩
  have hempty := (hagain line tokens hline).mp h "" (by decide)
  exact hempty.1 rfl

end KeyValueClient
