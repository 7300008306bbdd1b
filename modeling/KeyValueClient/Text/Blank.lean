/-!
# Blank text

The characters that count as blank are those with the property White_Space of Unicode: twenty-five
code points, among them the controls from tabulation to carriage return, the next-line control
U+0085, the no-break spaces and the ideographic space.  A zero-width space is none of them.

`trim` takes the blanks off both ends of a text and leaves what stands between.  A text is blank
throughout exactly when nothing is left (`trim_eq_nil_iff`), blanks added at the ends make no
difference (`trim_append_blank`, `trim_blank_append`), and a text that neither begins nor ends with
a blank is left as it is (`trim_eq_self`).  So trimming twice is trimming once (`trim_trim`).

`strip` is the same for strings, and `Blank` says that a string has nothing else in it.
-/

namespace KeyValueClient
namespace Text

/-- The code points of White_Space, as first and last of each run. -/
def blankRuns : List (Nat × Nat) :=
  [(0x0009, 0x000D), (0x0020, 0x0020), (0x0085, 0x0085), (0x00A0, 0x00A0), (0x1680, 0x1680),
    (0x2000, 0x200A), (0x2028, 0x2029), (0x202F, 0x202F), (0x205F, 0x205F), (0x3000, 0x3000)]

/-- Whether a character is white space. -/
def isBlank (c : Char) : Bool :=
  blankRuns.any fun run => run.1 ≤ c.toNat && c.toNat ≤ run.2

/-- A text without the blanks at its end. -/
def trimEnd (cs : List Char) : List Char := (cs.reverse.dropWhile isBlank).reverse

/-- A text without the blanks at either end. -/
def trim (cs : List Char) : List Char := trimEnd (cs.dropWhile isBlank)

/-- A string without the blanks at either end. -/
def strip (s : String) : String := String.ofList (trim s.toList)

/-! ## What trimming leaves -/

/-- Trimming takes off blanks and nothing else. -/
theorem exists_eq_append_trim_append (cs : List Char) :
    ∃ front back, front.all isBlank ∧ back.all isBlank ∧ cs = front ++ trim cs ++ back := by
  refine ⟨cs.takeWhile isBlank, ((cs.dropWhile isBlank).reverse.takeWhile isBlank).reverse,
    List.all_takeWhile, ?_, ?_⟩
  · rw [List.all_reverse]
    exact List.all_takeWhile
  · rw [trim, trimEnd, List.append_assoc, ← List.reverse_append, List.takeWhile_append_dropWhile,
      List.reverse_reverse, List.takeWhile_append_dropWhile]

/-- Nothing is left of a text exactly when all of it is blank. -/
theorem trim_eq_nil_iff {cs : List Char} : trim cs = [] ↔ cs.all isBlank := by
  constructor
  · intro h
    obtain ⟨front, back, hfront, hback, hcs⟩ := exists_eq_append_trim_append cs
    rw [hcs, h, List.append_nil, List.all_append, hfront, hback]
    rfl
  · intro h
    have hdrop : (cs ++ []).dropWhile isBlank = [] :=
      List.dropWhile_append_of_pos (List.all_eq_true.mp h)
    rw [List.append_nil] at hdrop
    rw [trim, hdrop]
    rfl

/-- Blanks in front of a text are trimmed away. -/
theorem trim_blank_append {ws cs : List Char} (h : ws.all isBlank) : trim (ws ++ cs) = trim cs := by
  rw [trim, trim, List.dropWhile_append_of_pos (List.all_eq_true.mp h)]

theorem trimEnd_append_blank {ws cs : List Char} (h : ws.all isBlank) :
    trimEnd (cs ++ ws) = trimEnd cs := by
  rw [← List.all_reverse, List.all_eq_true] at h
  rw [trimEnd, trimEnd, List.reverse_append, List.dropWhile_append_of_pos h]

/-- Blanks behind a text are trimmed away. -/
theorem trim_append_blank {ws cs : List Char} (h : ws.all isBlank) : trim (cs ++ ws) = trim cs := by
  induction cs with
  | nil =>
    have hws : trim ws = [] := trim_eq_nil_iff.mpr h
    simpa [trim, trimEnd] using hws
  | cons c cs ih =>
    by_cases hc : isBlank c
    · simpa [trim, List.dropWhile_cons, hc] using ih
    · have hleft : (c :: cs ++ ws).dropWhile isBlank = c :: cs ++ ws := by
        simp [hc]
      have hright : (c :: cs).dropWhile isBlank = c :: cs := by
        simp [hc]
      rw [trim, trim, hleft, hright, trimEnd_append_blank h]

theorem dropWhile_eq_self {cs : List Char} (h : ∀ c ∈ cs.head?, isBlank c = false) :
    cs.dropWhile isBlank = cs := by
  cases cs with
  | nil => rfl
  | cons c cs => simp [h c rfl]

/-- A text that neither begins nor ends with a blank is left as it is. -/
theorem trim_eq_self {cs : List Char} (hfirst : ∀ c ∈ cs.head?, isBlank c = false)
    (hlast : ∀ c ∈ cs.getLast?, isBlank c = false) : trim cs = cs := by
  have hreverse : ∀ c ∈ cs.reverse.head?, isBlank c = false := by
    rwa [List.head?_reverse]
  rw [trim, dropWhile_eq_self hfirst, trimEnd, dropWhile_eq_self hreverse, List.reverse_reverse]

/-- Behind the first time there is nothing to trim. -/
theorem trim_trim (cs : List Char) : trim (trim cs) = trim cs := by
  obtain ⟨front, back, hfront, hback, h⟩ := exists_eq_append_trim_append cs
  calc trim (trim cs)
    _ = trim (front ++ trim cs ++ back) := by
      rw [trim_append_blank hback, trim_blank_append hfront]
    _ = trim cs := by rw [← h]

/-! ## Strings -/

/-- Whether a string has nothing but blanks in it. -/
def Blank (s : String) : Prop := s.toList.all isBlank = true

instance (s : String) : Decidable (Blank s) :=
  inferInstanceAs (Decidable (s.toList.all isBlank = true))

/-- Nothing is left of a string exactly when it is blank. -/
theorem strip_eq_empty_iff {s : String} : strip s = "" ↔ Blank s := by
  rw [strip, String.ofList_eq_empty_iff, trim_eq_nil_iff, Blank]

/-- Blanks around a string are trimmed away. -/
theorem strip_append_append {front back : String} (hfront : Blank front) (hback : Blank back)
    (s : String) : strip (front ++ s ++ back) = strip s := by
  rw [strip, String.toList_append, String.toList_append, trim_append_blank hback,
    trim_blank_append hfront, strip]

theorem strip_strip (s : String) : strip (strip s) = strip s := by
  rw [strip, strip, String.toList_ofList, trim_trim]

end Text
end KeyValueClient
