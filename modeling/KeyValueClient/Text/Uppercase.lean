import KeyValueClient.Text.CaseTable

/-!
# Upper case

The upper case of a text is the upper case of its characters, one after the other, and a character
may become several.  `upperChar` follows the table for the characters beyond ASCII and moves the
twenty-six small letters of ASCII to the capitals; **on ASCII it is the map of the standard
library** (`upperChar_of_ascii`).
-/

namespace KeyValueClient
namespace Text

/-- The upper case of a character. -/
def upperChar (c : Char) : List Char :=
  if c.toNat < 0x80 then [c.toUpper]
  else
    match caseExpansions.find? (·.1 == c.toNat) with
    | some entry => entry.2.map Char.ofNat
    | none =>
      match caseRuns.find? (·.covers c.toNat) with
      | some run => [Char.ofNat (c.toNat + run.shift).toNat]
      | none => [c]

/-- The upper case of a text. -/
def upper (cs : List Char) : List Char := cs.flatMap upperChar

/-- The upper case of a string. -/
def uppercase (s : String) : String := String.ofList (upper s.toList)

theorem upperChar_of_ascii {c : Char} (h : c.toNat < 0x80) : upperChar c = [c.toUpper] :=
  if_pos h

/-- A text of ASCII keeps its length and moves letter by letter. -/
theorem upper_of_ascii {cs : List Char} (h : ∀ c ∈ cs, c.toNat < 0x80) :
    upper cs = cs.map Char.toUpper := by
  induction cs with
  | nil => rfl
  | cons c cs ih =>
    have hc := upperChar_of_ascii (h c (List.mem_cons_self ..))
    have hcs := ih fun d hd => h d (List.mem_cons_of_mem c hd)
    rw [upper, List.flatMap_cons, hc, ← upper, hcs]
    rfl

end Text
end KeyValueClient
