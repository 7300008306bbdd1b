import KeyValueClient.Text.Integer
import Mathlib.Algebra.Group.Int.Defs

/-!
# Numerals

`Numeral cs i` says that the text `cs` is a numeral of the integer `i`: one sign or none, and then
one or more digits of ASCII, which count by their places.  Leading zeros are allowed and count
nothing (`placeValue_zeros_append`), so an integer has numerals of every length.

The readers go through a text from left to right, and they find what the places say
(`digitsValue_eq`, `signed?_eq_some_iff`).  **A text is read as an integer of sixty-four bits
exactly when it is a numeral of an integer in the range** (`int64?_eq_some_iff`,
`int64?_eq_none_iff`), however many digits it has.

An integer that is written in base ten is read back.  Its digits are a run of ASCII digits that
spells its size (`natural?_toDigits`), and a minus sign stands in front of a negative one
(`signed?_toString`).  **Every integer of sixty-four bits is read back from its numeral**
(`int64?_toString`), the one at the lower end included, whose size is out of the range.
-/

namespace KeyValueClient
namespace Text

/-! ## Place values -/

/-- The number that digits say by their places: each counts as often as the power of ten for the
number of digits behind it. -/
def placeValue : List Char → Nat
  | [] => 0
  | c :: cs => (c.toNat - '0'.toNat) * 10 ^ cs.length + placeValue cs

/-- Leading zeros count nothing. -/
theorem placeValue_zeros_append (n : Nat) (cs : List Char) :
    placeValue (List.replicate n '0' ++ cs) = placeValue cs := by
  induction n with
  | zero => rfl
  | succ n ih =>
    rw [List.replicate_succ, List.cons_append, placeValue, ih, Nat.sub_self, Nat.zero_mul,
      Nat.zero_add]

/-- Reading digits from left to right finds what the places say. -/
theorem digitsValue_eq (start : Nat) (cs : List Char) :
    digitsValue start cs = start * 10 ^ cs.length + placeValue cs := by
  induction cs generalizing start with
  | nil => simp [digitsValue, placeValue]
  | cons c cs ih =>
    have hstep : digitsValue start (c :: cs) =
        digitsValue (start * 10 + (c.toNat - '0'.toNat)) cs := rfl
    rw [hstep, ih, placeValue, List.length_cons, Nat.pow_succ', Nat.add_mul, Nat.mul_assoc,
      Nat.add_assoc]

/-! ## What is read -/

/-- A text of one or more digits of ASCII. -/
structure Digits (cs : List Char) : Prop where
  ne_nil : cs ≠ []
  digit : ∀ c ∈ cs, '0' ≤ c ∧ c ≤ '9'

/-- A text is a numeral of an integer: digits, with one sign in front or none. -/
inductive Numeral : List Char → Int → Prop
  | plain {cs : List Char} (h : Digits cs) : Numeral cs (placeValue cs)
  | plus {cs : List Char} (h : Digits cs) : Numeral ('+' :: cs) (placeValue cs)
  | minus {cs : List Char} (h : Digits cs) : Numeral ('-' :: cs) (-placeValue cs)

theorem digits_iff {cs : List Char} : Digits cs ↔ (!cs.isEmpty && cs.all isDigit) = true := by
  simp only [Bool.and_eq_true, Bool.not_eq_true', List.isEmpty_eq_false_iff, List.all_eq_true,
    isDigit, decide_eq_true_eq]
  exact ⟨fun h => ⟨h.ne_nil, h.digit⟩, fun h => ⟨h.1, h.2⟩⟩

theorem natural?_eq_some_iff {cs : List Char} {n : Nat} :
    natural? cs = some n ↔ Digits cs ∧ placeValue cs = n := by
  have hvalue : digitsValue 0 cs = placeValue cs := by
    rw [digitsValue_eq, Nat.zero_mul, Nat.zero_add]
  rw [natural?, hvalue, Option.ite_none_right_eq_some, Option.some_inj, digits_iff]

theorem signed?_minus (cs : List Char) :
    signed? ('-' :: cs) = (natural? cs).map fun n : Nat => -(n : Int) := by
  rw [signed?]
  cases natural? cs <;> rfl

theorem signed?_plus (cs : List Char) :
    signed? ('+' :: cs) = (natural? cs).map fun n : Nat => (n : Int) := by
  rw [signed?, unsigned?]
  · cases natural? cs <;> rfl
  · simp

/-- Without a sign in front a text is read as a number. -/
theorem signed?_unsigned {cs : List Char} (hminus : cs.head? ≠ some '-')
    (hplus : cs.head? ≠ some '+') :
    signed? cs = (natural? cs).map fun n : Nat => (n : Int) := by
  rw [signed?, unsigned?]
  · cases natural? cs <;> rfl
  · rintro ds rfl
    exact hplus rfl
  · rintro ds rfl
    exact hminus rfl

/-- Digits do not begin with a sign. -/
theorem Digits.head?_ne {cs : List Char} (h : Digits cs) {sign : Char}
    (hsign : ¬ ('0' ≤ sign ∧ sign ≤ '9')) : cs.head? ≠ some sign :=
  fun hhead => hsign (h.digit sign (List.mem_of_mem_head? hhead))

/-- **The texts that are read as integers are the numerals.** -/
theorem signed?_eq_some_iff {cs : List Char} {i : Int} : signed? cs = some i ↔ Numeral cs i := by
  constructor
  · intro h
    -- behind the sign stand digits, whose number is the size of the integer
    have hdigits : ∀ {value : Nat → Int} {ds : List Char}, (natural? ds).map value = some i →
        Digits ds ∧ value (placeValue ds) = i := by
      intro value ds h
      obtain ⟨n, hn, rfl⟩ := Option.map_eq_some_iff.mp h
      obtain ⟨hdigits, rfl⟩ := natural?_eq_some_iff.mp hn
      exact ⟨hdigits, rfl⟩
    by_cases hminus : cs.head? = some '-'
    · obtain ⟨ds, rfl⟩ := List.head?_eq_some_iff.mp hminus
      obtain ⟨hds, rfl⟩ := hdigits (signed?_minus ds ▸ h)
      exact .minus hds
    by_cases hplus : cs.head? = some '+'
    · obtain ⟨ds, rfl⟩ := List.head?_eq_some_iff.mp hplus
      obtain ⟨hds, rfl⟩ := hdigits (signed?_plus ds ▸ h)
      exact .plus hds
    obtain ⟨hcs, rfl⟩ := hdigits (signed?_unsigned hminus hplus ▸ h)
    exact .plain hcs
  · intro h
    cases h with
    | minus hdigits =>
      rw [signed?_minus, natural?_eq_some_iff.mpr ⟨hdigits, rfl⟩, Option.map_some]
    | plus hdigits =>
      rw [signed?_plus, natural?_eq_some_iff.mpr ⟨hdigits, rfl⟩, Option.map_some]
    | plain hdigits =>
      rw [signed?_unsigned (hdigits.head?_ne (by decide)) (hdigits.head?_ne (by decide)),
        natural?_eq_some_iff.mpr ⟨hdigits, rfl⟩, Option.map_some]

/-- A text is a numeral of one integer only. -/
theorem Numeral.unique {cs : List Char} {i j : Int} (hi : Numeral cs i) (hj : Numeral cs j) :
    i = j := by
  have hread := signed?_eq_some_iff.mpr hi
  rw [signed?_eq_some_iff.mpr hj] at hread
  exact (Option.some.inj hread).symm

/-- **A text is read as an integer of sixty-four bits when it is a numeral of it.** -/
theorem int64?_eq_some_iff {s : String} {i : Int64} :
    int64? s = some i ↔ Numeral s.toList i.toInt := by
  rw [← signed?_eq_some_iff, int64?]
  cases hread : signed? s.toList with
  | none => simp
  | some j =>
    show (if _ then _ else _) = _ ↔ _
    constructor
    · intro h
      obtain ⟨⟨hlow, hhigh⟩, h⟩ := Option.ite_none_right_eq_some.mp h
      rw [← Option.some.inj h, ← Int64.ofIntLE_eq_ofInt hlow hhigh, Int64.toInt_ofIntLE]
    · rintro ⟨⟩
      rw [if_pos ⟨i.minValue_le_toInt, i.toInt_le⟩, Int64.ofInt_toInt]

/-- **All other texts are refused**: those that are no numerals, and the numerals of integers out of
the range. -/
theorem int64?_eq_none_iff {s : String} :
    int64? s = none ↔ ¬ ∃ i, Numeral s.toList i ∧ -2 ^ 63 ≤ i ∧ i ≤ 2 ^ 63 - 1 := by
  rw [Option.eq_none_iff_forall_ne_some]
  constructor
  · rintro h ⟨i, hi, hlow, hhigh⟩
    refine h (Int64.ofInt i) (int64?_eq_some_iff.mpr ?_)
    rwa [Int64.toInt_ofInt_of_le hlow (by omega)]
  · intro h i hi
    have hhigh := i.toInt_lt
    exact h ⟨i.toInt, int64?_eq_some_iff.mp hi, i.le_toInt, by omega⟩

/-! ## Numerals that are written -/

theorem isDigit_eq (c : Char) : isDigit c = c.isDigit := by
  unfold isDigit Char.isDigit
  rfl

/-- The digits of a number spell the number. -/
theorem natural?_toDigits (n : Nat) : natural? (Nat.toDigits 10 n) = some n := by
  have hdigits : (Nat.toDigits 10 n).all isDigit = true := by
    rw [List.all_eq_true]
    intro c hc
    rw [isDigit_eq]
    exact Nat.isDigit_of_mem_toDigits (by decide) (by decide) hc
  have hvalue : digitsValue 0 (Nat.toDigits 10 n) = n := by
    have h := Nat.ofDigitChars_ten_toDigits (n := n)
    rw [Nat.ofDigitChars_eq_foldl] at h
    simpa only [digitsValue, Nat.mul_comm] using h
  simp [natural?, hdigits, hvalue, Nat.toDigits_ne_nil]

/-- A numeral without a sign is read as a number. -/
theorem signed?_toDigits (n : Nat) : signed? (Nat.toDigits 10 n) = some (n : Int) := by
  obtain ⟨hdigits, hvalue⟩ := natural?_eq_some_iff.mp (natural?_toDigits n)
  have hnumeral := Numeral.plain hdigits
  rw [hvalue] at hnumeral
  exact signed?_eq_some_iff.mpr hnumeral

/-- The numeral of an integer: a minus sign in front of a negative one, then the digits. -/
theorem toList_toString (i : Int) :
    (toString i).toList = (if i < 0 then ['-'] else []) ++ Nat.toDigits 10 i.natAbs := by
  cases i with
  | ofNat n =>
    show (Nat.repr n).toList = _
    simp
  | negSucc n =>
    show ("-" ++ Nat.repr (n + 1)).toList = _
    simp [Int.negSucc_lt_zero]

theorem toList_toString_ne_nil (i : Int) : (toString i).toList ≠ [] := by
  rw [toList_toString]
  exact List.append_ne_nil_of_right_ne_nil _ Nat.toDigits_ne_nil

/-- The characters of a numeral stand between the minus sign and the last digit. -/
theorem visible_of_mem_toString {i : Int} :
    ∀ c ∈ (toString i).toList, 0x2d ≤ c.toNat ∧ c.toNat ≤ 0x39 := by
  intro c hc
  rw [toList_toString, List.mem_append] at hc
  rcases hc with hc | hc
  · split at hc
    · rw [List.mem_singleton.mp hc]
      decide
    · cases hc
  · have hdigit : c.isDigit = true := Nat.isDigit_of_mem_toDigits (by decide) (by decide) hc
    have hrange : 48 ≤ c.toNat ∧ c.toNat ≤ 57 := Char.isDigit_iff_toNat.mp hdigit
    omega

/-- An integer is read back from its numeral. -/
theorem signed?_toString (i : Int) : signed? (toString i).toList = some i := by
  rw [toList_toString]
  by_cases hi : i < 0
  · have habs : -(i.natAbs : Int) = i := by omega
    rw [if_pos hi, List.singleton_append, signed?, natural?_toDigits]
    exact congrArg some habs
  · have habs : (i.natAbs : Int) = i := by omega
    rw [if_neg hi, List.nil_append, signed?_toDigits, habs]

/-- **Every integer of sixty-four bits is read back from its numeral.** -/
theorem int64?_toString (i : Int64) : int64? (toString i.toInt) = some i :=
  int64?_eq_some_iff.mpr (signed?_eq_some_iff.mp (signed?_toString i.toInt))

end Text
end KeyValueClient
