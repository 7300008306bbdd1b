import KeyValueClient.Binary64
import KeyValueClient.Bytes
import Mathlib.Tactic.Ring

/-!
# Widening floating-point numbers

A finite number is a whole multiple of the least positive number of its width, and the number of
these units is its `magnitude`.  One unit of thirty-two bits is `2 ^ 925` units of sixty-four bits,
so a finite number is widened exactly when sign and magnitude are kept in this scale.  `Widens` says
this, together with what becomes of the infinities and of the patterns that are no number.

**`Binary64.ofBinary32` widens every pattern, and nothing else is a widening of it**
(`widens_iff_eq_ofBinary32`).  The second half rests on `eq_of_magnitude_eq`: a finite number is
determined by its sign and its magnitude.
-/

namespace KeyValueClient

/-! ## Patterns of thirty-two bits -/

namespace Binary32

/-- Whether the sign bit is set. -/
def negative (pattern : Nat) : Bool := 2 ^ 31 ≤ pattern

/-- The exponent field. -/
def exponentField (pattern : Nat) : Nat := pattern / 2 ^ 23 % 2 ^ 8

/-- The fraction field. -/
def fraction (pattern : Nat) : Nat := pattern % 2 ^ 23

/-- The size of a finite number in units of the least positive one. -/
def magnitude (pattern : Nat) : Nat :=
  if exponentField pattern = 0 then fraction pattern
  else (2 ^ 23 + fraction pattern) * 2 ^ (exponentField pattern - 1)

end Binary32

namespace Binary64

/-! ## Fields -/

theorem fraction_lt (x : Binary64) : x.fraction < 2 ^ 52 := Nat.mod_lt _ (by decide)

/-- A pattern is determined by its fields. -/
theorem eq_of_fields {x y : Binary64} (hsign : x.negative = y.negative)
    (hexponent : x.exponentField = y.exponentField) (hfraction : x.fraction = y.fraction) :
    x = y := by
  have hx := x.bits.toNat_lt
  have hy := y.bits.toNat_lt
  have hnegative : 2 ^ 63 ≤ x.bits.toNat ↔ 2 ^ 63 ≤ y.bits.toNat := decide_eq_decide.mp hsign
  have hbits : x.bits.toNat = y.bits.toNat := by
    unfold exponentField at hexponent
    unfold fraction at hfraction
    omega
  cases x
  cases y
  exact congrArg Binary64.mk (UInt64.toNat_inj.mp hbits)

section OfFields

variable {s : Bool} {e f : Nat}

theorem toNat_bits_ofFields (he : e < 2 ^ 11) (hf : f < 2 ^ 52) :
    (ofFields s e f).bits.toNat = s.toNat * 2 ^ 63 + e * 2 ^ 52 + f := by
  have hs : s.toNat ≤ 1 := Bool.toNat_le s
  have hlt : s.toNat * 2 ^ 63 + e * 2 ^ 52 + f < UInt64.size := by
    have hsize : UInt64.size = 2 ^ 64 := rfl
    omega
  rw [ofFields, Nat.shiftLeft_eq, Nat.shiftLeft_eq, UInt64.toNat_ofNat_of_lt' hlt]

theorem negative_ofFields (he : e < 2 ^ 11) (hf : f < 2 ^ 52) : (ofFields s e f).negative = s := by
  unfold negative
  rw [toNat_bits_ofFields he hf]
  cases s
  · exact decide_eq_false (by simp only [Bool.toNat_false]; omega)
  · exact decide_eq_true (by simp only [Bool.toNat_true]; omega)

theorem exponentField_ofFields (he : e < 2 ^ 11) (hf : f < 2 ^ 52) :
    (ofFields s e f).exponentField = e := by
  unfold exponentField
  rw [toNat_bits_ofFields he hf]
  omega

theorem fraction_ofFields (he : e < 2 ^ 11) (hf : f < 2 ^ 52) : (ofFields s e f).fraction = f := by
  unfold fraction
  rw [toNat_bits_ofFields he hf]
  omega

end OfFields

/-! ## Magnitudes -/

/-- The size of a finite number in units of the least positive one. -/
def magnitude (x : Binary64) : Nat :=
  if x.exponentField = 0 then x.fraction else (2 ^ 52 + x.fraction) * 2 ^ (x.exponentField - 1)

/-- Numbers of a smaller exponent field are smaller. -/
theorem magnitude_lt_of_exponentField_lt {x y : Binary64}
    (h : x.exponentField < y.exponentField) : x.magnitude < y.magnitude := by
  have hfraction := x.fraction_lt
  have hy : 2 ^ 52 * 2 ^ (y.exponentField - 1) ≤ y.magnitude := by
    rw [magnitude, if_neg (by omega)]
    exact Nat.mul_le_mul_right _ (Nat.le_add_right _ _)
  refine Nat.lt_of_lt_of_le ?_ hy
  by_cases hx : x.exponentField = 0
  · rw [magnitude, if_pos hx]
    exact Nat.lt_of_lt_of_le hfraction (Nat.le_mul_of_pos_right _ (Nat.two_pow_pos _))
  · rw [magnitude, if_neg hx]
    calc (2 ^ 52 + x.fraction) * 2 ^ (x.exponentField - 1)
        < 2 ^ 53 * 2 ^ (x.exponentField - 1) :=
          Nat.mul_lt_mul_of_pos_right (by omega) (Nat.two_pow_pos _)
      _ = 2 ^ 52 * 2 ^ (x.exponentField - 1 + 1) := by ring
      _ ≤ 2 ^ 52 * 2 ^ (y.exponentField - 1) :=
          Nat.mul_le_mul_left _ (Nat.pow_le_pow_right (by decide) (by omega))

/-- A number is determined by its sign and its magnitude. -/
theorem eq_of_magnitude_eq {x y : Binary64} (hsign : x.negative = y.negative)
    (h : x.magnitude = y.magnitude) : x = y := by
  have hexponent : x.exponentField = y.exponentField := by
    rcases Nat.lt_trichotomy x.exponentField y.exponentField with hlt | heq | hgt
    · exact absurd h (Nat.ne_of_lt (magnitude_lt_of_exponentField_lt hlt))
    · exact heq
    · exact absurd h (Nat.ne_of_gt (magnitude_lt_of_exponentField_lt hgt))
  refine eq_of_fields hsign hexponent ?_
  unfold magnitude at h
  rw [hexponent] at h
  by_cases hzero : y.exponentField = 0
  · rwa [if_pos hzero, if_pos hzero] at h
  · rw [if_neg hzero, if_neg hzero] at h
    have hsum := Nat.eq_of_mul_eq_mul_right (Nat.two_pow_pos _) h
    omega

/-! ## Widening -/

/-- A number of sixty-four bits is what a pattern of thirty-two bits says. -/
structure Widens (x : Binary64) (pattern : Nat) : Prop where
  negative : x.negative = Binary32.negative pattern
  /-- A finite number keeps its size. -/
  finite : Binary32.exponentField pattern ≠ 255 →
    x.exponentField ≠ 2047 ∧ x.magnitude = Binary32.magnitude pattern * 2 ^ 925
  infinite : Binary32.exponentField pattern = 255 → Binary32.fraction pattern = 0 →
    x.exponentField = 2047 ∧ x.fraction = 0
  /-- What is not a number keeps its payload below the highest bit, which is set. -/
  notANumber : Binary32.exponentField pattern = 255 → Binary32.fraction pattern ≠ 0 →
    x.exponentField = 2047 ∧ x.fraction = 2 ^ 51 + Binary32.fraction pattern % 2 ^ 22 * 2 ^ 29

/-- A pattern has one widening at most. -/
theorem Widens.unique {x y : Binary64} {pattern : Nat} (hx : x.Widens pattern)
    (hy : y.Widens pattern) : x = y := by
  have hsign : x.negative = y.negative := hx.negative.trans hy.negative.symm
  by_cases hexponent : Binary32.exponentField pattern = 255
  · by_cases hfraction : Binary32.fraction pattern = 0
    · obtain ⟨hxe, hxf⟩ := hx.infinite hexponent hfraction
      obtain ⟨hye, hyf⟩ := hy.infinite hexponent hfraction
      exact eq_of_fields hsign (hxe.trans hye.symm) (hxf.trans hyf.symm)
    · obtain ⟨hxe, hxf⟩ := hx.notANumber hexponent hfraction
      obtain ⟨hye, hyf⟩ := hy.notANumber hexponent hfraction
      exact eq_of_fields hsign (hxe.trans hye.symm) (hxf.trans hyf.symm)
  · have hmagnitude := (hx.finite hexponent).2.trans (hy.finite hexponent).2.symm
    exact eq_of_magnitude_eq hsign hmagnitude

/-- Fields whose magnitude is that of a finite pattern, in the finer units, widen the pattern. -/
theorem widens_ofFields_of_finite {pattern e f : Nat}
    (hexponent : Binary32.exponentField pattern ≠ 255) (he : e < 2047) (hf : f < 2 ^ 52)
    (hmagnitude : (if e = 0 then f else (2 ^ 52 + f) * 2 ^ (e - 1)) =
      Binary32.magnitude pattern * 2 ^ 925) :
    (ofFields (Binary32.negative pattern) e f).Widens pattern where
  negative := negative_ofFields (by omega) hf
  finite _ := by
    have hfield : (ofFields (Binary32.negative pattern) e f).exponentField = e :=
      exponentField_ofFields (by omega) hf
    refine ⟨by omega, ?_⟩
    rw [magnitude, hfield, fraction_ofFields (by omega) hf, hmagnitude]
  infinite h := absurd h hexponent
  notANumber h := absurd h hexponent

/-- Below the normal range the leading bit of the fraction becomes the implicit one. -/
theorem magnitude_of_leading {fraction : Nat} (hzero : fraction ≠ 0) (hlt : fraction < 2 ^ 23) :
    (fraction - 2 ^ fraction.log2) * 2 ^ (52 - fraction.log2) < 2 ^ 52 ∧
      (2 ^ 52 + (fraction - 2 ^ fraction.log2) * 2 ^ (52 - fraction.log2)) *
        2 ^ (fraction.log2 + 873) = fraction * 2 ^ 925 := by
  obtain ⟨top, htop⟩ : ∃ top, fraction.log2 = top := ⟨_, rfl⟩
  have hlow : 2 ^ top ≤ fraction := htop ▸ Nat.log2_self_le hzero
  have hhigh : fraction < 2 ^ (top + 1) := htop ▸ Nat.lt_log2_self
  have hbound : top < 23 := (Nat.pow_lt_pow_iff_right (by decide)).mp (Nat.lt_of_le_of_lt hlow hlt)
  have hbits : top + (52 - top) = 52 := by omega
  have hunits : 52 - top + (top + 873) = 925 := by omega
  have hpower : 2 ^ 52 = 2 ^ top * 2 ^ (52 - top) := by rw [← Nat.pow_add, hbits]
  have hscale : 2 ^ (52 - top) * 2 ^ (top + 873) = 2 ^ 925 := by
    rw [← hunits, ← Nat.pow_add]
  rw [htop]
  constructor
  · rw [hpower]
    exact Nat.mul_lt_mul_of_pos_right (by omega) (Nat.two_pow_pos _)
  · rw [hpower, ← Nat.add_mul, Nat.add_sub_cancel' hlow, Nat.mul_assoc, hscale]

/-- In the normal range the exponent field is moved to the other bias. -/
theorem magnitude_of_rebiased (fraction e : Nat) :
    (2 ^ 52 + fraction * 2 ^ 29) * 2 ^ (e + 896) = (2 ^ 23 + fraction) * 2 ^ e * 2 ^ 925 := by
  have hunits : 29 + (e + 896) = e + 925 := by omega
  have hbits : 2 ^ 52 = 2 ^ 23 * 2 ^ 29 := by decide
  calc (2 ^ 52 + fraction * 2 ^ 29) * 2 ^ (e + 896)
      = (2 ^ 23 + fraction) * (2 ^ 29 * 2 ^ (e + 896)) := by
        rw [hbits, ← Nat.add_mul, Nat.mul_assoc]
    _ = (2 ^ 23 + fraction) * 2 ^ (e + 925) := by rw [← Nat.pow_add, hunits]
    _ = (2 ^ 23 + fraction) * 2 ^ e * 2 ^ 925 := by rw [pow_add, mul_assoc]

/-- Every pattern is widened. -/
theorem widens_ofBinary32 {pattern : Nat} (h : pattern < 2 ^ 32) :
    (ofBinary32 pattern).Widens pattern := by
  have hsign : (pattern >>> 31 % 2 == 1) = Binary32.negative pattern := by
    rw [Bool.eq_iff_iff, beq_iff_eq, Binary32.negative, decide_eq_true_eq]
    omega
  have hexponentField : pattern >>> 23 % 0x100 = Binary32.exponentField pattern := by
    rw [Nat.shiftRight_eq_div_pow]
    rfl
  have hfractionField : pattern % 0x800000 = Binary32.fraction pattern := rfl
  have hfraction : Binary32.fraction pattern < 2 ^ 23 := Nat.mod_lt _ (by decide)
  have hexponent : Binary32.exponentField pattern < 2 ^ 8 := Nat.mod_lt _ (by decide)
  simp only [ofBinary32, hsign, hexponentField, hfractionField, Nat.shiftLeft_eq]
  split_ifs with hspecial hzero hsmall hnone
  · exact
      { negative := negative_ofFields (by decide) (by decide)
        finite := fun hfinite => absurd hspecial hfinite
        infinite := fun _ _ =>
          ⟨exponentField_ofFields (by decide) (by decide),
            fraction_ofFields (by decide) (by decide)⟩
        notANumber := fun _ hne => absurd hzero hne }
  · have hpayload : 2 ^ 51 + Binary32.fraction pattern % 2 ^ 22 * 2 ^ 29 < 2 ^ 52 := by omega
    exact
      { negative := negative_ofFields (by decide) hpayload
        finite := fun hfinite => absurd hspecial hfinite
        infinite := fun _ heq => absurd heq hzero
        notANumber := fun _ _ =>
          ⟨exponentField_ofFields (by decide) hpayload, fraction_ofFields (by decide) hpayload⟩ }
  · refine widens_ofFields_of_finite hspecial (by decide) (by decide) ?_
    rw [if_pos rfl, Binary32.magnitude, if_pos hsmall, hnone]
    generalize 2 ^ 925 = units
    exact (Nat.zero_mul units).symm
  · obtain ⟨hlt, heq⟩ := magnitude_of_leading hnone hfraction
    have htop : (Binary32.fraction pattern).log2 < 23 := (Nat.log2_lt hnone).mpr hfraction
    refine widens_ofFields_of_finite hspecial (by omega) hlt ?_
    rw [if_neg (by omega), Binary32.magnitude, if_pos hsmall]
    exact heq
  · refine widens_ofFields_of_finite hspecial (by omega) (by omega) ?_
    obtain ⟨e, he⟩ : ∃ e, Binary32.exponentField pattern = e + 1 :=
      Nat.exists_eq_succ_of_ne_zero hsmall
    have hshift : e + 1 + 896 - 1 = e + 896 := by omega
    rw [if_neg (by omega), Binary32.magnitude, if_neg hsmall, he, hshift, Nat.add_sub_cancel]
    exact magnitude_of_rebiased _ e

/-- **Widening is exact.**  The widening of a pattern is the one number of sixty-four bits that
says what the pattern says. -/
theorem widens_iff_eq_ofBinary32 {x : Binary64} {pattern : Nat} (h : pattern < 2 ^ 32) :
    x.Widens pattern ↔ x = ofBinary32 pattern := by
  constructor
  · intro hx
    exact hx.unique (widens_ofBinary32 h)
  · rintro rfl
    exact widens_ofBinary32 h

end Binary64
end KeyValueClient
