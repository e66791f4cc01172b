import Mathlib.Data.Nat.Log
import Mathlib.Tactic.SplitIfs
import ScatterGather.Proofs.Binary.Order

/-!
# Rounding to the nearest number

Rounding halves to even is monotone and off by half a step at most, and it does not depend on the unit.
The pattern of a rounded number is the significand added to the shifted exponent, so that a carry moves
on into the exponent: read back, it still is the significand times the step. An integer of more bits
than a significand has is thereby rounded to the nearest multiple of a power of two.
-/

namespace ScatterGather

/-! ## Halves to even -/

variable {num num' den : Nat}

theorem roundHalfEven_cases (num den : Nat) :
    roundHalfEven num den = num / den ∧ 2 * (num % den) ≤ den ∨
      roundHalfEven num den = num / den + 1 ∧ den ≤ 2 * (num % den) := by
  unfold roundHalfEven
  have hparity := Nat.mod_two_eq_zero_or_one (num / den)
  dsimp only
  split
  · exact .inl ⟨rfl, by omega⟩
  · split <;> omega

/-- A change of units does not matter. -/
theorem roundHalfEven_mul_right (num den : Nat) {scale : Nat} (h : 0 < scale) :
    roundHalfEven (num * scale) (den * scale) = roundHalfEven num den := by
  unfold roundHalfEven
  rw [Nat.mul_div_mul_right _ _ h, Nat.mul_mod_mul_right, ← Nat.mul_assoc]
  simp only [Nat.mul_lt_mul_right h]

theorem roundHalfEven_mono (h : num ≤ num') (den : Nat) :
    roundHalfEven num den ≤ roundHalfEven num' den := by
  have hquotient : num / den ≤ num' / den := Nat.div_le_div_right h
  rcases Nat.lt_or_eq_of_le hquotient with hlt | heq
  · have := roundHalfEven_cases num den
    have := roundHalfEven_cases num' den
    omega
  · -- With one quotient the remainders decide, and a tie goes one way for both.
    have hsplit := Nat.div_add_mod num den
    have hsplit' := Nat.div_add_mod num' den
    have hparity := Nat.mod_two_eq_zero_or_one (num' / den)
    unfold roundHalfEven
    rw [heq] at hsplit ⊢
    dsimp only
    split_ifs <;> omega

/-- What is a multiple already stays as it is. -/
theorem roundHalfEven_mul_self (quotient : Nat) (h : 0 < den) :
    roundHalfEven (quotient * den) den = quotient := by
  unfold roundHalfEven
  simp [Nat.mul_div_cancel _ h, h]

/-- The nearest multiple is at most half a step away. -/
theorem roundHalfEven_close (num : Nat) {den : Nat} (h : 0 < den) :
    2 * num ≤ 2 * (roundHalfEven num den * den) + den
      ∧ 2 * (roundHalfEven num den * den) ≤ 2 * num + den := by
  have hsplit := Nat.div_add_mod' num den
  have hrest := Nat.mod_lt num h
  rcases roundHalfEven_cases num den with ⟨hround, hhalf⟩ | ⟨hround, hhalf⟩
  · rw [hround]
    omega
  · rw [hround, Nat.add_mul, Nat.one_mul]
    omega

/-! ## Patterns of rounded numbers -/

namespace Format

variable (f : Format)

/-- How far the leading bits of a quotient are shifted, so that a significand is left. -/
def shift (num den : Nat) : Nat :=
  (num / den).log2 - f.fractionBits

/-- A quotient in whole steps of two to the power of the shift. -/
def significand (num den : Nat) : Nat :=
  roundHalfEven num (den * 2 ^ f.shift num den)

/-- A quotient that stays clear of infinity when it is rounded. -/
def Fits (num den : Nat) : Prop :=
  f.shift num den + 3 < 2 ^ f.exponentBits

theorem nearest_eq (num den : Nat) : f.nearest num den
    = min f.infinity (f.shift num den * 2 ^ f.fractionBits + f.significand num den) :=
  rfl

/-- A significand with its exponent, read back. A carry out of the significand is in the exponent. -/
theorem units_significand {shift significand : Nat} (hle : significand ≤ 2 ^ (f.fractionBits + 1))
    (hnormal : shift = 0 ∨ 2 ^ f.fractionBits ≤ significand) :
    f.units (shift * 2 ^ f.fractionBits + significand) = significand * 2 ^ shift := by
  rcases Nat.lt_or_ge significand (2 ^ f.fractionBits) with hsmall | hlarge
  · obtain rfl : shift = 0 := hnormal.resolve_right (Nat.not_le.mpr hsmall)
    rw [f.units_of_fields hsmall, if_pos rfl, Nat.pow_zero, Nat.mul_one]
  obtain ⟨fraction, rfl⟩ := Nat.exists_eq_add_of_le hlarge
  rw [Nat.pow_succ] at hle
  have hone : shift * 2 ^ f.fractionBits + (2 ^ f.fractionBits + fraction)
      = (shift + 1) * 2 ^ f.fractionBits + fraction := by ring
  rcases Nat.lt_or_ge fraction (2 ^ f.fractionBits) with hfraction | hcarry
  · rw [hone, f.units_of_fields hfraction, if_neg (Nat.succ_ne_zero _), Nat.add_sub_cancel]
  · obtain rfl : fraction = 2 ^ f.fractionBits := by omega
    have htwo : (shift + 1) * 2 ^ f.fractionBits + 2 ^ f.fractionBits
        = (shift + 2) * 2 ^ f.fractionBits + 0 := by ring
    rw [hone, htwo, f.units_of_fields (Nat.two_pow_pos _), if_neg (Nat.succ_ne_zero _)]
    have hexponent : shift + 2 - 1 = shift + 1 := rfl
    rw [hexponent]
    ring

/-- Small exponents leave room below infinity. -/
theorem significand_lt_infinity {shift significand : Nat}
    (hle : significand ≤ 2 ^ (f.fractionBits + 1)) (hshift : shift + 3 < 2 ^ f.exponentBits) :
    shift * 2 ^ f.fractionBits + significand < f.infinity := by
  have hexponent : shift + 2 < 2 ^ f.exponentBits - 1 := Nat.lt_sub_of_add_lt hshift
  rw [Nat.pow_succ] at hle
  calc shift * 2 ^ f.fractionBits + significand
      ≤ (shift + 2) * 2 ^ f.fractionBits := by
        rw [Nat.add_mul]
        omega
    _ < (2 ^ f.exponentBits - 1) * 2 ^ f.fractionBits :=
        Nat.mul_lt_mul_of_pos_right hexponent (Nat.two_pow_pos _)

theorem log2_mul_two_pow {n : Nat} (h : n ≠ 0) (k : Nat) : (n * 2 ^ k).log2 = n.log2 + k := by
  rw [Nat.log2_eq_iff (Nat.mul_ne_zero h (Nat.two_pow_pos k).ne'), Nat.pow_add, Nat.add_right_comm,
    Nat.pow_add]
  exact ⟨Nat.mul_le_mul_right _ (Nat.log2_self_le h),
    Nat.mul_lt_mul_of_pos_right Nat.lt_log2_self (Nat.two_pow_pos k)⟩

/-- A quotient has at most as many whole steps as a significand has bits for. -/
theorem quotient_lt (num den : Nat) :
    num / (den * 2 ^ f.shift num den) < 2 ^ (f.fractionBits + 1) := by
  rw [← Nat.div_div_eq_div_mul, Nat.div_lt_iff_lt_mul (Nat.two_pow_pos _), ← Nat.pow_add]
  exact Nat.lt_of_lt_of_le Nat.lt_log2_self (Nat.pow_le_pow_right Nat.two_pos (by rw [shift]; omega))

/-- A quotient of as many bits as a significand has fills a significand. -/
theorem le_quotient {num den : Nat} (h : 2 ^ f.fractionBits ≤ num / den) :
    2 ^ f.fractionBits ≤ num / (den * 2 ^ f.shift num den) := by
  have hne : num / den ≠ 0 := (Nat.lt_of_lt_of_le (Nat.two_pow_pos _) h).ne'
  have hbits : f.fractionBits ≤ (num / den).log2 := (Nat.le_log2 hne).mpr h
  rw [← Nat.div_div_eq_div_mul, Nat.le_div_iff_mul_le (Nat.two_pow_pos _), ← Nat.pow_add, shift,
    Nat.add_sub_cancel' hbits]
  exact Nat.log2_self_le hne

/-- Only what is not shifted may fill less than a significand. -/
theorem shift_or_le (num den : Nat) : f.shift num den = 0 ∨ 2 ^ f.fractionBits ≤ num / den := by
  rcases Nat.lt_or_ge (num / den) (2 ^ f.fractionBits) with hsmall | hlarge
  · refine .inl (Nat.sub_eq_zero_of_le ?_)
    by_cases hzero : num / den = 0
    · rw [hzero, Nat.log2_zero]
      exact Nat.zero_le _
    · exact ((Nat.log2_lt hzero).mpr hsmall).le
  · exact .inr hlarge

theorem quotient_le_significand (num den : Nat) :
    num / (den * 2 ^ f.shift num den) ≤ f.significand num den := by
  rcases roundHalfEven_cases num (den * 2 ^ f.shift num den) with h | h <;>
    · rw [significand]
      omega

/-- Rounding up may take one bit more. -/
theorem significand_le (num den : Nat) : f.significand num den ≤ 2 ^ (f.fractionBits + 1) := by
  have hquotient := f.quotient_lt num den
  rcases roundHalfEven_cases num (den * 2 ^ f.shift num den) with h | h <;>
    · rw [significand]
      omega

theorem significand_normal (num den : Nat) :
    f.shift num den = 0 ∨ 2 ^ f.fractionBits ≤ f.significand num den :=
  (f.shift_or_le num den).imp_right fun h =>
    Nat.le_trans (f.le_quotient h) (f.quotient_le_significand num den)

theorem nearest_spec {num den : Nat} (h : f.Fits num den) :
    f.nearest num den < f.infinity
      ∧ f.units (f.nearest num den) = f.significand num den * 2 ^ f.shift num den := by
  have hbelow := f.significand_lt_infinity (f.significand_le num den) h
  rw [f.nearest_eq, Nat.min_eq_right hbelow.le]
  exact ⟨hbelow, f.units_significand (f.significand_le num den) (f.significand_normal num den)⟩

/-- An integer of at least as many bits as a significand is rounded to a multiple of the power of two
that leaves as many bits as a significand has. -/
theorem nearest_int {n : Nat} (hbits : f.fractionBits ≤ n.log2) (hn : n ≠ 0)
    (hsmall : n.log2 + (f.unitExponent - f.fractionBits) + 3 < 2 ^ f.exponentBits) :
    let step := 2 ^ (n.log2 - f.fractionBits)
    f.nearest (n * Nat.pow 2 f.unitExponent) 1 < f.infinity
      ∧ f.units (f.nearest (n * Nat.pow 2 f.unitExponent) 1)
        = roundHalfEven n step * step * f.one := by
  intro step
  have hunit := f.unitExponent_le
  have hshift : f.shift (n * 2 ^ f.unitExponent) 1
      = (n.log2 - f.fractionBits) + f.unitExponent := by
    rw [shift, Nat.div_one, log2_mul_two_pow hn]
    omega
  have hround : f.significand (n * 2 ^ f.unitExponent) 1 = roundHalfEven n step := by
    rw [significand, hshift, Nat.one_mul, Nat.pow_add,
      roundHalfEven_mul_right _ _ (Nat.two_pow_pos _)]
  have hfits : f.Fits (n * 2 ^ f.unitExponent) 1 := by
    rw [Fits, hshift]
    omega
  obtain ⟨hbelow, hunits⟩ := f.nearest_spec hfits
  rw [hshift, hround, Nat.pow_add, ← Nat.mul_assoc] at hunits
  exact ⟨hbelow, hunits⟩

end Format

namespace Binary

variable {f : Format}

theorem infinity_lt : f.infinity < 2 ^ (f.exponentBits + f.fractionBits) := by
  rw [Nat.pow_add]
  exact Nat.mul_lt_mul_of_pos_right (Nat.sub_lt (Nat.two_pow_pos _) Nat.one_pos)
    (Nat.two_pow_pos _)

/-- A great integer as a number. -/
theorem ofInt_spec {n : Nat} (hbits : f.fractionBits ≤ n.log2) (hn : n ≠ 0)
    (hsmall : n.log2 + (f.unitExponent - f.fractionBits) + 3 < 2 ^ f.exponentBits) :
    let step := 2 ^ (n.log2 - f.fractionBits)
    (ofInt n : Binary f).isNaN = false
      ∧ (ofInt n : Binary f).units = (roundHalfEven n step * step : Nat) * (f.one : Int) := by
  intro step
  obtain ⟨hbelow, hunits⟩ := f.nearest_int hbits hn hsmall
  have hpositive : decide ((n : Int) < 0) = false := by simp
  obtain ⟨hpattern, hnegative⟩ := ofPattern_fields (hbelow.trans infinity_lt) false
  rw [ofInt, ofRatio, hpositive, Int.natAbs_natCast, isNaN, units, hpattern, hnegative, hunits]
  simp only [decide_eq_false_iff_not, Bool.false_eq_true, if_false, Nat.not_lt]
  exact ⟨hbelow.le, Int.natCast_mul _ _⟩

end Binary

end ScatterGather
