import Mathlib.Order.Monotone.Basic
import Mathlib.Tactic.Ring
import ScatterGather.Binary.Arithmetic

/-!
# The order of floating-point numbers

Every finite number is a whole number of units, and greater patterns have more of them. So numbers of
one sign compare by their patterns, and all numbers but the two zeros compare by the total order of
their bit patterns as they do by their units. Dropping the fraction of a number is division of its
units, rounded towards zero.
-/

namespace ScatterGather

/-! ## Patterns and units -/

namespace Format

variable (f : Format)

/-- How many units make one. -/
def one : Nat :=
  Nat.pow 2 f.unitExponent

theorem one_pos : 0 < f.one :=
  Nat.two_pow_pos _

/-- A number with a pattern of a fraction field and an exponent field. -/
theorem units_of_fields {exponent fraction : Nat} (h : fraction < 2 ^ f.fractionBits) :
    f.units (exponent * 2 ^ f.fractionBits + fraction) =
      if exponent = 0 then fraction
      else (2 ^ f.fractionBits + fraction) * 2 ^ (exponent - 1) := by
  have hpos : 0 < 2 ^ f.fractionBits := Nat.two_pow_pos _
  have hexponent : (exponent * 2 ^ f.fractionBits + fraction) / 2 ^ f.fractionBits = exponent := by
    rw [Nat.add_comm, Nat.add_mul_div_right _ _ hpos, Nat.div_eq_of_lt h, Nat.zero_add]
  have hfraction : (exponent * 2 ^ f.fractionBits + fraction) % 2 ^ f.fractionBits = fraction := by
    rw [Nat.add_comm, Nat.add_mul_mod_self_right, Nat.mod_eq_of_lt h]
  change (if _ / 2 ^ f.fractionBits = 0 then _ else _) = _
  simp only [Nat.pow_eq, hexponent, hfraction]

/-- The fields of a pattern. -/
theorem fields (pattern : Nat) : ∃ exponent fraction, fraction < 2 ^ f.fractionBits
    ∧ pattern = exponent * 2 ^ f.fractionBits + fraction :=
  ⟨pattern / 2 ^ f.fractionBits, pattern % 2 ^ f.fractionBits, Nat.mod_lt _ (Nat.two_pow_pos _),
    (Nat.div_add_mod' _ _).symm⟩

theorem units_lt_succ (pattern : Nat) : f.units pattern < f.units (pattern + 1) := by
  obtain ⟨exponent, fraction, hfraction, rfl⟩ := f.fields pattern
  rw [f.units_of_fields hfraction]
  by_cases hcarry : fraction + 1 < 2 ^ f.fractionBits
  · rw [Nat.add_assoc, f.units_of_fields hcarry]
    split
    · omega
    · exact Nat.mul_lt_mul_of_pos_right (by omega) (Nat.two_pow_pos _)
  · -- The fraction field overflows into the exponent field.
    have hfull : fraction + 1 = 2 ^ f.fractionBits := by omega
    have hnext : exponent * 2 ^ f.fractionBits + fraction + 1
        = (exponent + 1) * 2 ^ f.fractionBits + 0 := by rw [Nat.add_assoc, hfull]; ring
    rw [hnext, f.units_of_fields (Nat.two_pow_pos _), if_neg (Nat.succ_ne_zero _)]
    cases exponent with
    | zero => simpa using hfraction
    | succ exponent =>
      simp only [Nat.succ_ne_zero, if_false, Nat.add_sub_cancel, Nat.add_zero, Nat.pow_succ]
      calc (2 ^ f.fractionBits + fraction) * 2 ^ exponent
          < (2 * 2 ^ f.fractionBits) * 2 ^ exponent :=
            Nat.mul_lt_mul_of_pos_right (by omega) (Nat.two_pow_pos _)
        _ = 2 ^ f.fractionBits * (2 ^ exponent * 2) := by ring

theorem units_strictMono : StrictMono f.units :=
  strictMono_nat_of_lt_succ f.units_lt_succ

theorem units_zero : f.units 0 = 0 := by
  have hzero : f.units (0 * 2 ^ f.fractionBits + 0) = 0 :=
    f.units_of_fields (Nat.two_pow_pos f.fractionBits)
  rwa [Nat.zero_mul, Nat.zero_add] at hzero

/-! ## Whole numbers -/

theorem unitExponent_le : f.fractionBits ≤ f.unitExponent :=
  Nat.le_add_left _ _

theorem integral_le (pattern : Nat) : f.integral pattern ≤ pattern := by
  unfold integral
  dsimp only
  split
  · exact Nat.zero_le _
  · exact Nat.div_mul_le_self _ _

/-- A multiple is not affected when smaller parts are cleared. -/
theorem add_div_mul {a m : Nat} (h : m ∣ a) (hm : 0 < m) (b : Nat) :
    (a + b) / m * m = a + b / m * m := by
  obtain ⟨c, rfl⟩ := h
  rw [Nat.mul_add_div hm, Nat.add_mul, Nat.mul_comm m c]

theorem integral_of_fields {exponent fraction : Nat} (h : fraction < 2 ^ f.fractionBits) :
    let below := f.unitExponent + 1 - exponent
    f.integral (exponent * 2 ^ f.fractionBits + fraction) =
      if f.fractionBits < below then 0
      else exponent * 2 ^ f.fractionBits + fraction / 2 ^ below * 2 ^ below := by
  intro below
  have hexponent : (exponent * 2 ^ f.fractionBits + fraction) / 2 ^ f.fractionBits = exponent := by
    rw [Nat.add_comm, Nat.add_mul_div_right _ _ (Nat.two_pow_pos _), Nat.div_eq_of_lt h,
      Nat.zero_add]
  unfold integral
  simp only [Nat.pow_eq, hexponent]
  split
  case isTrue => rfl
  case isFalse hbelow =>
    refine add_div_mul ?_ (Nat.two_pow_pos _) _
    exact Nat.dvd_mul_left_of_dvd (Nat.pow_dvd_pow 2 (Nat.le_of_not_lt hbelow)) _

/-- To clear the bits that count for less than one is to leave out what is less than one. -/
theorem units_integral (pattern : Nat) :
    f.units (f.integral pattern) = f.units pattern / f.one * f.one := by
  obtain ⟨exponent, fraction, hfraction, rfl⟩ := f.fields pattern
  have hbits := f.unitExponent_le
  rw [f.integral_of_fields hfraction, f.units_of_fields hfraction]
  by_cases hbelow : f.fractionBits < f.unitExponent + 1 - exponent
  · -- The number is less than one.
    rw [if_pos hbelow, units_zero]
    suffices hsmall : (if exponent = 0 then fraction
        else (2 ^ f.fractionBits + fraction) * 2 ^ (exponent - 1)) < f.one by
      rw [Nat.div_eq_of_lt hsmall, Nat.zero_mul]
    change _ < 2 ^ f.unitExponent
    split
    case isTrue => exact Nat.lt_of_lt_of_le hfraction (Nat.pow_le_pow_right Nat.two_pos hbits)
    case isFalse hnormal =>
      calc (2 ^ f.fractionBits + fraction) * 2 ^ (exponent - 1)
          < (2 ^ f.fractionBits * 2) * 2 ^ (exponent - 1) :=
            Nat.mul_lt_mul_of_pos_right (by omega) (Nat.two_pow_pos _)
        _ = 2 ^ (f.fractionBits + 1 + (exponent - 1)) := by rw [← Nat.pow_succ, ← Nat.pow_add]
        _ ≤ 2 ^ f.unitExponent := Nat.pow_le_pow_right Nat.two_pos (by omega)
  · rw [if_neg hbelow]
    have hnormal : exponent ≠ 0 := by omega
    have hcleared := Nat.lt_of_le_of_lt (Nat.div_mul_le_self fraction
      (2 ^ (f.unitExponent + 1 - exponent))) hfraction
    rw [f.units_of_fields hcleared, if_neg hnormal, if_neg hnormal]
    change _ = _ / 2 ^ f.unitExponent * 2 ^ f.unitExponent
    rcases Nat.lt_or_ge (exponent - 1) f.unitExponent with hlow | hhigh
    · have hexponent : f.unitExponent = (f.unitExponent + 1 - exponent) + (exponent - 1) := by omega
      generalize f.unitExponent + 1 - exponent = below at hbelow hexponent
      rw [hexponent, Nat.pow_add, Nat.mul_div_mul_right _ _ (Nat.two_pow_pos _), ← Nat.mul_assoc,
        add_div_mul (Nat.pow_dvd_pow 2 (Nat.le_of_not_lt hbelow)) (Nat.two_pow_pos _)]
    · -- There is no fraction.
      have hnone : f.unitExponent + 1 - exponent = 0 := by omega
      rw [hnone, Nat.pow_zero, Nat.div_one, Nat.mul_one, Nat.div_mul_cancel]
      exact Nat.dvd_mul_left_of_dvd (Nat.pow_dvd_pow 2 hhigh) _

end Format

/-! ## Signs and values -/

namespace Binary

variable {f : Format}

theorem pattern_lt (x : Binary f) : x.pattern < 2 ^ (f.exponentBits + f.fractionBits) :=
  Nat.mod_lt _ (Nat.two_pow_pos _)

theorem ofPattern_fields {pattern : Nat} (h : pattern < 2 ^ (f.exponentBits + f.fractionBits))
    (negative : Bool) : (ofPattern negative pattern : Binary f).pattern = pattern
      ∧ (ofPattern negative pattern : Binary f).isNegative = negative := by
  have hwidth : 2 ^ f.width = 2 ^ (f.exponentBits + f.fractionBits) * 2 := by
    rw [← Nat.pow_succ, Format.width]
    congr 1
    omega
  have hbits : (ofPattern negative pattern : Binary f).bits.toNat
      = pattern + if negative then 2 ^ (f.exponentBits + f.fractionBits) else 0 := by
    refine Nat.mod_eq_of_lt ?_
    rw [hwidth]
    change pattern + (if negative then 2 ^ (f.exponentBits + f.fractionBits) else 0) < _
    split <;> omega
  rw [Binary.pattern, isNegative, hbits]
  simp only [Nat.pow_eq]
  cases negative with
  | false => simpa using ⟨Nat.mod_eq_of_lt h, h⟩
  | true => simpa using Nat.mod_eq_of_lt h

theorem units_neg (x : Binary f) : x.neg.units = -x.units := by
  obtain ⟨hpattern, hnegative⟩ := ofPattern_fields x.pattern_lt (!x.isNegative)
  rw [units, neg, hpattern, hnegative, units]
  cases x.isNegative <;> simp

theorem isNaN_neg (x : Binary f) : x.neg.isNaN = x.isNaN := by
  obtain ⟨hpattern, -⟩ := ofPattern_fields x.pattern_lt (!x.isNegative)
  rw [isNaN, neg, hpattern, isNaN]

/-- Without its fraction a number keeps its sign, and what is left of it is rounded towards zero. -/
theorem trunc_spec (x : Binary f) :
    x.trunc.isNegative = x.isNegative ∧ (x.isNaN = false → x.trunc.isNaN = false)
      ∧ x.trunc.units = x.units.tdiv f.one * f.one := by
  have hle := f.integral_le x.pattern
  obtain ⟨hpattern, hnegative⟩ :=
    ofPattern_fields (Nat.lt_of_le_of_lt hle x.pattern_lt) x.isNegative
  rw [← trunc] at hpattern hnegative
  refine ⟨hnegative, fun hnumber => ?_, ?_⟩
  · rw [isNaN, hpattern, decide_eq_false_iff_not, Nat.not_lt]
    rw [isNaN, decide_eq_false_iff_not, Nat.not_lt] at hnumber
    exact Nat.le_trans hle hnumber
  · rw [units, hpattern, hnegative, f.units_integral, units]
    split
    · simp [Int.neg_tdiv]
    · simp

theorem truncate_eq {x : Binary f} (h : x.isNaN = false) (lo hi : Int) :
    x.truncate lo hi = max lo (min hi (x.units.tdiv f.one)) := by
  rw [truncate, h, if_neg Bool.false_ne_true]
  rfl

/-! ## The total order of patterns -/

theorem compare_congr {a b c d : Int} (hlt : a < b ↔ c < d) (hgt : b < a ↔ d < c) :
    compare a b = compare c d := by
  rcases Int.lt_trichotomy a b with h | h | h
  · rw [Int.compare_eq_lt.mpr h, Int.compare_eq_lt.mpr (hlt.mp h)]
  · rw [Int.compare_eq_eq.mpr h, Int.compare_eq_eq.mpr (by omega)]
  · rw [Int.compare_eq_gt.mpr h, Int.compare_eq_gt.mpr (hgt.mp h)]

/-- A whole number that is not the whole part of a fraction compares to it as to the fraction. -/
theorem compare_tdiv {i v d : Int} (hpos : 0 < d) (h : i ≠ v.tdiv d) :
    compare i (v.tdiv d) = compare (i * d) v := by
  have hlow : (v.tdiv d - 1) * d < v := by
    rw [Int.sub_mul, Int.one_mul]
    rcases Int.le_total 0 v with hsign | hsign
    · have := Int.tmod_nonneg d hsign
      have := Int.tmod_add_tdiv_mul v d
      omega
    · have := Int.lt_tmod_of_pos v hpos
      have := Int.tmod_add_tdiv_mul v d
      omega
  have hhigh : v < (v.tdiv d + 1) * d := by
    have := Int.tmod_lt_of_pos v hpos
    have := Int.tmod_add_tdiv_mul v d
    rw [Int.add_mul, Int.one_mul]
    omega
  rcases Int.lt_or_gt_of_ne h with hlt | hgt
  · have hle : i * d ≤ (v.tdiv d - 1) * d := Int.mul_le_mul_of_nonneg_right (by omega) hpos.le
    exact compare_congr (by omega) (by omega)
  · have hle : (v.tdiv d + 1) * d ≤ i * d := Int.mul_le_mul_of_nonneg_right (by omega) hpos.le
    exact compare_congr (by omega) (by omega)

variable {x y : Binary f}

/-- Numbers of one sign compare by their units, the two zeros never among them. -/
theorem totalCompare_of_sign (h : x.isNegative = y.isNegative) :
    x.totalCompare y = compare x.units y.units := by
  have hlt := f.units_strictMono.lt_iff_lt (a := x.pattern) (b := y.pattern)
  have hgt := f.units_strictMono.lt_iff_lt (a := y.pattern) (b := x.pattern)
  rw [totalCompare, totalRank, totalRank, units, units, h]
  split
  · exact compare_congr (by omega) (by omega)
  · exact compare_congr (by omega) (by omega)

/-- Numbers that are not equal compare by their units. -/
theorem totalCompare_of_ne (h : x.units ≠ y.units) :
    x.totalCompare y = compare x.units y.units := by
  by_cases hsign : x.isNegative = y.isNegative
  · exact totalCompare_of_sign hsign
  · rw [totalCompare, totalRank, totalRank]
    rw [units, units] at h ⊢
    cases hx : x.isNegative with
    | false =>
      have hy : y.isNegative = true := by simpa [hx] using hsign
      simp only [hx, hy, Bool.false_eq_true, if_false, if_true] at h ⊢
      exact compare_congr (by omega) (by omega)
    | true =>
      have hy : y.isNegative = false := by simpa [hx] using hsign
      simp only [hx, hy, Bool.false_eq_true, if_false, if_true] at h ⊢
      exact compare_congr (by omega) (by omega)

/-- Where a pattern lies: 1 for a number, and for a NaN the side of its sign. -/
def side (x : Binary f) : Nat :=
  if x.isNaN then if x.isNegative then 0 else 2 else 1

theorem side_eq_one_iff : x.side = 1 ↔ x.isNaN = false := by
  unfold side
  cases x.isNaN with
  | false => simp
  | true => cases x.isNegative <;> simp

theorem equals_iff : x.equals y = true ↔ x.isNaN = false ∧ y.isNaN = false ∧ x.units = y.units := by
  simp [equals, and_assoc]

/-- The NaNs of either sign lie beyond all numbers on that side. -/
theorem totalRank_lt_of_side (h : x.side < y.side) : x.totalRank < y.totalRank := by
  simp only [side, isNaN, decide_eq_true_eq] at h
  simp only [totalRank]
  cases hx : x.isNegative with
  | false =>
    cases hy : y.isNegative with
    | false =>
      simp only [hx, hy, Bool.false_eq_true, if_false] at h ⊢
      split at h <;> split at h <;> omega
    | true =>
      simp only [hx, hy, Bool.false_eq_true, if_false, if_true] at h ⊢
      split at h <;> split at h <;> omega
  | true =>
    cases hy : y.isNegative with
    | false =>
      simp only [Bool.false_eq_true, if_false, if_true]
      omega
    | true =>
      simp only [hx, hy, if_true] at h ⊢
      split at h <;> split at h <;> omega

end Binary

end ScatterGather
