import ScatterGather.Proofs.Binary.Nearest

/-!
# Sums and quotients in units

What addition and division do to the units of their operands: the exact result is rounded, unless the
first operand is infinite, which stays. With infinities as the ends of the order both are monotone.
-/

namespace ScatterGather

namespace Format

variable (f : Format)

/-! ## In units -/

/-- Whether units are those of an infinity. -/
def IsTop (n : Int) : Prop :=
  n.natAbs = f.units f.infinity

instance (n : Int) : Decidable (f.IsTop n) :=
  inferInstanceAs (Decidable (_ = _))

/-- A rounded sum; the second number is finite. -/
def plus (m n : Int) : Int :=
  if f.IsTop m then m else f.rounded (m + n) 1

/-- A rounded quotient by a positive finite number. -/
def per (m : Int) (den : Nat) : Int :=
  if f.IsTop m then m else f.rounded (m * f.one) den

/-- The integer between two bounds that is left of a number without its fraction. -/
def truncated (lo hi m : Int) : Int :=
  max lo (min hi (m.tdiv f.one))

variable {m m' n n' : Int}

theorem natAbs_plus_le (m n : Int) : (f.plus m n).natAbs ≤ f.units f.infinity := by
  unfold plus
  split
  case isTrue htop => exact htop.le
  case isFalse => exact f.natAbs_rounded_le _ _

/-- With infinities that stay, an operation is monotone if it is so on numbers. -/
theorem ite_isTop_mono {r r' : Int} (hr : r ≤ r') (hbound : r'.natAbs ≤ f.units f.infinity)
    (hm : m.natAbs ≤ f.units f.infinity) (hm' : m'.natAbs ≤ f.units f.infinity) (h : m ≤ m') :
    (if f.IsTop m then m else r) ≤ if f.IsTop m' then m' else r' := by
  -- A negative infinity is below everything, and above a positive one there is nothing else.
  by_cases htop : f.IsTop m
  · by_cases htop' : f.IsTop m'
    · rwa [if_pos htop, if_pos htop']
    · rw [if_pos htop, if_neg htop']
      unfold IsTop at htop htop'
      omega
  · by_cases htop' : f.IsTop m'
    · rw [if_neg htop, if_pos htop']
      unfold IsTop at htop htop'
      omega
    · rwa [if_neg htop, if_neg htop']

theorem plus_mono (hm : m.natAbs ≤ f.units f.infinity) (hm' : m'.natAbs ≤ f.units f.infinity)
    (h : m ≤ m') (hn : n ≤ n') : f.plus m n ≤ f.plus m' n' :=
  f.ite_isTop_mono (f.rounded_mono (Int.add_le_add h hn) 1) (f.natAbs_rounded_le _ _) hm hm' h

theorem per_mono (hm : m.natAbs ≤ f.units f.infinity) (hm' : m'.natAbs ≤ f.units f.infinity)
    (h : m ≤ m') (den : Nat) : f.per m den ≤ f.per m' den :=
  f.ite_isTop_mono (f.rounded_mono (Int.mul_le_mul_of_nonneg_right h (Int.natCast_nonneg _)) den)
    (f.natAbs_rounded_le _ _) hm hm' h

theorem truncated_mono (lo hi : Int) (h : m ≤ m') : f.truncated lo hi m ≤ f.truncated lo hi m' :=
  max_le_max_left lo (min_le_min_left hi (Int.tdiv_le_tdiv (Int.natCast_pos.mpr f.one_pos) h))

end Format

namespace Binary

variable {f : Format} {x y : Binary f}

/-! ## Operations on numbers -/

theorem natAbs_units (x : Binary f) : x.units.natAbs = f.units x.pattern := by
  rw [units]
  split
  · rw [Int.natAbs_neg, Int.natAbs_natCast]
  · rw [Int.natAbs_natCast]

theorem isTop_units (x : Binary f) : f.IsTop x.units ↔ x.isInfinite = true := by
  rw [Format.IsTop, natAbs_units, f.units_strictMono.injective.eq_iff, isInfinite, decide_eq_true_eq]

theorem isNegative_of_units (h : x.units ≠ 0) : x.isNegative = decide (x.units < 0) := by
  unfold units at h ⊢
  cases x.isNegative with
  | false => simp
  | true =>
    simp only [if_true] at h ⊢
    exact (decide_eq_true (by omega)).symm

/-- A quotient is rounded to the number nearest to it. The sign of a zero does not matter. -/
theorem units_ofRatio {n : Int} {negative : Bool} (h : n ≠ 0 → negative = decide (n < 0)) (den : Nat) :
    (ofRatio negative n.natAbs den : Binary f).isNaN = false
      ∧ (ofRatio negative n.natAbs den : Binary f).units = f.rounded n den := by
  have hle := f.nearest_le_infinity n.natAbs den
  obtain ⟨hpattern, hnegative⟩ := ofPattern_fields (Nat.lt_of_le_of_lt hle infinity_lt) negative
  rw [ofRatio, isNaN, units, hpattern, hnegative, decide_eq_false_iff_not, Nat.not_lt]
  refine ⟨hle, ?_⟩
  rcases Int.lt_trichotomy n 0 with hneg | rfl | hpos
  · rw [h hneg.ne, decide_eq_true hneg, if_pos rfl, Format.rounded, Int.sign_eq_neg_one_of_neg hneg,
      Int.neg_one_mul]
  · simp [Format.rounded, Format.nearest_zero, Format.units_zero]
  · rw [h hpos.ne', decide_eq_false (by omega), if_neg Bool.false_ne_true, Format.rounded,
      Int.sign_eq_one_of_pos hpos, Int.one_mul]

theorem units_ofInt (n : Int) : (ofInt n : Binary f).isNaN = false
    ∧ (ofInt n : Binary f).units = f.rounded (n * f.one) 1 := by
  have hone : 0 < (f.one : Int) := Int.natCast_pos.mpr f.one_pos
  have hsign : n * f.one ≠ 0 → decide (n < 0) = decide (n * f.one < 0) := by
    intro _
    rw [decide_eq_decide]
    exact ⟨fun hneg => mul_neg_of_neg_of_pos hneg hone, fun hneg => neg_of_mul_neg_left hneg hone.le⟩
  have hratio := units_ofRatio (f := f) hsign 1
  rwa [Int.natAbs_mul, Int.natAbs_natCast] at hratio

theorem units_add (hx : x.isNaN = false) (hy : y.isNaN = false) (hfinite : ¬ f.IsTop y.units) :
    (x.add y).isNaN = false ∧ (x.add y).units = f.plus x.units y.units := by
  rw [isTop_units] at hfinite
  unfold add Format.plus
  simp only [hx, hy, isTop_units, hfinite]
  by_cases hinfinite : x.isInfinite = true
  · simp [hinfinite, hx]
  · simp only [hinfinite]
    exact units_ofRatio (fun hsum => by simp [hsum]) 1

theorem units_infinite (hinfinite : x.isInfinite = true) :
    (infinite x.isNegative : Binary f).isNaN = false
      ∧ (infinite x.isNegative : Binary f).units = x.units := by
  obtain ⟨hpattern, hnegative⟩ := ofPattern_fields (f := f) infinity_lt x.isNegative
  rw [isInfinite, decide_eq_true_eq] at hinfinite
  rw [infinite, isNaN, units, hpattern, hnegative, units, hinfinite]
  exact ⟨decide_eq_false (Nat.lt_irrefl _), rfl⟩

/-- A quotient by a positive number. -/
theorem units_div (hx : x.isNaN = false) (hy : y.isNaN = false) (hfinite : ¬ f.IsTop y.units)
    (hpos : 0 < y.units) :
    (x.div y).isNaN = false ∧ (x.div y).units = f.per x.units y.units.natAbs := by
  have hnegative : y.isNegative = false := by
    rw [isNegative_of_units hpos.ne', decide_eq_false (by omega)]
  rw [isTop_units] at hfinite
  unfold div Format.per
  simp only [hx, hy, isTop_units, hfinite, hnegative, hpos.ne', Bool.or_self, Bool.bne_false]
  by_cases hinfinite : x.isInfinite = true
  · simpa [hinfinite] using units_infinite hinfinite
  · simp only [hinfinite]
    have hone : 0 < (f.one : Int) := Int.natCast_pos.mpr f.one_pos
    have hsign : x.units * f.one ≠ 0 → x.isNegative = decide (x.units * f.one < 0) := by
      intro hne
      rw [isNegative_of_units (left_ne_zero_of_mul hne), decide_eq_decide]
      exact ⟨fun hneg => mul_neg_of_neg_of_pos hneg hone,
        fun hneg => neg_of_mul_neg_left hneg hone.le⟩
    have hratio := units_ofRatio (f := f) hsign y.units.natAbs
    rwa [Int.natAbs_mul, Int.natAbs_natCast] at hratio

/-- Nothing is left of a number that is divided by infinity, nor of a NaN. -/
theorem truncate_div_infinite {x y : Double} (hx : x.isNaN = false) (hinfinite : y.isInfinite = true)
    {lo hi : Int} (hlo : lo ≤ 0) (hhi : 0 ≤ hi) : (x.div y).truncate lo hi = 0 := by
  have hy : y.isNaN = false := by
    rw [isInfinite, decide_eq_true_eq] at hinfinite
    rw [isNaN, hinfinite]
    exact decide_eq_false (Nat.lt_irrefl _)
  by_cases hinfinite' : x.isInfinite = true
  · have hnan : (nan : Double).isNaN = true := by decide
    simp [div, hx, hy, hinfinite, hinfinite', truncate, hnan]
  · have hzero : x.div y = ofPattern (x.isNegative != y.isNegative) 0 := by
      simp [div, hx, hy, hinfinite, hinfinite']
    obtain ⟨hpattern, -⟩ := ofPattern_fields (f := .double) (Nat.two_pow_pos _)
      (x.isNegative != y.isNegative)
    rw [← hzero] at hpattern
    have hnumber : (x.div y).isNaN = false := by
      rw [isNaN, hpattern]
      decide
    have hunits : (x.div y).units = 0 := by
      rw [← Int.natAbs_eq_zero, natAbs_units, hpattern, Format.units_zero]
    rw [truncate_eq hnumber, hunits, Int.zero_tdiv]
    omega

end Binary

end ScatterGather
