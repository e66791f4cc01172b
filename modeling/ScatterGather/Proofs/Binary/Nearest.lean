import Mathlib.Algebra.Order.Group.Abs
import Mathlib.Algebra.Order.Ring.Int
import Mathlib.Tactic.Linarith
import ScatterGather.Proofs.Binary.Rounding

/-!
# What rounding does to a quotient

Rounding is monotone, and the rounded quotient is at least as near as every other number of the format.
So a number of the format stays as it is, and rounding changes a sum of two numbers by no more than
either of them. As long as a quotient fills a significand, rounding changes it by no more than one part
of twice a significand. All this is said of signed quotients, in units.
-/

namespace ScatterGather

variable {num num' den : Nat}

/-- The nearest multiple is at least as near as what lies beyond the two multiples around. -/
theorem roundHalfEven_closest (hden : 0 < den) {other : Nat}
    (h : other ≤ num / den * den ∨ (num / den + 1) * den ≤ other) :
    |((roundHalfEven num den * den : Nat) : Int) - num| ≤ |(other : Int) - num| := by
  have hsplit := Nat.div_add_mod' num den
  have hrest := Nat.mod_lt num hden
  rw [Nat.add_mul, Nat.one_mul] at h
  rcases roundHalfEven_cases num den with ⟨hround, hhalf⟩ | ⟨hround, hhalf⟩
  · simp only [hround, Int.abs_eq_natAbs]
    rcases h with h | h <;> omega
  · simp only [hround, Nat.add_mul, Nat.one_mul, Int.abs_eq_natAbs]
    rcases h with h | h <;> omega

/-- A multiple stays as it is. -/
theorem roundHalfEven_of_dvd (hden : 0 < den) (h : den ∣ num) : roundHalfEven num den * den = num := by
  obtain ⟨quotient, rfl⟩ := h
  rw [Nat.mul_comm den quotient, roundHalfEven_mul_self quotient hden]

namespace Format

variable (f : Format)

/-! ## Natural quotients -/

/-- A rounded quotient as a multiple of the step that it is rounded in. -/
theorem units_nearest_mul (h : f.Fits num den) : f.units (f.nearest num den) * den
    = roundHalfEven num (den * 2 ^ f.shift num den) * (den * 2 ^ f.shift num den) := by
  rw [(f.nearest_spec h).2, significand]
  ring

/-- The multiples of the step around a quotient are the units of neighbouring patterns. -/
theorem units_neighbours (num den : Nat) : ∃ pattern,
    f.units pattern = num / (den * 2 ^ f.shift num den) * 2 ^ f.shift num den
      ∧ f.units (pattern + 1) = (num / (den * 2 ^ f.shift num den) + 1) * 2 ^ f.shift num den := by
  have hlt := f.quotient_lt num den
  have hnormal : f.shift num den = 0 ∨ 2 ^ f.fractionBits ≤ num / (den * 2 ^ f.shift num den) :=
    (f.shift_or_le num den).imp_right f.le_quotient
  refine ⟨_, f.units_significand hlt.le hnormal, ?_⟩
  rw [Nat.add_assoc]
  exact f.units_significand hlt (hnormal.imp_right Nat.le_succ_of_le)

/-- No number of the format is nearer than the one that is rounded to. -/
theorem nearest_closest (hden : 0 < den) (h : f.Fits num den) (pattern : Nat) :
    |((f.units (f.nearest num den) * den : Nat) : Int) - num|
      ≤ |((f.units pattern * den : Nat) : Int) - num| := by
  rw [f.units_nearest_mul h]
  refine roundHalfEven_closest (Nat.mul_pos hden (Nat.two_pow_pos _)) ?_
  obtain ⟨below, hbelow, habove⟩ := f.units_neighbours num den
  rcases Nat.lt_or_ge below pattern with hlt | hge
  · right
    calc _ = f.units (below + 1) * den := by rw [habove]; ring
      _ ≤ f.units pattern * den := Nat.mul_le_mul_right _ (f.units_strictMono.monotone hlt)
  · left
    calc f.units pattern * den ≤ f.units below * den :=
          Nat.mul_le_mul_right _ (f.units_strictMono.monotone hge)
      _ = _ := by rw [hbelow]; ring

/-- An integer, or a quotient that fills a significand, changes by one part of twice a significand at
most. -/
theorem nearest_close (hden : 0 < den) (h : f.Fits num den)
    (hnormal : den = 1 ∨ 2 ^ f.fractionBits ≤ num / den) :
    2 ^ (f.fractionBits + 1) * |((f.units (f.nearest num den) * den : Nat) : Int) - num| ≤ num := by
  have hstep : 0 < den * 2 ^ f.shift num den := Nat.mul_pos hden (Nat.two_pow_pos _)
  rw [f.units_nearest_mul h]
  by_cases hexact : den = 1 ∧ f.shift num den = 0
  · -- Nothing is cut off.
    obtain ⟨rfl, hshift⟩ := hexact
    have hdvd : 1 * 2 ^ f.shift num 1 ∣ num := by
      rw [hshift]
      exact Nat.one_dvd num
    rw [roundHalfEven_of_dvd hstep hdvd, Int.sub_self, abs_zero, Int.mul_zero]
    exact Int.natCast_nonneg num
  · have hfull : 2 ^ f.fractionBits ≤ num / den := by
      rcases hnormal with rfl | hfull
      · exact (f.shift_or_le num 1).resolve_left fun hzero => hexact ⟨rfl, hzero⟩
      · exact hfull
    have hquotient := (Nat.le_div_iff_mul_le hstep).mp (f.le_quotient hfull)
    have hclose := roundHalfEven_close num hstep
    generalize roundHalfEven num (den * 2 ^ f.shift num den) * (den * 2 ^ f.shift num den)
      = rounded at hclose ⊢
    have hhalf : 2 * |(rounded : Int) - num| ≤ (den * 2 ^ f.shift num den : Nat) := by
      rw [Int.abs_eq_natAbs]
      omega
    have hscaled := Int.mul_le_mul_of_nonneg_left hhalf (Int.natCast_nonneg (2 ^ f.fractionBits))
    calc (2 ^ (f.fractionBits + 1) * |(rounded : Int) - num| : Int)
        = (2 ^ f.fractionBits : Nat) * (2 * |(rounded : Int) - num|) := by push_cast; ring
      _ ≤ (2 ^ f.fractionBits * (den * 2 ^ f.shift num den) : Nat) := by exact_mod_cast hscaled
      _ ≤ num := by exact_mod_cast hquotient

/-- An integer that fits a significand but for zeros at its end stays as it is. -/
theorem nearest_exact {n e : Nat} (h : f.Fits n 1) (hzeros : 2 ^ e ∣ n)
    (hle : n ≤ 2 ^ (f.fractionBits + 1 + e)) : f.units (f.nearest n 1) = n := by
  have hdvd : 2 ^ f.shift n 1 ∣ n := by
    rcases Nat.lt_or_eq_of_le hle with hlt | rfl
    · refine (Nat.pow_dvd_pow 2 ?_).trans hzeros
      rw [shift, Nat.div_one]
      by_cases hn : n = 0
      · rw [hn, Nat.log2_zero]
        omega
      · have := (Nat.log2_lt hn).mpr hlt
        omega
    · refine Nat.pow_dvd_pow 2 ?_
      rw [shift, Nat.div_one, Nat.log2_two_pow]
      omega
  have hunits := f.units_nearest_mul h
  rw [Nat.one_mul, Nat.mul_one] at hunits
  rw [hunits, roundHalfEven_of_dvd (Nat.two_pow_pos _) hdvd]

theorem log2_mono {m n : Nat} (h : m ≤ n) : m.log2 ≤ n.log2 := by
  simp only [Nat.log2_eq_log_two]
  exact Nat.log_mono_right h

/-- Of two quotients the greater one is not rounded to less. -/
theorem nearest_mono (h : num ≤ num') (den : Nat) : f.nearest num den ≤ f.nearest num' den := by
  have hshift : f.shift num den ≤ f.shift num' den :=
    Nat.sub_le_sub_right (log2_mono (Nat.div_le_div_right h)) _
  rw [f.nearest_eq, f.nearest_eq]
  refine min_le_min_left _ ?_
  rcases Nat.lt_or_eq_of_le hshift with hlt | heq
  · have hnormal : 2 ^ f.fractionBits ≤ f.significand num' den :=
      (f.significand_normal num' den).resolve_left (by omega)
    calc f.shift num den * 2 ^ f.fractionBits + f.significand num den
        ≤ f.shift num den * 2 ^ f.fractionBits + 2 ^ (f.fractionBits + 1) :=
          Nat.add_le_add_left (f.significand_le num den) _
      _ = (f.shift num den + 1) * 2 ^ f.fractionBits + 2 ^ f.fractionBits := by ring
      _ ≤ f.shift num' den * 2 ^ f.fractionBits + f.significand num' den :=
          Nat.add_le_add (Nat.mul_le_mul_right _ hlt) hnormal
  · rw [significand, significand, heq]
    exact Nat.add_le_add_left (roundHalfEven_mono h _) _

/-- A change of units does not matter. -/
theorem nearest_mul_right (num den : Nat) {scale : Nat} (hscale : 0 < scale) :
    f.nearest (num * scale) (den * scale) = f.nearest num den := by
  have hshift : f.shift (num * scale) (den * scale) = f.shift num den := by
    rw [shift, shift, Nat.mul_div_mul_right _ _ hscale]
  have hsignificand : f.significand (num * scale) (den * scale) = f.significand num den := by
    rw [significand, significand, hshift, Nat.mul_right_comm, roundHalfEven_mul_right _ _ hscale]
  rw [f.nearest_eq, f.nearest_eq, hshift, hsignificand]

theorem nearest_le_infinity (num den : Nat) : f.nearest num den ≤ f.infinity :=
  Nat.min_le_left _ _

theorem nearest_zero (den : Nat) : f.nearest 0 den = 0 := by
  have hshift : f.shift 0 den = 0 := by
    rw [shift, Nat.zero_div, Nat.log2_zero, Nat.zero_sub]
  have hsignificand : f.significand 0 den = 0 := by
    rw [significand, roundHalfEven]
    simp
  rw [f.nearest_eq, hshift, hsignificand, Nat.zero_mul, Nat.add_zero, Nat.min_zero]

/-! ## Signed quotients -/

/-- The units of the number nearest to a signed quotient. -/
def rounded (n : Int) (den : Nat) : Int :=
  n.sign * f.units (f.nearest n.natAbs den)

/-- The units of a number of the format, or of an infinity. -/
def IsNumber (n : Int) : Prop :=
  ∃ pattern, n.natAbs = f.units pattern

variable {n n' : Int}

theorem rounded_natCast (n den : Nat) : f.rounded n den = f.units (f.nearest n den) := by
  rw [rounded, Int.natAbs_natCast]
  cases n with
  | zero => simp [nearest_zero, units_zero]
  | succ n => rw [Int.sign_eq_one_of_pos (by omega), Int.one_mul]

theorem rounded_neg (n : Int) (den : Nat) : f.rounded (-n) den = -f.rounded n den := by
  rw [rounded, rounded, Int.sign_neg, Int.natAbs_neg, Int.neg_mul]

theorem isNumber_rounded (n : Int) (den : Nat) : f.IsNumber (f.rounded n den) := by
  rcases n.eq_nat_or_neg with ⟨k, rfl | rfl⟩
  · exact ⟨f.nearest k den, by rw [rounded_natCast, Int.natAbs_natCast]⟩
  · exact ⟨f.nearest k den, by rw [rounded_neg, rounded_natCast, Int.natAbs_neg, Int.natAbs_natCast]⟩

theorem natAbs_rounded_le (n : Int) (den : Nat) : (f.rounded n den).natAbs ≤ f.units f.infinity := by
  have hle (k : Nat) : f.units (f.nearest k den) ≤ f.units f.infinity :=
    f.units_strictMono.monotone (f.nearest_le_infinity k den)
  rcases n.eq_nat_or_neg with ⟨k, rfl | rfl⟩
  · rw [rounded_natCast, Int.natAbs_natCast]
    exact hle k
  · rw [rounded_neg, rounded_natCast, Int.natAbs_neg, Int.natAbs_natCast]
    exact hle k

theorem rounded_mono (h : n ≤ n') (den : Nat) : f.rounded n den ≤ f.rounded n' den := by
  have hmono {k k' : Nat} (h : k ≤ k') :
      (f.units (f.nearest k den) : Int) ≤ f.units (f.nearest k' den) :=
    Int.ofNat_le.mpr (f.units_strictMono.monotone (f.nearest_mono h den))
  rcases n.eq_nat_or_neg with ⟨k, rfl | rfl⟩ <;> rcases n'.eq_nat_or_neg with ⟨k', rfl | rfl⟩ <;>
    simp only [rounded_neg, rounded_natCast]
  · exact hmono (by omega)
  · -- Both are zero.
    obtain ⟨rfl, rfl⟩ : k = 0 ∧ k' = 0 := by omega
    simp [nearest_zero, units_zero]
  · omega
  · exact Int.neg_le_neg (hmono (by omega))

theorem rounded_mul_right (n : Int) (den : Nat) {scale : Nat} (hscale : 0 < scale) :
    f.rounded (n * scale) (den * scale) = f.rounded n den := by
  have hsign : (scale : Int).sign = 1 := Int.sign_eq_one_of_pos (Int.natCast_pos.mpr hscale)
  rw [rounded, rounded, Int.natAbs_mul, Int.natAbs_natCast, f.nearest_mul_right _ _ hscale,
    Int.sign_mul, hsign, Int.mul_one]

/-- No number of the format is nearer to a quotient than what it is rounded to. -/
theorem rounded_closest (hden : 0 < den) (h : f.Fits n.natAbs den) {other : Int}
    (hother : f.IsNumber other) : |f.rounded n den * den - n| ≤ |other * den - n| := by
  have hnat {k : Nat} (h : f.Fits k den) {other : Int} (hother : f.IsNumber other) :
      |f.rounded k den * den - k| ≤ |other * den - k| := by
    obtain ⟨pattern, hpattern⟩ := hother
    rw [rounded_natCast]
    rcases other.eq_nat_or_neg with ⟨m, rfl | rfl⟩
    · obtain rfl : m = f.units pattern := by simpa using hpattern
      exact_mod_cast f.nearest_closest hden h pattern
    · -- Zero lies between, and is not nearer either.
      have hzero := f.nearest_closest hden h 0
      rw [units_zero, Nat.zero_mul, Int.natCast_zero, Int.zero_sub, abs_neg, Nat.abs_cast] at hzero
      have hprod : 0 ≤ (m : Int) * den := Int.mul_nonneg (Int.natCast_nonneg m) (Int.natCast_nonneg den)
      calc |(f.units (f.nearest k den) : Int) * den - k|
          ≤ k := by exact_mod_cast hzero
        _ ≤ -(-(m : Int) * den - k) := by linarith
        _ ≤ |-(m : Int) * den - k| := neg_le_abs _
  rcases n.eq_nat_or_neg with ⟨k, rfl | rfl⟩
  · exact hnat (by simpa using h) hother
  · have hneg : f.IsNumber (-other) := by
      obtain ⟨pattern, hpattern⟩ := hother
      exact ⟨pattern, by rw [Int.natAbs_neg, hpattern]⟩
    have hclosest := hnat (k := k) (by simpa using h) hneg
    rw [rounded_neg, ← abs_neg, ← abs_neg (other * den - _)]
    convert hclosest using 2 <;> ring

/-- An integer, or a quotient that fills a significand, changes by one part of twice a significand at
most. -/
theorem rounded_close (hden : 0 < den) (h : f.Fits n.natAbs den)
    (hnormal : den = 1 ∨ 2 ^ f.fractionBits ≤ n.natAbs / den) :
    2 ^ (f.fractionBits + 1) * |f.rounded n den * den - n| ≤ |n| := by
  rcases n.eq_nat_or_neg with ⟨k, rfl | rfl⟩
  · rw [rounded_natCast, abs_of_nonneg (Int.natCast_nonneg k)]
    exact_mod_cast f.nearest_close hden (by simpa using h) (by simpa using hnormal)
  · have hfits : f.Fits k den := by simpa using h
    have hclose := f.nearest_close hden hfits (by simpa using hnormal)
    rw [rounded_neg, rounded_natCast, abs_neg, abs_of_nonneg (Int.natCast_nonneg k), ← abs_neg]
    convert hclose using 3
    push_cast
    ring

/-- An integer that fits a significand but for zeros at its end stays as it is. -/
theorem rounded_exact {e : Nat} (h : f.Fits n.natAbs 1) (hzeros : (2 ^ e : Nat) ∣ n.natAbs)
    (hle : n.natAbs ≤ 2 ^ (f.fractionBits + 1 + e)) : f.rounded n 1 = n := by
  rw [rounded, f.nearest_exact h hzeros hle, Int.sign_mul_natAbs]

end Format

end ScatterGather
