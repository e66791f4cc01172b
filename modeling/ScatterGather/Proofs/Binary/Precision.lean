import Mathlib.Algebra.Order.Field.Rat
import Mathlib.Tactic.GCongr
import Mathlib.Tactic.Positivity
import ScatterGather.Proofs.Binary.Averaging

/-!
# How precise an average is

An average of equal integers is rounded four times: the integers, their sum, their number and the
quotient. Together this is no more than so many parts of a significand as there are integers, and three;
then a fraction is dropped. Infinity is out of reach until there are so many integers that this bound
says nothing.
-/

namespace ScatterGather.Format

/-! ## Four roundings -/

/-- What each of the roundings adds to the error of a quotient `q` of a sum `s` of `n` numbers `t` by
their number `c`, all in units of which `x` make one, and each rounded by at most `u` parts. -/
theorem quotient_error_mul {a t s c q n x u : ℚ} (hx : 0 < x) (hn : 0 < n) (hpos : 0 ≤ c)
    (ht : |t - a * x| ≤ u * (|a| * x)) (hs : |s - n * t| ≤ u * (n * (n - 1) * |t|))
    (hc : |c - n * x| ≤ u * (n * x)) (hq : |q * c - s * x| ≤ u * (|s| * x)) :
    |q - a * x| * c ≤ u * x * (|s| + n * (n - 1) * |t| + 2 * n * (|a| * x)) := by
  have hproduct : |a * x| = |a| * x := by rw [abs_mul, abs_of_pos hx]
  have hnx : 0 < n * x := by positivity
  have hsplit : (q - a * x) * c
      = (q * c - s * x) + (s - n * t) * x + (t - a * x) * (n * x) + a * x * (n * x - c) := by ring
  calc |q - a * x| * c = |(q - a * x) * c| := by rw [abs_mul, abs_of_nonneg hpos]
    _ ≤ |q * c - s * x| + |(s - n * t) * x| + |(t - a * x) * (n * x)| + |a * x * (n * x - c)| := by
      rw [hsplit]
      exact (abs_add_le _ _).trans (by gcongr; exact abs_add_three _ _ _)
    _ = |q * c - s * x| + |s - n * t| * x + |t - a * x| * (n * x) + |a| * x * |c - n * x| := by
      rw [abs_mul, abs_mul _ (n * x), abs_mul (a * x), hproduct, abs_of_pos hx, abs_of_pos hnx,
        abs_sub_comm (n * x)]
    _ ≤ u * (|s| * x) + u * (n * (n - 1) * |t|) * x + u * (|a| * x) * (n * x)
        + |a| * x * (u * (n * x)) := by gcongr
    _ = u * x * (|s| + n * (n - 1) * |t| + 2 * n * (|a| * x)) := by ring

/-- The error of the quotient in terms of the exact result. -/
theorem quotient_error {a t s c q n x u : ℚ} (hu : 0 ≤ u) (hu' : u ≤ 1 / 8) (hx : 0 < x) (hn : 1 ≤ n)
    (ht : |t - a * x| ≤ u * (|a| * x)) (hs : |s - n * t| ≤ u * (n * (n - 1) * |t|))
    (hc : |c - n * x| ≤ u * (n * x)) (hq : |q * c - s * x| ≤ u * (|s| * x)) :
    |q - a * x| ≤ 2 * (n + 3) * u * (|a| * x) := by
  have hproduct : |a * x| = |a| * x := by rw [abs_mul, abs_of_pos hx]
  have hnx : 0 < n * x := by positivity
  have hterm : |t| ≤ (1 + u) * (|a| * x) := by
    have := abs_sub_abs_le_abs_sub t (a * x)
    linarith
  have hsum : |s| ≤ n * (1 + u * (n - 1)) * |t| := by
    have hsplit := abs_sub_abs_le_abs_sub s (n * t)
    rw [abs_mul, abs_of_pos (by linarith : 0 < n)] at hsplit
    linarith
  have hcount : n * x * (1 - u) ≤ c := by
    have := neg_le_of_abs_le hc
    linarith
  have hfactor : (1 + u) * (1 + (n - 1) * (1 + u)) + 2 ≤ 2 * (n + 3) * (1 - u) := by
    have hsquare : (1 + u) * (1 + u) ≤ 2 * (1 - u) := by nlinarith
    have := mul_le_mul_of_nonneg_left hsquare (by linarith : 0 ≤ n - 1)
    linarith
  have hscaled : |q - a * x| * (1 - u) * (n * x)
      ≤ 2 * (n + 3) * u * (|a| * x) * (1 - u) * (n * x) := by
    calc |q - a * x| * (1 - u) * (n * x) = |q - a * x| * (n * x * (1 - u)) := by ring
      _ ≤ |q - a * x| * c := by gcongr
      _ ≤ u * x * (|s| + n * (n - 1) * |t| + 2 * n * (|a| * x)) :=
        quotient_error_mul hx (by linarith) (by nlinarith) ht hs hc hq
      _ ≤ u * x * (n * (1 + u * (n - 1)) * |t| + n * (n - 1) * |t| + 2 * n * (|a| * x)) := by gcongr
      _ = u * (n * x) * ((1 + (n - 1) * (1 + u)) * |t| + 2 * (|a| * x)) := by ring
      _ ≤ u * (n * x) * ((1 + (n - 1) * (1 + u)) * ((1 + u) * (|a| * x)) + 2 * (|a| * x)) := by
        have : 0 ≤ 1 + (n - 1) * (1 + u) := by nlinarith
        gcongr
      _ = u * (n * x) * (|a| * x) * ((1 + u) * (1 + (n - 1) * (1 + u)) + 2) := by ring
      _ ≤ u * (n * x) * (|a| * x) * (2 * (n + 3) * (1 - u)) := by gcongr
      _ = 2 * (n + 3) * u * (|a| * x) * (1 - u) * (n * x) := by ring
  have hleft : 0 < 1 - u := by linarith
  exact le_of_mul_le_mul_right (le_of_mul_le_mul_right hscaled hnx) hleft

theorem cast_close {x y : Int} (h : 2 ^ 53 * |x| ≤ y) : |(x : ℚ)| ≤ 1 / 2 ^ 53 * y := by
  have hcast : ((2 ^ 53 * |x| : Int) : ℚ) ≤ y := by exact_mod_cast h
  push_cast at hcast
  linarith

/-- The error in units, where every rounding is by one part of twice a significand. -/
theorem quotient_error_units {a t s c q x : Int} {n : Nat} (hx : 0 < x) (hn : 0 < n)
    (ht : 2 ^ 53 * |t - a * x| ≤ |a * x|) (hs : 2 ^ 53 * |s - n * t| ≤ n * (n - 1) * |t|)
    (hc : 2 ^ 53 * |c - n * x| ≤ |n * x|) (hq : 2 ^ 53 * |q * c - s * x| ≤ |s| * x) :
    2 ^ 52 * |q - a * x| ≤ (n + 3) * (|a| * x) := by
  have hnx : |n * x| = n * x := abs_of_nonneg (Int.mul_nonneg (Int.natCast_nonneg n) hx.le)
  rw [abs_mul, abs_of_pos hx] at ht
  rw [hnx] at hc
  have ht' := cast_close ht
  have hs' := cast_close hs
  have hc' := cast_close hc
  have hq' := cast_close hq
  push_cast at ht' hs' hc' hq'
  have herror := quotient_error (by norm_num) (by norm_num) (Int.cast_pos.mpr hx)
    (Nat.one_le_cast.mpr hn) ht' hs' hc' hq'
  have hscaled : ((2 ^ 52 * |q - a * x| : Int) : ℚ) ≤ ((n + 3) * (|a| * x) : Int) := by
    push_cast
    linarith
  exact_mod_cast hscaled

/-! ## Dropping the fraction -/

variable (f : Format) {lo hi a m : Int}

/-- Without its fraction, and cut off at bounds around an integer, a number is less than one further
from this integer. -/
theorem truncated_close (hlo : lo ≤ a) (hhi : a ≤ hi) :
    |f.truncated lo hi m - a| * f.one < |m - a * f.one| + f.one := by
  have hone : 0 < (f.one : Int) := Int.natCast_pos.mpr f.one_pos
  have hcut : |f.truncated lo hi m - a| ≤ |m.tdiv f.one - a| := by
    rw [truncated, Int.abs_eq_natAbs, Int.abs_eq_natAbs]
    omega
  have hfraction : |m.tdiv f.one * f.one - m| < f.one := by
    have hrest : m.tdiv f.one * f.one - m = -m.tmod f.one := by
      have := Int.tmod_add_tdiv_mul m f.one
      omega
    rw [hrest, abs_neg, abs_lt]
    exact ⟨Int.lt_tmod_of_pos m hone, Int.tmod_lt_of_pos m hone⟩
  calc |f.truncated lo hi m - a| * f.one
      ≤ |m.tdiv f.one - a| * f.one := Int.mul_le_mul_of_nonneg_right hcut hone.le
    _ = |(m.tdiv f.one * f.one - m) + (m - a * f.one)| := by
      rw [sub_add_sub_cancel, ← Int.sub_mul, abs_mul, abs_of_pos hone]
    _ ≤ |m.tdiv f.one * f.one - m| + |m - a * f.one| := abs_add_le _ _
    _ < |m - a * f.one| + f.one := by omega

/-! ## Averages of equal integers -/

/-- A quotient of a number that is not small by one that is not much greater. -/
theorem per_close {s : Int} {c : Nat} (hsmall : 2 * s.natAbs < headroom)
    (hdivisor : double.one ≤ 2 * c) (hlarge : 2 ^ 52 * c ≤ s.natAbs * double.one) :
    2 ^ 53 * |double.per s c * c - s * double.one| ≤ |s| * double.one := by
  have hc : 0 < c := Nat.pos_of_mul_pos_left (double.one_pos.trans_le hdivisor)
  have hnat : (s * double.one).natAbs = s.natAbs * double.one := by
    rw [Int.natAbs_mul, Int.natAbs_natCast]
  have hquotient : s.natAbs * double.one / c ≤ 2 * s.natAbs := by
    refine Nat.div_le_of_le_mul ?_
    calc s.natAbs * double.one ≤ s.natAbs * (2 * c) := Nat.mul_le_mul_left _ hdivisor
      _ = c * (2 * s.natAbs) := by ring
  have hfits : double.Fits (s * double.one).natAbs c :=
    double_fits (by rw [hnat]; exact hquotient.trans_lt hsmall)
  have hnormal : 2 ^ double.fractionBits ≤ (s * double.one).natAbs / c := by
    rw [hnat]
    exact (Nat.le_div_iff_mul_le hc).mpr hlarge
  have hclose := double.rounded_close hc hfits (.inr hnormal)
  have hfinite : ¬ double.IsTop s := not_isTop (by omega)
  rw [abs_mul, Nat.abs_cast] at hclose
  rwa [per, if_neg hfinite]

variable {n : Nat}

/-- Nothing comes near infinity, and the sum is great enough to be divided by the number. -/
theorem sizes {a t c x room : Nat} (hunit : 2 ^ 200 ≤ x) (hroom : 2 ^ 200 * x < room) (ha : 0 < a)
    (hsize : a ≤ 2 ^ 64) (hn : 0 < n) (hfew : n < 2 ^ 128) (ht : t ≤ 2 * (a * x))
    (ht' : a * x ≤ 2 * t) (hc : c ≤ 2 * (n * x)) (hc' : n * x ≤ 2 * c) :
    2 * (2 * n * t) < room ∧ x ≤ 2 * c ∧ ∀ s, t ≤ s → 2 ^ 52 * c ≤ s * x := by
  have hax : a * x ≤ 2 ^ 64 * x := Nat.mul_le_mul_right x hsize
  have hnx : n * x ≤ 2 ^ 128 * x := Nat.mul_le_mul_right x hfew.le
  have hx : x ≤ a * x := Nat.le_mul_of_pos_left x ha
  refine ⟨?_, (Nat.le_mul_of_pos_left x hn).trans hc', fun s hs => ?_⟩
  · calc 2 * (2 * n * t) ≤ 2 * (2 * 2 ^ 128 * (2 * (2 ^ 64 * x))) := by gcongr; omega
      _ ≤ 2 ^ 200 * x := by omega
      _ < room := hroom
  · calc 2 ^ 52 * c ≤ 2 ^ 52 * (2 * (2 ^ 128 * x)) := by omega
      _ ≤ 2 ^ 199 * x := by omega
      _ ≤ s * x := Nat.mul_le_mul_right x (by omega)

/-- The quotient of a sum of equal integers and their number. -/
theorem per_total_close (ha : a ≠ 0) (hsize : a.natAbs ≤ 2 ^ 64) (hn : 0 < n) (hfew : n < 2 ^ 128) :
    ¬ double.IsTop (double.whole n)
      ∧ 2 ^ 52 * |double.per (double.total (List.replicate n (double.whole a)))
          (double.whole n).natAbs - a * double.one| ≤ (n + 3) * (|a| * double.one) := by
  have hterm := whole_close (a := a) (by omega)
  have hcount := whole_close (a := n) (by rwa [Int.natAbs_natCast])
  obtain ⟨ht, ht'⟩ := natAbs_of_close hterm
  obtain ⟨hc, hc'⟩ := natAbs_of_close hcount
  rw [Int.natAbs_mul, Int.natAbs_natCast] at ht ht'
  rw [Int.natAbs_mul, Int.natAbs_natCast, Int.natAbs_natCast] at hc hc'
  obtain ⟨hsum, hdivisor, hlarge⟩ := sizes (double.two_pow_le_one (by decide))
    (by decide +kernel : 2 ^ 200 * double.one < headroom) (Int.natAbs_pos.mpr ha) hsize hn hfew
    ht ht' hc hc'
  have haccumulated := accumulated_replicate (double.isNumber_rounded (a * double.one) 1) hn
    (Nat.lt_of_le_of_lt (Nat.le_mul_of_pos_left _ Nat.two_pos) hsum)
  obtain ⟨hleast, hmost⟩ := haccumulated.natAbs_le
  have hsmall := Nat.lt_of_le_of_lt (Nat.mul_le_mul_left 2 hmost) hsum
  have hquotient := per_close hsmall hdivisor (hlarge _ hleast)
  rw [Int.natAbs_of_nonneg (double.whole_nonneg n)] at hquotient
  have hone : 0 < (double.one : Int) := Int.natCast_pos.mpr double.one_pos
  have hfinite : ¬ double.IsTop (double.whole n) := whole_finite (by rw [Int.natAbs_natCast]; exact hfew)
  exact ⟨hfinite, quotient_error_units hone hn hterm haccumulated.close hcount hquotient⟩

theorem average_close_of_few (hlo : lo ≤ a) (hhi : a ≤ hi) (ha : a ≠ 0) (hsize : a.natAbs ≤ 2 ^ 64)
    (hn : 0 < n) (hfew : n < 2 ^ 128) :
    2 ^ 52 * |double.average lo hi (List.replicate n a) - a| < (n + 3) * |a| + 2 ^ 52 := by
  obtain ⟨hfinite, hquotient⟩ := per_total_close ha hsize hn hfew
  have hone : 0 < (double.one : Int) := Int.natCast_pos.mpr double.one_pos
  generalize hq : double.per (double.total (List.replicate n (double.whole a)))
    (double.whole n).natAbs = q at hquotient
  have haverage : double.average lo hi (List.replicate n a) = double.truncated lo hi q := by
    simp only [average, List.length_replicate, List.map_replicate, if_neg hfinite, hq]
  have hclose := double.truncated_close (m := q) hlo hhi
  rw [← haverage] at hclose
  refine lt_of_mul_lt_mul_right ?_ hone.le
  calc 2 ^ 52 * |double.average lo hi (List.replicate n a) - a| * double.one
      = 2 ^ 52 * (|double.average lo hi (List.replicate n a) - a| * double.one) := Int.mul_assoc _ _ _
    _ < 2 ^ 52 * (|q - a * double.one| + double.one) := Int.mul_lt_mul_of_pos_left hclose (by decide)
    _ = 2 ^ 52 * |q - a * double.one| + 2 ^ 52 * double.one := Int.mul_add _ _ _
    _ ≤ (n + 3) * (|a| * double.one) + 2 ^ 52 * double.one := Int.add_le_add_right hquotient _
    _ = ((n + 3) * |a| + 2 ^ 52) * double.one := by rw [← Int.mul_assoc, ← Int.add_mul]

/-- The average of equal integers is precise up to a fraction and as many parts of a significand as
there are integers, and three. -/
theorem average_close (hlo : lo ≤ a) (hhi : a ≤ hi) (hlo' : lo ≤ 0) (hhi' : 0 ≤ hi)
    (hlow : -2 ^ 64 ≤ lo) (hhigh : hi ≤ 2 ^ 64) (hn : 0 < n) :
    2 ^ 52 * |double.average lo hi (List.replicate n a) - a| < (n + 3) * |a| + 2 ^ 52 := by
  by_cases hzero : a = 0
  · rw [hzero, average_zero hlo' hhi' n]
    simp
  rcases Nat.lt_or_ge n (2 ^ 128) with hfew | hmany
  · exact average_close_of_few hlo hhi hzero (by omega) hn hfew
  · -- The bound is greater than the range.
    obtain ⟨hleast, hmost⟩ := double.average_mem hlo' hhi' (List.replicate n a)
    have hpos : 0 < |a| := abs_pos.mpr hzero
    have hbound : (n + 3 : Int) ≤ (n + 3) * |a| := le_mul_of_one_le_right (by omega) hpos
    have hfar : |double.average lo hi (List.replicate n a) - a| ≤ 2 ^ 65 := by
      rw [abs_le]
      omega
    omega

end ScatterGather.Format
