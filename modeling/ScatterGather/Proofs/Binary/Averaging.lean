import Mathlib.Algebra.Order.Ring.Abs
import Mathlib.Data.List.Forall2
import ScatterGather.Proofs.Binary.Arithmetic

/-!
# Rounded averages

To average integers they are rounded, summed up in turn, divided by their rounded number and truncated.
All of this is monotone, so an average lies between those of as many copies of the least and of the
greatest integer.
-/

namespace ScatterGather.Format

variable (f : Format)

/-- An integer as it is rounded, in units. -/
def whole (n : Int) : Int :=
  f.rounded (n * f.one) 1

/-- The sum of finite numbers, rounded at each of them. -/
def total (terms : List Int) : Int :=
  terms.foldl f.plus 0

/-- The average of integers, as far as it lies between two bounds. Too many of them have none. -/
def average (lo hi : Int) (values : List Int) : Int :=
  let count := f.whole values.length
  if f.IsTop count then 0
  else f.truncated lo hi (f.per (f.total (values.map f.whole)) count.natAbs)

theorem total_concat (terms : List Int) (term : Int) :
    f.total (terms ++ [term]) = f.plus (f.total terms) term := by
  rw [total, List.foldl_append]
  rfl

theorem natAbs_total_le (terms : List Int) : (f.total terms).natAbs ≤ f.units f.infinity := by
  rcases terms.eq_nil_or_concat with rfl | ⟨front, last, rfl⟩
  · exact Nat.zero_le _
  · rw [List.concat_eq_append, total_concat]
    exact f.natAbs_plus_le _ _

/-! ## Greater integers -/

variable {terms terms' values values' : List Int}

theorem foldl_plus_mono (h : List.Forall₂ (· ≤ ·) terms terms') {start start' : Int}
    (hbound : start.natAbs ≤ f.units f.infinity) (hbound' : start'.natAbs ≤ f.units f.infinity)
    (hstart : start ≤ start') : terms.foldl f.plus start ≤ terms'.foldl f.plus start' := by
  induction h generalizing start start' with
  | nil => exact hstart
  | cons hterm _ ih =>
    exact ih (f.natAbs_plus_le _ _) (f.natAbs_plus_le _ _) (f.plus_mono hbound hbound' hstart hterm)

theorem total_mono (h : List.Forall₂ (· ≤ ·) terms terms') : f.total terms ≤ f.total terms' :=
  f.foldl_plus_mono h (Nat.zero_le _) (Nat.zero_le _) le_rfl

theorem whole_mono {n n' : Int} (h : n ≤ n') : f.whole n ≤ f.whole n' :=
  f.rounded_mono (Int.mul_le_mul_of_nonneg_right h (Int.natCast_nonneg _)) 1

/-- Greater integers have no lesser average. -/
theorem average_mono (h : List.Forall₂ (· ≤ ·) values values') (lo hi : Int) :
    f.average lo hi values ≤ f.average lo hi values' := by
  have hrounded : List.Forall₂ (· ≤ ·) (values.map f.whole) (values'.map f.whole) := by
    rw [List.forall₂_map_left_iff, List.forall₂_map_right_iff]
    exact h.imp fun _ _ => f.whole_mono
  simp only [average, h.length_eq]
  split
  case isTrue => exact le_rfl
  case isFalse =>
    exact f.truncated_mono lo hi (f.per_mono (f.natAbs_total_le _) (f.natAbs_total_le _)
      (f.total_mono hrounded) _)

theorem average_replicate_le {least : Int} (h : ∀ value ∈ values, least ≤ value) (lo hi : Int) :
    f.average lo hi (List.replicate values.length least) ≤ f.average lo hi values := by
  rw [← List.map_const']
  exact f.average_mono (List.forall₂_map_left_iff.mpr (List.forall₂_same.mpr h)) lo hi

theorem le_average_replicate {greatest : Int} (h : ∀ value ∈ values, value ≤ greatest) (lo hi : Int) :
    f.average lo hi values ≤ f.average lo hi (List.replicate values.length greatest) := by
  rw [← List.map_const']
  exact f.average_mono (List.forall₂_map_right_iff.mpr (List.forall₂_same.mpr h)) lo hi

/-! ## Far from infinity -/

/-- How many bits a number of units far below infinity has. -/
def headroomBits : Nat :=
  2000

/-- A number of units far below infinity. -/
def headroom : Nat :=
  2 ^ headroomBits

theorem double_fits {num den : Nat} (h : num / den < headroom) : double.Fits num den := by
  have hlog : (num / den).log2 ≤ headroom.log2 := log2_mono h.le
  have hbits : double.fractionBits = 52 ∧ 2 ^ double.exponentBits = 2048 := ⟨rfl, rfl⟩
  rw [headroom, Nat.log2_two_pow, headroomBits] at hlog
  rw [Fits, shift, hbits.1, hbits.2]
  omega

theorem not_isTop {n : Int} (h : n.natAbs < headroom) : ¬ double.IsTop n := by
  have hinfinity : headroom < double.units double.infinity := by decide +kernel
  exact (h.trans hinfinity).ne

/-- A number of the format stays as it is. -/
theorem rounded_number {n : Int} (hsmall : n.natAbs < headroom) (h : double.IsNumber n) :
    double.rounded n 1 = n := by
  have hfits : double.Fits n.natAbs 1 := double_fits (by rwa [Nat.div_one])
  have hclosest := double.rounded_closest Nat.one_pos hfits h
  have hself : n * (1 : Nat) - n = 0 := by omega
  rw [hself, abs_zero, abs_nonpos_iff] at hclosest
  omega

/-! ## Equal numbers -/

/-- What is known of a sum of `count` copies of a number. The error is at most the product of the number
of additions, the sum, and one part of twice a significand. -/
structure Accumulated (term : Int) (count : Nat) (sum : Int) : Prop where
  isNumber : double.IsNumber sum
  above : 0 ≤ term → term ≤ sum
  below : term ≤ 0 → sum ≤ term
  bound : |sum| ≤ 2 * count * |term|
  close : 2 ^ 53 * |sum - count * term| ≤ count * (count - 1) * |term|

theorem Accumulated.one {term : Int} (hsmall : term.natAbs < headroom) (h : double.IsNumber term) :
    Accumulated term 1 (double.plus 0 term) := by
  have hplus : double.plus 0 term = term := by
    rw [plus, if_neg (not_isTop (Nat.two_pow_pos _)), Int.zero_add, rounded_number hsmall h]
  have hterm := abs_nonneg term
  rw [hplus]
  refine ⟨h, fun _ => le_rfl, fun _ => le_rfl, ?_, by simp⟩
  rw [Nat.cast_one]
  omega

theorem Accumulated.natAbs_le {term sum : Int} {count : Nat} (h : Accumulated term count sum) :
    term.natAbs ≤ sum.natAbs ∧ sum.natAbs ≤ 2 * count * term.natAbs := by
  have habove := h.above
  have hbelow := h.below
  have hbound := h.bound
  rw [Int.abs_eq_natAbs, Int.abs_eq_natAbs] at hbound
  exact ⟨by omega, by exact_mod_cast hbound⟩

/-- A number that is added is an upper bound for the error: without it the first one would be a closer
sum. -/
theorem plus_close {m n : Int} (hm : double.IsNumber m) (hsmall : m.natAbs + n.natAbs < headroom) :
    |double.plus m n - (m + n)| ≤ |n| ∧ 2 ^ 53 * |double.plus m n - (m + n)| ≤ |m + n| := by
  have hplus : double.plus m n = double.rounded (m + n) 1 := if_neg (not_isTop (by omega))
  have hfits : double.Fits (m + n).natAbs 1 := double_fits (by rw [Nat.div_one]; omega)
  have hclosest := double.rounded_closest Nat.one_pos hfits hm
  have hrounded := double.rounded_close Nat.one_pos hfits (.inl rfl)
  have hother : m * (1 : Nat) - (m + n) = -n := by omega
  rw [hother, abs_neg, Nat.cast_one, Int.mul_one] at hclosest
  rw [Nat.cast_one, Int.mul_one] at hrounded
  rw [hplus]
  exact ⟨hclosest, hrounded⟩

/-- The error of one more copy is at most the copy, and at most one part of twice a significand; while
there are few copies the latter is less. -/
theorem Accumulated.plus_error {term sum : Int} {count : Nat} (h : Accumulated term count sum)
    (hcount : 0 < count) (hsmall : (2 * count + 1) * term.natAbs < headroom) :
    2 ^ 53 * |double.plus sum term - (sum + term)| ≤ 2 * count * |term| := by
  have hsize := h.natAbs_le.2
  have hterm := abs_nonneg term
  obtain ⟨hnear, hpart⟩ := plus_close h.isNumber (n := term) (by rw [Nat.add_mul] at hsmall; omega)
  rcases Int.le_total (2 ^ 53) (2 * count) with hmany | hfew
  · calc 2 ^ 53 * |double.plus sum term - (sum + term)| ≤ 2 ^ 53 * |term| :=
          Int.mul_le_mul_of_nonneg_left hnear (by decide)
      _ ≤ 2 * count * |term| := Int.mul_le_mul_of_nonneg_right hmany hterm
  · have hbefore : |sum - count * term| ≤ (count - 1) * |term| := by
      have hclose := h.close
      have hfewer : count * ((count - 1) * |term|) ≤ 2 ^ 53 * ((count - 1) * |term|) :=
        Int.mul_le_mul_of_nonneg_right (by omega) (Int.mul_nonneg (by omega) hterm)
      rw [← Int.mul_assoc] at hfewer
      omega
    have hsplit : sum + term = (sum - count * term) + (count + 1) * term := by ring
    calc 2 ^ 53 * |double.plus sum term - (sum + term)| ≤ |sum + term| := hpart
      _ ≤ |sum - count * term| + |(count + 1) * term| := by
        rw [hsplit]
        exact abs_add_le _ _
      _ = |sum - count * term| + (count + 1) * |term| := by
        rw [abs_mul, abs_of_nonneg (by omega : (0 : Int) ≤ count + 1)]
      _ ≤ 2 * count * |term| := by linarith

theorem Accumulated.step {term sum : Int} {count : Nat} (h : Accumulated term count sum)
    (hcount : 0 < count) (hsmall : (2 * count + 1) * term.natAbs < headroom) :
    Accumulated term (count + 1) (double.plus sum term) := by
  have hsize := h.natAbs_le.2
  have hroom : sum.natAbs + term.natAbs < headroom := by rw [Nat.add_mul] at hsmall; omega
  obtain ⟨hnear, -⟩ := plus_close h.isNumber hroom
  have hsides := abs_le.mp hnear
  have hbound := h.bound
  have hclose := h.close
  have herror := h.plus_error hcount hsmall
  refine ⟨?_, fun hpos => ?_, fun hneg => ?_, ?_, ?_⟩
  · rw [plus, if_neg (not_isTop (by omega))]
    exact double.isNumber_rounded _ _
  · have := h.above hpos
    rw [abs_of_nonneg hpos] at hsides
    omega
  · have := h.below hneg
    rw [abs_of_nonpos hneg] at hsides
    omega
  · have hsum := abs_add_le (double.plus sum term - (sum + term)) (sum + term)
    have hparts := abs_add_le sum term
    rw [sub_add_cancel] at hsum
    rw [Nat.cast_succ]
    linarith
  · have hsplit : double.plus sum term - (count + 1 : Nat) * term
        = (double.plus sum term - (sum + term)) + (sum - count * term) := by
      rw [Nat.cast_succ]
      ring
    have hparts := abs_add_le (double.plus sum term - (sum + term)) (sum - count * term)
    rw [hsplit, Nat.cast_succ]
    linarith

/-- The sum of equal numbers. -/
theorem accumulated_replicate {term : Int} (h : double.IsNumber term) {count : Nat}
    (hcount : 0 < count) (hsmall : 2 * count * term.natAbs < headroom) :
    Accumulated term count (double.total (List.replicate count term)) := by
  induction count with
  | zero => exact absurd hcount (Nat.lt_irrefl 0)
  | succ count ih =>
    rw [List.replicate_succ', total_concat]
    rcases Nat.eq_zero_or_pos count with rfl | hpos
    · refine .one (Nat.lt_of_le_of_lt ?_ hsmall) h
      omega
    · have hbefore : 2 * count * term.natAbs < headroom :=
        Nat.lt_of_le_of_lt (Nat.mul_le_mul_right _ (by omega)) hsmall
      refine (ih hpos hbefore).step hpos (Nat.lt_of_le_of_lt (Nat.mul_le_mul_right _ ?_) hsmall)
      omega

/-! ## Integers -/

theorem exists_one_eq : ∃ k, f.one = 2 ^ k :=
  ⟨f.unitExponent, rfl⟩

theorem two_pow_le_one {k : Nat} (h : k ≤ f.unitExponent) : 2 ^ k ≤ f.one :=
  Nat.pow_le_pow_right Nat.two_pos h

theorem whole_nonneg (n : Nat) : 0 ≤ f.whole n := by
  rw [whole, ← Int.natCast_mul, rounded_natCast]
  exact Int.natCast_nonneg _

theorem whole_fits {a : Int} (h : a.natAbs < 2 ^ 128) : (a * double.one).natAbs < headroom := by
  have hroom : 2 ^ 128 * double.one < headroom := by decide +kernel
  rw [Int.natAbs_mul, Int.natAbs_natCast]
  exact Nat.lt_of_le_of_lt (Nat.mul_le_mul_right _ h.le) hroom

theorem whole_close {a : Int} (h : a.natAbs < 2 ^ 128) :
    2 ^ 53 * |double.whole a - a * double.one| ≤ |a * double.one| := by
  have hfits : double.Fits (a * double.one).natAbs 1 :=
    double_fits (by rw [Nat.div_one]; exact whole_fits h)
  have hclose := double.rounded_close Nat.one_pos hfits (.inl rfl)
  rwa [Nat.cast_one, Int.mul_one] at hclose

theorem natAbs_of_close {x y : Int} (h : 2 ^ 53 * |x - y| ≤ |y|) :
    x.natAbs ≤ 2 * y.natAbs ∧ y.natAbs ≤ 2 * x.natAbs := by
  rw [Int.abs_eq_natAbs, Int.abs_eq_natAbs] at h
  omega

theorem whole_finite {a : Int} (h : a.natAbs < 2 ^ 128) : ¬ double.IsTop (double.whole a) := by
  have hroom : 2 * (2 ^ 128 * double.one) < headroom := by decide +kernel
  obtain ⟨hle, -⟩ := natAbs_of_close (whole_close h)
  rw [Int.natAbs_mul, Int.natAbs_natCast] at hle
  exact not_isTop (hle.trans_lt
    (Nat.lt_of_le_of_lt (Nat.mul_le_mul_left 2 (Nat.mul_le_mul_right _ h.le)) hroom))

/-- An integer that fits a significand but for zeros at its end is not changed. -/
theorem whole_exact {a : Int} {e : Nat} (h : a.natAbs < 2 ^ 128) (hzeros : 2 ^ e ∣ a.natAbs)
    (hle : a.natAbs ≤ 2 ^ (53 + e)) : double.whole a = a * double.one := by
  have hfits : double.Fits (a * double.one).natAbs 1 :=
    double_fits (by rw [Nat.div_one]; exact whole_fits h)
  obtain ⟨k, hone⟩ : ∃ k, double.one = 2 ^ k := double.exists_one_eq
  have hnat : (a * double.one).natAbs = a.natAbs * 2 ^ k := by
    rw [Int.natAbs_mul, Int.natAbs_natCast, hone]
  have hbits : double.fractionBits + 1 + (e + k) = (53 + e) + k := (Nat.add_assoc _ _ _).symm
  refine double.rounded_exact hfits (e := e + k) ?_ ?_
  · rw [hnat, Nat.pow_add]
    exact Nat.mul_dvd_mul_right hzeros _
  · rw [hnat, hbits, Nat.pow_add 2 (53 + e)]
    exact Nat.mul_le_mul_right _ hle

theorem plus_whole {m n : Int} (hm : m.natAbs < 2 ^ 128) :
    double.plus (m * double.one) (n * double.one) = double.whole (m + n) := by
  rw [plus, if_neg (not_isTop (whole_fits hm)), whole, Int.add_mul]

/-- A sum of equal integers is exact if all of it fits a significand but for zeros at its end. -/
theorem total_exact {a : Int} {e n : Nat} (hsmall : n * a.natAbs < 2 ^ 128) (hzeros : 2 ^ e ∣ a.natAbs)
    (hle : n * a.natAbs ≤ 2 ^ (53 + e)) :
    double.total (List.replicate n (a * double.one)) = n * a * double.one := by
  induction n with
  | zero => rw [Nat.cast_zero, Int.zero_mul, Int.zero_mul]; rfl
  | succ n ih =>
    rw [Nat.add_mul, Nat.one_mul] at hsmall hle
    have hnat : (n * a : Int).natAbs = n * a.natAbs := by rw [Int.natAbs_mul, Int.natAbs_natCast]
    have hsum : (n * a + a).natAbs = n * a.natAbs + a.natAbs := by
      have hfactor : n * a + a = ((n + 1 : Nat) : Int) * a := by push_cast; ring
      rw [hfactor, Int.natAbs_mul, Int.natAbs_natCast, Nat.add_mul, Nat.one_mul]
    have hdvd : 2 ^ e ∣ (n * a + a).natAbs := by
      rw [hsum]
      exact Nat.dvd_add (Nat.dvd_mul_left_of_dvd hzeros n) hzeros
    rw [List.replicate_succ', total_concat, ih (by omega) (by omega), plus_whole (by omega),
      whole_exact (by omega) hdvd (by omega)]
    push_cast
    ring

/-! ## Averages of equal integers -/

variable {lo hi a : Int} {n : Nat}

theorem truncated_one_mul (hlo : lo ≤ a) (hhi : a ≤ hi) : f.truncated lo hi (a * f.one) = a := by
  have hone : (f.one : Int) ≠ 0 := (Int.natCast_pos.mpr f.one_pos).ne'
  rw [truncated, Int.mul_tdiv_cancel _ hone]
  omega

theorem average_mem (hlo : lo ≤ 0) (hhi : 0 ≤ hi) (values : List Int) :
    lo ≤ f.average lo hi values ∧ f.average lo hi values ≤ hi := by
  simp only [average, truncated]
  split <;> omega

/-- Zeros have the average zero, however many they are. -/
theorem average_zero (hlo : lo ≤ 0) (hhi : 0 ≤ hi) (n : Nat) :
    double.average lo hi (List.replicate n 0) = 0 := by
  have hwhole : double.whole 0 = 0 * double.one := whole_exact (e := 0) (by decide) (by simp) (by simp)
  have htotal : double.total (List.replicate n (0 * double.one)) = 0 := by
    rw [total_exact (e := 0) (by simp) (by simp) (by simp), Int.mul_zero, Int.zero_mul]
  have hquotient (den : Nat) : double.per 0 den = 0 * double.one := by
    rw [per, if_neg (not_isTop (Nat.two_pow_pos _)), Int.zero_mul]
    simp [rounded]
  simp only [average, List.map_replicate, hwhole, htotal, hquotient, double.truncated_one_mul hlo hhi,
    ite_self]

/-- Integers that add up within a significand but for zeros at their end have themselves as average. -/
theorem average_exact {e : Nat} (hlo : lo ≤ a) (hhi : a ≤ hi) (hlo' : lo ≤ 0) (hhi' : 0 ≤ hi)
    (ha : a.natAbs ≤ 2 ^ 64) (hn : 0 < n) (hzeros : 2 ^ e ∣ a.natAbs)
    (hle : n * a.natAbs ≤ 2 ^ (53 + e)) : double.average lo hi (List.replicate n a) = a := by
  by_cases hzero : a = 0
  · rw [hzero]
    exact average_zero hlo' hhi' n
  have hcount : n ≤ 2 ^ 53 := by
    have hdvd : 2 ^ e ≤ a.natAbs := Nat.le_of_dvd (by omega) hzeros
    rw [Nat.pow_add] at hle
    exact Nat.le_of_mul_le_mul_right ((Nat.mul_le_mul_left n hdvd).trans hle) (Nat.two_pow_pos e)
  have hproduct : n * a.natAbs < 2 ^ 128 :=
    Nat.lt_of_le_of_lt (Nat.mul_le_mul hcount ha) (by decide)
  have honce : a.natAbs ≤ n * a.natAbs := Nat.le_mul_of_pos_left _ hn
  have hwhole : double.whole a = a * double.one :=
    whole_exact (honce.trans_lt hproduct) hzeros (honce.trans hle)
  have hwholeCount : double.whole n = n * double.one :=
    whole_exact (e := 0) (by rw [Int.natAbs_natCast]; omega) (by simp) (by simpa using hcount)
  have hfinite : ¬ double.IsTop (n * double.one) :=
    not_isTop (whole_fits (by rw [Int.natAbs_natCast]; omega))
  have hquotient : double.per (n * a * double.one) (n * double.one) = a * double.one := by
    have htop : ¬ double.IsTop (n * a * double.one) :=
      not_isTop (whole_fits (by rwa [Int.natAbs_mul, Int.natAbs_natCast]))
    have hcross : n * a * double.one * double.one = a * double.one * (n * double.one : Nat) := by
      push_cast
      ring
    have hscale : 0 < n * double.one := Nat.mul_pos hn double.one_pos
    have hscaled := double.rounded_mul_right (a * double.one) 1 hscale
    rw [Nat.one_mul] at hscaled
    rw [per, if_neg htop, hcross, hscaled]
    exact hwhole
  simp only [average, List.length_replicate, List.map_replicate, hwholeCount, if_neg hfinite, hwhole,
    total_exact hproduct hzeros hle]
  rw [Int.natAbs_mul, Int.natAbs_natCast, Int.natAbs_natCast, hquotient, truncated_one_mul _ hlo hhi]

end ScatterGather.Format
