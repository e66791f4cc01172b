import Mathlib.Data.EReal.Basic
import Mathlib.Data.Int.ConditionallyCompleteOrder
import Mathlib.Tactic.FieldSimp
import Mathlib.Tactic.NormNum
import ScatterGather.Proofs.Collect.SortKeys

/-!
# Sort keys as exact numbers

What numbers stand for is read off here as the standard for floating-point numbers has it, from the
sign, exponent and fraction fields of a float, with two infinities beyond all real numbers. The order of
the keys is the order of these numbers, in whichever way integers and floats are mixed.
-/

namespace ScatterGather

open Format (double)

/-! ## What a key stands for -/

/-- The number that a float stands for, by the three fields of its bit pattern; a NaN stands for
none. -/
noncomputable def Double.value? (x : Double) : Option EReal :=
  let negative := 2 ^ 63 ≤ x.bits.toNat
  let exponent : ℕ := x.bits.toNat / 2 ^ 52 % 2 ^ 11
  let fraction : ℕ := x.bits.toNat % 2 ^ 52
  let sign : ℝ := if negative then -1 else 1
  if exponent = 2047 then
    if fraction = 0 then some (if negative then ⊥ else ⊤) else none
  else if exponent = 0 then some ((sign * (fraction / 2 ^ 52 * 2 ^ (-1022 : ℤ)) : ℝ) : EReal)
  else some ((sign * ((1 + fraction / 2 ^ 52) * 2 ^ ((exponent : ℤ) - 1023)) : ℝ) : EReal)

/-- The number that a key stands for, if it stands for one. -/
noncomputable def SortKey.number? : SortKey → Option EReal
  | .int value => some ((value.toInt : ℝ) : EReal)
  | .float value => Double.value? value
  | .bool _ | .text _ => none

/-! ## Numbers of units -/

/-- How many units stand for infinity. -/
def infinityUnits : ℤ :=
  double.units double.infinity

/-- A number of units. -/
noncomputable def ofUnits (units : ℤ) : EReal :=
  if infinityUnits ≤ units then ⊤ else if units ≤ -infinityUnits then ⊥ else ((units / double.one : ℝ) : EReal)

theorem infinityUnits_pos : 0 < infinityUnits := by
  have hlt := double.units_strictMono (show 0 < double.infinity by decide)
  rw [double.units_zero] at hlt
  exact Int.natCast_pos.mpr hlt

/-- All signed 64-bit integers lie before infinity. -/
theorem limit_lt_infinity : 2 ^ 63 * (double.one : ℤ) < infinityUnits := by
  decide +kernel

theorem ofUnits_strictMonoOn : StrictMonoOn ofUnits (Set.Icc (-infinityUnits) infinityUnits) := by
  intro a ha b hb hlt
  obtain ⟨halow, hahigh⟩ := Set.mem_Icc.mp ha
  obtain ⟨hblow, hbhigh⟩ := Set.mem_Icc.mp hb
  have hpos := infinityUnits_pos
  rw [ofUnits, if_neg (by omega), ofUnits, if_neg (show ¬ b ≤ -infinityUnits by omega)]
  split
  case isTrue =>
    split
    · exact bot_lt_top
    · exact EReal.bot_lt_coe _
  case isFalse =>
    split
    · exact EReal.coe_lt_top _
    · have hone : (0 : ℝ) < double.one := Nat.cast_pos.mpr double.one_pos
      exact EReal.coe_lt_coe_iff.mpr (div_lt_div_of_pos_right (Int.cast_lt.mpr hlt) hone)

theorem ofUnits_infinity : ofUnits infinityUnits = ⊤ ∧ ofUnits (-infinityUnits) = ⊥ := by
  have hpos := infinityUnits_pos
  exact ⟨if_pos le_rfl, by rw [ofUnits, if_neg (by omega), if_pos le_rfl]⟩

theorem ofUnits_finite {units : ℤ} (hlow : -infinityUnits < units) (hhigh : units < infinityUnits) :
    ofUnits units = ((units / double.one : ℝ) : EReal) := by
  rw [ofUnits, if_neg (by omega), if_neg (by omega)]

theorem one_cast : ((double.one : ℕ) : ℝ) = 2 ^ (1074 : ℤ) := by
  have hexponent : double.unitExponent = 1074 := rfl
  rw [Format.one, Nat.pow_eq, Nat.cast_pow, ← zpow_natCast, hexponent, Nat.cast_ofNat,
    Nat.cast_ofNat]

/-- The number of units of a finite float, by its fields. -/
theorem units_cast (exponent : ℕ) {fraction : ℕ} (h : fraction < 2 ^ 52) :
    ((double.units (exponent * 2 ^ 52 + fraction) : ℕ) : ℝ) / double.one =
      if exponent = 0 then (fraction / 2 ^ 52 * 2 ^ (-1022 : ℤ) : ℝ)
      else (1 + fraction / 2 ^ 52) * 2 ^ ((exponent : ℤ) - 1023) := by
  have hunits : double.units (exponent * 2 ^ 52 + fraction) =
      if exponent = 0 then fraction else (2 ^ 52 + fraction) * 2 ^ (exponent - 1) :=
    double.units_of_fields h
  have htwo : (2 : ℝ) ≠ 0 := two_ne_zero
  rw [hunits, one_cast]
  split
  case isTrue =>
    have hscale : (2 : ℝ) ^ (1074 : ℤ) = 2 ^ 52 * 2 ^ (1022 : ℤ) := by
      rw [← zpow_natCast 2 52, ← zpow_add₀ htwo]
      rfl
    rw [hscale, zpow_neg, ← div_div, div_eq_mul_inv _ ((2 : ℝ) ^ (1022 : ℤ))]
  case isFalse hnormal =>
    have hexponent : ((exponent : ℤ) - 1023) = 52 + ((exponent - 1 : ℕ) : ℤ) - 1074 := by omega
    have hscale : (2 : ℝ) ^ ((exponent : ℤ) - 1023) = 2 ^ 52 * 2 ^ (exponent - 1) / 2 ^ (1074 : ℤ) := by
      rw [hexponent, zpow_sub₀ htwo, zpow_add₀ htwo, zpow_natCast]
      rfl
    rw [hscale, Nat.cast_mul, Nat.cast_add, Nat.cast_pow, Nat.cast_pow, Nat.cast_ofNat]
    generalize (2 : ℝ) ^ (1074 : ℤ) = one
    field_simp

/-! ## What positions stand for -/

theorem fields_of_bits (x : Double) :
    let exponent := x.bits.toNat / 2 ^ 52 % 2 ^ 11
    let fraction := x.bits.toNat % 2 ^ 52
    fraction < 2 ^ 52 ∧ x.pattern = exponent * 2 ^ 52 + fraction
      ∧ x.isNegative = decide (2 ^ 63 ≤ x.bits.toNat) := by
  intro exponent fraction
  have hpattern : x.pattern = x.bits.toNat % 2 ^ 63 := rfl
  refine ⟨Nat.mod_lt _ (Nat.two_pow_pos 52), ?_, rfl⟩
  rw [hpattern]
  omega

/-- A float that is no NaN stands for its units. -/
theorem value?_of_number {x : Double} (h : x.isNaN = false) :
    x.units ∈ Set.Icc (-infinityUnits) infinityUnits ∧ Double.value? x = some (ofUnits x.units) := by
  obtain ⟨hfraction, hpattern, hnegative⟩ := fields_of_bits x
  have hinfinity : double.infinity = 2047 * 2 ^ 52 := rfl
  have hpos := infinityUnits_pos
  have hle : x.pattern ≤ 2047 * 2 ^ 52 := by
    rw [Binary.isNaN, decide_eq_false_iff_not, hinfinity] at h
    exact Nat.le_of_not_lt h
  have hunits : (double.units x.pattern : ℤ) ≤ infinityUnits :=
    Int.ofNat_le.mpr (double.units_strictMono.monotone (hinfinity ▸ hle))
  rw [Double.value?, Binary.units, hnegative]
  simp only [decide_eq_true_eq]
  generalize x.bits.toNat % 2 ^ 52 = fraction at *
  generalize x.bits.toNat / 2 ^ 52 % 2 ^ 11 = exponent at *
  rw [hpattern] at hle hunits ⊢
  refine ⟨by split <;> constructor <;> omega, ?_⟩
  by_cases hlast : exponent = 2047
  · -- Of this exponent there is only infinity, all other patterns are NaNs.
    have hnone : fraction = 0 := by omega
    subst hlast hnone
    have hall : (double.units (2047 * 2 ^ 52 + 0) : ℤ) = infinityUnits := rfl
    rw [if_pos rfl, if_pos rfl, hall]
    split
    · rw [ofUnits_infinity.2]
    · rw [ofUnits_infinity.1]
  · have hbelow : exponent * 2 ^ 52 + fraction < double.infinity := by
      rw [hinfinity]
      omega
    have hlt : (double.units (exponent * 2 ^ 52 + fraction) : ℤ) < infinityUnits :=
      Int.ofNat_lt.mpr (double.units_strictMono hbelow)
    have hvalue := units_cast exponent hfraction
    generalize double.units (exponent * 2 ^ 52 + fraction) = units at hlt hvalue
    have hsigned : ofUnits (if 2 ^ 63 ≤ x.bits.toNat then -(units : ℤ) else units)
        = (((if 2 ^ 63 ≤ x.bits.toNat then -1 else 1) * (units / double.one) : ℝ) : EReal) := by
      split
      · rw [ofUnits_finite (by omega) (by omega), Int.cast_neg, Int.cast_natCast, neg_div,
          neg_one_mul]
      · rw [ofUnits_finite (by omega) (by omega), Int.cast_natCast, one_mul]
    rw [if_neg hlast, hsigned, hvalue]
    split
    · rfl
    · rfl

/-- A NaN stands for no number. -/
theorem value?_of_isNaN {x : Double} (h : x.isNaN = true) : Double.value? x = none := by
  obtain ⟨hfraction, hpattern, -⟩ := fields_of_bits x
  have hinfinity : double.infinity = 2047 * 2 ^ 52 := rfl
  rw [Binary.isNaN, decide_eq_true_eq, hinfinity, hpattern] at h
  have hlast : x.bits.toNat / 2 ^ 52 % 2 ^ 11 = 2047 := by omega
  have hsome : x.bits.toNat % 2 ^ 52 ≠ 0 := by omega
  rw [Double.value?]
  simp only [if_pos hlast, if_neg hsome]

namespace SortKey

variable {a b c : SortKey}

/-- A key that stands for a number has the position of so many units. -/
theorem position_of_number {x : EReal} (h : a.number? = some x) :
    ∃ units ∈ Set.Icc (-infinityUnits) infinityUnits, a.position = ⟨1, 1, units, ""⟩ ∧ x = ofUnits units := by
  cases a with
  | bool value | text value => cases h
  | int value =>
    obtain rfl := Option.some.inj h
    have hone : (0 : ℤ) < double.one := Int.natCast_pos.mpr double.one_pos
    have hlow : -(2 ^ 63 * (double.one : ℤ)) ≤ value.toInt * double.one := by
      rw [← Int.neg_mul]
      exact Int.mul_le_mul_of_nonneg_right value.le_toInt hone.le
    have hhigh : value.toInt * double.one ≤ 2 ^ 63 * (double.one : ℤ) :=
      Int.mul_le_mul_of_nonneg_right value.toInt_lt.le hone.le
    have hlimit := limit_lt_infinity
    refine ⟨value.toInt * double.one, Set.mem_Icc.mpr ⟨by omega, by omega⟩, rfl, ?_⟩
    rw [ofUnits_finite (by omega) (by omega), Int.cast_mul, Int.cast_natCast,
      mul_div_cancel_right₀ _ (Nat.cast_ne_zero.mpr double.one_pos.ne')]
  | float value =>
    cases hnumber : value.isNaN with
    | true =>
      rw [number?, value?_of_isNaN hnumber] at h
      cases h
    | false =>
      obtain ⟨hbounds, hvalue⟩ := value?_of_number hnumber
      rw [number?, hvalue] at h
      refine ⟨value.units, hbounds, ?_, (Option.some.inj h).symm⟩
      rw [position, Binary.side_eq_one_iff.mpr hnumber, hnumber, if_neg Bool.false_ne_true]

/-- Keys that stand for numbers compare as these do. -/
theorem compare_number {x y : EReal} (hx : a.number? = some x) (hy : b.number? = some y) :
    (compare a b).Compares x y := by
  obtain ⟨units, hbounds, hposition, rfl⟩ := position_of_number hx
  obtain ⟨units', hbounds', hposition', rfl⟩ := position_of_number hy
  rw [compare_eq_position, hposition, hposition', Position.compare_number,
    Nat.compare_eq_eq.mpr rfl, Ordering.eq_then]
  exact (ofUnits_strictMonoOn.compares hbounds hbounds').mpr ((compare_iff units units').mp rfl)

/-! ## The order -/

/-- The key is a NaN with this sign bit. -/
def IsNaN (negative : Bool) (a : SortKey) : Prop :=
  ∃ x : Double, a = .float x ∧ x.isNaN = true ∧ x.isNegative = negative

/-- Where a key stands that is an integer or a float. -/
theorem position_of_rank (h : a.rank = 1) : ∃ side units, a.position = ⟨1, side, units, ""⟩
    ∧ (side = 0 ∧ a.IsNaN true ∨ side = 1 ∧ (∃ x, a.number? = some x)
      ∨ side = 2 ∧ a.IsNaN false) := by
  cases a with
  | bool value | text value => cases h
  | int value => exact ⟨1, _, rfl, .inr (.inl ⟨rfl, _, rfl⟩)⟩
  | float value =>
    refine ⟨value.side, _, rfl, ?_⟩
    cases hnumber : value.isNaN with
    | false =>
      exact .inr (.inl ⟨Binary.side_eq_one_iff.mpr hnumber, _, (value?_of_number hnumber).2⟩)
    | true =>
      rw [Binary.side, if_pos hnumber]
      cases hsign : value.isNegative with
      | true => exact .inl ⟨rfl, value, rfl, hnumber, hsign⟩
      | false => exact .inr (.inr ⟨rfl, value, rfl, hnumber, hsign⟩)

theorem position_of_isNaN {negative : Bool} (h : a.IsNaN negative) :
    ∃ units, a.position = ⟨1, if negative then 0 else 2, units, ""⟩ := by
  obtain ⟨x, rfl, hnan, rfl⟩ := h
  exact ⟨_, by rw [position, Binary.side, if_pos hnan]⟩

/-- A NaN without the sign bit is above all keys that are numbers but no such NaNs. -/
theorem compare_nan (ha : a.IsNaN false) (hrank : b.rank = 1) (hb : ¬ b.IsNaN false) :
    compare a b = .gt := by
  obtain ⟨units, hposition⟩ := position_of_isNaN ha
  obtain ⟨side, units', hposition', hside⟩ := position_of_rank hrank
  have hposition : a.position = ⟨1, 2, units, ""⟩ := hposition
  have hlt : side < 2 := by
    rcases hside with ⟨rfl, -⟩ | ⟨rfl, -⟩ | ⟨-, hnan⟩
    · exact Nat.two_pos
    · exact Nat.one_lt_two
    · exact absurd hnan hb
  rw [compare_eq_position, hposition, hposition', Position.compare_number,
    Nat.compare_eq_gt.mpr hlt]
  rfl

/-- A NaN with the sign bit is below all keys that are numbers but no such NaNs. -/
theorem compare_negative_nan (ha : a.IsNaN true) (hrank : b.rank = 1) (hb : ¬ b.IsNaN true) :
    compare a b = .lt := by
  obtain ⟨units, hposition⟩ := position_of_isNaN ha
  obtain ⟨side, units', hposition', hside⟩ := position_of_rank hrank
  have hposition : a.position = ⟨1, 0, units, ""⟩ := hposition
  have hlt : 0 < side := by
    rcases hside with ⟨-, hnan⟩ | ⟨rfl, -⟩ | ⟨rfl, -⟩
    · exact absurd hnan hb
    · exact Nat.one_pos
    · exact Nat.two_pos
  rw [compare_eq_position, hposition, hposition', Position.compare_number,
    Nat.compare_eq_lt.mpr hlt]
  rfl

theorem compare_rank (h : a.rank < b.rank) : compare a b = .lt := by
  have hkind : ∀ key : SortKey, key.position.kind = key.rank := by
    intro key
    cases key <;> rfl
  rw [compare_eq_position, Position.compare, hkind, hkind, Nat.compare_eq_lt.mpr h]
  rfl

theorem number_iff (h : a.rank = 1) :
    (∃ x, a.number? = some x) ↔ ¬ a.IsNaN false ∧ ¬ a.IsNaN true := by
  have hnone : ∀ negative, a.IsNaN negative → a.number? = none := by
    rintro negative ⟨x, rfl, hnan, -⟩
    exact value?_of_isNaN hnan
  obtain ⟨_, _, -, hcases⟩ := position_of_rank h
  constructor
  · rintro ⟨x, hx⟩
    constructor <;> intro hnan <;> rw [hnone _ hnan] at hx <;> cases hx
  · rintro ⟨hnan, hnegative⟩
    rcases hcases with ⟨-, h⟩ | ⟨-, h⟩ | ⟨-, h⟩
    · exact absurd h hnegative
    · exact h
    · exact absurd h hnan

/-- The zeros equal the integer 0, and the infinities lie beyond all integers. -/
theorem compare_special (i : Int64) (negative : Bool) :
    compare (.int 0) (.float (.ofPattern negative 0)) = .eq
      ∧ compare (.int i) (.float (.infinite negative)) = if negative then .gt else .lt := by
  cases negative with
  | false =>
    have hnumber : (Binary.infinite false : Double).isNaN = false := by decide +kernel
    have hbeyond : limit.le (Binary.infinite false : Double).trunc = true := by decide +kernel
    refine ⟨by decide +kernel, ?_⟩
    rw [compare, compareIntFloat]
    simp only [hnumber, hbeyond, Bool.false_eq_true, if_false, if_true]
  | true =>
    have hnumber : (Binary.infinite true : Double).isNaN = false := by decide +kernel
    have hbeyond : limit.le (Binary.infinite true : Double).trunc = false
        ∧ (Binary.infinite true : Double).trunc.lt limit.neg = true := by decide +kernel
    refine ⟨by decide +kernel, ?_⟩
    rw [compare, compareIntFloat]
    simp only [hnumber, hbeyond, Bool.false_eq_true, if_false, if_true]

/-- Sort keys are totally ordered, and numbers compare exactly. The order is reversed with its
arguments and transitive, equality is an equivalence that the order respects, and what tells two keys
apart and the partial order agree with it. A key that is an integer or a float stands for a number
unless it is a NaN; keys that stand for numbers compare as these do, in particular both zeros equal the
integer 0 and the infinities lie beyond all integers. The NaNs lie above all other numbers, or below
them if their sign bit is set. Booleans come before numbers and numbers before texts. -/
theorem compare_total_exact (a b c : SortKey) :
    compare b a = (compare a b).swap
    ∧ ((compare a b).isLE → (compare b c).isLE → (compare a c).isLE)
    ∧ compare a a = .eq
    ∧ (compare a b = .eq → compare b a = .eq ∧ compare a c = compare b c ∧ compare c a = compare c b)
    ∧ (a.agrees b = true ↔ compare a b = .eq) ∧ a.partialCompare b = some (compare a b)
    ∧ (a.rank = 1 → ((∃ x, a.number? = some x) ↔ ¬ a.IsNaN false ∧ ¬ a.IsNaN true))
    ∧ (∀ x y, a.number? = some x → b.number? = some y → (compare a b).Compares x y)
    ∧ (∀ i negative, compare (.int 0) (.float (.ofPattern negative 0)) = .eq
      ∧ compare (.int i) (.float (.infinite negative)) = if negative then .gt else .lt)
    ∧ (a.IsNaN false → b.rank = 1 → ¬ b.IsNaN false → compare a b = .gt)
    ∧ (a.IsNaN true → b.rank = 1 → ¬ b.IsNaN true → compare a b = .lt)
    ∧ (a.rank < b.rank → compare a b = .lt) := by
  refine ⟨Std.OrientedCmp.eq_swap, Std.TransCmp.isLE_trans, Std.ReflCmp.compare_self,
    fun heq => ⟨?_, ?_, ?_⟩, decide_eq_true_iff, rfl, number_iff, fun x y => compare_number,
    compare_special, compare_nan, compare_negative_nan, compare_rank⟩
  · exact Std.OrientedCmp.eq_symm heq
  · exact Std.TransCmp.congr_left heq
  · exact Std.TransCmp.congr_right heq

/-- Two is less than two and a half, which is below a NaN, and `true` is below both. -/
theorem compare_total_exact_mixed :
    compare (.int 2) (.float ⟨0x4004000000000000#64⟩) = .lt
      ∧ (compare (.int 2) (.float ⟨0x4004000000000000#64⟩)).Compares
        ((2 : ℝ) : EReal) ((5 / 2 : ℝ) : EReal)
      ∧ compare (.float .nan) (.float ⟨0x4004000000000000#64⟩) = .gt
      ∧ compare (.float (.ofPattern true (double.infinity + 1))) (.int 2) = .lt
      ∧ compare (.bool true) (.int 2) = .lt
      ∧ (compare (.bool true) (.float ⟨0x4004000000000000#64⟩)).isLE := by
  have hbits : (⟨0x4004000000000000#64⟩ : Double).bits.toNat = 1024 * 2 ^ 52 + 2 ^ 50 := rfl
  have hvalue : (SortKey.float ⟨0x4004000000000000#64⟩).number? = some ((5 / 2 : ℝ) : EReal) := by
    rw [number?, Double.value?, hbits]
    norm_num
  have htwo : (SortKey.int 2).number? = some ((2 : ℝ) : EReal) := by
    have hint : (2 : Int64).toInt = 2 := rfl
    rw [number?, hint, Int.cast_ofNat]
  have hfinite : ¬ (SortKey.float ⟨0x4004000000000000#64⟩).IsNaN false :=
    ((number_iff rfl).mp ⟨_, hvalue⟩).1
  have hless : compare (.int 2) (.float ⟨0x4004000000000000#64⟩) = .lt := by decide +kernel
  obtain ⟨-, -, -, -, -, -, -, hexact, -⟩ :=
    compare_total_exact (.int 2) (.float ⟨0x4004000000000000#64⟩) (.int 2)
  obtain ⟨-, -, -, -, -, -, -, -, -, habove, -⟩ :=
    compare_total_exact (.float .nan) (.float ⟨0x4004000000000000#64⟩) (.int 2)
  obtain ⟨-, -, -, -, -, -, -, -, -, -, hbelow, -⟩ :=
    compare_total_exact (.float (.ofPattern true (double.infinity + 1))) (.int 2) (.int 2)
  obtain ⟨-, htrans, -, -, -, -, -, -, -, -, -, hkinds⟩ :=
    compare_total_exact (.bool true) (.int 2) (.float ⟨0x4004000000000000#64⟩)
  have htrue := hkinds Nat.one_pos
  have hnan : (SortKey.float .nan).IsNaN false := ⟨_, rfl, by decide +kernel, by decide +kernel⟩
  have hnegative : (SortKey.float (.ofPattern true (double.infinity + 1))).IsNaN true :=
    ⟨_, rfl, by decide +kernel, by decide +kernel⟩
  have htwoNumber := ((number_iff rfl).mp ⟨_, htwo⟩).2
  refine ⟨hless, ?_, ?_, ?_, htrue, ?_⟩
  · rw [hless] at hexact ⊢
    exact hexact _ _ htwo hvalue
  · exact habove hnan rfl hfinite
  · exact hbelow hnegative rfl htwoNumber
  · exact htrans (htrue ▸ rfl) (hless ▸ rfl)

end SortKey

end ScatterGather
