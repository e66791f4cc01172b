import ScatterGather.Collect.SortKey
import ScatterGather.Proofs.Binary.Order

/-!
# The order of sort keys

Keys compare by one of six comparators, according to their kinds. All of them agree with one order:
every key has a `Position`, and keys compare as their positions do. So they are in a total order,
although an integer is compared to the whole part of a float first, and floats by their bit patterns.
-/

namespace ScatterGather

open Format (double)

/-- What is compared by a total order of something else is in a total order. -/
theorem transCmp_on {α β : Type} {cmp : β → β → Ordering} (h : Std.TransCmp cmp) (f : α → β) :
    Std.TransCmp fun a b => cmp (f a) (f b) where
  eq_swap := h.eq_swap
  isLE_trans := h.isLE_trans

namespace SortKey

/-! ## Positions -/

/-- Where a key stands. -/
structure Position where
  /-- 0 for a boolean, 1 for a number, 2 for a text. -/
  kind : Nat
  /-- 0 for a NaN with the sign bit, 1 for a number proper, 2 for the other NaNs. -/
  side : Nat
  /-- The exact value, in units of the least positive float. -/
  value : Int
  text : String

/-- Positions compare field by field. -/
def Position.compare (a b : Position) : Ordering :=
  (Ord.compare a.kind b.kind).then <|
  (Ord.compare a.side b.side).then <|
  (Ord.compare a.value b.value).then <|
  Ord.compare a.text b.text

open Position in
instance : Std.TransCmp Position.compare :=
  inferInstanceAs <| Std.TransCmp <|
    compareLex (compareOn kind) <| compareLex (compareOn side) <|
    compareLex (compareOn value) (compareOn Position.text)

/-- The position of a key. NaNs of one sign stand in the order of their patterns, away from zero. -/
def position : SortKey → Position
  | .bool value => ⟨0, 0, if value then 1 else 0, ""⟩
  | .int value => ⟨1, 1, value.toInt * double.one, ""⟩
  | .float value => ⟨1, value.side, if value.isNaN then value.totalRank else value.units, ""⟩
  | .text value => ⟨2, 0, 0, value⟩

/-- Numbers compare by their sides, and on one side by their values. -/
theorem Position.compare_number (side side' : Nat) (value value' : Int) :
    Position.compare ⟨1, side, value, ""⟩ ⟨1, side', value', ""⟩
      = (Ord.compare side side').then (Ord.compare value value') := by
  simp only [Position.compare, Std.ReflCmp.compare_self, Ordering.eq_then, Ordering.then_eq]

/-! ## Numbers -/

theorem limit_spec : limit.isNaN = false ∧ limit.units = 2 ^ 63 * double.one := by
  decide +kernel

/-- An integer compares to a number by exact value. -/
theorem compareIntFloat_number (i : Int64) {x : Double} (hnumber : x.isNaN = false) :
    compareIntFloat i x = Ord.compare (i.toInt * double.one) x.units := by
  obtain ⟨hlimit, hlimitUnits⟩ := limit_spec
  obtain ⟨hsign, hwhole, hunits⟩ := x.trunc_spec
  have hwhole := hwhole hnumber
  have hfraction := Binary.totalCompare_of_sign hsign
  have hleast := i.le_toInt
  have hgreatest := i.toInt_lt
  have hpos : (0 : Int) < double.one := Int.natCast_pos.mpr double.one_pos
  have htruncate : x.trunc.truncate Int64.minValue.toInt Int64.maxValue.toInt
      = max (-2 ^ 63) (min (2 ^ 63 - 1) (x.trunc.units.tdiv double.one)) :=
    Binary.truncate_eq hwhole _ _
  -- How many units make one does not matter from here on.
  generalize (double.one : Int) = d at *
  have hle : limit.le x.trunc = decide (2 ^ 63 ≤ x.units.tdiv d) := by
    rw [Binary.le, hlimit, hwhole, hlimitUnits, hunits, Bool.not_false, Bool.true_and]
    exact decide_eq_decide.mpr (Int.mul_le_mul_right hpos)
  have hlt : x.trunc.lt limit.neg = decide (x.units.tdiv d < -2 ^ 63) := by
    rw [Binary.lt, Binary.isNaN_neg, Binary.units_neg, hlimit, hwhole, hlimitUnits, hunits,
      ← Int.neg_mul, Bool.not_false, Bool.true_and]
    exact decide_eq_decide.mpr (Int.mul_lt_mul_right hpos)
  have hvalue (h : i.toInt ≠ x.units.tdiv d) := Binary.compare_tdiv hpos h
  rw [hunits] at hfraction htruncate
  rw [Int.mul_tdiv_cancel _ hpos.ne'] at htruncate
  unfold compareIntFloat
  simp only [hnumber, Bool.false_eq_true, if_false, hle, hlt, hfraction, htruncate,
    decide_eq_true_eq]
  generalize x.units.tdiv d = whole at hvalue
  split
  case isTrue hbeyond =>
    rw [← hvalue (by omega)]
    exact (Int.compare_eq_lt.mpr (by omega)).symm
  case isFalse hbelow =>
    split
    case isTrue hbeyond =>
      rw [← hvalue (by omega)]
      exact (Int.compare_eq_gt.mpr (by omega)).symm
    case isFalse habove =>
      have hwithin : max (-2 ^ 63) (min (2 ^ 63 - 1) whole) = whole := by omega
      rw [hwithin]
      by_cases heq : i.toInt = whole
      · rw [heq, Int.compare_eq_eq.mpr rfl]
      · rw [← hvalue heq]
        have hne : Ord.compare i.toInt whole ≠ .eq := fun h => heq (Int.compare_eq_eq.mp h)
        split
        case h_1 h => exact absurd h hne
        case h_2 => rfl

theorem compareIntFloat_eq (i : Int64) (x : Double) :
    compareIntFloat i x = Position.compare (position (.int i)) (position (.float x)) := by
  rw [position, position, Position.compare_number, Binary.side]
  cases hnumber : x.isNaN with
  | false =>
    rw [compareIntFloat_number i hnumber, if_neg Bool.false_ne_true, if_neg Bool.false_ne_true,
      Nat.compare_eq_eq.mpr rfl, Ordering.eq_then]
  | true =>
    rw [compareIntFloat, hnumber]
    cases x.isNegative <;> rfl

theorem compareFloats_eq (x y : Double) :
    compareFloats x y = Position.compare (position (.float x)) (position (.float y)) := by
  rw [position, position, Position.compare_number, compareFloats]
  have hside : x.equals y = true → x.side = y.side := by
    rintro hequals
    obtain ⟨hx, hy, -⟩ := Binary.equals_iff.mp hequals
    rw [Binary.side_eq_one_iff.mpr hx, Binary.side_eq_one_iff.mpr hy]
  rcases Nat.lt_trichotomy x.side y.side with hlt | heq | hgt
  · rw [if_neg fun hequals => Nat.ne_of_lt hlt (hside hequals), Nat.compare_eq_lt.mpr hlt]
    exact Int.compare_eq_lt.mpr (Binary.totalRank_lt_of_side hlt)
  · rw [Nat.compare_eq_eq.mpr heq, Ordering.eq_then]
    cases hx : x.isNaN with
    | false =>
      have hy : y.isNaN = false := by
        rwa [← Binary.side_eq_one_iff, ← heq, Binary.side_eq_one_iff]
      rw [hy, if_neg Bool.false_ne_true, if_neg Bool.false_ne_true]
      split
      case isTrue hequals =>
        exact (Int.compare_eq_eq.mpr (Binary.equals_iff.mp hequals).2.2).symm
      case isFalse hne =>
        exact Binary.totalCompare_of_ne fun hunits => hne (Binary.equals_iff.mpr ⟨hx, hy, hunits⟩)
    | true =>
      have hy : y.isNaN = true := by
        by_contra hnumber
        have hone := Binary.side_eq_one_iff.mpr (Bool.eq_false_iff.mpr hnumber)
        rw [← heq, Binary.side_eq_one_iff, hx] at hone
        cases hone
      rw [hy, if_pos rfl, if_pos rfl, if_neg]
      · rfl
      · intro hequals
        rw [(Binary.equals_iff.mp hequals).1] at hx
        cases hx
  · rw [if_neg fun hequals => Nat.ne_of_gt hgt (hside hequals), Nat.compare_eq_gt.mpr hgt]
    exact Int.compare_eq_gt.mpr (Binary.totalRank_lt_of_side hgt)

/-- All comparators agree with the order of the positions. -/
theorem compare_eq_position (a b : SortKey) :
    compare a b = Position.compare a.position b.position := by
  cases a with
  | bool a =>
    cases b with
    | bool b => cases a <;> cases b <;> rfl
    | int b => rfl
    | float b => rfl
    | text b => rfl
  | int a =>
    cases b with
    | bool b => rfl
    | int b =>
      rw [position, position, Position.compare_number, Nat.compare_eq_eq.mpr rfl, Ordering.eq_then]
      have hpos : (0 : Int) < double.one := Int.natCast_pos.mpr double.one_pos
      exact Binary.compare_congr (Int.mul_lt_mul_right hpos).symm (Int.mul_lt_mul_right hpos).symm
    | float b => exact compareIntFloat_eq a b
    | text b => rfl
  | float a =>
    cases b with
    | bool b => rfl
    | int b =>
      rw [compare, compareIntFloat_eq]
      exact Std.OrientedCmp.eq_swap.symm
    | float b => exact compareFloats_eq a b
    | text b => rfl
  | text a =>
    cases b with
    | bool b => rfl
    | int b => rfl
    | float b => rfl
    | text b => rfl

instance : Std.TransCmp compare := by
  have hposition : compare = fun a b => Position.compare a.position b.position :=
    funext fun a => funext fun b => compare_eq_position a b
  rw [hposition]
  exact transCmp_on inferInstance position

/-- Integers compare by value. -/
theorem isLE_compare_int (a b : Int64) :
    (compare (.int a) (.int b)).isLE ↔ a.toInt ≤ b.toInt :=
  Int.isLE_compare

end SortKey

end ScatterGather
