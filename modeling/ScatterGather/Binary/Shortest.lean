import ScatterGather.Binary.Format

/-!
# The shortest decimal that reads back

Among all decimals that round to a given number, the ones with the fewest digits, and of these the
one nearest to the number itself. The reals that round to a number form an interval around it,
whose ends belong to it exactly when the pattern is even. On each decimal grid, from coarse to
fine, only the two grid points next to the number can be the nearest, and the first grid with a
point in the interval is the answer.
-/

namespace ScatterGather

/-- The number `digits * 10 ^ exponent`. -/
structure Decimal where
  digits : Nat
  exponent : Int
deriving DecidableEq, Repr

namespace Decimal

/-- The least `k ≤ fuel` with `den ≤ num * 10 ^ k`, or `fuel`. -/
def scaleUp (den : Nat) : Nat → Nat → Nat
  | 0, _ => 0
  | fuel + 1, num => if den ≤ num then 0 else scaleUp den fuel (num * 10) + 1

/-- The exponent of the leading digit of `num / den`. -/
def leadingExponent (num den : Nat) : Int :=
  if den ≤ num then (Nat.toDigits 10 (num / den)).length - 1
  else -(scaleUp den 400 num : Int)

/-- A decimal without trailing zeros: at most `fuel` of them are dropped. -/
def strip : Nat → Decimal → Decimal
  | 0, d => d
  | fuel + 1, d =>
    if d.digits ≠ 0 ∧ d.digits % 10 = 0 then strip fuel ⟨d.digits / 10, d.exponent + 1⟩ else d

/-- An interval of positive reals around `value`, all three over the denominator `den`. -/
structure Interval where
  lower : Nat
  value : Nat
  upper : Nat
  den : Nat
  closed : Bool

/-- The nearest point of the grid `10 ^ exponent` that lies in the interval. With the interval's
ends and the grid brought to one denominator, the two candidates are the grid points on either
side of the value; `tiesUp` says which of them wins when they are equally near. -/
def onGrid? (tiesUp : Bool) (interval : Interval) (exponent : Int) : Option Nat :=
  let stretch := Nat.pow 10 (-exponent).toNat
  let step := interval.den * Nat.pow 10 exponent.toNat
  let value := interval.value * stretch
  let inside (point : Nat) : Bool :=
    if interval.closed then
      interval.lower * stretch ≤ point * step && point * step ≤ interval.upper * stretch
    else interval.lower * stretch < point * step && point * step < interval.upper * stretch
  let below := value / step
  let above := below + 1
  match inside below, inside above with
  | false, false => none
  | true, false => some below
  | false, true => some above
  | true, true =>
    let down := value - below * step
    let up := above * step - value
    if down < up then some below
    else if up < down then some above
    else some (if tiesUp then above else below + below % 2)

/-- The first hit on the grids with `count`, `count + 1`, … digits, at most `fuel` of them. -/
def search (tiesUp : Bool) (interval : Interval) (leading : Int) : Nat → Nat → Option Decimal
  | 0, _ => none
  | fuel + 1, count =>
    let exponent := leading + 1 - count
    match onGrid? tiesUp interval exponent with
    | some point => some (strip 400 ⟨point, exponent⟩)
    | none => search tiesUp interval leading fuel (count + 1)

end Decimal

/-- The reals that round to the positive number with this pattern, over half a unit. -/
def Format.rounding (f : Format) (pattern : Nat) : Decimal.Interval where
  lower := f.units (pattern - 1) + f.units pattern
  value := 2 * f.units pattern
  upper := f.units pattern + f.units (pattern + 1)
  den := Nat.pow 2 (f.unitExponent + 1)
  closed := pattern % 2 = 0

/-- The shortest decimal that reads back as the positive finite number with this pattern. In
double precision 17 digits always suffice. -/
def Format.shortest (f : Format) (tiesUp : Bool) (pattern : Nat) : Decimal :=
  let interval := f.rounding pattern
  let leading := Decimal.leadingExponent interval.value interval.den
  (Decimal.search tiesUp interval leading 17 1).getD ⟨0, 0⟩

end ScatterGather
