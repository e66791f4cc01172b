import ScatterGather.Binary.Format

/-!
# Rounding and arithmetic

Every operation computes its result exactly, as a ratio of natural numbers, and rounds it once to
the nearest number of the format; of two nearest ones the one with an even pattern is taken. What
lies half a step or more above the greatest finite number becomes infinite.
-/

namespace ScatterGather

/-- The whole number nearest to `num / den`, the even one of two. -/
def roundHalfEven (num den : Nat) : Nat :=
  let quotient := num / den
  let twice := 2 * (num % den)
  if twice < den then quotient
  else if den < twice then quotient + 1
  else quotient + quotient % 2

/-- The pattern nearest to `num / den` units. A significand has one bit more than the fraction
field, so that many leading bits of the quotient are kept; adding the significand to the shifted
exponent lets a carry move on into the exponent. -/
def Format.nearest (f : Format) (num den : Nat) : Nat :=
  let shift := (num / den).log2 - f.fractionBits
  min f.infinity (shift * Nat.pow 2 f.fractionBits + roundHalfEven num (den * Nat.pow 2 shift))

/-- The pattern whose number is that of the given one without its fraction: the trailing bits that
count for less than one are cleared, and below one nothing is left. -/
def Format.integral (f : Format) (pattern : Nat) : Nat :=
  let below := f.unitExponent + 1 - pattern / Nat.pow 2 f.fractionBits
  if f.fractionBits < below then 0
  else pattern / Nat.pow 2 below * Nat.pow 2 below

namespace Binary

variable {f g : Format}

/-- The number nearest to `num / den` units, with the given sign. -/
def ofRatio (negative : Bool) (num den : Nat) : Binary f :=
  ofPattern negative (f.nearest num den)

def ofInt (n : Int) : Binary f :=
  ofRatio (decide (n < 0)) (n.natAbs * Nat.pow 2 f.unitExponent) 1

/-- The number nearest to `coefficient * 10 ^ exponent`. Beyond 400 powers of ten in either
direction every format here overflows or vanishes, so larger exponents need no exact value. -/
def ofDecimal (negative : Bool) (coefficient : Nat) (exponent : Int) : Binary f :=
  let size : Int := exponent + (Nat.toDigits 10 coefficient).length
  if coefficient = 0 ∨ size < -400 then ofPattern negative 0
  else if 400 < size then infinite negative
  else if 0 ≤ exponent then
    ofRatio negative (coefficient * Nat.pow 10 exponent.toNat * Nat.pow 2 f.unitExponent) 1
  else ofRatio negative (coefficient * Nat.pow 2 f.unitExponent) (Nat.pow 10 (-exponent).toNat)

/-- The number of another format nearest to `x`. -/
def convert (x : Binary f) : Binary g :=
  if x.isNaN then nan
  else if x.isInfinite then infinite x.isNegative
  else ofRatio x.isNegative (x.units.natAbs * Nat.pow 2 g.unitExponent) (Nat.pow 2 f.unitExponent)

/-- The rounded sum. A sum of zero is negative only when both summands are. -/
def add (x y : Binary f) : Binary f :=
  if x.isNaN || y.isNaN then nan
  else if x.isInfinite then
    if y.isInfinite && x.isNegative != y.isNegative then nan else x
  else if y.isInfinite then y
  else
    let sum := x.units + y.units
    let negative := if sum = 0 then x.isNegative && y.isNegative else decide (sum < 0)
    ofRatio negative sum.natAbs 1

def div (x y : Binary f) : Binary f :=
  let negative := x.isNegative != y.isNegative
  if x.isNaN || y.isNaN then nan
  else if x.isInfinite then
    if y.isInfinite then nan else infinite negative
  else if y.isInfinite then ofPattern negative 0
  else if y.units = 0 then
    if x.units = 0 then nan else infinite negative
  else ofRatio negative (x.units.natAbs * Nat.pow 2 f.unitExponent) y.units.natAbs

/-- The number without its fraction. Its sign is kept, and so are infinities and NaNs. -/
def trunc (x : Binary f) : Binary f :=
  ofPattern x.isNegative (f.integral x.pattern)

/-- The integer between `lo` and `hi` that is left when the fraction of `x` is dropped: too great
and too small numbers go to the nearer bound, and a NaN goes to zero. -/
def truncate (lo hi : Int) (x : Binary f) : Int :=
  if x.isNaN then 0
  else max lo (min hi (x.units.tdiv (Nat.pow 2 f.unitExponent)))

end Binary

end ScatterGather
