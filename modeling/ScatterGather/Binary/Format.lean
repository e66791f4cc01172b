/-!
# Binary interchange formats

A floating-point number is kept as its bit pattern, so that both zeros and every NaN stay apart.
What a pattern stands for is read off as an integer: each finite number of a format is a whole
number of its least positive number, the `unit`, and `units` is that whole number. Comparison,
rounding and arithmetic are then exact integer arithmetic.
-/

namespace ScatterGather

/-- A binary interchange format: the widths of its fraction and exponent fields. -/
structure Format where
  fractionBits : Nat
  exponentBits : Nat
deriving DecidableEq, Repr

namespace Format

/-- Double precision, 64 bits. -/
def double : Format := ⟨52, 11⟩

/-- Single precision, 32 bits. -/
def single : Format := ⟨23, 8⟩

/-- How many bits a number takes; the first is its sign. -/
def width (f : Format) : Nat :=
  1 + f.exponentBits + f.fractionBits

/-- The least positive number is two to the power of minus this. -/
def unitExponent (f : Format) : Nat :=
  Nat.pow 2 (f.exponentBits - 1) - 2 + f.fractionBits

/-- The pattern of infinity, the sign bit apart. Every pattern above it is a NaN. -/
def infinity (f : Format) : Nat :=
  (Nat.pow 2 f.exponentBits - 1) * Nat.pow 2 f.fractionBits

/-- How many units the number with this pattern (the sign bit apart) has. For the pattern of
infinity it is the number that would come next after the greatest finite one. -/
def units (f : Format) (pattern : Nat) : Nat :=
  let exponent := pattern / Nat.pow 2 f.fractionBits
  let fraction := pattern % Nat.pow 2 f.fractionBits
  if exponent = 0 then fraction
  else (Nat.pow 2 f.fractionBits + fraction) * Nat.pow 2 (exponent - 1)

end Format

structure Binary (f : Format) where
  bits : BitVec f.width
deriving DecidableEq

abbrev Double := Binary .double

abbrev Single := Binary .single

namespace Binary

variable {f : Format}

def isNegative (x : Binary f) : Bool :=
  Nat.pow 2 (f.exponentBits + f.fractionBits) ≤ x.bits.toNat

def pattern (x : Binary f) : Nat :=
  x.bits.toNat % Nat.pow 2 (f.exponentBits + f.fractionBits)

/-- The number with the given sign and pattern. -/
def ofPattern (negative : Bool) (pattern : Nat) : Binary f :=
  ⟨BitVec.ofNat _ (pattern + if negative then Nat.pow 2 (f.exponentBits + f.fractionBits) else 0)⟩

/-- Whether this is no number. -/
def isNaN (x : Binary f) : Bool :=
  f.infinity < x.pattern

def isInfinite (x : Binary f) : Bool :=
  x.pattern = f.infinity

/-- The signed number of units. An infinity counts as the number that would follow the greatest
finite one, and so lies beyond all of these; of a NaN it says nothing. -/
def units (x : Binary f) : Int :=
  if x.isNegative then -(f.units x.pattern : Int) else f.units x.pattern

/-- A NaN with a clear sign bit. -/
def nan : Binary f :=
  ofPattern false (f.infinity + Nat.pow 2 (f.fractionBits - 1))

def infinite (negative : Bool) : Binary f :=
  ofPattern negative f.infinity

/-- Zero with a clear sign bit. -/
def zero : Binary f :=
  ofPattern false 0

def neg (x : Binary f) : Binary f :=
  ofPattern (!x.isNegative) x.pattern

/-! ## Comparison -/

/-- Less than, as numbers: false as soon as one side is a NaN, and the two zeros are equal. -/
def lt (x y : Binary f) : Bool :=
  !x.isNaN && !y.isNaN && decide (x.units < y.units)

def le (x y : Binary f) : Bool :=
  !x.isNaN && !y.isNaN && decide (x.units ≤ y.units)

def equals (x y : Binary f) : Bool :=
  !x.isNaN && !y.isNaN && decide (x.units = y.units)

/-- Where a number stands in the total order of all bit patterns, which goes by the pattern, and by
its reverse where the sign bit is set. -/
def totalRank (x : Binary f) : Int :=
  if x.isNegative then -(x.pattern : Int) - 1 else x.pattern

/-- How two numbers compare in the total order of all bit patterns. -/
def totalCompare (x y : Binary f) : Ordering :=
  compare x.totalRank y.totalRank

end Binary

end ScatterGather
