import ScatterGather.Binary.Shortest
import ScatterGather.Text.Decimal
import ScatterGather.Text.Hexadecimal

/-!
# Written forms of a floating-point number

All written forms show the shortest decimal that reads back. They differ only in the decisions
gathered in `NumberStyle`: where positional notation ends, how an exponent is written, whether a
whole number keeps its `.0`, and which way a tie between two shortest decimals goes.
-/

namespace ScatterGather

/-- The decisions of one written form. -/
structure NumberStyle where
  /-- The exponents of the leading digit that are written positionally; all when absent. -/
  positional : Option (Int × Int)
  /-- Whether a whole number written positionally ends in `.0`. -/
  keepsPoint : Bool
  /-- Whether a positive exponent has a plus sign. -/
  plusSign : Bool
  /-- Whether the greater of two equally near shortest decimals is taken, rather than the even. -/
  tiesUp : Bool
  /-- The text of a NaN. -/
  nan : String
  /-- The text of positive infinity. -/
  infinity : String
  /-- The text of negative infinity. -/
  minusInfinity : String

namespace NumberStyle

/-- For reading: always positional, and a whole number looks like an integer. -/
def plain : NumberStyle :=
  ⟨none, false, false, true, "NaN", "inf", "-inf"⟩

/-- For inspecting: always recognisable as a float, positional from `1e-4` up to below `1e16`. -/
def inspected : NumberStyle :=
  ⟨some (-4, 15), true, false, true, "NaN", "inf", "-inf"⟩

/-- In JSON: positional from `1e-5` up to below `1e16`, and `null` where JSON has no number. -/
def json : NumberStyle :=
  ⟨some (-5, 15), true, true, false, "null", "null", "null"⟩

end NumberStyle

def zeros (count : Nat) : List Char :=
  List.replicate count '0'

def Decimal.positional (keepsPoint : Bool) (d : Decimal) : List Char :=
  let digits := Text.digits d.digits
  let whole : Int := digits.length + d.exponent
  if 0 ≤ d.exponent then
    digits ++ zeros d.exponent.toNat ++ if keepsPoint then ['.', '0'] else []
  else if 0 < whole then digits.take whole.toNat ++ '.' :: digits.drop whole.toNat
  else '0' :: '.' :: zeros (-whole).toNat ++ digits

/-- A decimal with one digit before the point and an exponent. -/
def Decimal.scientific (plusSign : Bool) (d : Decimal) : List Char :=
  let digits := Text.digits d.digits
  let exponent : Int := digits.length - 1 + d.exponent
  let point := if digits.length = 1 then [] else ['.']
  let sign := if exponent < 0 then ['-'] else if plusSign then ['+'] else []
  digits.take 1 ++ point ++ digits.drop 1 ++ 'e' :: sign ++ Text.digits exponent.natAbs

def Decimal.write (style : NumberStyle) (d : Decimal) : List Char :=
  let leading : Int := (Text.digits d.digits).length - 1 + d.exponent
  match style.positional with
  | none => d.positional style.keepsPoint
  | some (least, greatest) =>
    if least ≤ leading ∧ leading ≤ greatest then d.positional style.keepsPoint
    else d.scientific style.plusSign

def Binary.write {f : Format} (style : NumberStyle) (x : Binary f) : String :=
  if x.isNaN then style.nan
  else if x.isInfinite then if x.isNegative then style.minusInfinity else style.infinity
  else
    let body := if x.pattern = 0 then
        Decimal.positional style.keepsPoint ⟨0, 0⟩
      else (f.shortest style.tiesUp x.pattern).write style
    String.ofList (if x.isNegative then '-' :: body else body)

/-- The number with a bit pattern that is written in hexadecimal at full width. -/
def Binary.ofHex? {f : Format} (digits : List Char) : Option (Binary f) :=
  if digits.length = f.width / 4 then (Text.readHex? digits).map fun n => ⟨BitVec.ofNat _ n⟩
  else none

/-- The bit pattern in hexadecimal, at full width. -/
def Binary.hex {f : Format} (x : Binary f) : String :=
  let digits := Nat.toDigits 16 x.bits.toNat
  String.ofList (zeros (f.width / 4 - digits.length) ++ digits)

end ScatterGather
