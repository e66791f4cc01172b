import ScatterGather.Binary.Text
import ScatterGather.Json.Value

/-!
# Sort keys

The keys that rows are sorted and told apart by, in a total order: booleans before numbers before
texts, numbers by their exact value whether they are integers or floats, and NaNs outside all numbers
on the side of their sign.
-/

namespace ScatterGather

inductive SortKey where
  | bool (value : Bool)
  | int (value : Int64)
  | float (value : Double)
  | text (value : String)
deriving DecidableEq

namespace SortKey

/-- The rank of a key's kind: 0 for a boolean, 1 for a number, 2 for a text. -/
def rank : SortKey → Nat
  | .bool _ => 0
  | .int _ | .float _ => 1
  | .text _ => 2

/-- Two to the power of 63, which is the first whole number beyond the signed 64-bit range. -/
def limit : Double :=
  Binary.ofInt (Nat.pow 2 63)

/-- How an integer compares to a float. It is compared to the whole part of the float, exactly; if
they are equal, the fraction decides. -/
def compareIntFloat (i : Int64) (x : Double) : Ordering :=
  if x.isNaN then if x.isNegative then .gt else .lt
  else
    let whole := x.trunc
    if limit.le whole then .lt
    else if whole.lt limit.neg then .gt
    else
      match Ord.compare i.toInt (whole.truncate Int64.minValue.toInt Int64.maxValue.toInt) with
      | .eq => whole.totalCompare x
      | order => order

/-- How two floats compare: by the total order of their bit patterns, but for the two zeros, which
both equal the integer 0. -/
def compareFloats (x y : Double) : Ordering :=
  if x.equals y then .eq else x.totalCompare y

/-- The order of the keys. -/
def compare : SortKey → SortKey → Ordering
  | .bool a, .bool b => Ord.compare a b
  | .int a, .int b => Ord.compare a.toInt b.toInt
  | .float a, .float b => compareFloats a b
  | .int a, .float b => compareIntFloat a b
  | .float a, .int b => (compareIntFloat b a).swap
  | .text a, .text b => Ord.compare a b
  | a, b => Ord.compare a.rank b.rank

def partialCompare (a b : SortKey) : Option Ordering :=
  some (compare a b)

def agrees (a b : SortKey) : Bool :=
  compare a b = .eq

/-- The key of a JSON value; null, arrays and objects have none. An integer beyond the signed
64-bit range becomes a float. -/
def ofJson? : Json → Option SortKey
  | .bool value => some (.bool value)
  | .int value =>
    if Int64.minValue.toInt ≤ value ∧ value ≤ Int64.maxValue.toInt then
      some (.int (Int64.ofInt value))
    else some (.float (Binary.ofInt value))
  | .float value => some (.float value)
  | .string value => some (.text value)
  | .null | .array _ | .object _ => none

/-- The key as it is read. -/
def plain : SortKey → String
  | .bool value => if value then "true" else "false"
  | .int value => Text.ofInt value.toInt
  | .float value => value.write .plain
  | .text value => value

end SortKey

end ScatterGather
