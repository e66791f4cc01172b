import ScatterGather.Json.Document
import ScatterGather.Ordered.Set
import ScatterGather.Text.Blank
import ScatterGather.Text.Decimal
import ScatterGather.Text.Split

/-!
# Shard ids

Physical and virtual shards are named by 64-bit numbers. An id is written in decimal; lists and
sets of ids are inspected with each id marked as such.
-/

namespace ScatterGather

/-- The id of a physical or a virtual shard. -/
structure ShardId where
  val : UInt64
deriving DecidableEq, Repr, Inhabited

namespace ShardId

instance : Ord ShardId := ⟨fun a b => compare a.val b.val⟩

theorem compare_eq (a b : ShardId) : compare a b = compare a.val b.val :=
  rfl

instance : Std.TransOrd ShardId where
  eq_swap := by
    simp only [compare_eq]
    exact Std.OrientedCmp.eq_swap
  isLE_trans := by
    simp only [compare_eq]
    exact Std.TransCmp.isLE_trans

instance : Std.LawfulEqOrd ShardId where
  compare_self := by
    simp only [compare_eq]
    exact Std.ReflCmp.compare_self
  eq_of_compare := fun {a b} h => by
    rw [compare_eq] at h
    have h : a.val = b.val := Std.LawfulEqCmp.eq_of_compare h
    cases a; cases b; simp_all

/-- One more than the greatest id. -/
def bound : Nat :=
  UInt64.size

def ofNat (n : Nat) : ShardId :=
  ⟨UInt64.ofNat n⟩

def toNat (id : ShardId) : Nat :=
  id.val.toNat

def text (id : ShardId) : String :=
  Text.ofNat id.toNat

/-- The id marked as a shard id. -/
def inspect (id : ShardId) : String :=
  "ShardId(" ++ id.text ++ ")"

/-- An id from its decimal text, with blanks around it. -/
def read (text : List Char) : Except Text.DecimalError ShardId :=
  (Text.readNat bound (Text.trim text)).map ofNat

def ofDocument? : Json.Document → Option ShardId
  | .number numeral => (numeral.nat? bound).map ofNat
  | _ => none

end ShardId

abbrev IdSet := Ordered.Set ShardId

/-- A list of ids in brackets. -/
def inspectIds (ids : List ShardId) : String :=
  "[" ++ Text.join ", " (ids.map ShardId.inspect) ++ "]"

/-- A set of ids in braces, ascending. -/
def inspectIdSet (ids : IdSet) : String :=
  "\x7b" ++ Text.join ", " (ids.toList.map ShardId.inspect) ++ "\x7d"

end ScatterGather
