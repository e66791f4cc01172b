import ScatterGather.Binary.Arithmetic
import ScatterGather.Exit.Strategy
import ScatterGather.Text.Blank

/-!
# Aggregation

Folds numbers of the shards into a sum, a count, an extreme or an average. Nulls are skipped and
nothing stops the call. Only a sum can fail while results are added: it is kept in the result type
and leaves its range. The average is formed in double precision and then brought back.
-/

namespace ScatterGather

/-- A range of integers around zero. -/
structure IntRange where
  lo : Int
  hi : Int
  lo_nonpos : lo ≤ 0
  hi_nonneg : 0 ≤ hi

namespace IntRange

def signed32 : IntRange := ⟨Int32.minValue.toInt, Int32.maxValue.toInt, by decide, by decide⟩

def signed64 : IntRange := ⟨Int64.minValue.toInt, Int64.maxValue.toInt, by decide, by decide⟩

def unsigned32 : IntRange := ⟨0, UInt32.size - 1, by decide, by decide⟩

def unsigned64 : IntRange := ⟨0, UInt64.size - 1, by decide, by decide⟩

end IntRange

structure Bounded (r : IntRange) where
  val : Int
  lo_le : r.lo ≤ val
  le_hi : val ≤ r.hi
deriving DecidableEq

namespace Bounded

variable {r : IntRange}

/-- The integer `n`, if it lies in the range. -/
def ofInt? (n : Int) : Option (Bounded r) :=
  if h : r.lo ≤ n ∧ n ≤ r.hi then some ⟨n, h.1, h.2⟩ else none

def zero : Bounded r :=
  ⟨0, r.lo_nonpos, r.hi_nonneg⟩

end Bounded

/-- A type of numbers that can be aggregated. -/
class Aggregable (α : Type) where
  /-- The empty sum. -/
  zero : α
  /-- The sum of two numbers, if it fits. -/
  add? : α → α → Option α
  /-- The number of results, if it fits. -/
  ofCount? : Nat → Option α
  /-- The nearest number in double precision. -/
  toDouble : α → Double
  /-- Back from double precision. -/
  ofDouble : Double → α
  /-- Less than. -/
  lt : α → α → Bool

instance (r : IntRange) : Aggregable (Bounded r) where
  zero := .zero
  add? := fun a b => Bounded.ofInt? (a.val + b.val)
  ofCount? := fun n => Bounded.ofInt? n
  toDouble := fun a => Binary.ofInt a.val
  ofDouble := fun x => (Bounded.ofInt? (x.truncate r.lo r.hi)).getD .zero
  lt := fun a b => decide (a.val < b.val)

instance (f : Format) : Aggregable (Binary f) where
  zero := .zero
  add? := fun a b => some (a.add b)
  ofCount? := fun n => some (.ofInt n)
  toDouble := Binary.convert
  ofDouble := Binary.convert
  lt := Binary.lt

/-- What is computed over the results. -/
inductive AggregateFunction where
  | sum
  | count
  | min
  | max
  | avg
deriving DecidableEq, Repr

structure Tally (α : Type) where
  sum : α
  doubleSum : Double
  count : Nat
  min : Option α
  max : Option α
deriving DecidableEq

namespace Tally

variable {α : Type} [Aggregable α]

def empty : Tally α :=
  ⟨Aggregable.zero, .zero, 0, none, none⟩

/-- The extreme so far and one more value. The first value stays until a later one beats it. -/
def extreme (beats : α → α → Bool) (best : Option α) (value : α) : Option α :=
  match best with
  | none => some value
  | some best => if beats value best then some value else some best

/-- Add a value, `sum` being the new sum. -/
def withValue (tally : Tally α) (value sum : α) : Tally α where
  sum := sum
  doubleSum := tally.doubleSum.add (Aggregable.toDouble value)
  count := tally.count + 1
  min := extreme Aggregable.lt tally.min value
  max := extreme (fun a b => Aggregable.lt b a) tally.max value

/-- A value too many for the sum. -/
def sumOverflow : ShardError :=
  .overflow "sum of shard results does not fit the result type"

/-- Add a value. Only a sum can overflow, and then nothing of the value is kept. -/
def add (fn : AggregateFunction) (tally : Tally α) (value : α) :
    Except ShardError (Tally α) :=
  match fn with
  | .sum =>
    match Aggregable.add? tally.sum value with
    | some sum => .ok (tally.withValue value sum)
    | none => .error sumOverflow
  | _ => .ok (tally.withValue value tally.sum)

def compile (fn : AggregateFunction) (tally : Tally α) : Except ShardError (Option α) :=
  match fn with
  | .sum => .ok (some tally.sum)
  | .count =>
    match Aggregable.ofCount? tally.count with
    | some count => .ok (some count)
    | none =>
      .error (.overflow
        ("count " ++ Text.ofNat tally.count ++ " does not fit the result type"))
  | .min => .ok tally.min
  | .max => .ok tally.max
  | .avg =>
    if tally.count = 0 then .ok none
    else .ok (some (Aggregable.ofDouble (tally.doubleSum.div (Binary.ofInt tally.count))))

end Tally

namespace AggregateFunction

def inspect : AggregateFunction → String
  | sum => "Sum"
  | count => "Count"
  | min => "Min"
  | max => "Max"
  | avg => "Avg"

/-- The function of a given name, in any case and with blanks around it. -/
def read (text : List Char) : Except ShardError AggregateFunction :=
  let name := String.ofList (Text.canonicalName text)
  match name with
  | "sum" => .ok sum
  | "count" => .ok count
  | "min" => .ok min
  | "max" => .ok max
  | "avg" => .ok avg
  | _ => .error (.configuration ("unknown aggregate function `" ++ name ++ "`"))

/-- The strategy that aggregates numbers of type `α`. -/
def strategy {α : Type} [Aggregable α] (fn : AggregateFunction) :
    ExitStrategy (Tally α) α (Option α) where
  add := fun tally result shard =>
    match shard, result with
    | none, _ => (.error shardRequired, tally)
    | some _, none => (.ok false, tally)
    | some _, some value =>
      match tally.add fn value with
      | .ok tally => (.ok false, tally)
      | .error e => (.error e, tally)
  compile := fun tally => (tally.compile fn, tally)

end AggregateFunction

end ScatterGather
