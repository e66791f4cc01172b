import ScatterGather.Collect.Collector
import ScatterGather.Exit.Aggregate
import ScatterGather.Exit.Concatenate
import ScatterGather.Exit.First

/-!
# Plans

A plan is an exit strategy whose types are chosen when the program runs. It comes with a reader for
the results it takes, so that answers which are JSON values can be given to it, and with a view of
its results as items, so that they can be shown. There is a plan for the first result, one for
concatenated lists, and one for each aggregate function over each type of numbers.
-/

namespace ScatterGather

/-- A result as it is shown: a JSON value, or a number in single precision, which JSON has not. -/
inductive Item where
  | json (value : Json)
  | single (value : Single)

/-- The integer of a JSON value, if it lies in the range. -/
def Bounded.ofJson? {r : IntRange} : Json → Option (Bounded r)
  | .int value => ofInt? value
  | _ => none

/-- The float of a JSON value: the nearest in double precision, brought to the format, or the one
with the bit pattern that is given in place of a number. -/
def Binary.ofJson? {f : Format} : Json → Option (Binary f)
  | .int value => some (convert (ofInt value : Double))
  | .float value => some (convert value)
  | .object members =>
    match (Json.object members).member? "bits" with
    | some (.string digits) => ofHex? digits.toList
    | _ => none
  | _ => none

/-- The types of numbers that can be aggregated. -/
inductive NumberKind where
  | integer (range : IntRange)
  | double
  | single

namespace NumberKind

def Carrier : NumberKind → Type
  | integer range => Bounded range
  | double => Double
  | single => Single

instance : (kind : NumberKind) → Aggregable kind.Carrier
  | integer range => inferInstanceAs (Aggregable (Bounded range))
  | double => inferInstanceAs (Aggregable Double)
  | single => inferInstanceAs (Aggregable Single)

def read? : (kind : NumberKind) → Json → Option kind.Carrier
  | integer _, value => Bounded.ofJson? value
  | double, value => Binary.ofJson? value
  | single, value => Binary.ofJson? value

/-- A number as it is shown. -/
def item : (kind : NumberKind) → kind.Carrier → Item
  | integer _, number => .json (.int (Bounded.val number))
  | double, number => .json (.float number)
  | single, number => .single number

end NumberKind

/-- What is done to a compiled result. -/
inductive Adjustment where
  /-- Collect rows; it concerns lists. -/
  | rows (collector : RowCollector Json)
  /-- Put a value in place of a missing result. -/
  | replaceNull (value : Json)
  /-- Refuse any result. -/
  | reject (reason : String)

namespace Adjustment

/-- The collector for a result that may be missing. -/
def onOptional {T : Type} (read? : Json → Option T) (adjustment : Adjustment) :
    Collector (Option T) := fun compiled =>
  match adjustment with
  | .rows _ => .ok compiled
  | .replaceNull value => .ok (compiled <|> read? value)
  | .reject reason => .error (.invalidArgument reason)

def onList (adjustment : Adjustment) : Collector (List Json) := fun compiled =>
  match adjustment with
  | .rows collector => collector.apply compiled
  | .replaceNull _ => .ok compiled
  | .reject reason => .error (.invalidArgument reason)

end Adjustment

/-- An exit strategy together with its types. -/
structure Plan where
  Result : Type
  State : Type
  Output : Type
  strategy : ExitStrategy State Result Output
  /-- The state before any result is added. -/
  initial : State
  /-- The result of a JSON value. -/
  read? : Json → Option Result
  /-- A result as it is shown. -/
  resultItem : Result → Item
  /-- What was compiled as it is shown, unless it is missing. -/
  outputItem? : Output → Option Item
  /-- The shard that the result came from, if it came from one. -/
  winner? : State → Option Shard
  /-- The collector that makes an adjustment. -/
  collector : Adjustment → Collector Output

namespace Plan

def first : Plan where
  Result := Json
  State := First Json
  Output := Option Json
  strategy := First.strategy
  initial := .none
  read? := some
  resultItem := .json
  outputItem? := fun compiled => compiled.map .json
  winner? := First.winner?
  collector := Adjustment.onOptional some

def items? : Json → Option (List Json)
  | .array items => some items
  | _ => none

def concatenate : Plan where
  Result := List Json
  State := List Json
  Output := List Json
  strategy := Concatenate.strategy
  initial := []
  read? := items?
  resultItem := fun items => .json (.array items)
  outputItem? := fun items => some (.json (.array items))
  winner? := fun _ => none
  collector := Adjustment.onList

/-- The plan for an aggregate function over numbers of one type. -/
def aggregate (kind : NumberKind) (fn : AggregateFunction) : Plan where
  Result := kind.Carrier
  State := Tally kind.Carrier
  Output := Option kind.Carrier
  strategy := fn.strategy
  initial := .empty
  read? := kind.read?
  resultItem := kind.item
  outputItem? := fun compiled => compiled.map kind.item
  winner? := fun _ => none
  collector := Adjustment.onOptional kind.read?

end Plan

/-- The exit strategies that a call can ask for. -/
inductive ExitKind where
  | first
  | concatenate
  | aggregate (kind : NumberKind) (fn : AggregateFunction)

def ExitKind.plan : ExitKind → Plan
  | first => .first
  | concatenate => .concatenate
  | aggregate kind fn => .aggregate kind fn

end ScatterGather
