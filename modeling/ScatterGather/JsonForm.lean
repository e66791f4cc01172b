import ScatterGather.Cluster.State
import ScatterGather.Collect.Collector
import ScatterGather.Config
import ScatterGather.Exit.Aggregate
import ScatterGather.Text.Quoted

/-!
# JSON forms

How the settings and the keys of this library are written in JSON, and read back. A value of an
enumeration is a string with its name; an object whose only member is that name, with null, is read
as well. A sort criterion is an object, or an array of its fields in order.
-/

namespace ScatterGather

/-- A type with a JSON form. -/
class JsonForm (α : Type) where
  ofDocument? : Json.Document → Option α
  json : α → String
  /-- The value as it is inspected. -/
  inspect : α → String

/-- An enumeration whose values have names. -/
class Named (α : Type) where
  /-- The values of the enumeration. -/
  all : List α
  /-- The name of a value. -/
  name : α → String

namespace Named

variable {α : Type} [Named α]

def ofName? (name : String) : Option α :=
  (all : List α).find? fun value => Named.name value == name

def ofDocument? : Json.Document → Option α
  | .string raw => (Json.text? raw).bind ofName?
  | .object [(key, .null)] => (Json.text? key).bind ofName?
  | _ => none

def json (value : α) : String :=
  Json.quote (name value)

end Named

/-! ## Settings -/

instance : JsonForm ShardId :=
  ⟨ShardId.ofDocument?, ShardId.text, ShardId.inspect⟩

instance : JsonForm VirtualMap :=
  ⟨VirtualMap.ofDocument?, VirtualMap.json, VirtualMap.inspect⟩

instance : Named AccessKind where
  all := [.sequential, .parallel]
  name
    | .sequential => "sequential"
    | .parallel => "parallel"

instance : JsonForm AccessKind := ⟨Named.ofDocument?, Named.json, AccessKind.inspect⟩

instance : Named OrderingKind where
  all := [.input, .roundRobin, .random]
  name
    | .input => "input"
    | .roundRobin => "round_robin"
    | .random => "random"

instance : JsonForm OrderingKind := ⟨Named.ofDocument?, Named.json, OrderingKind.inspect⟩

instance : Named MergeOrder where
  all := [.shardOrder, .completion]
  name
    | .shardOrder => "shard_order"
    | .completion => "completion"

instance : JsonForm MergeOrder := ⟨Named.ofDocument?, Named.json, MergeOrder.inspect⟩

instance : Named AggregateFunction where
  all := [.sum, .count, .min, .max, .avg]
  name
    | .sum => "sum"
    | .count => "count"
    | .min => "min"
    | .max => "max"
    | .avg => "avg"

instance : JsonForm AggregateFunction := ⟨Named.ofDocument?, Named.json, AggregateFunction.inspect⟩

/-! ## Statuses -/

instance : Named TransactionStatus where
  all := [.created, .active, .committed, .failedCommit, .rolledBack]
  name
    | .created => "created"
    | .active => "active"
    | .committed => "committed"
    | .failedCommit => "failed_commit"
    | .rolledBack => "rolled_back"

instance : JsonForm TransactionStatus := ⟨Named.ofDocument?, Named.json, TransactionStatus.inspect⟩

instance : Named CompletionStatus where
  all := [.committed, .rolledBack, .unknown]
  name
    | .committed => "committed"
    | .rolledBack => "rolled_back"
    | .unknown => "unknown"

instance : JsonForm CompletionStatus := ⟨Named.ofDocument?, Named.json, CompletionStatus.inspect⟩

/-! ## Sorting -/

instance : Named SortDirection where
  all := [.ascending, .descending]
  name := SortDirection.inspect

instance : JsonForm SortDirection := ⟨Named.ofDocument?, Named.json, SortDirection.inspect⟩

namespace SortOrder

/-- The members of a criterion that were read so far. -/
structure Partial where
  path : Option String
  direction : Option SortDirection

/-- Read one member. A member with another name is passed over; one that occurs again is wrong. -/
def Partial.step? (read : Partial) (member : List Char × Json.Document) : Option Partial := do
  let name ← Json.text? member.1
  if name = "path" then
    match read.path, member.2 with
    | none, .string raw => (Json.text? raw).map fun path => { read with path := some path }
    | _, _ => none
  else if name = "direction" then
    match read.direction, Named.ofDocument? member.2 with
    | none, some direction => some { read with direction := some direction }
    | _, _ => none
  else some read

def ofDocument? : Json.Document → Option SortOrder
  | .object members => do
    let read ← members.foldlM Partial.step? ⟨none, none⟩
    return ⟨← read.path, ← read.direction⟩
  | .array [.string raw, direction] => do
    return ⟨← Json.text? raw, ← Named.ofDocument? direction⟩
  | _ => none

def json (order : SortOrder) : String :=
  "\x7b\"path\":" ++ Json.quote order.path ++ ",\"direction\":"
    ++ Json.quote order.direction.inspect ++ "\x7d"

def inspect (order : SortOrder) : String :=
  "Order \x7b path: " ++ Text.inspect order.path ++ ", direction: " ++ order.direction.inspect
    ++ " \x7d"

end SortOrder

instance : JsonForm SortOrder :=
  ⟨SortOrder.ofDocument?, SortOrder.json, SortOrder.inspect⟩

namespace SortKey

def ofDocument? (document : Json.Document) : Option SortKey :=
  (Json.ofDocument? document).bind ofJson?

def json : SortKey → String
  | .bool value => if value then "true" else "false"
  | .int value => Text.ofInt value.toInt
  | .float value => value.write .json
  | .text value => Json.quote value

def inspect : SortKey → String
  | .bool value => "Bool(" ++ (if value then "true" else "false") ++ ")"
  | .int value => "Int(" ++ Text.ofInt value.toInt ++ ")"
  | .float value => "Float(" ++ value.write .inspected ++ ")"
  | .text value => "Text(" ++ Text.inspect value ++ ")"

end SortKey

instance : JsonForm SortKey :=
  ⟨SortKey.ofDocument?, SortKey.json, SortKey.inspect⟩

/-- A value of the type that a JSON text is read as. -/
def JsonForm.parse? (α : Type) [JsonForm α] (text : List Char) : Option α :=
  (Json.Document.parse? text).bind ofDocument?

end ScatterGather
