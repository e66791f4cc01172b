import ScatterGather.Cluster.Session
import ScatterGather.Json.Value

/-!
# Requests

A request names what a call does on each shard: answer with the shard's id, read or write rows of
its store, or look its outcome up in a table. What an action answers is a JSON value or null; an
operation reads it as the type of result that the exit strategy takes, and fails where it is not of
that type.
-/

namespace ScatterGather

/-- A prescribed outcome. -/
inductive Cell where
  | value (value : Json)
  | null
  | failed (reason : String)
  | panicked (payload : Option String)

def Cell.outcome : Cell → Except Mishap (Option Json)
  | .value json => .ok (some json)
  | .null => .ok none
  | .failed reason => .error (.failed reason)
  | .panicked payload => .error (.panicked payload)

/-- What is done on a shard. -/
inductive Action where
  /-- Answer with the shard's id. -/
  | id
  /-- Answer with a list of the shard's id alone. -/
  | ids
  /-- Write a row, by default the shard's id, and answer with the id. -/
  | put (key : String) (value : Option Json)
  /-- Delete a row, and answer with the shard's id. -/
  | delete (key : String)
  /-- Answer with a row; null if there is none. -/
  | get (key : String)
  /-- Answer with the rows whose key begins with `start`; null if there is none. -/
  | scan (start : String)
  /-- Answer with the number of rows whose key begins with `start`. -/
  | count (start : String)
  /-- Answer as the shard's cell prescribes, or as `fallback` does where it has none. -/
  | table (cells : List (ShardId × Cell)) (fallback : Cell)

namespace Action

/-- An id as an answer. -/
def idValue (id : ShardId) : Json :=
  .int id.toNat

/-- The answer of an access to rows, in the journal's words where it failed. -/
def answer {α : Type} (access : Except Cluster.RowError α × Cluster) (value : α → Option Json) :
    Except Mishap (Option Json) × Cluster :=
  ((access.1.map value).mapError fun e => .failed e.message, access.2)

def run (action : Action) (shard : Shard) (w : Cluster) : Except Mishap (Option Json) × Cluster :=
  let own := idValue shard.physicalId
  match action with
  | .id => (.ok (some own), w)
  | .ids => (.ok (some (.array [own])), w)
  | .put key value => answer (w.write shard key (some (value.getD own))) fun _ => some own
  | .delete key => answer (w.write shard key none) fun _ => some own
  | .get key => answer (w.get shard key) fun row => row
  | .scan start =>
    answer (w.scan shard start) fun rows =>
      if rows.isEmpty then none else some (.array (rows.map (·.2)))
  | .count start => answer (w.scan shard start) fun rows => some (.int rows.length)
  | .table cells fallback =>
    let cell := (cells.find? fun entry => entry.1 == shard.physicalId).map (·.2)
    ((cell.getD fallback).outcome, w)

end Action

/-- What a call does on each shard, under which name, and how long it takes where. -/
structure Request where
  name : String
  delays : List (ShardId × Nat)
  action : Action

namespace Request

def immediate (name : String) (action : Action) : Request :=
  ⟨name, [], action⟩

def delay (request : Request) (shard : Shard) : Nat :=
  ((request.delays.find? fun entry => entry.1 == shard.physicalId).map (·.2)).getD 0

/-- The failure of an answer that is not of the type that is asked for. -/
def wrongType : Mishap :=
  .failed "result has the wrong type"

/-- An answer read as a result. -/
def result {T : Type} (read? : Json → Option T) :
    Except Mishap (Option Json) → Except Mishap (Option T)
  | .error mishap => .error mishap
  | .ok none => .ok none
  | .ok (some value) =>
    match read? value with
    | some result => .ok (some result)
    | none => .error wrongType

/-- The operation of a request, with its answers read as results of type `T`. -/
def operation {T : Type} (request : Request) (read? : Json → Option T) : Operation Cluster T where
  name := request.name
  delay := request.delay
  run := fun shard w =>
    let (answer, w) := request.action.run shard w
    (result read? answer, w)

end Request

end ScatterGather
