import ScatterGather.Access.Operation

/-!
# Merging concurrent results

The bookkeeping of one concurrent call. Outcomes arrive in any order, each with the position at
which its shard was dispatched. In shard order a result waits until those of all earlier positions
are in; in completion order it is fed at once. After a failure nothing more is fed, but what
completed and what failed is still recorded, by position.
-/

namespace ScatterGather

/-- The order in which concurrent results are fed to the exit strategy. -/
inductive MergeOrder where
  | shardOrder
  | completion
deriving DecidableEq, Repr

namespace MergeOrder

def inspect : MergeOrder → String
  | shardOrder => "ShardOrder"
  | completion => "Completion"

/-- The order of a given name, in any case and with blanks around it. -/
def read (text : List Char) : Except ShardError MergeOrder :=
  let name := String.ofList (Text.canonicalName text)
  match name with
  | "shard" | "shard_order" => .ok shardOrder
  | "completion" => .ok completion
  | _ => .error (.configuration ("unknown merge order `" ++ name ++ "`"))

end MergeOrder

/-- Insert by position into a list that is in order of position. -/
def insertAt {α : Type} (position : Nat) (x : α) : List (Nat × α) → List (Nat × α)
  | [] => [(position, x)]
  | (p, y) :: rest =>
    if p < position then (p, y) :: insertAt position x rest else (position, x) :: (p, y) :: rest

/-- The outcome of one shard, as it arrives. -/
structure Arrival (T : Type) where
  position : Nat
  shard : Shard
  outcome : Except Mishap (Option T)

structure Merger (T : Type) where
  order : MergeOrder
  /-- Results that wait for earlier ones, by position. -/
  pending : List (Nat × Shard × Option T)
  /-- The position whose result is fed next. -/
  next : Nat
  completed : List (Nat × ShardId)
  failures : List (Nat × ShardFailure)

namespace Merger

variable {ω σ T O : Type} [Journaled ω]

def start (order : MergeOrder) : Merger T :=
  ⟨order, [], 0, [], []⟩

/-- Feed the results at the front of the queue as long as they are next in turn. -/
def drain (strategy : ExitStrategy σ T O) (operation : String) :
    List (Nat × Shard × Option T) → Nat → σ → ω →
      Except ShardError Bool × List (Nat × Shard × Option T) × Nat × σ × ω
  | [], next, exit, world => (.ok false, [], next, exit, world)
  | (position, shard, result) :: rest, next, exit, world =>
    if position = next then
      match feed strategy operation shard result exit world with
      | (.ok false, exit, world) => drain strategy operation rest (next + 1) exit world
      | (answer, exit, world) => (answer, rest, next + 1, exit, world)
    else (.ok false, (position, shard, result) :: rest, next, exit, world)

def accept (strategy : ExitStrategy σ T O) (operation : String) (merger : Merger T)
    (position : Nat) (shard : Shard) (result : Option T) (exit : σ) (world : ω) :
    Except ShardError Bool × Merger T × σ × ω :=
  let merger := { merger with completed := insertAt position shard.physicalId merger.completed }
  -- After a failure a result still completes its shard, but is not fed any more.
  if !merger.failures.isEmpty then (.ok false, merger, exit, world)
  else
    match merger.order with
    | .completion =>
      let (answer, exit, world) := feed strategy operation shard result exit world
      (answer, merger, exit, world)
    | .shardOrder =>
      let (answer, pending, next, exit, world) :=
        drain strategy operation (insertAt position (shard, result) merger.pending) merger.next
          exit world
      (answer, { merger with pending := pending, next := next }, exit, world)

def fail (merger : Merger T) (position : Nat) (failure : ShardFailure) : Merger T :=
  { merger with failures := insertAt position failure merger.failures }

/-- The error of a call in which something failed. -/
def error? (merger : Merger T) (operation : String) : Option ShardError :=
  if merger.failures.isEmpty then none
  else
    some (.operationFailure operation (merger.failures.map (·.2)) (merger.completed.map (·.2)))

end Merger

/-- The text that a failed operation leaves behind. -/
def Mishap.source : Mishap → String
  | .failed source => source
  | .panicked payload => "operation panicked: " ++ payload.getD "unknown panic"

end ScatterGather
