import ScatterGather.Shard

/-!
# Exit strategies

An exit strategy turns the results of the shards of one call into one result. It is a state machine:
each result is added together with the shard it came from, the answer says whether no further shard
is needed, and at the end the state is compiled. A collector may then rework what was compiled.
-/

namespace ScatterGather

/-- A state machine that takes results of type `T` and compiles an `O`. -/
structure ExitStrategy (σ T O : Type) where
  /-- Add the result of a shard; `ok true` asks to stop. -/
  add : σ → Option T → Option Shard → Except ShardError Bool × σ
  /-- The compiled result; compiling may use up the state. -/
  compile : σ → Except ShardError O × σ

/-- A last step over a compiled result. -/
abbrev Collector (O : Type) := O → Except ShardError O

/-- A result must say which shard it came from. -/
def shardRequired : ShardError :=
  .invalidArgument "shard is required to add a result"

namespace ExitStrategy

variable {σ T O : Type}

/-- The compiled result, after the collector if there is one. -/
def compileWith (exit : ExitStrategy σ T O) (collector : Option (Collector O)) (state : σ) :
    Except ShardError O × σ :=
  let (compiled, state) := exit.compile state
  match collector with
  | none => (compiled, state)
  | some collector => (compiled.bind collector, state)

/-- A state together with every result that was added, last one first. -/
structure Recording (σ T : Type) where
  state : σ
  added : List (Shard × Option T)

/-- Keep every result that is added, also one whose addition fails. With `stopAfter`, ask to stop
as soon as that many were added. -/
def recorded (exit : ExitStrategy σ T O) (stopAfter : Option Nat) :
    ExitStrategy (Recording σ T) T O where
  add := fun recording result shard =>
    let added := match shard with
      | some shard => (shard, result) :: recording.added
      | none => recording.added
    let (answer, state) := exit.add recording.state result shard
    let enough := match stopAfter with
      | some limit => decide (limit ≤ added.length)
      | none => false
    (answer.map (· || enough), ⟨state, added⟩)
  compile := fun recording =>
    let (compiled, state) := exit.compile recording.state
    (compiled, { recording with state := state })

end ExitStrategy

end ScatterGather
