import ScatterGather.Call.Action
import ScatterGather.Call.Plan

/-!
# Reports

What can be told about one call: its result, every result that was given to the exit strategy, when
operations started and ended, and which shard the result came from.
-/

namespace ScatterGather

structure Call where
  request : Request
  exit : ExitKind
  /-- After how many results to stop, whatever the exit strategy says. -/
  stopAfter : Option Nat
  adjustment : Option Adjustment

/-- What can be told about a call. -/
structure Report where
  result : Except CallError (Option Item)
  /-- The results in the order in which they were added, with their shards. -/
  merged : List (ShardId × Option Item)
  trace : List Mark
  winner : Option ShardId

namespace Call

def plan (call : Call) : Plan :=
  call.exit.plan

/-- The exit strategy of a call, which keeps what is added to it. -/
def strategy (call : Call) :
    ExitStrategy (ExitStrategy.Recording call.plan.State call.plan.Result) call.plan.Result
      call.plan.Output :=
  call.plan.strategy.recorded call.stopAfter

/-- The state of the exit strategy at the beginning. -/
def initial (call : Call) : ExitStrategy.Recording call.plan.State call.plan.Result :=
  ⟨call.plan.initial, []⟩

def operation (call : Call) : Operation Cluster call.plan.Result :=
  call.request.operation call.plan.read?

def collector (call : Call) : Option (Collector call.plan.Output) :=
  call.adjustment.map call.plan.collector

def report (call : Call) (outcome : Outcome Cluster
    (ExitStrategy.Recording call.plan.State call.plan.Result) call.plan.Output) : Report where
  result := outcome.result.map call.plan.outputItem?
  merged := outcome.exit.added.reverse.map fun (shard, result) =>
    (shard.physicalId, result.map call.plan.resultItem)
  trace := outcome.trace
  winner := (call.plan.winner? outcome.exit.state).map (·.physicalId)

/-- Make a call on the given shards. -/
def onShards (call : Call) (strategy : AccessStrategy) (shards : List Shard) (w : Cluster) :
    Report × AccessStrategy × Cluster :=
  let (outcome, strategy) :=
    strategy.apply shards call.operation call.strategy call.collector call.initial w
  (call.report outcome, strategy, outcome.world)

/-- Make a call through a session, on the shards that serve the given ids or on all. -/
def onSession (call : Call) (strategy : AccessStrategy) (session : Nat)
    (ids : Option (List ShardId)) (w : Cluster) : Report × AccessStrategy × Cluster :=
  let (outcome, strategy) :=
    w.execute session strategy ids call.operation call.strategy call.collector call.initial
  (call.report outcome, strategy, outcome.world)

end Call

end ScatterGather
