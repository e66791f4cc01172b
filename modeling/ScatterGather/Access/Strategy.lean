import ScatterGather.Access.Ordering
import ScatterGather.Access.Parallel
import ScatterGather.Access.Sequential

/-!
# Access strategies

How a call visits its shards: in which order, and one after the other or several at once. The
strategy is shared by the calls that use it, so a call also yields the strategy as the next one
finds it.
-/

namespace ScatterGather

/-- The machine that calls run on. -/
class Machine where
  /-- How many processors it reports. -/
  processors : Nat

/-- One processor, where nothing is known of the machine. -/
instance : Machine := ⟨1⟩

/-- How concurrent dispatch is set up. -/
structure ParallelAccess where
  ordering : ShardOrdering
  /-- How many operations may run at once; zero stands for the number of processors. -/
  maxConcurrency : Nat
  mergeOrder : MergeOrder
  [machine : Machine]

/-- The greatest number of operations that may be allowed to run at once. -/
def maxPermits : Nat := (UInt64.size - 1) >>> 3

namespace ParallelAccess

/-- How many operations may run at once. -/
def permits (access : ParallelAccess) : Nat :=
  if access.maxConcurrency = 0 then max access.machine.processors 1 else access.maxConcurrency

/-- What a call leaves behind that asks for too many permits. -/
def tooManyPermits : String :=
  "a semaphore may not have more than MAX_PERMITS permits (" ++ Text.ofNat maxPermits ++ ")"

end ParallelAccess

/-- A way to visit the shards of a call. -/
inductive AccessStrategy where
  | sequential (ordering : ShardOrdering)
  | parallel (access : ParallelAccess)

namespace AccessStrategy

variable {ω σ T O : Type} [Journaled ω]

/-- One after the other, as given. -/
def default : AccessStrategy :=
  .sequential .input

def ordering : AccessStrategy → ShardOrdering
  | sequential ordering => ordering
  | parallel access => access.ordering

def withOrdering (strategy : AccessStrategy) (ordering : ShardOrdering) : AccessStrategy :=
  match strategy with
  | sequential _ => sequential ordering
  | parallel access => parallel { access with ordering := ordering }

/-- What keeps a call from being dispatched at all. -/
def refusal? (strategy : AccessStrategy) (shards : List Shard) : Option CallError :=
  if shards.isEmpty then some (.shard noShards)
  else
    match strategy with
    | sequential _ => none
    | parallel access =>
      if maxPermits < access.permits then some (.panicked ParallelAccess.tooManyPermits) else none

/-- Dispatch over shards that are already in order. -/
def dispatch (strategy : AccessStrategy) (operation : Operation ω T)
    (exitStrategy : ExitStrategy σ T O) (collector : Option (Collector O)) (ordered : List Shard)
    (exit : σ) (world : ω) : Outcome ω σ O :=
  match strategy with
  | sequential _ => Sequential.visit operation exitStrategy collector ordered [] exit world
  | parallel access =>
    Parallel.dispatch operation exitStrategy collector access.permits access.mergeOrder ordered exit
      world

/-- Run an operation on shards and compile their results. -/
def apply (strategy : AccessStrategy) (shards : List Shard) (operation : Operation ω T)
    (exitStrategy : ExitStrategy σ T O) (collector : Option (Collector O)) (exit : σ) (world : ω) :
    Outcome ω σ O × AccessStrategy :=
  match strategy.refusal? shards with
  | some error => (⟨.error error, exit, world, []⟩, strategy)
  | none =>
    let (ordered, ordering) := strategy.ordering.order shards
    let strategy := strategy.withOrdering ordering
    match ordered with
    | .error e => (.failed e exit world [], strategy)
    | .ok ordered =>
      (strategy.dispatch operation exitStrategy collector ordered exit world, strategy)

def inspect : AccessStrategy → String
  | sequential ordering =>
    "Sequential(SequentialShardAccessStrategy \x7b ordering: " ++ ordering.inspect ++ " \x7d)"
  | parallel access =>
    "Parallel(ParallelShardAccessStrategy \x7b ordering: " ++ access.ordering.inspect
      ++ ", max_concurrency: " ++ Text.ofNat access.maxConcurrency
      ++ ", merge_order: " ++ access.mergeOrder.inspect ++ " \x7d)"

end AccessStrategy

end ScatterGather
