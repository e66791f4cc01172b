import ScatterGather.Exit.Strategy
import ScatterGather.Journal

/-!
# Calls over shards

What the two ways of dispatch share: the operation that is run on each shard, how a result is fed
to the exit strategy, and what is left when a call is over. Dispatch is generic in the state `ω`
that the operation works on; all it does with that state itself is to keep its journal.
-/

namespace ScatterGather

/-- Why an operation gave no result. -/
inductive Mishap where
  | failed (source : String)
  /-- It was cut off; the payload is the text it left, if it left one. -/
  | panicked (payload : Option String)
deriving DecidableEq, Repr

/-- The work that a call does on each shard. -/
structure Operation (ω T : Type) where
  name : String
  /-- How long it takes on a shard; what it does is done at the end of that time. -/
  delay : Shard → Nat
  /-- What it does on a shard. A result may be null. -/
  run : Shard → ω → Except Mishap (Option T) × ω

/-- Something that happens in a call: an operation starts or ends, at a position of the order of
dispatch, or the call is cancelled and nothing more is to start. -/
inductive Mark where
  | started (position : Nat) (shard : ShardId)
  | ended (position : Nat) (shard : ShardId)
  | cancelled
deriving DecidableEq, Repr

def Mark.text? : Mark → Option String
  | .started _ shard => some ("+" ++ shard.text)
  | .ended _ shard => some ("-" ++ shard.text)
  | .cancelled => none

/-- Why a call has no result. -/
inductive CallError where
  | shard (error : ShardError)
  /-- The call itself was cut off. -/
  | panicked (payload : Option String)
deriving DecidableEq, Repr

structure Outcome (ω σ O : Type) where
  result : Except CallError O
  exit : σ
  world : ω
  /-- What happened, in order. -/
  trace : List Mark

namespace Outcome

variable {ω σ O : Type}

/-- The outcome of a call that ends with an error. -/
def failed (error : ShardError) (exit : σ) (world : ω) (trace : List Mark) : Outcome ω σ O :=
  ⟨.error (.shard error), exit, world, trace⟩

/-- The outcome of a call whose results are all added. -/
def compiled {T : Type} (strategy : ExitStrategy σ T O) (collector : Option (Collector O))
    (exit : σ) (world : ω) (trace : List Mark) : Outcome ω σ O :=
  let (result, exit) := strategy.compileWith collector exit
  ⟨result.mapError .shard, exit, world, trace⟩

def after (marks : List Mark) (outcome : Outcome ω σ O) : Outcome ω σ O :=
  { outcome with trace := marks ++ outcome.trace }

end Outcome

/-- Add a shard's result; a request to stop is reported. -/
def feed {ω σ T O : Type} [Journaled ω] (strategy : ExitStrategy σ T O) (operation : String)
    (shard : Shard) (result : Option T) (exit : σ) (world : ω) :
    Except ShardError Bool × σ × ω :=
  match strategy.add exit result (some shard) with
  | (.ok true, exit) =>
    (.ok true, exit,
      report .debug ("Short-circuiting operation " ++ operation
        ++ " after execution against shard " ++ shard.label) world)
  | (answer, exit) => (answer, exit, world)

/-- A call needs at least one shard. -/
def noShards : ShardError :=
  .invalidArgument "cannot apply an operation to an empty shard set"

end ScatterGather
