import ScatterGather.Exit.Strategy

/-!
# The first result

Keeps the first result that is not null, and the shard it came from, and asks to stop from then on.
-/

namespace ScatterGather

/-- The first result found, and the shard it came from. -/
structure First (T : Type) where
  result : Option T
  shard : Option Shard
deriving DecidableEq

namespace First

variable {T : Type}

def none : First T :=
  ⟨Option.none, Option.none⟩

def winner? (found : First T) : Option Shard :=
  found.shard

/-- The strategy that keeps the first result. -/
def strategy : ExitStrategy (First T) T (Option T) where
  add := fun found result shard =>
    match shard with
    | Option.none => (.error shardRequired, found)
    | some shard =>
      let found :=
        if found.result.isNone && result.isSome then ⟨result, some shard⟩ else found
      (.ok found.result.isSome, found)
  compile := fun found => (.ok found.result, found)

end First

end ScatterGather
