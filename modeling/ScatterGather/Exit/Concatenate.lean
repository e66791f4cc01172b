import ScatterGather.Exit.Strategy

/-!
# Concatenation

Appends the lists of all shards in the order in which they are added. Compiling hands the list over
and leaves an empty one behind.
-/

namespace ScatterGather.Concatenate

variable {E : Type}

def strategy : ExitStrategy (List E) (List E) (List E) where
  add := fun rows result shard =>
    match shard with
    | none => (.error shardRequired, rows)
    | some _ => (.ok false, rows ++ result.getD [])
  compile := fun rows => (.ok rows, [])

end ScatterGather.Concatenate
