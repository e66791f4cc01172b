import ScatterGather.Shard

/-!
# Dispatch orders

The order in which the shards of one call are visited. Every policy yields the given handles, each
as often as it was given: rotation and shuffling do so by construction, and what a caller's own
function returns is checked.
-/

namespace ScatterGather

/-- A way to rearrange handles. -/
structure Shuffle where
  apply : List Shard → List Shard
  perm : ∀ shards, (apply shards).Perm shards

namespace Shuffle

/-- The next state of a linear congruential generator. -/
def advance (seed : Nat) : Nat :=
  (6364136223846793005 * seed + 1442695040888963407) % UInt64.size

/-- Put each element at a random place among those behind it. -/
def scatter (seed : Nat) : List Shard → List Shard
  | [] => []
  | shard :: rest =>
    let rest := scatter (advance seed) rest
    let place := (seed >>> 33) % (rest.length + 1)
    rest.take place ++ shard :: rest.drop place

theorem perm_scatter (seed : Nat) (shards : List Shard) : (scatter seed shards).Perm shards := by
  induction shards generalizing seed with
  | nil => exact .nil
  | cons shard rest ih =>
    refine List.perm_middle.trans ?_
    rw [List.take_append_drop]
    exact (ih _).cons _

/-- The rearrangement drawn from a seed. -/
def ofSeed (seed : Nat) : Shuffle :=
  ⟨scatter (advance seed), perm_scatter _⟩

end Shuffle

inductive ShardOrdering where
  /-- As given. -/
  | input
  /-- Rotated by a counter, which goes up by one at each call. -/
  | roundRobin (next : UInt64)
  /-- Rearranged anew at each call; `calls` counts them. -/
  | random (draw : Nat → Shuffle) (calls : Nat)
  /-- As a function of the caller says. -/
  | custom (pick : List Shard → List Shard)

namespace ShardOrdering

/-- Random order from a fixed sequence of seeds. -/
def seeded : ShardOrdering :=
  .random Shuffle.ofSeed 0

/-- Take the first place that holds `shard` and is not taken yet, if there is one. -/
def take? (shard : Shard) : List (Shard × Bool) → Option (List (Shard × Bool))
  | [] => none
  | (held, taken) :: places =>
    if !taken && held = shard then some ((held, true) :: places)
    else (take? shard places).map ((held, taken) :: ·)

/-- Whether `picked` has exactly the handles of `given`, each as often: every one that was picked
takes a place of its own among as many given ones. -/
def isRearrangement (given picked : List Shard) : Bool :=
  given.length = picked.length &&
    (picked.foldlM (fun places shard => take? shard places) (given.map (·, false))).isSome

/-- The order in which to visit `shards`, and the policy as the next call finds it. An empty call
does not advance the rotation. -/
def order (ordering : ShardOrdering) (shards : List Shard) :
    Except ShardError (List Shard) × ShardOrdering :=
  match ordering with
  | input => (.ok shards, input)
  | roundRobin next =>
    if shards.isEmpty then (.ok [], roundRobin next)
    else (.ok (shards.rotateLeft (next.toNat % shards.length)), roundRobin (next + 1))
  | random draw calls => (.ok ((draw calls).apply shards), random draw (calls + 1))
  | custom pick =>
    let picked := pick shards
    if isRearrangement shards picked then (.ok picked, custom pick)
    else
      (.error (.invalidArgument ("custom shard ordering returned " ++ Text.ofNat picked.length
        ++ " shard(s) that are not a permutation of the " ++ Text.ofNat shards.length
        ++ " given")), custom pick)

def inspect : ShardOrdering → String
  | input => "InputOrder"
  | roundRobin next => "RoundRobin(" ++ Text.ofNat next.toNat ++ ")"
  | random _ _ => "Random"
  | custom _ => "Custom"

end ShardOrdering

end ScatterGather
