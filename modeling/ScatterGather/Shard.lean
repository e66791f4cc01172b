import ScatterGather.ShardError

/-!
# Shard handles

A handle stands for one physical shard inside one logical session. It says which backend the shard
lives on and which virtual ids it serves; whether it is connected is kept by the cluster, under the
handle's own number. Two handles are the same only if their numbers are: several sessions have
handles of their own to one physical shard.
-/

namespace ScatterGather

structure Shard where
  /-- The identity of the handle. -/
  handle : Nat
  physicalId : ShardId
  /-- The virtual ids that it serves. -/
  served : IdSet
  /-- The number of its backend. -/
  backend : Nat
deriving DecidableEq

namespace Shard

/-- A handle, which has to serve at least one id. -/
def create (handle : Nat) (physicalId : ShardId) (served : IdSet) (backend : Nat) :
    Except ShardError Shard :=
  if served.isEmpty then
    .error (.invalidArgument
      ("shard " ++ physicalId.text ++ " must serve at least one shard id"))
  else .ok ⟨handle, physicalId, served, backend⟩

def serves (shard : Shard) (id : ShardId) : Bool :=
  shard.served.contains id

/-- How a handle is named in the journal. -/
def label (shard : Shard) : String :=
  shard.physicalId.text ++ inspectIdSet shard.served

/-- The handle with its parts, and whether it is connected. -/
def inspect (shard : Shard) (connected : Bool) : String :=
  "Shard \x7b physical_id: " ++ shard.physicalId.inspect ++ ", shard_ids: "
    ++ inspectIdSet shard.served ++ ", has_session: " ++ (if connected then "true" else "false")
    ++ " \x7d"

end Shard

end ScatterGather
