import ScatterGather.Config

/-!
# Session factories

A factory knows a fixed set of physical shards, which virtual ids each of them serves, and the
access strategy and transaction timeout that all its sessions share. It is built from settings that
are checked first: the shards are distinct, every virtual id has a registered shard to go to, and no
shard is left idle. Without virtual ids every shard serves its own id.
-/

namespace ScatterGather

/-- What a factory is built from. -/
structure FactorySettings where
  /-- The physical shards with the numbers of their backends, in order of registration. -/
  shards : List (ShardId × Nat)
  virtualShards : VirtualMap
  strategy : AccessStrategy
  timeout : Option UInt32

namespace FactorySettings

/-- The settings of a factory that is configured by its caller alone. -/
def ofShards (shards : List (ShardId × Nat)) : FactorySettings :=
  ⟨shards, .empty, .default, none⟩

/-- The settings that a configuration asks for. -/
def ofConfig [Machine] (config : Config) (shards : List (ShardId × Nat)) : FactorySettings :=
  ⟨shards, config.virtualShards.getD .empty, config.strategy, config.txnTimeout⟩

/-- The ids under which shards are registered, in that order. -/
def registered (settings : FactorySettings) : List ShardId :=
  settings.shards.map (·.1)

end FactorySettings

structure PhysicalShard where
  physicalId : ShardId
  served : IdSet
  backend : Nat
deriving DecidableEq

/-- A source of sessions over a fixed set of physical shards. -/
structure SessionFactory where
  shards : List PhysicalShard
  strategy : AccessStrategy
  timeout : Option UInt32

namespace SessionFactory

/-- The first id that occurs once more after others. -/
def firstRepeated? : List ShardId → List ShardId → Option ShardId
  | _, [] => none
  | seen, id :: rest => if seen.contains id then some id else firstRepeated? (id :: seen) rest

/-- The first virtual shard, in ascending order, that goes to a shard which is not registered. -/
def firstStray? (registered : List ShardId) (m : VirtualMap) : Option (ShardId × ShardId) :=
  m.toList.find? fun pair => !registered.contains pair.2

/-- The virtual ids that a shard serves, if there are any; `hosted` has those of the shards that were
not placed yet. -/
def servedBy? (m : VirtualMap) (hosted : Ordered.Map ShardId IdSet) (physicalId : ShardId) :
    Option IdSet :=
  if m.map.isEmpty then some (.ofList [physicalId]) else hosted.get? physicalId

/-- The shards with the ids they serve. Each shard takes its ids out of `hosted`. -/
def place (m : VirtualMap) :
    List (ShardId × Nat) → Ordered.Map ShardId IdSet → Except ShardError (List PhysicalShard)
  | [], _ => .ok []
  | (physicalId, backend) :: rest, hosted =>
    match servedBy? m hosted physicalId with
    | none =>
      .error (.configuration ("physical shard " ++ physicalId.text ++ " hosts no virtual shard"))
    | some served =>
      match place m rest (hosted.erase physicalId) with
      | .error e => .error e
      | .ok shards => .ok (⟨physicalId, served, backend⟩ :: shards)

/-- The factory of some settings, or what is wrong with them. -/
def build (settings : FactorySettings) : Except ShardError SessionFactory :=
  if settings.registered.isEmpty then
    .error (.configuration "at least one physical shard is required")
  else
    match firstRepeated? [] settings.registered with
    | some id =>
      .error (.configuration ("physical shard " ++ id.text ++ " is registered twice"))
    | none =>
      match firstStray? settings.registered settings.virtualShards with
      | some (virtualId, physicalId) =>
        .error (.configuration ("virtual shard " ++ virtualId.text
          ++ " maps to unknown physical shard " ++ physicalId.text))
      | none =>
        match place settings.virtualShards settings.shards settings.virtualShards.inverse with
        | .error e => .error e
        | .ok shards => .ok ⟨shards, settings.strategy, settings.timeout⟩

def physicalIds (factory : SessionFactory) : List ShardId :=
  factory.shards.map (·.physicalId)

end SessionFactory

end ScatterGather
