import ScatterGather.Call.Action
import ScatterGather.Exit.Aggregate
import ScatterGather.Exit.Concatenate
import ScatterGather.Exit.First
import ScatterGather.Call.Plan

/-!
# The demonstration

A run of the whole library on empty backends: one transaction writes a number of items, each to the
shard that serves the next virtual id in turn; then all shards are counted, and the items with the
greatest scores are collected. What the run has to say about itself is kept apart from the journal
of the library.
-/

namespace ScatterGather.Demo

structure Settings where
  shards : Nat
  keys : Nat
  config : Config
deriving DecidableEq

def Settings.read (env : Environment) : Except EnvError Settings := do
  let shards ← env.readD "FANSHARD_DEV_SHARDS" (Text.readNat UInt64.size) 4
  let keys ← env.readD "FANSHARD_DEV_KEYS" (Text.readNat UInt64.size) 32
  return ⟨shards, keys, ← Config.read env⟩

structure Stage where
  cluster : Cluster
  strategy : AccessStrategy
  /-- What was said so far, last line first. -/
  said : List Entry

/-- What a run finds out about its items. -/
structure Findings where
  /-- How many items there are on all shards. -/
  count : Option (Bounded .unsigned64)
  /-- The items with the greatest scores. -/
  top : List Json

structure Outcome where
  result : Except CallError Findings
  /-- What the run said, in order. -/
  lines : List Entry
  cluster : Cluster

namespace Stage

def say (stage : Stage) (level : Level) (text : String) : Stage :=
  { stage with said := .event level text :: stage.said }

/-- Say one thing per element of a list. -/
def sayEach {α : Type} (stage : Stage) (level : Level) (text : α → String) (xs : List α) :
    Stage :=
  xs.foldl (fun stage x => stage.say level (text x)) stage

def finish (stage : Stage) (result : Except CallError Findings) : Outcome :=
  ⟨result, stage.said.reverse, stage.cluster⟩

def onCluster {α : Type} (stage : Stage) (call : Cluster → Except ShardError α × Cluster) :
    Except CallError α × Stage :=
  let (answer, w) := call stage.cluster
  (answer.mapError .shard, { stage with cluster := w })

/-- Run a request through a session. -/
def execute {σ T O : Type} (stage : Stage) (session : Nat) (ids : Option (List ShardId))
    (request : Request) (read? : Json → Option T) (exitStrategy : ExitStrategy σ T O)
    (collector : Option (Collector O)) (exit : σ) : Except CallError O × Stage :=
  let (outcome, strategy) := stage.cluster.execute session stage.strategy ids
    (request.operation read?) exitStrategy collector exit
  (outcome.result, { stage with cluster := outcome.world, strategy := strategy })

end Stage

/-- The keys of all items begin with this. -/
def itemStart : String :=
  "item/"

def itemKey (n : Nat) : String :=
  itemStart ++ Text.ofNatPadded 4 n

def itemRow (n : Nat) : Json :=
  Json.ofMembers [("key", .string (itemKey n)), ("score", .int (n * 37 % 101 : Nat))]

/-- The virtual id whose shard gets an item. -/
def itemTarget (virtualIds : List ShardId) (n : Nat) : ShardId :=
  virtualIds.getD (n % virtualIds.length) ⟨0⟩

def putItem (session : Nat) (virtualIds : List ShardId) (stage : Stage) (n : Nat) :
    Except CallError (Option Json) × Stage :=
  stage.execute session (some [itemTarget virtualIds n])
    (.immediate "put" (.put (itemKey n) (some (itemRow n)))) some First.strategy none .none

/-- Write some items, up to the first that cannot be written. -/
def putItems (session : Nat) (virtualIds : List ShardId) :
    List Nat → Stage → Except CallError Unit × Stage
  | [], stage => (.ok (), stage)
  | n :: rest, stage =>
    match putItem session virtualIds stage n with
    | (.ok _, stage) => putItems session virtualIds rest stage
    | (.error e, stage) => (.error e, stage)

def countItems (session : Nat) (stage : Stage) :
    Except CallError (Option (Bounded .unsigned64)) × Stage :=
  stage.execute session none (.immediate "count" (.count itemStart)) Bounded.ofJson?
    AggregateFunction.sum.strategy none .empty

/-- Takes the five rows with the greatest scores. -/
def topFive : RowCollector Json :=
  ⟨.ofPaths ["score"], [], [⟨"score", .descending⟩], none, some 5⟩

/-- The items with the greatest scores on all shards. -/
def topItems (session : Nat) (stage : Stage) : Except CallError (List Json) × Stage :=
  stage.execute session none (.immediate "scan" (.scan itemStart)) Plan.items?
    Concatenate.strategy (some topFive.apply) []

/-- The virtual ids of all shards of a session, ascending. -/
def virtualIds (session : Session) : List ShardId :=
  Ordered.sortBy compare (session.shards.flatMap fun shard => shard.served.toList)

/-- A count as it is said. -/
def inspectCount (count : Option (Bounded .unsigned64)) : String :=
  match count with
  | some count => "Some(" ++ Text.ofInt count.val ++ ")"
  | none => "None"

/-- Write the items in one transaction. -/
def write (session : Nat) (virtualIds : List ShardId) (keys : Nat) (stage : Stage) :
    Except CallError Unit × Stage :=
  match stage.onCluster fun w => w.beginTransaction session with
  | (.error e, stage) => (.error e, stage)
  | (.ok tx, stage) =>
    match putItems session virtualIds (List.range keys) stage with
    | (.error e, stage) => (.error e, stage)
    | (.ok (), stage) =>
      match stage.onCluster fun w => w.commit tx with
      | (.error e, stage) => (.error e, stage)
      | (.ok (), stage) =>
        let shards := (stage.cluster.transaction tx).enlisted.map (·.shard)
        (.ok (), stage.say .info ("committed " ++ Text.ofNat keys ++ " key(s) across shards "
          ++ inspectIds shards))

/-- Count the items and collect the greatest. -/
def query (session : Nat) (stage : Stage) : Except CallError Findings × Stage :=
  match countItems session stage with
  | (.error e, stage) => (.error e, stage)
  | (.ok count, stage) =>
    let stage := stage.say .info ("row count over all shards: " ++ inspectCount count)
    match topItems session stage with
    | (.error e, stage) => (.error e, stage)
    | (.ok top, stage) =>
      (.ok ⟨count, top⟩, stage.sayEach .info (fun row => "top: " ++ row.render) top)

/-- Say how many rows each backend holds. -/
def tellSizes (stage : Stage) : Stage :=
  stage.sayEach .debug
    (fun (b, number) => "shard " ++ Text.ofNat number ++ " holds " ++ Text.ofNat b.store.size
      ++ " row(s)")
    stage.cluster.backends.zipIdx

/-- The run in an open session, which is closed at the end. -/
def inSession (factory : SessionFactory) (session keys : Nat) (stage : Stage) :
    Except CallError Findings × Stage :=
  let ids := virtualIds (stage.cluster.session session)
  let stage := stage.say .info (Text.ofNat factory.physicalIds.length
    ++ " physical shard(s) serving " ++ Text.ofNat ids.length ++ " virtual shard(s) with "
    ++ stage.strategy.inspect)
  match write session ids keys stage with
  | (.error e, stage) => (.error e, stage)
  | (.ok (), stage) =>
    match query session stage with
    | (.error e, stage) => (.error e, stage)
    | (.ok findings, stage) =>
      let (closed, stage) := (tellSizes stage).onCluster fun w => w.closeSession session
      (closed.map fun _ => findings, stage)

def run [Machine] (settings : Settings) : Outcome :=
  let start : Stage := ⟨.ofBackends settings.shards, .default, []⟩
  let shards := (List.range settings.shards).map fun number => (ShardId.ofNat number, number)
  match SessionFactory.build (.ofConfig settings.config shards) with
  | .error e => start.finish (.error (.shard e))
  | .ok factory =>
    match { start with strategy := factory.strategy }.onCluster fun w => w.openSession factory with
    | (.error e, stage) => stage.finish (.error e)
    | (.ok session, stage) =>
      let (result, stage) := inSession factory session settings.keys stage
      stage.finish result

end ScatterGather.Demo
