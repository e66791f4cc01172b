import ScatterGather.Cluster.Establish
import ScatterGather.Factory

/-!
# Sessions

A session has a handle of its own for every physical shard of its factory. Calls go to the handles
that serve the ids asked for, by way of the strategy that all sessions of the factory share. A
session has one transaction at a time; the next one is made as soon as that one has come to its end.
-/

namespace ScatterGather

namespace Session

/-- Enter the ids that some handles serve, the first of them being at this place. Of two handles that
serve one id the later counts. -/
def enter : List Shard → Nat → Ordered.Map ShardId Nat → Ordered.Map ShardId Nat
  | [], _, index => index
  | shard :: rest, place, index =>
    enter rest (place + 1)
      (shard.served.toList.foldl (fun index id => index.insert id place) index)

/-- The place of the handle that serves each virtual id. -/
def index (session : Session) : Ordered.Map ShardId Nat :=
  enter session.shards 0 ∅

/-- The place of the handle that serves a virtual id. -/
def placeOf (session : Session) (id : ShardId) : Except ShardError Nat :=
  match session.index.get? id with
  | some place => .ok place
  | none => .error (.invalidArgument ("unknown shard id " ++ id.text))

/-- The handles that serve the given ids, each once, in the order in which they are first needed. -/
def shardsFor (session : Session) (ids : List ShardId) : Except ShardError (List Shard) :=
  (ids.mapM session.placeOf).map fun places =>
    places.eraseDups.filterMap fun place => session.shards[place]?

/-- The handles of a call: those that serve the given ids, or all. -/
def targets (session : Session) (ids : Option (List ShardId)) : Except ShardError (List Shard) :=
  match ids with
  | some ids => session.shardsFor ids
  | none => .ok session.shards

end Session

namespace Cluster

/-- A handle of its own for each physical shard. -/
def addShards : List PhysicalShard → Cluster → Except ShardError (List Shard) × Cluster
  | [], w => (.ok [], w)
  | physical :: rest, w =>
    match w.addShard physical.physicalId physical.served physical.backend with
    | (.error e, w) => (.error e, w)
    | (.ok shard, w) =>
      let (answer, w) := addShards rest w
      (answer.map (shard :: ·), w)

/-- Open a session; the answer is its number. No shard is connected yet. -/
def openSession (w : Cluster) (factory : SessionFactory) : Except ShardError Nat × Cluster :=
  match addShards factory.shards w with
  | (.error e, w) => (.error e, w)
  | (.ok shards, w) =>
    (.ok w.sessions.length,
      { w with sessions := w.sessions ++ [⟨shards, factory.timeout, none, false⟩] })

/-- What a closed session answers. -/
def sessionClosed : ShardError :=
  .transaction "session is closed"

/-- Run an operation on the shards that serve the given ids, or on all. -/
def execute {σ T O : Type} (w : Cluster) (number : Nat) (strategy : AccessStrategy)
    (ids : Option (List ShardId)) (operation : Operation Cluster T)
    (exitStrategy : ExitStrategy σ T O) (collector : Option (Collector O)) (exit : σ) :
    Outcome Cluster σ O × AccessStrategy :=
  let session := w.session number
  if session.closed then (.failed sessionClosed exit w [], strategy)
  else
    match session.targets ids with
    | .error e => (.failed e exit w [], strategy)
    | .ok shards => strategy.apply shards operation exitStrategy collector exit w

/-! ## The session's transaction -/

/-- Make a new transaction over all shards of a session the current one. -/
def renewTransaction (w : Cluster) (number : Nat) : Nat × Cluster :=
  let session := w.session number
  let (tx, w) := w.newTransaction session.shards
  let w := match session.timeout with
    | some seconds => w.setTimeout tx seconds
    | none => w
  (tx, w.mapSession number fun session => { session with current := some tx })

/-- The current transaction of a session; a new one if there is none, or if it has come to its
end. -/
def currentTransaction (w : Cluster) (number : Nat) : Except ShardError Nat × Cluster :=
  let session := w.session number
  if session.closed then (.error sessionClosed, w)
  else
    match session.current with
    | some tx =>
      if (w.transaction tx).status.isFinal then
        let (tx, w) := renewTransaction
          (report .debug "previous transaction completed, starting a new one" w) number
        (.ok tx, w)
      else (.ok tx, w)
    | none =>
      let (tx, w) := w.renewTransaction number
      (.ok tx, w)

def beginTransaction (w : Cluster) (number : Nat) : Except ShardError Nat × Cluster :=
  match w.currentTransaction number with
  | (.error e, w) => (.error e, w)
  | (.ok tx, w) =>
    match w.begin tx with
    | (.error e, w) => (.error e, w)
    | (.ok (), w) => (.ok tx, w)

/-! ## Closing -/

/-- Close the connections of some handles, and collect the errors. -/
def closeShards : List Shard → Cluster → List ShardError × Cluster
  | [], w => ([], w)
  | shard :: rest, w =>
    match w.closeShard shard with
    | (.ok (), w) => closeShards rest w
    | (.error e, w) =>
      let (errors, w) := closeShards rest (report .warn e.message w)
      (e :: errors, w)

/-- Complain about a transaction that is not finished when its session closes. -/
def warnUnfinished (w : Cluster) (current : Option Nat) : Cluster :=
  match current with
  | some tx =>
    let status := (w.transaction tx).status
    if status.isUnfinished then
      report .warn ("closing session with an unfinished transaction (" ++ status.inspect ++ ")") w
    else w
  | none => w

/-- Close a session with all its connections; of several errors the first is returned. To close it
again has no effect. -/
def closeSession (w : Cluster) (number : Nat) : Except ShardError Unit × Cluster :=
  let session := w.session number
  if session.closed then (.ok (), w)
  else
    -- Marked first: a session is closed even if one of its connections refuses to close.
    let w := w.mapSession number fun session => { session with closed := true }
    let (errors, w) := closeShards session.shards (w.warnUnfinished session.current)
    let w := report .info ("closed session over " ++ Text.ofNat session.shards.length
      ++ " shard(s)") w
    match errors with
    | [] => (.ok (), w)
    | first :: _ => (.error first, w)

end Cluster

end ScatterGather
