import ScatterGather.Cluster.State

/-!
# Logical transactions

A logical transaction drives the local transactions of several shards. Begin is undone where it
could not be done everywhere; commit is not atomic, stops at the first failure, and tells which
shards had committed; rollback tries every shard that has not committed and can be retried.
-/

namespace ScatterGather.Cluster

/-! ## Synchronizations -/

def register (w : Cluster) (tx : Nat) (sync : Synchronization) : Cluster :=
  w.mapTransaction tx fun t => { t with synchronizations := t.synchronizations ++ [sync] }

/-- Register a synchronization, which must not be missing. -/
def registerSynchronization (w : Cluster) (tx : Nat) (sync : Option Synchronization) :
    Except ShardError Unit × Cluster :=
  match sync with
  | none => (.error (.invalidArgument "null synchronization"), w)
  | some sync => (.ok (), w.register tx sync)

/-- The outcome of one callback, whatever it is, never disturbs the completion it belongs to. -/
def react (w : Cluster) (tx : Nat) (stage : String) (sync : Synchronization)
    (reaction : Reaction) : Cluster :=
  match reaction with
  | .accept => w
  | .refuse =>
    report .warn ("exception calling user Synchronization " ++ stage ++ ": " ++ sync.name
      ++ " refused") w
  | .panic => report .warn ("user Synchronization panicked in " ++ stage) w
  | .register => w.register tx ⟨sync.name ++ "'", some .accept, .accept⟩

/-- What a callback remarks: when it was called, and what it saw. -/
def remark (w : Cluster) (tx : Nat) (sync : Synchronization) (moment : String) : Cluster :=
  record w (.remark (sync.name ++ " " ++ moment ++ " status="
    ++ (w.transaction tx).status.inspect ++ " commits=" ++ Text.ofNat w.commits))

/-- Call the given synchronizations before completion. -/
def notifyBefore (tx : Nat) : List Synchronization → Cluster → Cluster
  | [], w => w
  | sync :: rest, w =>
    match sync.before with
    | none => notifyBefore tx rest w
    | some reaction =>
      notifyBefore tx rest ((w.remark tx sync "before").react tx "before_completion" sync reaction)

/-- Call the given synchronizations after completion. -/
def notifyAfter (tx : Nat) (completion : CompletionStatus) :
    List Synchronization → Cluster → Cluster
  | [], w => w
  | sync :: rest, w =>
    notifyAfter tx completion rest
      ((w.remark tx sync ("after:" ++ completion.inspect)).react tx "after_completion" sync
        sync.after)

/-- Call the synchronizations that are registered now after completion. -/
def completeWith (w : Cluster) (tx : Nat) (completion : CompletionStatus) : Cluster :=
  notifyAfter tx completion (w.transaction tx).synchronizations w

/-! ## Enlisting -/

def enlist (w : Cluster) (tx : Nat) (shard : ShardId) (ref : NativeRef) : Cluster :=
  w.mapTransaction tx fun t => { t with enlisted := t.enlisted ++ [⟨shard, ref⟩] }

/-- Enlist the shards that are connected, and let the others wait for their connection. -/
def enlistShards (tx : Nat) : List Shard → Cluster → Cluster
  | [], w => w
  | shard :: rest, w =>
    match w.registerEvent shard (.enlist tx) with
    | (some ref, w) => enlistShards tx rest (w.enlist tx shard.physicalId ref)
    | (none, w) => enlistShards tx rest w

/-- A new logical transaction over shards. -/
def newTransaction (w : Cluster) (shards : List Shard) : Nat × Cluster :=
  let tx := w.transactions.length
  (tx, enlistShards tx shards { w with transactions := w.transactions ++ [.fresh] })

/-- Set the timeout of a transaction and of the local ones that have joined. -/
def setTimeout (w : Cluster) (tx : Nat) (seconds : UInt32) : Cluster :=
  let w := w.mapTransaction tx fun t => { t with timeout := some seconds }
  (w.transaction tx).enlisted.foldl (fun w e => w.setNativeTimeout seconds e.native) w

/-- Pass the timeout of a transaction on to a local one. -/
def passTimeout (w : Cluster) (tx : Nat) (ref : NativeRef) : Cluster :=
  match (w.transaction tx).timeout with
  | some seconds => w.setNativeTimeout seconds ref
  | none => w

/-! ## Begin -/

/-- Begin each local transaction, and collect those that failed with their errors. -/
def beginEach (tx : Nat) : List Enlisted → Cluster → List (ShardId × BackendError) × Cluster
  | [], w => ([], w)
  | e :: rest, w =>
    match (w.passTimeout tx e.native).beginNative e.native with
    | (.ok (), w) => beginEach tx rest w
    | (.error reason, w) =>
      let w := report .warn ("exception starting transaction on shard " ++ e.shard.text ++ ": "
        ++ reason.message) w
      let (failed, w) := beginEach tx rest w
      ((e.shard, reason) :: failed, w)

/-- Roll back each local transaction that is active. -/
def compensate : List Enlisted → Cluster → Cluster
  | [], w => w
  | e :: rest, w =>
    if (w.native e.native).isActive then
      match w.rollbackNative e.native with
      | (.ok (), w) => compensate rest w
      | (.error reason, w) =>
        compensate rest (report .warn ("compensating rollback failed on shard " ++ e.shard.text
          ++ ": " ++ reason.message) w)
    else compensate rest w

/-- Begin a transaction on all shards that have joined. To begin an active one has no effect. When
one shard fails, all are rolled back and the transaction stays as it was created. -/
def begin (w : Cluster) (tx : Nat) : Except ShardError Unit × Cluster :=
  let t := w.transaction tx
  match t.status with
  | .active => (.ok (), report .debug "transaction already active, ignoring begin" w)
  | .created =>
    match beginEach tx t.enlisted w with
    | ([], w) =>
      (.ok (), report .info ("began transaction on " ++ Text.ofNat t.enlisted.length
        ++ " shard(s)") (w.setStatus tx .active))
    | (first :: failed, w) =>
      (.error (.beginFailure ((first :: failed).map (·.1)) (some first.2.message)),
        compensate t.enlisted w)
  | status =>
    (.error (.transaction ("cannot begin a transaction in state " ++ status.inspect)), w)

/-! ## Commit -/

/-- Commit each local transaction up to the first failure. -/
def commitEach : List Enlisted → List ShardId → Cluster →
    (List ShardId × Option (ShardId × BackendError)) × Cluster
  | [], committed, w => ((committed, none), w)
  | e :: rest, committed, w =>
    match w.commitNative e.native with
    | (.ok (), w) => commitEach rest (committed ++ [e.shard]) w
    | (.error reason, w) =>
      ((committed, some (e.shard, reason)),
        report .error ("commit failed on shard " ++ e.shard.text ++ " after committing "
          ++ inspectIds committed ++ ": " ++ reason.message) w)

def commit (w : Cluster) (tx : Nat) : Except ShardError Unit × Cluster :=
  let t := w.transaction tx
  if t.status = .active then
    let w := notifyBefore tx t.synchronizations w
    -- A synchronization that was registered by another one just now is called after completion.
    match commitEach t.enlisted [] w with
    | ((committed, none), w) =>
      let w := report .info ("committed transaction on " ++ Text.ofNat committed.length
        ++ " shard(s)") (w.setStatus tx .committed)
      (.ok (), w.completeWith tx .committed)
    | ((committed, some (shard, reason)), w) =>
      (.error (.commitFailure shard committed reason.message),
        (w.setStatus tx .failedCommit).completeWith tx .unknown)
  else (.error (.transaction ("cannot commit a transaction in state " ++ t.status.inspect)), w)

/-! ## Rollback -/

/-- Roll back each local transaction that has not committed, and collect the failures. -/
def rollbackEach : List Enlisted → Cluster → List ShardFailure × Cluster
  | [], w => ([], w)
  | e :: rest, w =>
    if (w.native e.native).wasCommitted then
      rollbackEach rest (report .debug ("skipping rollback of committed transaction on shard "
        ++ e.shard.text) w)
    else
      match w.rollbackNative e.native with
      | (.ok (), w) => rollbackEach rest w
      | (.error reason, w) =>
        let w := report .warn ("rollback failed on shard " ++ e.shard.text ++ ": "
          ++ reason.message) w
        let (failures, w) := rollbackEach rest w
        (⟨e.shard, reason.message⟩ :: failures, w)

/-- Roll an unfinished transaction back. Where a shard fails, the status stays, so that the rollback
can be tried again. -/
def rollback (w : Cluster) (tx : Nat) : Except ShardError Unit × Cluster :=
  let t := w.transaction tx
  if t.status.isUnfinished then
    match rollbackEach t.enlisted w with
    | ([], w) =>
      (.ok (), (report .info "rolled back transaction" (w.setStatus tx .rolledBack)).completeWith
        tx .rolledBack)
    | (failures, w) => (.error (.rollbackFailure failures), w.completeWith tx .unknown)
  else
    (.error (.transaction ("cannot roll back a transaction in state " ++ t.status.inspect)), w)

/-! ## Joining late -/

/-- Let the connection that a shard just opened join a transaction. While the transaction is active
the local one is begun at once; if that fails, the shard has to reject the connection. -/
def joinLate (w : Cluster) (tx : Nat) (shard : ShardId) (ref : NativeRef) :
    Except ShardError Unit × Cluster :=
  let t := w.transaction tx
  if t.enlisted.any fun e => e.native = ref then (.ok (), w)
  else
    let w := report .debug ("setting up transaction on shard " ++ shard.text) w
    let w := w.passTimeout tx ref
    if t.status = .active then
      match w.beginNative ref with
      | (.ok (), w) => (.ok (), w.enlist tx shard ref)
      | (.error reason, w) =>
        let w := report .warn ("exception starting late transaction on shard " ++ shard.text ++ ": "
          ++ reason.message) w
        let w :=
          if (w.native ref).isActive then
            match w.rollbackNative ref with
            | (.ok (), w) => w
            | (.error reason, w) =>
              report .warn ("rollback failed on shard " ++ shard.text ++ ": " ++ reason.message) w
          else w
        (.error (.beginFailure [shard] (some reason.message)), w)
    else (.ok (), w.enlist tx shard ref)

end ScatterGather.Cluster
