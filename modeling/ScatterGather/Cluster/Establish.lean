import ScatterGather.Cluster.Transaction

/-!
# Connecting shards

A shard is connected when it is first needed. The connection is shown to the events that wait for
it, in rounds, since an event may register further ones; only when all of them have accepted it does
it become the shard's connection. If one rejects it, it is closed and all events wait again.
-/

namespace ScatterGather.Cluster

/-- Queue an event on a shard, whether or not it is connected. -/
def queueEvents (w : Cluster) (shard : Shard) (events : List OpenEvent) : Cluster :=
  let slot := w.slot shard
  w.setSlot shard { slot with events := slot.events ++ events }

/-- Show a connection to a hook. The hook that comes back has one run more. -/
def runHook (w : Cluster) (shard : Shard) (ref : NativeRef) : Hook →
    Except ShardError Unit × Hook × Cluster
  | .mk tag rejects key children runs =>
    let w := record w (.remark (tag ++ "@" ++ shard.physicalId.text ++ " run=" ++ Text.ofNat runs
      ++ " visible=" ++ if w.isConnected shard then "true" else "false"))
    let w := match key with
      | some key =>
        (w.callBackend ref.backend fun b => b.write ref.connection key (some (.string tag))).2
      | none => w
    let w := w.queueEvents shard (children.map .hook)
    let answer := if rejects runs then
        .error (.transaction (tag ++ " rejects shard " ++ shard.physicalId.text))
      else .ok ()
    (answer, .mk tag rejects key children (runs + 1), w)

def runEvent (w : Cluster) (shard : Shard) (ref : NativeRef) (event : OpenEvent) :
    Except ShardError Unit × OpenEvent × Cluster :=
  match event with
  | .enlist tx =>
    if w.isReferenced tx then
      let (answer, w) := w.joinLate tx shard.physicalId ref
      (answer, event, w)
    else (.ok (), event, w)
  | .hook h =>
    let (answer, h, w) := w.runHook shard ref h
    (answer, .hook h, w)

/-- Show a connection to events in turn, up to the first that rejects it. The events come back as
they are then, those that were not reached included. -/
def runEvents (shard : Shard) (ref : NativeRef) : List OpenEvent → Cluster →
    Except ShardError Unit × List OpenEvent × Cluster
  | [], w => (.ok (), [], w)
  | event :: rest, w =>
    match w.runEvent shard ref event with
    | (.ok (), event, w) =>
      let (answer, rest, w) := runEvents shard ref rest w
      (answer, event :: rest, w)
    | (.error e, event, w) => (.error e, event :: rest, w)

/-- Make a connection the shard's own. -/
def publish (w : Cluster) (shard : Shard) (ref : NativeRef) : Cluster :=
  let slot := w.slot shard
  w.setSlot shard { slot with connection := some ref.connection }

/-- Turn a connection down: the given events wait again, in front of those that were registered
meanwhile, and the connection is closed. -/
def reject (w : Cluster) (shard : Shard) (ref : NativeRef) (events : List OpenEvent)
    (reason : ShardError) : Cluster :=
  let w := report .warn ("open session event failed on shard " ++ shard.label ++ ": "
    ++ reason.message) w
  let slot := w.slot shard
  let w := w.setSlot shard { slot with events := events ++ slot.events }
  match w.closeNative ref with
  | (.ok (), w) => w
  | (.error close, w) =>
    report .warn ("closing rejected session on shard " ++ shard.label ++ " failed: "
      ++ close.message) w

/-- Show a connection to the waiting events, round by round; `fired` are those of earlier rounds.
The events of one round can only register hooks of a later generation, so there are at most as many
rounds as there are generations at the beginning. -/
def settle (shard : Shard) (ref : NativeRef) : Nat → List OpenEvent → Cluster →
    Except ShardError NativeRef × Cluster
  | rounds, fired, w =>
    let slot := w.slot shard
    match rounds, slot.events with
    | 0, _ | _, [] => (.ok ref, w.publish shard ref)
    | rounds + 1, events =>
      -- The slot is emptied first: it collects what the events of this round register.
      match runEvents shard ref events (w.setSlot shard { slot with events := [] }) with
      | (.ok (), events, w) => settle shard ref rounds (fired ++ events) w
      | (.error e, events, w) => (.error e, w.reject shard ref (fired ++ events) e)

/-- How many rounds the events of a shard can take. -/
def rounds (w : Cluster) (shard : Shard) : Nat :=
  (w.slot shard).events.foldl (fun most event => max most event.generations) 0

/-- The connection of a shard; it is opened if there is none. -/
def establish (w : Cluster) (shard : Shard) : Except ShardError NativeRef × Cluster :=
  match w.connection? shard with
  | some ref => (.ok ref, w)
  | none =>
    match w.callBackend shard.backend Backend.openConnection with
    | (.error reason, w) => (.error (.session shard.physicalId reason.message), w)
    | (.ok number, w) =>
      let w := report .info ("open session on shard " ++ shard.label) w
      settle shard ⟨shard.backend, number⟩ (w.rounds shard) [] w

/-- Close the connection of a shard, if it has one. The shard is without a connection then, even if
the backend refuses. -/
def closeShard (w : Cluster) (shard : Shard) : Except ShardError Unit × Cluster :=
  match w.connection? shard with
  | none => (.ok (), w)
  | some ref =>
    let slot := w.slot shard
    let w := report .debug ("close session on shard " ++ shard.label)
      (w.setSlot shard { slot with connection := none })
    match w.closeNative ref with
    | (.ok (), w) => (.ok (), w)
    | (.error reason, w) => (.error (.session shard.physicalId reason.message), w)

/-- Connect a shard as often as asked, one attempt after the other. -/
def establishTimes (shard : Shard) : Nat → Cluster →
    List (Except ShardError NativeRef) × Cluster
  | 0, w => ([], w)
  | times + 1, w =>
    let (answer, w) := w.establish shard
    let (answers, w) := establishTimes shard times w
    (answer :: answers, w)

/-! ## Rows of a shard -/

/-- Why a row could not be read or written. -/
inductive RowError where
  | shard (error : ShardError)
  | backend (error : BackendError)
deriving DecidableEq, Repr

def RowError.message : RowError → String
  | .shard error => error.message
  | .backend error => error.message

/-- Call the backend of a shard through its connection, which is opened if need be. -/
def onShard {α : Type} (w : Cluster) (shard : Shard)
    (call : Nat → Backend → Except BackendError α × Backend) : Except RowError α × Cluster :=
  match w.establish shard with
  | (.error e, w) => (.error (.shard e), w)
  | (.ok ref, w) =>
    let (answer, w) := w.callBackend ref.backend (call ref.connection)
    (answer.mapError .backend, w)

def get (w : Cluster) (shard : Shard) (key : String) : Except RowError (Option Json) × Cluster :=
  w.onShard shard fun connection b => (b.get connection key, b)

/-- The rows of a shard whose key begins with `start`. -/
def scan (w : Cluster) (shard : Shard) (start : String) :
    Except RowError (List (String × Json)) × Cluster :=
  w.onShard shard fun connection b => (b.scan connection start, b)

/-- Write a row of a shard; a missing value deletes it. -/
def write (w : Cluster) (shard : Shard) (key : String) (value : Option Json) :
    Except RowError Unit × Cluster :=
  w.onShard shard fun connection b => b.write connection key value

end ScatterGather.Cluster
