import ScatterGather.Backend.Basic
import ScatterGather.Journal
import ScatterGather.Shard

/-!
# The state of a cluster

One record holds all that changes while sessions work on a set of backends: the backends, what is
kept under each shard handle, the logical transactions, the sessions, and the journal. Everything is
referred to by its number in one of these lists, and nothing is ever removed from them. What a
caller can register, hooks and synchronizations, is data that says how it reacts.
-/

namespace ScatterGather

structure NativeRef where
  backend : Nat
  connection : Nat
deriving DecidableEq, Repr

/-! ## What callers register -/

/-- Work to do on a connection that was just opened. -/
inductive Hook where
  /-- A hook with this tag that ran `runs` times: it writes its tag under a key, registers further
  hooks on the shard, and then may reject the connection, depending on how often it ran before. -/
  | mk (tag : String) (rejects : Nat → Bool) (key : Option String) (children : List Hook)
      (runs : Nat)

mutual

/-- How many generations of hooks there are, the hook itself being the first. -/
def Hook.generations : Hook → Nat
  | .mk _ _ _ children _ => 1 + Hook.greatest children

/-- The greatest number of generations among some hooks. -/
def Hook.greatest : List Hook → Nat
  | [] => 0
  | hook :: rest => max hook.generations (Hook.greatest rest)

end

/-- Something that waits for a shard to be connected. -/
inductive OpenEvent where
  /-- Enlist the connection in a logical transaction, if that is still referred to. -/
  | enlist (transaction : Nat)
  | hook (hook : Hook)

/-- How many rounds of events this event can lead to. -/
def OpenEvent.generations : OpenEvent → Nat
  | .enlist _ => 1
  | .hook h => h.generations

/-- What is kept under a shard handle: its connection, and the events that wait for one. -/
structure Slot where
  connection : Option Nat
  events : List OpenEvent

inductive Reaction where
  | accept
  | refuse
  | panic
  /-- Register a further synchronization on the transaction, and accept. -/
  | register
deriving DecidableEq, Repr

/-- Callbacks around the completion of a transaction. -/
structure Synchronization where
  name : String
  /-- How the callback before completion ends, if there is one. -/
  before : Option Reaction
  after : Reaction
deriving DecidableEq, Repr

/-! ## Transactions and sessions -/

inductive TransactionStatus where
  | created
  | active
  | committed
  | failedCommit
  | rolledBack
deriving DecidableEq, Repr

namespace TransactionStatus

def inspect : TransactionStatus → String
  | created => "Created"
  | active => "Active"
  | committed => "Committed"
  | failedCommit => "FailedCommit"
  | rolledBack => "RolledBack"

/-- Whether a transaction is under way, or still has to be rolled back after a failed commit. -/
def isUnfinished : TransactionStatus → Bool
  | active | failedCommit => true
  | created | committed | rolledBack => false

/-- Whether a transaction has come to its end. -/
def isFinal : TransactionStatus → Bool
  | committed | rolledBack => true
  | created | active | failedCommit => false

end TransactionStatus

/-- How a transaction was completed, as far as is known. -/
inductive CompletionStatus where
  | committed
  | rolledBack
  | unknown
deriving DecidableEq, Repr

def CompletionStatus.inspect : CompletionStatus → String
  | .committed => "Committed"
  | .rolledBack => "RolledBack"
  | .unknown => "Unknown"

/-- A local transaction that takes part in a logical one. -/
structure Enlisted where
  shard : ShardId
  native : NativeRef
deriving DecidableEq, Repr

structure Transaction where
  /-- The local transactions, in the order in which they joined. -/
  enlisted : List Enlisted
  status : TransactionStatus
  timeout : Option UInt32
  synchronizations : List Synchronization
deriving DecidableEq, Repr

def Transaction.fresh : Transaction :=
  ⟨[], .created, none, []⟩

/-- A logical session over shards. -/
structure Session where
  shards : List Shard
  /-- The timeout of its transactions. -/
  timeout : Option UInt32
  /-- Its current transaction. -/
  current : Option Nat
  closed : Bool
deriving DecidableEq

structure Cluster where
  backends : List Backend
  /-- What is kept under each shard handle. -/
  slots : List Slot
  transactions : List Transaction
  sessions : List Session
  /-- The transactions that callers were given, by number; `none` once a caller let go of one. -/
  handed : List (Option Nat)
  /-- The journal, last entry first. -/
  journal : List Entry

namespace Cluster

instance : Journaled Cluster where
  record := fun w entry => { w with journal := entry :: w.journal }

/-- A cluster of as many empty backends. -/
def ofBackends (count : Nat) : Cluster :=
  ⟨List.replicate count .empty, [], [], [], [], []⟩

def entries (w : Cluster) : List Entry :=
  w.journal.reverse

/-! ## Backends -/

def backend (w : Cluster) (number : Nat) : Backend :=
  w.backends.getD number .empty

def callBackend {α : Type} (w : Cluster) (number : Nat) (call : Backend → α × Backend) :
    α × Cluster :=
  let (answer, b) := call (w.backend number)
  (answer, { w with backends := w.backends.set number b })

def mapBackend (w : Cluster) (number : Nat) (change : Backend → Backend) : Cluster :=
  { w with backends := w.backends.set number (change (w.backend number)) }

/-- The connection behind a reference. -/
def native (w : Cluster) (ref : NativeRef) : Connection :=
  ((w.backend ref.backend).connection? ref.connection).getD .fresh

def beginNative (w : Cluster) (ref : NativeRef) : Except BackendError Unit × Cluster :=
  w.callBackend ref.backend fun b => b.begin ref.connection

def commitNative (w : Cluster) (ref : NativeRef) : Except BackendError Unit × Cluster :=
  w.callBackend ref.backend fun b => b.commit ref.connection

def rollbackNative (w : Cluster) (ref : NativeRef) : Except BackendError Unit × Cluster :=
  w.callBackend ref.backend fun b => b.rollback ref.connection

def closeNative (w : Cluster) (ref : NativeRef) : Except BackendError Unit × Cluster :=
  w.callBackend ref.backend fun b => b.close ref.connection

def setNativeTimeout (w : Cluster) (seconds : UInt32) (ref : NativeRef) : Cluster :=
  w.mapBackend ref.backend fun b => b.setTimeout ref.connection seconds

/-- How many local commits there were on all backends. -/
def commits (w : Cluster) : Nat :=
  w.backends.foldl (fun total b => total + b.calls.commits) 0

/-! ## Shard handles -/

def slot (w : Cluster) (shard : Shard) : Slot :=
  w.slots.getD shard.handle ⟨none, []⟩

def setSlot (w : Cluster) (shard : Shard) (slot : Slot) : Cluster :=
  { w with slots := w.slots.set shard.handle slot }

def connection? (w : Cluster) (shard : Shard) : Option NativeRef :=
  (w.slot shard).connection.map fun number => ⟨shard.backend, number⟩

def isConnected (w : Cluster) (shard : Shard) : Bool :=
  (w.connection? shard).isSome

/-- Add a handle to the shard with the given ids. -/
def addShard (w : Cluster) (physicalId : ShardId) (served : IdSet) (backend : Nat) :
    Except ShardError Shard × Cluster :=
  match Shard.create w.slots.length physicalId served backend with
  | .error e => (.error e, w)
  | .ok shard => (.ok shard, { w with slots := w.slots ++ [⟨none, []⟩] })

/-- Queue an event for the moment a shard is connected. If it is connected already, the event is
not queued and the connection is returned instead. -/
def registerEvent (w : Cluster) (shard : Shard) (event : OpenEvent) : Option NativeRef × Cluster :=
  match w.connection? shard with
  | some ref => (some ref, w)
  | none =>
    let slot := w.slot shard
    (none, w.setSlot shard { slot with events := slot.events ++ [event] })

/-! ## Transactions -/

def transaction (w : Cluster) (tx : Nat) : Transaction :=
  w.transactions.getD tx .fresh

def mapTransaction (w : Cluster) (tx : Nat) (change : Transaction → Transaction) : Cluster :=
  { w with transactions := w.transactions.set tx (change (w.transaction tx)) }

def setStatus (w : Cluster) (tx : Nat) (status : TransactionStatus) : Cluster :=
  w.mapTransaction tx fun t => { t with status := status }

/-- Whether a logical transaction is still referred to, by a caller or as the current one of a
session. -/
def isReferenced (w : Cluster) (tx : Nat) : Bool :=
  w.handed.contains (some tx) || w.sessions.any fun session => session.current = some tx

/-- The transaction that a caller was given under a number, unless it was let go. -/
def handed? (w : Cluster) (number : Nat) : Option Nat :=
  (w.handed[number]?).join

/-- Give a transaction to a caller: under the number that the caller has for it, or the next. -/
def handOut (w : Cluster) (tx : Nat) : Nat × Cluster :=
  match w.handed.findIdx? fun handed => handed = some tx with
  | some number => (number, w)
  | none => (w.handed.length, { w with handed := w.handed ++ [some tx] })

/-- The caller lets go of a transaction. The number stays used. -/
def letGo (w : Cluster) (number : Nat) : Cluster :=
  { w with handed := w.handed.set number none }

/-! ## Sessions -/

def session (w : Cluster) (number : Nat) : Session :=
  w.sessions.getD number ⟨[], none, none, true⟩

def mapSession (w : Cluster) (number : Nat) (change : Session → Session) : Cluster :=
  { w with sessions := w.sessions.set number (change (w.session number)) }

end Cluster

end ScatterGather
