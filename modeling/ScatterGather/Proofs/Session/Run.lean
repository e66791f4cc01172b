import ScatterGather.Cluster.Session

/-!
# Runs of a session

What callers can do with one session, as data, so that a run is a list of calls in any order. A
transaction is named as the session's current one, or by the number under which it was handed out;
a shard by its place among the session's handles.
-/

namespace ScatterGather

/-- How a caller names a transaction. -/
inductive TransactionName where
  | current
  | handed (number : Nat)

/-- A call of a session, of one of its handles or transactions, or of a backend under them. -/
inductive SessionCall where
  | transaction
  | beginTransaction
  | begin (name : TransactionName)
  | commit (name : TransactionName)
  | rollback (name : TransactionName)
  | setTimeout (name : TransactionName) (seconds : UInt32)
  | register (name : TransactionName) (sync : Synchronization)
  /-- The caller lets go of a transaction that it was handed. -/
  | letGo (number : Nat)
  | establish (shard : Nat)
  | hook (shard : Nat) (hook : Hook)
  | write (shard : Nat) (key : String) (value : Option Json)
  | closeShard (shard : Nat)
  | close
  /-- The next call of this kind fails on a backend. -/
  | arm (backend : Nat) (call : NativeCall)

/-- A call that closes no handle and arms no rollback fault, and that begins or completes no other
transaction than the session's current one. -/
def SessionCall.Orderly : SessionCall → Prop
  | begin (.handed _) | commit (.handed _) | rollback (.handed _) => False
  | closeShard _ | close => False
  | arm _ call => call ≠ .rollingBack
  | _ => True

/-- A call that registers no hook. -/
def SessionCall.HookFree : SessionCall → Prop
  | hook _ _ => False
  | _ => True

/-- A call that may be made between the begin and the end of a transaction. -/
def SessionCall.Ongoing : SessionCall → Prop
  | commit _ | rollback _ => False
  | call => call.Orderly ∧ call.HookFree

namespace Cluster

/-- The transaction that a caller names, if there is one. -/
def named? (w : Cluster) (number : Nat) : TransactionName → Option Nat
  | .current => (w.session number).current
  | .handed n => w.handed? n

/-- Carry out a step on a named transaction. -/
def onNamed (w : Cluster) (number : Nat) (name : TransactionName) (step : Nat → Cluster) :
    Cluster :=
  match w.named? number name with
  | some tx => step tx
  | none => w

/-- Carry out a step on a handle. -/
def onHandle (w : Cluster) (number : Nat) (index : Nat) (step : Shard → Cluster) : Cluster :=
  match (w.session number).shards[index]? with
  | some shard => step shard
  | none => w

/-- Hand a transaction out, if there is one. -/
def handOutOk : Except ShardError Nat × Cluster → Cluster
  | (.ok tx, w) => (w.handOut tx).2
  | (.error _, w) => w

/-- The state after one call of a session. -/
def after (number : Nat) (w : Cluster) : SessionCall → Cluster
  | .transaction => handOutOk (w.currentTransaction number)
  | .beginTransaction => handOutOk (w.beginTransaction number)
  | .begin name => w.onNamed number name fun tx => (w.begin tx).2
  | .commit name => w.onNamed number name fun tx => (w.commit tx).2
  | .rollback name => w.onNamed number name fun tx => (w.rollback tx).2
  | .setTimeout name seconds => w.onNamed number name fun tx => w.setTimeout tx seconds
  | .register name sync => w.onNamed number name fun tx => w.register tx sync
  | .letGo n => w.letGo n
  | .establish index => w.onHandle number index fun shard => (w.establish shard).2
  | .hook index hook => w.onHandle number index fun shard => (w.registerEvent shard (.hook hook)).2
  | .write index key value => w.onHandle number index fun shard => (w.write shard key value).2
  | .closeShard index => w.onHandle number index fun shard => (w.closeShard shard).2
  | .close => (w.closeSession number).2
  | .arm i call => w.mapBackend i fun b => b.arm call

/-- The state after some calls of a session. -/
def run (number : Nat) (w : Cluster) (calls : List SessionCall) : Cluster :=
  calls.foldl (after number) w

/-- A call of a run, with the state in which it is made. -/
structure Moment where
  state : Cluster
  call : SessionCall

/-- The state that a call leaves behind. -/
def Moment.after (m : Moment) (number : Nat) : Cluster :=
  Cluster.after number m.state m.call

/-- The moments of a run, one for each call. -/
def moments (number : Nat) : Cluster → List SessionCall → List Moment
  | _, [] => []
  | w, call :: rest => ⟨w, call⟩ :: moments number (after number w call) rest

theorem moments_append (number : Nat) (w : Cluster) (calls more : List SessionCall) :
    moments number w (calls ++ more)
      = moments number w calls ++ moments number (w.run number calls) more := by
  induction calls generalizing w with
  | nil => rfl
  | cons first rest ih => exact congrArg (⟨w, first⟩ :: ·) (ih (after number w first))

/-- The calls of a run before one of its moments, and those that follow. -/
theorem split_of_mem_moments {number : Nat} {w : Cluster} {calls : List SessionCall} {m : Moment}
    (h : m ∈ moments number w calls) :
    ∃ before later, calls = before ++ m.call :: later ∧ m.state = w.run number before := by
  induction calls generalizing w with
  | nil => cases h
  | cons first rest ih =>
    rcases List.mem_cons.mp h with rfl | hrest
    · exact ⟨[], rest, rfl, rfl⟩
    · obtain ⟨before, later, rfl, hstate⟩ := ih hrest
      exact ⟨first :: before, later, rfl, hstate⟩

end Cluster

end ScatterGather
