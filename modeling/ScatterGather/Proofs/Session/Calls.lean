import ScatterGather.Proofs.Cluster.Notices
import ScatterGather.Proofs.Session.Run

/-!
# What each call of a session does

A call takes the steps of the function it stands for. So synchronizations are called by commits and
rollbacks alone: all other calls may leave remarks of hooks in the journal, but none of a
synchronization, and they neither take a synchronization away from a transaction nor, a begin apart,
change its status.
-/

namespace ScatterGather

open Cluster in
/-- The kinds of steps that a call takes. -/
def SessionCall.effects : SessionCall → List Effect
  | transaction => .hand :: .report :: renewing
  | beginTransaction => .hand :: beginning ++ renewing
  | begin _ => beginning
  | commit _ => committing
  | rollback _ => rollingBack
  | setTimeout _ _ => [.time, .timeout]
  | register _ _ => [.register]
  | letGo _ => [.hand]
  | establish _ | write _ _ _ => connecting
  | hook _ _ => [.slot]
  | closeShard _ => parting
  | close => .session :: parting
  | arm _ _ => [.arm]

/-- A call that begins or completes a transaction, or registers a synchronization on it. -/
def SessionCall.Marks : SessionCall → Prop
  | beginTransaction | begin _ | commit _ | rollback _ | register _ _ => True
  | _ => False

namespace Cluster

variable {w : Cluster}

/-- What holds of the state and of each that a step on a transaction leads to. -/
theorem onNamed_of {P : Cluster → Prop} {number : Nat} {name : TransactionName}
    {step : Nat → Cluster} (hsame : P w)
    (hstep : ∀ tx, w.named? number name = some tx → P (step tx)) :
    P (w.onNamed number name step) := by
  rw [onNamed]
  split
  case h_1 tx htx => exact hstep tx htx
  case h_2 => exact hsame

/-- What holds of the state and of each that a step on a handle leads to. -/
theorem onHandle_of {P : Cluster → Prop} {number index : Nat} {step : Shard → Cluster}
    (hsame : P w) (hstep : ∀ shard, P (step shard)) : P (w.onHandle number index step) := by
  rw [onHandle]
  split
  · exact hstep _
  · exact hsame

theorem handOutOk_work (answer : Except ShardError Nat × Cluster) :
    Work [.hand] answer.2 (handOutOk answer) := by
  obtain ⟨outcome, w⟩ := answer
  cases outcome with
  | ok tx =>
    rw [handOutOk, handOut]
    split
    · exact .refl _ w
    · exact .single (.hand ..) rfl
  | error e => exact .refl _ w

theorem after_work (number : Nat) (w : Cluster) (call : SessionCall) :
    Work call.effects w (after number w call) := by
  have hsame : Work call.effects w w := .refl _ w
  cases call with
  | transaction =>
    exact ((w.currentTransaction_work number).mono rfl).trans ((handOutOk_work _).mono rfl)
  | beginTransaction =>
    exact ((w.beginTransaction_work number).mono rfl).trans ((handOutOk_work _).mono rfl)
  | begin name => exact onNamed_of hsame fun tx _ => w.begin_work tx
  | commit name => exact onNamed_of hsame fun tx _ => w.commit_work tx
  | rollback name => exact onNamed_of hsame fun tx _ => w.rollback_work tx
  | setTimeout name seconds => exact onNamed_of hsame fun tx _ => w.setTimeout_work tx seconds
  | register name sync => exact onNamed_of hsame fun tx _ => .single (.register w tx sync) rfl
  | letGo n => exact .single (.hand ..) rfl
  | establish index => exact onHandle_of hsame w.establish_work
  | hook index hook => exact onHandle_of hsame fun shard => w.registerEvent_work shard _
  | write index key value => exact onHandle_of hsame fun shard => w.write_work shard key value
  | closeShard index => exact onHandle_of hsame w.closeShard_work
  | close => exact w.closeSession_work number
  | arm i call => exact .single (.arm ..) rfl

/-- The calls that neither begin nor complete a transaction, nor register a synchronization. -/
theorem after_unheard (number : Nat) (w : Cluster) {call : SessionCall} (h : ¬ call.Marks) :
    Unheard HookRemark w (after number w call) := by
  have hwork := after_work number w call
  cases call with
  | beginTransaction | begin | commit | rollback | register => exact absurd trivial h
  | _ => exact hwork.unheard rfl

/-- A call that is neither a commit nor a rollback leaves no remark of a synchronization. -/
theorem after_adds (number : Nat) (w : Cluster) {call : SessionCall}
    (hcommit : ∀ name, call ≠ .commit name) (hrollback : ∀ name, call ≠ .rollback name) :
    Adds HookRemark w (after number w call) := by
  have hwork := after_work number w call
  cases call with
  | commit name => exact absurd rfl (hcommit name)
  | rollback name => exact absurd rfl (hrollback name)
  | _ => exact hwork.adds rfl

end Cluster

end ScatterGather
