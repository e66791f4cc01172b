import Mathlib.Data.List.Perm.Basic
import ScatterGather.Proofs.Cluster.Notices
import ScatterGather.Proofs.Cluster.Turns
import ScatterGather.Proofs.Session.Retry

/-!
# Rollbacks that are tried again

A rollback asks every member that has not committed, also after one of them refused. What refused is as
it was, and everything else is idle, so that the next attempt asks for what is left. Over all attempts
each member is rolled back once, and then no fault is left that could keep the last attempt from
finishing.
-/

namespace ScatterGather

/-- A call in a series of attempts to roll a transaction back. -/
def TransactionCall.Retries : TransactionCall → Prop
  | .rollback | .arm _ _ => True
  | .begin | .commit => False

namespace Cluster

variable {w w' w₁ : Cluster} {tx : Nat} {members : List Enlisted}

/-! ## One attempt -/

/-- A transaction that can be rolled back, with distinct members that are connected. -/
structure Retryable (w : Cluster) (tx : Nat) : Prop where
  unfinished : (w.transaction tx).status.isUnfinished = true
  opened : ∀ e ∈ (w.transaction tx).enlisted, w.IsOpened e.native
  distinct : (w.natives tx).Nodup

theorem completeWith_backends (w : Cluster) (tx : Nat) (completion : CompletionStatus) :
    (w.completeWith tx completion).backends = w.backends := by
  rw [completeWith, notifyAfter_eq]
  rfl

/-- Of the members that were called in turn, those that were refused are active. -/
theorem CalledInTurn.activeOf_eq {refused : List Enlisted}
    (h : CalledInTurn .rollingBack .rolledBack (w.activeOf members) refused w w₁)
    (hdistinct : (members.map (·.native)).Nodup) : w₁.activeOf members = refused := by
  have hdue := w.activeOf_sublist members
  have hrefused : refused.Sublist (w.activeOf members) := by
    rw [h.refused_eq]
    exact refusedBy_sublist _ _
  have hmembers : members.Nodup := hdistinct.of_map
  have hsettled := h.settled (hdistinct.sublist (hdue.map _))
  -- Both are parts of the members, in order, so it is enough that they have the same elements.
  refine (hmembers.perm_iff_eq_of_sublist (w₁.activeOf_sublist members) (hrefused.trans hdue)).mp ?_
  refine (List.perm_ext_iff_of_nodup (hmembers.sublist (w₁.activeOf_sublist members))
    (hmembers.sublist (hrefused.trans hdue))).mpr fun e => ?_
  rw [mem_activeOf]
  constructor
  · rintro ⟨he, hactive⟩
    by_cases hlive : (w.native e.native).isActive = true
    · by_contra hmem
      obtain ⟨hphase, -⟩ := (hsettled e (mem_activeOf.mpr ⟨he, hlive⟩)).2 hmem
      rw [Connection.isActive, hphase] at hactive
      cases hactive
    · rw [h.within.others e.native (not_mem_activeOf hlive)] at hactive
      exact absurd hactive hlive
  · intro hmem
    have hlive := hrefused.subset hmem
    obtain ⟨he, hactive⟩ := mem_activeOf.mp hlive
    obtain ⟨hphase, -⟩ := (hsettled e hlive).1 hmem
    refine ⟨he, ?_⟩
    rw [Connection.isActive, hphase]
    exact hactive

/-- The faults decide who refuses a rollback. If no one does, it is done; otherwise it reports who
refused and the status stays. -/
theorem Retryable.rollback_cases (h : w.Retryable tx) :
    let members := (w.transaction tx).enlisted
    let calls := rollbackCalls members w
    let tried := w.rollback tx
    calls.map (·.member) = members.filter (fun e => !(w.native e.native).wasCommitted)
    ∧ ∃ refused w₁, CalledInTurn .rollingBack .rolledBack (w.activeOf members) refused w w₁
      ∧ refusals calls = refused.map (fun e => (e, .injectedFault .rollingBack))
      ∧ tried.2.backends = w₁.backends ∧ (tried.2.transaction tx).enlisted = members
      ∧ ((refused = [] ∧ tried.1 = .ok () ∧ (tried.2.transaction tx).status = .rolledBack) ∨
        refused ≠ [] ∧ tried.1 = .error (.rollbackFailure ((refusals calls).map fun refusal =>
            ⟨refusal.1.shard, refusal.2.message⟩))
          ∧ (tried.2.transaction tx).status = (w.transaction tx).status) := by
  intro members calls tried
  obtain ⟨refused, hcalled, hasked, hrefusals⟩ := rollbackEach_called h.opened h.distinct
  refine ⟨hasked, refused, (rollbackEach members w).2, hcalled, hrefusals, ?_⟩
  have hnone : refused = [] ↔ refusals calls = [] := by
    rw [show refusals calls = _ from hrefusals, List.map_eq_nil_iff]
  have hbegun : (w.transaction tx).status ≠ .created := by
    intro hcreated
    have hunfinished := h.unfinished
    rw [hcreated] at hunfinished
    cases hunfinished
  rcases rollback_unfinished h.unfinished with ⟨hnil, hdone⟩ | ⟨first, others, hcons, hdone⟩
  · have hwithin := (completeWith_work (report .info "rolled back transaction"
      ((rollbackEach members w).2.setStatus tx .rolledBack)) tx .rolledBack).quiet rfl
    rw [show tried = _ from hdone]
    refine ⟨completeWith_backends .., ?_, .inl ⟨hnone.mpr hnil, rfl, ?_⟩⟩
    · exact (hwithin.enlisted tx).trans ((enlisted_setStatus ..).trans (hcalled.within.enlisted tx))
    · exact (hwithin.status tx).trans
        (status_setStatus (hcalled.within.transactions ▸ lt_of_begun hbegun) _)
  · have hwithin := ((rollbackEach members w).2.completeWith_work tx .unknown).quiet rfl
    have hsome := fun hnil => hcons.trans_ne (List.cons_ne_nil _ _) (hnone.mp hnil)
    rw [show tried = _ from hdone, ← hcons]
    refine ⟨completeWith_backends .., ?_, .inr ⟨hsome, rfl, ?_⟩⟩
    · exact (hwithin.enlisted tx).trans (hcalled.within.enlisted tx)
    · exact (hwithin.status tx).trans (hcalled.within.status tx)

/-- Whether a rollback is done depends on whether anyone refused, and it reports who did. -/
theorem Retryable.rollback_answer (h : w.Retryable tx) :
    let refused := refusals (rollbackCalls (w.transaction tx).enlisted w)
    let tried := w.rollback tx
    (tried.1 = .ok () ↔ refused = [])
    ∧ (refused = [] → (tried.2.transaction tx).status = .rolledBack)
    ∧ (refused ≠ [] → tried.1 = .error (.rollbackFailure (refused.map fun refusal =>
        ⟨refusal.1.shard, refusal.2.message⟩))
      ∧ (tried.2.transaction tx).status = (w.transaction tx).status) := by
  intro refused tried
  obtain ⟨-, failed, -, -, hrefused, -, -, hend⟩ := h.rollback_cases
  have hnone : refused = [] ↔ failed = [] := by
    rw [show refused = _ from hrefused, List.map_eq_nil_iff]
  rcases hend with ⟨hnil, hok, hstatus⟩ | ⟨hsome, herror, hstatus⟩
  · have hnil := hnone.mpr hnil
    exact ⟨⟨fun _ => hnil, fun _ => hok⟩, fun _ => hstatus, fun hsome => absurd hnil hsome⟩
  · have hsome := fun hnil => hsome (hnone.mp hnil)
    refine ⟨⟨fun hok => ?_, fun hnil => absurd hnil hsome⟩, fun hnil => absurd hnil hsome,
      fun _ => ⟨herror, hstatus⟩⟩
    rw [herror] at hok
    cases hok

/-- What refused a rollback is what is left to do, and it is as it was; so are the members that have
committed. -/
theorem Retryable.rollback_leaves (h : w.Retryable tx) :
    let members := (w.transaction tx).enlisted
    let refused := (refusals (rollbackCalls members w)).map (·.1)
    let tried := w.rollback tx
    tried.2.activeOf members = refused
    ∧ (∀ e ∈ refused, (tried.2.native e.native).phase = (w.native e.native).phase
      ∧ (tried.2.native e.native).staged = (w.native e.native).staged)
    ∧ (∀ e ∈ members, (w.native e.native).wasCommitted = true →
      tried.2.native e.native = w.native e.native) := by
  intro members refused tried
  obtain ⟨-, failed, w₁, hcalled, hrefusals, hbackends, -⟩ := h.rollback_cases
  have hrefused : refused = failed := by
    rw [show refused = _ from congrArg (List.map (·.1)) hrefusals, List.map_map]
    exact List.map_id' failed
  rw [hrefused]
  refine ⟨?_, fun e he => ?_, fun e _ hcommitted => ?_⟩
  · exact (activeOf_congr fun e _ => native_congr hbackends e.native).trans
      (hcalled.activeOf_eq h.distinct)
  · have hdue : e ∈ w.activeOf members := by
      rw [hcalled.refused_eq] at he
      exact (refusedBy_sublist _ _).subset he
    rw [native_congr hbackends]
    exact (hcalled.settled (h.distinct.sublist ((w.activeOf_sublist _).map _)) e hdue).1 he
  · have hidle : (w.native e.native).isActive ≠ true := by
      simp_all [Connection.isActive, Connection.wasCommitted]
    rw [native_congr hbackends]
    exact hcalled.within.others e.native (not_mem_activeOf hidle)

/-- Who refused is decided by the faults that are armed. -/
theorem Retryable.refusals_eq (h : w.Retryable tx) :
    refusals (rollbackCalls (w.transaction tx).enlisted w)
      = (refusedBy (w.armed .rollingBack) (w.activeOf (w.transaction tx).enlisted)).map
        fun e => (e, .injectedFault .rollingBack) := by
  obtain ⟨-, failed, w₁, hcalled, hrefusals, -⟩ := h.rollback_cases
  exact hcalled.refused_eq ▸ hrefusals

/-- A rollback that meets no fault is done. -/
theorem Retryable.rollback_done (h : w.Retryable tx)
    (hunarmed : ∀ e ∈ (w.transaction tx).enlisted, w.armed .rollingBack e.native.backend = false) :
    (w.rollback tx).1 = .ok () := by
  refine h.rollback_answer.1.mpr ?_
  rw [h.refusals_eq, List.map_eq_nil_iff]
  exact refusedBy_eq_nil_iff.mpr fun e he => hunarmed e (mem_activeOf.mp he).1

/-! ## All attempts -/

/-- From one state to a later one, between which nothing but rollbacks of a transaction were tried:
local transactions are as far as they were, or were rolled back, which was counted once. -/
structure Retried (tx : Nat) (w w' : Cluster) : Prop where
  enlisted : (w'.transaction tx).enlisted = (w.transaction tx).enlisted
  opened : ∀ ref, w.IsOpened ref → w'.IsOpened ref
  stores : SameStores w w'
  settled : ∀ ref, ((w'.native ref).phase = (w.native ref).phase
      ∧ (w'.native ref).staged = (w.native ref).staged) ∨
    (w.native ref).isActive = true ∧ (w'.native ref).phase = .rolledBack
      ∧ (w'.native ref).staged = ∅
  counted : ∀ i, (w'.backend i).calls.rollbacks
      + ((w'.activeOf (w.transaction tx).enlisted).countP fun e => e.native.backend = i)
    = (w.backend i).calls.rollbacks
      + (w.activeOf (w.transaction tx).enlisted).countP fun e => e.native.backend = i

/-- How many of some calls on a transaction end a local one. -/
def endings (tx : Nat) (ref : NativeRef) : List TransactionCall → Cluster → Nat
  | [], _ => 0
  | call :: rest, w =>
    let w' := w.afterCall tx call
    (if (w.native ref).isActive && !(w'.native ref).isActive then 1 else 0)
      + endings tx ref rest w'

namespace Retried

theorem refl (tx : Nat) (w : Cluster) : Retried tx w w :=
  ⟨rfl, fun _ h => h, .refl w, fun _ => .inl ⟨rfl, rfl⟩, fun _ => rfl⟩

/-- What is not active any more does not become active again. -/
theorem isActive (h : Retried tx w w') {ref : NativeRef} (hidle : (w.native ref).isActive = false) :
    (w'.native ref).isActive = false := by
  rcases h.settled ref with ⟨hphase, -⟩ | ⟨hactive, -⟩
  · rw [Connection.isActive, hphase]
    exact hidle
  · rw [hidle] at hactive
    cases hactive

theorem trans {w'' : Cluster} (h : Retried tx w w') (h' : Retried tx w' w'') :
    Retried tx w w'' where
  enlisted := h'.enlisted.trans h.enlisted
  opened := fun ref hopened => h'.opened ref (h.opened ref hopened)
  stores := h.stores.trans h'.stores
  settled := fun ref => by
    rcases h'.settled ref with ⟨hphase, hstaged⟩ | ⟨hactive, hrolledBack⟩
    · rw [hphase, hstaged]
      exact h.settled ref
    · refine .inr ⟨?_, hrolledBack⟩
      by_contra hidle
      rw [h.isActive (Bool.eq_false_iff.mpr hidle)] at hactive
      cases hactive
  counted := fun i => by
    have hnow := h.counted i
    have hlater := h'.counted i
    rw [h.enlisted] at hlater
    exact hlater.trans hnow

theorem retryable (h : Retried tx w w') (hbefore : w.Retryable tx)
    (hunfinished : (w'.transaction tx).status.isUnfinished = true) : w'.Retryable tx := by
  refine ⟨hunfinished, ?_, ?_⟩
  · rw [h.enlisted]
    exact fun e he => h.opened e.native (hbefore.opened e he)
  · rw [natives, h.enlisted]
    exact hbefore.distinct

/-- One more attempt. -/
theorem rollback (h : w.Retryable tx) : Retried tx w (w.rollback tx).2 := by
  obtain ⟨-, refused, w₁, hcalled, -, hbackends, henlisted, -⟩ := h.rollback_cases
  have hactive := hcalled.activeOf_eq h.distinct
  have hsettled := hcalled.settled (h.distinct.sublist ((w.activeOf_sublist _).map _))
  generalize (w.rollback tx).2 = w' at hbackends henlisted
  refine ⟨henlisted, fun ref hopened => ?_, ?_, fun ref => ?_, fun i => ?_⟩
  · rw [IsOpened, backend_congr hbackends]
    exact hcalled.within.isOpened hopened
  · exact hcalled.stores.trans (.of_backends hbackends)
  · rw [native_congr hbackends]
    by_cases hdue : ref ∈ (w.activeOf (w.transaction tx).enlisted).map (·.native)
    · obtain ⟨e, he, rfl⟩ := List.mem_map.mp hdue
      by_cases hrefused : e ∈ refused
      · exact .inl ((hsettled e he).1 hrefused)
      · exact .inr ⟨(mem_activeOf.mp he).2, (hsettled e he).2 hrefused⟩
    · rw [hcalled.within.others ref hdue]
      exact .inl ⟨rfl, rfl⟩
  · rw [backend_congr hbackends, activeOf_congr fun e _ => native_congr hbackends e.native, hactive]
    exact hcalled.counted i

theorem arm (tx : Nat) (w : Cluster) (i : Nat) (call : NativeCall) :
    Retried tx w (w.mapBackend i fun b => b.arm call) := by
  have hcalls : ∀ j, ((w.mapBackend i fun b => b.arm call).backend j).calls
      = (w.backend j).calls := by
    intro j
    have hbackend : (w.mapBackend i fun b => b.arm call).backend j =
        if i = j ∧ i < w.backends.length then (w.backend i).arm call else w.backend j := getD_set ..
    rw [hbackend]
    split
    case isTrue hj => rw [← hj.1]; rfl
    case isFalse => rfl
  refine ⟨rfl, fun ref hopened => ?_, fun j => (w.backend_arm i j call).2.1, fun ref => ?_,
    fun j => ?_⟩
  · rw [IsOpened, (w.backend_arm i _ call).1]
    exact hopened
  · rw [w.native_arm]
    exact .inl ⟨rfl, rfl⟩
  · rw [hcalls, activeOf_congr fun e _ => w.native_arm i call e.native]

theorem afterCall (hopened : ∀ e ∈ (w.transaction tx).enlisted, w.IsOpened e.native)
    (hdistinct : (w.natives tx).Nodup) {call : TransactionCall} (hcall : call.Retries) :
    Retried tx w (w.afterCall tx call) := by
  cases call with
  | begin | commit => exact hcall.elim
  | rollback =>
    by_cases hunfinished : (w.transaction tx).status.isUnfinished = true
    · exact rollback ⟨hunfinished, hopened, hdistinct⟩
    · have hrefused : w.rollback tx = (.error (.transaction _), w) := if_neg hunfinished
      rw [Cluster.afterCall, hrefused]
      exact .refl tx w
  | arm i call => exact .arm tx w i call

/-- A member comes to an end in at most one of the attempts. -/
theorem afterCalls (hopened : ∀ e ∈ (w.transaction tx).enlisted, w.IsOpened e.native)
    (hdistinct : (w.natives tx).Nodup) {calls : List TransactionCall}
    (hcalls : ∀ call ∈ calls, call.Retries) :
    Retried tx w (w.afterCalls tx calls)
      ∧ ∀ ref, endings tx ref calls w ≤ if (w.native ref).isActive then 1 else 0 := by
  induction calls generalizing w with
  | nil => exact ⟨.refl tx w, fun _ => Nat.zero_le _⟩
  | cons call rest ih =>
    obtain ⟨hcall, hrest⟩ := List.forall_mem_cons.mp hcalls
    have hnow := afterCall hopened hdistinct hcall
    obtain ⟨hlater, hendings⟩ := ih (w := w.afterCall tx call)
      (hnow.enlisted ▸ fun e he => hnow.opened e.native (hopened e he))
      (by rw [natives, hnow.enlisted]; exact hdistinct) hrest
    refine ⟨hnow.trans hlater, fun ref => ?_⟩
    have hrest := hendings ref
    rw [endings]
    cases hactive : (w.native ref).isActive with
    | false =>
      rw [hnow.isActive hactive] at hrest ⊢
      simpa using hrest
    | true =>
      cases hstill : ((w.afterCall tx call).native ref).isActive with
      | false =>
        have hnone : endings tx ref rest (w.afterCall tx call) = 0 := by simpa [hstill] using hrest
        simp [hnone]
      | true => simpa [hstill] using hrest

end Retried

/-- A rollback tries everything, reports exactly, and can be tried again. It asks the members that have
not committed and no others, and of these the first active one on each backend that has a fault armed
refuses, and no other. If none refuses, the transaction is rolled back. Otherwise it reports who refused
and keeps its status. Exactly those that refused are active afterwards, with what they had staged, and
no store has changed. Nor does any later attempt change a store; over all attempts each member comes to
an end at most once, and every rollback is counted once on its backend. As soon as no fault is armed on
the backends of its members, the next attempt succeeds. -/
theorem rollback_tries_all (h : w.Retryable tx) :
    let members := (w.transaction tx).enlisted
    let calls := rollbackCalls members w
    let refused := refusals calls
    let tried := w.rollback tx
    calls.map (·.member) = members.filter (fun e => !(w.native e.native).wasCommitted)
    ∧ (∀ e ∈ members, (w.native e.native).wasCommitted = true →
      tried.2.native e.native = w.native e.native)
    ∧ refused = (refusedBy (w.armed .rollingBack) (w.activeOf members)).map
      (fun e => (e, .injectedFault .rollingBack))
    ∧ (tried.1 = .ok () ↔ refused = [])
    ∧ (refused = [] → (tried.2.transaction tx).status = .rolledBack)
    ∧ (refused ≠ [] → tried.1 = .error (.rollbackFailure (refused.map fun refusal =>
        ⟨refusal.1.shard, refusal.2.message⟩))
      ∧ (tried.2.transaction tx).status = (w.transaction tx).status)
    ∧ tried.2.activeOf members = refused.map (·.1)
    ∧ (∀ e ∈ refused.map (·.1), (tried.2.native e.native).phase = (w.native e.native).phase
      ∧ (tried.2.native e.native).staged = (w.native e.native).staged)
    ∧ SameStores w tried.2
    ∧ ∀ later : List TransactionCall, (∀ call ∈ later, call.Retries) →
      let reached := tried.2.afterCalls tx later
      SameStores w reached
      ∧ (∀ e ∈ members, endings tx e.native (.rollback :: later) w ≤ 1)
      ∧ (∀ i, (reached.backend i).calls.rollbacks
          + ((reached.activeOf members).countP fun e => e.native.backend = i)
        = (w.backend i).calls.rollbacks
          + (w.activeOf members).countP fun e => e.native.backend = i)
      ∧ ((reached.transaction tx).status.isUnfinished = true →
        (∀ e ∈ members, reached.armed .rollingBack e.native.backend = false) →
        (reached.rollback tx).1 = .ok ()) := by
  intro members calls refused tried
  obtain ⟨hasked, -⟩ := h.rollback_cases
  obtain ⟨hok, hdone, hfailed⟩ := h.rollback_answer
  obtain ⟨hactive, hkept, hcommitted⟩ := h.rollback_leaves
  have htried : Retried tx w tried.2 := .rollback h
  refine ⟨hasked, hcommitted, h.refusals_eq, hok, hdone, hfailed, hactive, hkept, htried.stores, ?_⟩
  intro later hlater reached
  have hcalls : ∀ call ∈ TransactionCall.rollback :: later, call.Retries :=
    List.forall_mem_cons.mpr ⟨trivial, hlater⟩
  obtain ⟨hall, hendings⟩ := Retried.afterCalls h.opened h.distinct hcalls
  refine ⟨hall.stores, fun e _ => ?_, hall.counted, fun hunfinished hunarmed => ?_⟩
  · refine Nat.le_trans (hendings e.native) ?_
    split <;> omega
  · have hmembers : (reached.transaction tx).enlisted = members := hall.enlisted
    exact (hall.retryable h hunfinished).rollback_done fun e he => hunarmed e (hmembers ▸ he)

/-- Three shards, of which the first has committed and the third refuses its rollback once: only the
third is left for the second attempt. -/
theorem rollback_tries_all_twice :
    let factory : SessionFactory := ⟨[⟨.ofNat 0, .ofList [.ofNat 0], 0⟩,
      ⟨.ofNat 1, .ofList [.ofNat 1], 1⟩, ⟨.ofNat 2, .ofList [.ofNat 2], 2⟩], .default, none⟩
    let w := ((ofBackends 3).openSession factory).2.run 0 [.establish 0, .establish 1, .establish 2,
      .beginTransaction, .write 2 "k" (some (.string "v")), .arm 1 .committing, .commit .current,
      .arm 2 .rollingBack]
    let tried := w.rollback 0
    w.Retryable 0 ∧ (w.transaction 0).status = .failedCommit
      ∧ tried.1 = .error (.rollbackFailure [⟨.ofNat 2, "Injected fault on rollback"⟩])
      ∧ (tried.2.native ⟨2, 0⟩).staged.get? "k" = some (some (.string "v"))
      ∧ tried.2.activeOf (w.transaction 0).enlisted = [⟨.ofNat 2, ⟨2, 0⟩⟩]
      ∧ (tried.2.rollback 0).1 = .ok () := by
  intro factory w tried
  have hretryable : w.Retryable 0 := by
    refine ⟨by decide +kernel, ?_, by decide +kernel⟩
    unfold IsOpened
    decide +kernel
  have hrefusals : (refusals (rollbackCalls (w.transaction 0).enlisted w)).map (·.1)
      = [⟨.ofNat 2, ⟨2, 0⟩⟩] := by decide +kernel
  obtain ⟨-, -, -, -, -, hfailed, hactive, hkept, -, hagain⟩ := rollback_tries_all hretryable
  obtain ⟨-, hstatus⟩ := hfailed (by decide +kernel)
  have hstaged := (hkept ⟨.ofNat 2, ⟨2, 0⟩⟩ (by rw [hrefusals]; exact List.mem_singleton_self _)).2
  obtain ⟨-, -, -, hok⟩ := hagain [] nofun
  refine ⟨hretryable, by decide +kernel, by decide +kernel, ?_, hactive.trans hrefusals,
    hok (by decide +kernel) (by decide +kernel)⟩
  simp only [tried] at hstaged ⊢
  rw [hstaged]
  decide +kernel

end Cluster

end ScatterGather
