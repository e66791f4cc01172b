import ScatterGather.Proofs.Cluster.Turns
import ScatterGather.Proofs.Session.Retry
import ScatterGather.Proofs.Session.Succession

/-!
# A begin that fails on some shards

Begin asks every member, also after one was refused, and takes back what it began when any was. Where
the members were idle before, all of them are idle again then, and the transaction can be begun again,
whatever was called on it meanwhile.
-/

namespace ScatterGather.Cluster

variable {w w' : Cluster} {tx : Nat} {members : List Enlisted}

/-! ## All or nothing -/

/-- A transaction that was created, with distinct members that are connected and idle. -/
structure Startable (w : Cluster) (tx : Nat) : Prop where
  known : tx < w.transactions.length
  created : (w.transaction tx).status = .created
  opened : ∀ e ∈ (w.transaction tx).enlisted, w.IsOpened e.native
  idle : ∀ e ∈ (w.transaction tx).enlisted, (w.native e.native).isActive = false
  distinct : (w.natives tx).Nodup

/-- Where no rollback fails, compensation leaves no member active. -/
theorem compensate_idle (hdistinct : (members.map (·.native)).Nodup) (hquiet : w.NoRollbackFault) :
    ∀ e ∈ members, ((compensate members w).native e.native).isActive = false := by
  obtain ⟨refused, hcalled⟩ := compensate_called (w := w) hdistinct
  have hnone : refused = [] := by
    rw [hcalled.refused_eq]
    exact refusedBy_eq_nil_iff.mpr fun e _ => hquiet e.native.backend
  have hactive : ((w.activeOf members).map (·.native)).Nodup :=
    hdistinct.sublist ((w.activeOf_sublist members).map _)
  intro e he
  by_cases hlive : (w.native e.native).isActive = true
  · have hmem := mem_activeOf.mpr ⟨he, hlive⟩
    obtain ⟨hphase, -⟩ := (hcalled.settled hactive e hmem).2 (by simp [hnone])
    simp [Connection.isActive, hphase]
  · rw [hcalled.within.others e.native (not_mem_activeOf hlive)]
    exact Bool.eq_false_iff.mpr hlive

namespace Startable

/-- The faults decide whose begin is refused. If there is none, the begin succeeds; otherwise it
reports who refused, and the transaction can be begun again. -/
theorem begin_cases (h : w.Startable tx) (hquiet : w.NoRollbackFault) :
    let members := (w.transaction tx).enlisted
    let refused := refusals (beginCalls tx members w)
    let begun := w.begin tx
    refused = (refusedBy (w.armed .beginning) members).map (fun e => (e, .injectedFault .beginning))
    ∧ ((refused = [] ∧ begun.1 = .ok () ∧ (begun.2.transaction tx).status = .active
        ∧ ∀ e ∈ members, (begun.2.native e.native).isActive = true) ∨
      (refused ≠ []
        ∧ begun.1 = .error (.beginFailure (refused.map (·.1.shard)) (refused.head?.map (·.2.message)))
        ∧ begun.2.Startable tx ∧ begun.2.NoRollbackFault ∧ SameStores w begun.2
        ∧ (begun.2.transaction tx).enlisted = members
        ∧ ∀ e ∈ members, begun.2.armed .beginning e.native.backend = false)) := by
  intro members refused begun
  obtain ⟨failed, hcalled, hrefused⟩ := beginEach_called tx h.opened h.idle h.distinct
  have hsettled := hcalled.settled h.distinct
  refine ⟨hcalled.refused_eq ▸ hrefused, ?_⟩
  rcases begin_created h.created with ⟨hnone, text, hbegin⟩ | ⟨first, others, hsome, hbegin⟩
  · refine .inl ⟨hnone, congrArg Prod.fst hbegin, ?_⟩
    have hfailed : failed = [] := List.map_eq_nil_iff.mp (hrefused.symm.trans hnone)
    simp only [begun, hbegin]
    refine ⟨status_setStatus (hcalled.within.transactions ▸ h.known) _, fun e he => ?_⟩
    obtain ⟨hphase, -⟩ := (hsettled e he).2 (by simp [hfailed])
    exact decide_eq_true hphase
  · have hbegin : begun = (.error (.beginFailure (refused.map (·.1.shard))
        (refused.head?.map (·.2.message))), compensate members (beginEach tx members w).2) := by
      simp only [begun, hbegin, refused, hsome, members, List.head?_cons, Option.map_some]
    rw [hbegin]
    generalize (beginEach tx members w).2 = w₁ at hcalled
    have hundo := compensate_within members w₁
    have hwithin : Within (w.natives tx) w (compensate members w₁) := hcalled.within.trans hundo
    have hmembers := hwithin.enlisted tx
    have hidle := compensate_idle h.distinct (hcalled.within.noRollbackFault hquiet)
    refine .inr ⟨hsome.trans_ne (List.cons_ne_nil _ _), rfl, ?_, hwithin.noRollbackFault hquiet,
      hcalled.stores.trans ((compensate_work members w₁).sameStores rfl), hmembers, fun e he => ?_⟩
    · refine ⟨hwithin.transactions ▸ h.known, (hwithin.status tx).trans h.created, ?_,
        hmembers ▸ hidle, hwithin.natives tx ▸ h.distinct⟩
      rw [hmembers]
      exact fun e he => hwithin.isOpened (h.opened e he)
    · refine Bool.eq_false_iff.mpr fun harmed => ?_
      exact Bool.eq_false_iff.mp (hcalled.armed_called he) (hundo.armed _ _ harmed)

end Startable

/-! ## Trying again -/

/-- What is kept between the attempts to begin a transaction: as long as it is still as it was created,
it has the same members and can be begun, and no rollback is about to fail. -/
def Restartable (tx : Nat) (members : List Enlisted) (w : Cluster) : Prop :=
  (w.transaction tx).status = .created →
    w.Startable tx ∧ w.NoRollbackFault ∧ (w.transaction tx).enlisted = members

/-- No step leads back to the status of a transaction that was just created. -/
theorem Advances.created (h : Advances w w') (hcreated : (w'.transaction tx).status = .created) :
    (w.transaction tx).status = .created := by
  rcases h tx with hsame | hnext
  · exact hsame.symm.trans hcreated
  · generalize (w.transaction tx).status = before at hnext
    rw [hcreated] at hnext
    cases hnext

namespace Restartable

theorem begin (h : Restartable tx members w) : Restartable tx members (w.begin tx).2 := by
  intro hcreated
  obtain ⟨hstartable, hquiet, rfl⟩ := h ((w.begin_advances tx).created hcreated)
  rcases (hstartable.begin_cases hquiet).2 with
    ⟨-, -, hactive, -⟩ | ⟨-, -, hagain, hquiet, -, hmembers, -⟩
  · rw [hcreated] at hactive
    cases hactive
  · exact ⟨hagain, hquiet, hmembers⟩

/-- A transaction that was not begun can be neither committed nor rolled back. -/
theorem complete {w' : Cluster} (h : Restartable tx members w) (hadvances : Advances w w')
    (hrefused : (w.transaction tx).status = .created → w' = w) : Restartable tx members w' := by
  intro hcreated
  have hbefore := hadvances.created hcreated
  rw [hrefused hbefore]
  exact h hbefore

theorem arm (h : Restartable tx members w) (i : Nat) {call : NativeCall} (hcall : call ≠ .rollingBack) :
    Restartable tx members (w.mapBackend i fun b => b.arm call) := by
  intro hcreated
  obtain ⟨hstartable, hquiet, hmembers⟩ := h hcreated
  refine ⟨⟨hstartable.known, hcreated, ?_, ?_, hstartable.distinct⟩, ?_, hmembers⟩
  · intro e he
    rw [IsOpened, (w.backend_arm i _ call).1]
    exact hstartable.opened e he
  · intro e he
    rw [w.native_arm]
    exact hstartable.idle e he
  · intro j
    exact ((w.backend_arm i j call).2.2 .rollingBack hcall).trans (hquiet j)

theorem afterCall (h : Restartable tx members w) {call : TransactionCall}
    (hcall : ∀ i, call ≠ .arm i .rollingBack) : Restartable tx members (w.afterCall tx call) := by
  cases call with
  | begin => exact h.begin
  | commit =>
    refine h.complete (w.commit_advances tx) fun hcreated => ?_
    have hrefused : w.commit tx = (.error (.transaction _), w) :=
      if_neg (by rw [hcreated]; exact nofun)
    exact congrArg Prod.snd hrefused
  | rollback =>
    refine h.complete (w.rollback_advances tx) fun hcreated => ?_
    have hrefused : w.rollback tx = (.error (.transaction _), w) :=
      if_neg (by rw [hcreated]; exact nofun)
    exact congrArg Prod.snd hrefused
  | arm i call => exact h.arm i fun heq => hcall i (by rw [heq])

theorem afterCalls (h : Restartable tx members w) {calls : List TransactionCall}
    (hcalls : ∀ i, .arm i .rollingBack ∉ calls) : Restartable tx members (w.afterCalls tx calls) := by
  induction calls generalizing w with
  | nil => exact h
  | cons call rest ih =>
    refine ih (h.afterCall fun i heq => ?_) fun i hmem => hcalls i (List.mem_cons_of_mem _ hmem)
    exact hcalls i (heq ▸ List.mem_cons_self)

end Restartable

theorem noRollbackFault_of_mem (h : ∀ b ∈ w.backends, b.faults.rollingBack = false) :
    w.NoRollbackFault := by
  intro i
  rw [backend, List.getD_eq_getElem?_getD]
  cases hfound : w.backends[i]? with
  | none => rfl
  | some b => exact h b (List.mem_of_getElem? hfound)

/-- Begin is all or nothing. Where no rollback is about to fail, the begin of a transaction whose
members are distinct and idle is refused on the first member of each backend that has a fault armed,
and on no other. If none is refused, it succeeds and all members are active. Otherwise it reports who
was refused, with the first reason, the transaction stays as it was created, no member is active and no
store has changed. It can be begun again at once; and after any later calls on the transaction, among
them further attempts that fail, it can be begun as soon as no fault is armed on its backends. -/
theorem begin_all_or_nothing (h : w.Startable tx) (hquiet : w.NoRollbackFault) :
    let members := (w.transaction tx).enlisted
    let refused := refusals (beginCalls tx members w)
    let begun := w.begin tx
    refused = (refusedBy (w.armed .beginning) members).map (fun e => (e, .injectedFault .beginning))
    ∧ (begun.1 = .ok () ↔ refused = [])
    ∧ (refused = [] → (begun.2.transaction tx).status = .active
      ∧ ∀ e ∈ members, (begun.2.native e.native).isActive = true)
    ∧ (refused ≠ [] →
      begun.1 = .error (.beginFailure (refused.map (·.1.shard)) (refused.head?.map (·.2.message)))
      ∧ (begun.2.transaction tx).status = .created
      ∧ (∀ e ∈ members, (begun.2.native e.native).isActive = false)
      ∧ SameStores w begun.2
      ∧ (begun.2.begin tx).1 = .ok ()
      ∧ ∀ later : List TransactionCall, (∀ i, .arm i .rollingBack ∉ later) →
        let reached := begun.2.afterCalls tx later
        (reached.transaction tx).status = .created →
        (∀ e ∈ members, reached.armed .beginning e.native.backend = false) →
        (reached.begin tx).1 = .ok ()) := by
  intro members refused begun
  obtain ⟨hrefused, hbegin⟩ := h.begin_cases hquiet
  refine ⟨hrefused, ?_⟩
  rcases hbegin with ⟨hnone, hok, hactive⟩ |
    ⟨hsome, herror, hagain, hquiet, hstores, hmembers, hunarmed⟩
  · exact ⟨⟨fun _ => hnone, fun _ => hok⟩, fun _ => hactive, absurd hnone⟩
  -- What is left behind can be begun as long as no fault is armed on a member's backend.
  have hretry : ∀ reached : Cluster, reached.Startable tx → reached.NoRollbackFault →
      (reached.transaction tx).enlisted = members →
      (∀ e ∈ members, reached.armed .beginning e.native.backend = false) →
      (reached.begin tx).1 = .ok () := by
    intro reached hstartable hquiet hmembers hunarmed
    obtain ⟨hrefused, ⟨-, hok, -⟩ | ⟨hsome, -⟩⟩ := hstartable.begin_cases hquiet
    · exact hok
    · rw [hmembers] at hrefused hsome
      rw [hrefused, refusedBy_eq_nil_iff.mpr hunarmed] at hsome
      exact absurd rfl hsome
  have hidle : ∀ e ∈ members, (begun.2.native e.native).isActive = false := by
    intro e he
    exact hagain.idle e (hmembers.symm ▸ he)
  refine ⟨⟨fun hok => ?_, fun hnone => absurd hnone hsome⟩, fun hnone => absurd hnone hsome,
    fun _ => ⟨herror, hagain.created, hidle, hstores,
      hretry _ hagain hquiet hmembers hunarmed, ?_⟩⟩
  · rw [herror] at hok
    cases hok
  · intro later hlater reached hcreated hunarmed
    have hrestartable : Restartable tx members begun.2 := fun _ => ⟨hagain, hquiet, hmembers⟩
    obtain ⟨hstartable, hquiet, hmembers⟩ := hrestartable.afterCalls hlater hcreated
    exact hretry reached hstartable hquiet hmembers hunarmed

/-- Two shards, of which the second refuses its begin once. -/
theorem begin_all_or_nothing_refused :
    let factory : SessionFactory :=
      ⟨[⟨.ofNat 0, .ofList [.ofNat 0], 0⟩, ⟨.ofNat 1, .ofList [.ofNat 1], 1⟩], .default, none⟩
    let w := ((ofBackends 2).openSession factory).2.run 0
      [.establish 0, .establish 1, .transaction, .arm 1 .beginning]
    w.Startable 0 ∧ w.NoRollbackFault
      ∧ (w.begin 0).1 = .error (.beginFailure [.ofNat 1] (some "Injected fault on begin"))
      ∧ SameStores w (w.begin 0).2 ∧ ((w.begin 0).2.begin 0).1 = .ok () := by
  intro factory w
  have hstartable : w.Startable 0 := by
    refine ⟨by decide +kernel, by decide +kernel, ?_, by decide +kernel, by decide +kernel⟩
    unfold IsOpened
    decide +kernel
  have hquiet : w.NoRollbackFault := noRollbackFault_of_mem (by decide +kernel)
  obtain ⟨-, -, -, hfailed⟩ := begin_all_or_nothing hstartable hquiet
  obtain ⟨-, -, -, hstores, hagain, -⟩ := hfailed (by decide +kernel)
  exact ⟨hstartable, hquiet, by decide +kernel, hstores, hagain⟩

end ScatterGather.Cluster
