import Mathlib.Data.List.Infix
import ScatterGather.Proofs.Session.Chains

/-!
# Handles that are connected late

A transaction waits on every handle that has no connection when it is created. Nothing that becomes
of it afterwards takes it off the queue, so it is still waiting when the handle is connected for the
first time, and the connection joins it whatever its status is by then. Only an active transaction
also begins the local one.
-/

namespace ScatterGather.Cluster

variable {w w' : Cluster} {number : Nat} {shard : Shard} {ref : NativeRef} {tx : Nat}
variable {call : SessionCall}

/-! ## Members stay -/

/-- No move takes a member out of a transaction, or puts one in front of the others. -/
theorem enlisted_move (hmove : Move number call w w') (tx : Nat) :
    (w.transaction tx).enlisted <+: (w'.transaction tx).enlisted := by
  have hsame : (w'.transaction tx).enlisted = (w.transaction tx).enlisted →
      (w.transaction tx).enlisted <+: (w'.transaction tx).enlisted := fun heq =>
    heq ▸ List.prefix_rfl
  cases hmove with
  | work within => exact hsame (within.enlisted tx)
  | mark current within marked =>
    exact hsame ((marked.enlisted tx).trans ((enlisted_setStatus ..).trans (within.enlisted tx)))
  | hand | queue | shut | arm => exact List.prefix_rfl
  | renew ended renewed =>
    by_cases heq : tx = w.transactions.length
    · rw [enlisted_of_ge (Nat.le_of_eq heq.symm)]
      exact List.nil_prefix
    · exact hsame (renewed.enlisted tx heq)
  | connect stays mem unconnected attached =>
    rcases attached.enlisted_cases tx with heq | hjoined
    · exact hsame heq
    · rw [hjoined]
      exact List.prefix_append ..
  | refuse mem unconnected refused =>
    rcases refused.enlisted tx with heq | ⟨ref, -, -, -, hjoined, -⟩
    · exact hsame heq
    · rw [hjoined]
      exact List.prefix_append ..
  | disconnect closes mem connected within => exact hsame (within.enlisted tx)

theorem Tidy.enlisted_run (h : Tidy w number) (calls : List SessionCall) (tx : Nat) :
    (w.transaction tx).enlisted <+: ((w.run number calls).transaction tx).enlisted :=
  h.run_induction (fun v => (w.transaction tx).enlisted <+: (v.transaction tx).enlisted)
    (fun _ => True) (fun _ _ hmove hprefix => hprefix.trans (enlisted_move hmove tx))
    List.prefix_rfl fun _ _ => trivial

/-! ## Waiting for a connection -/

/-- A transaction, once there is one of this number, waits on a handle of the session for as long as
that has no connection. -/
structure KeepsWaiting (w : Cluster) (number : Nat) (shard : Shard) (tx : Nat) : Prop where
  mem : shard ∈ (w.session number).shards
  waits : w.connection? shard = none → tx < w.transactions.length → w.Waits shard tx

/-- A call either gives a handle its connection or takes it away, but does not do both. So a handle
that has none before and after a call had none in between. -/
theorem KeepsWaiting.move (h : Tidy w number) (hmove : Move number call w w')
    (hkeeps : KeepsWaiting w number shard tx ∧ (call.Closes → w.connection? shard = none)) :
    KeepsWaiting w' number shard tx ∧ (call.Closes → w'.connection? shard = none) := by
  obtain ⟨⟨hmem, hwaits⟩, hcloses⟩ := hkeeps
  have hmem' : shard ∈ (w'.session number).shards := by rwa [h.shards_move hmove]
  suffices h' : (w'.connection? shard = none → tx < w'.transactions.length → w'.Waits shard tx)
      ∧ (call.Closes → w'.connection? shard = none) from ⟨⟨hmem', h'.1⟩, h'.2⟩
  -- Most moves leave the connection and the number of transactions alone, and let go of no event.
  have hsame : w'.connection? shard = w.connection? shard →
      (w.Waits shard tx → w'.Waits shard tx) →
      w'.transactions.length = w.transactions.length →
      (w'.connection? shard = none → tx < w'.transactions.length → w'.Waits shard tx)
        ∧ (call.Closes → w'.connection? shard = none) := by
    intro hconnection hkept htransactions
    rw [hconnection, htransactions]
    exact ⟨fun hnone hlt => hkept (hwaits hnone hlt), hcloses⟩
  cases hmove with
  | work within =>
    refine hsame (within.connection? shard) (fun hold => ?_) within.transactions
    rwa [Waits, within.slot]
  | mark current within marked =>
    refine hsame ((marked.connection? shard).trans (within.connection? shard)) (fun hold => ?_) ?_
    · have hslot := (marked.slot shard).trans (within.slot shard)
      rwa [Waits, hslot]
    · rw [marked.transactions, ← within.transactions]
      exact List.length_set
  | hand | shut | arm => exact hsame rfl id rfl
  | renew ended renewed =>
    refine ⟨fun hnone hlt => ?_, fun hc => (renewed.connection? shard).trans (hcloses hc)⟩
    rw [renewed.connection?] at hnone
    rw [renewed.transactions] at hlt
    rcases Nat.lt_succ_iff_lt_or_eq.mp hlt with hold | rfl
    · exact renewed.kept shard tx (hwaits hnone hold)
    · exact renewed.queued shard hmem (h.slots shard hmem) hnone
  | @queue other hook mem unconnected =>
    refine hsame (connection?_withEvents ..) (fun hold => ?_) rfl
    by_cases heq : shard = other
    · subst heq
      rw [Waits, events_withEvents (h.slots shard hmem)]
      exact List.mem_append_left _ hold
    · rwa [Waits, events_withEvents_ne (h.handle_ne hmem mem heq)]
  | @connect w' other ref stays mem unconnected attached =>
    by_cases heq : shard = other
    · refine ⟨fun hnone => ?_, fun hc => absurd hc stays⟩
      rw [heq, attached.connected] at hnone
      cases hnone
    · have hhandle := h.handle_ne hmem mem heq
      refine hsame (attached.connections shard hhandle) (fun hold => ?_) attached.transactions
      rwa [Waits, attached.events shard hhandle]
  | @refuse w' other mem unconnected refused =>
    by_cases heq : shard = other
    · subst heq
      exact hsame (refused.unconnected.trans unconnected.symm) (refused.waits tx).mpr
        refused.transactions
    · have hhandle := h.handle_ne hmem mem heq
      refine hsame (refused.connections shard hhandle) (fun hold => ?_) refused.transactions
      rwa [Waits, refused.events shard hhandle]
  | @disconnect w' other ref closes mem connected within =>
    -- The handle has no connection that could be taken away.
    have hnone : w'.connection? shard = none := by
      rw [within.connection?, Option.eq_none_iff_forall_ne_some]
      intro found hfound
      exact Option.some_ne_none _ ((connection?_of_unplug hfound).symm.trans (hcloses closes))
    refine hsame (hnone.trans (hcloses closes).symm) (fun hold => ?_) within.transactions
    rw [Waits, within.slot]
    exact waits_unplug.mpr hold

/-- The handle has no connection before and after each of some calls. -/
def StaysUnconnected (w : Cluster) (number : Nat) (shard : Shard) (calls : List SessionCall) :
    Prop :=
  ∀ done, done <+: calls → (w.run number done).connection? shard = none

instance (w : Cluster) (number : Nat) (shard : Shard) (calls : List SessionCall) :
    Decidable (w.StaysUnconnected number shard calls) :=
  decidable_of_iff (∀ done ∈ calls.inits, (w.run number done).connection? shard = none) <| by
    simp only [StaysUnconnected, List.mem_inits]

theorem StaysUnconnected.tail {calls : List SessionCall}
    (h : w.StaysUnconnected number shard (call :: calls)) :
    (w.after number call).StaysUnconnected number shard calls := fun done hdone =>
  h (call :: done) (List.cons_prefix_cons.mpr ⟨rfl, hdone⟩)

theorem KeepsWaiting.run (h : Tidy w number) (hkeeps : KeepsWaiting w number shard tx)
    {calls : List SessionCall} (hunconnected : w.StaysUnconnected number shard calls) :
    KeepsWaiting (w.run number calls) number shard tx := by
  induction calls generalizing w with
  | nil => exact hkeeps
  | cons call rest ih =>
    have hmoves := h.after_moves call
    have hnone : w.connection? shard = none := hunconnected [] List.nil_prefix
    refine ih (h.moves hmoves) (h.moves_induction
      (P := fun v => KeepsWaiting v number shard tx ∧ (call.Closes → v.connection? shard = none))
      (fun h hmove => KeepsWaiting.move h hmove) hmoves ⟨hkeeps, fun _ => hnone⟩).1 hunconnected.tail

/-! ## Late attach -/

/-- A handle that is connected while a transaction waits for it. -/
theorem Tidy.late_attach (h : Tidy w number) (hmem : shard ∈ (w.session number).shards)
    (hnone : w.connection? shard = none) (hwaits : w.Waits shard tx)
    (hreferenced : w.isReferenced tx = true) (hestablish : w.establish shard = (.ok ref, w')) :
    Attached shard ref w w'
      ∧ (w'.transaction tx).enlisted = (w.transaction tx).enlisted ++ [⟨shard.physicalId, ref⟩]
      ∧ ((w.transaction tx).status = .active → (w'.native ref).isActive = true)
      ∧ ((∀ current, (w.session number).current = some current →
          (w.transaction current).status ≠ .active) → (w'.native ref).phase = .idle) := by
  rcases establish_attempt (h.slots shard hmem) (h.backends shard hmem) hnone h.members with
    ⟨ref', w₁, hdone, hattached⟩ | ⟨e, w₁, hdone, -⟩
  · cases hdone.symm.trans hestablish
    have hstands : w.Stands (w.slot shard).events tx := ⟨hwaits, hreferenced⟩
    refine ⟨hattached, hattached.joined tx hstands (h.queued shard hmem tx hwaits),
      fun hactive => hattached.begun ⟨tx, hstands, hactive⟩, fun hcurrent => ?_⟩
    refine hattached.idle fun other hother hactive => ?_
    have hdue := h.current_of_unended (h.queued shard hmem other hother.1) (by rw [hactive]; rfl)
    exact hcurrent other hdue hactive
  · cases hdone.symm.trans hestablish

/-- A transaction that is still referred to, with any history, and a handle that had no connection
when it was created and has not had one since. If the handle is connected now, then before the
connection is published it is the last member of the transaction; it is active if the transaction is,
it is not begun if the transaction is not, and a transaction that has come to its end does not begin
it. Members of a transaction stay for good, in the order in which they joined. -/
theorem run_late_attach {w₀ w : Cluster} {factory : SessionFactory}
    (hfresh : w₀.transactions = []) (hfree : w₀.handed = [])
    (hplaces : ∀ physical ∈ factory.shards, physical.backend < w₀.backends.length)
    (hopen : w₀.openSession factory = (.ok number, w)) (hmem : shard ∈ (w.session number).shards)
    {before calls : List SessionCall} (htx : tx = (w.run number before).transactions.length)
    (hunconnected : (w.run number before).StaysUnconnected number shard calls) :
    let reached := (w.run number before).run number calls
    let status := (reached.transaction tx).status
    let members := (reached.transaction tx).enlisted
    tx < reached.transactions.length → reached.isReferenced tx = true →
      (∀ e w', reached.establish shard = (.error e, w') → w'.connection? shard = none)
      ∧ (∀ ref w', reached.establish shard = (.ok ref, w') → ¬ reached.IsOpened ref
        ∧ ∃ shown : Cluster, w' = shown.publish shard ref ∧ shown.connection? shard = none
          ∧ (shown.transaction tx).status = status
          ∧ (shown.transaction tx).enlisted = members ++ [⟨shard.physicalId, ref⟩]
          ∧ (status = .created → (shown.native ref).phase = .idle)
          ∧ (status = .active → (shown.native ref).isActive = true)
          ∧ (status.isFinal = true → (∀ current, (reached.session number).current = some current →
            (reached.transaction current).status ≠ .active) → (shown.native ref).phase = .idle))
      ∧ ∀ later, members <+: ((reached.run number later).transaction tx).enlisted := by
  intro reached status members hknown hreferenced
  have hstart : Tidy (w.run number before) number :=
    (openSession_tidy hfresh hfree hplaces hopen).run before
  have hreached : Tidy reached number := hstart.run calls
  have hmem₁ : shard ∈ ((w.run number before).session number).shards := by
    rwa [(openSession_tidy hfresh hfree hplaces hopen).shards_run before]
  have hkeeps : KeepsWaiting reached number shard tx :=
    KeepsWaiting.run hstart ⟨hmem₁, fun _ hlt => absurd hlt (htx ▸ Nat.lt_irrefl _)⟩ hunconnected
  have hnone : reached.connection? shard = none := hunconnected calls List.prefix_rfl
  have hwaits : reached.Waits shard tx := hkeeps.waits hnone hknown
  refine ⟨fun e w' hestablish => ?_, fun ref w' hestablish => ?_,
    fun later => hreached.enlisted_run later tx⟩
  · rcases establish_attempt (hreached.slots shard hkeeps.mem) (hreached.backends shard hkeeps.mem)
      hnone hreached.members with ⟨ref, w₁, hdone, -⟩ | ⟨e, w₁, hdone, hrefused⟩
    · cases hdone.symm.trans hestablish
    · cases hdone.symm.trans hestablish
      exact hrefused.unconnected
  · obtain ⟨hattached, hjoined, hactive, hidle⟩ :=
      hreached.late_attach hkeeps.mem hnone hwaits hreferenced hestablish
    obtain ⟨shown, rfl, hunpublished⟩ := hattached.last
    refine ⟨hattached.new, shown, rfl, hunpublished, hattached.status tx, hjoined,
      fun hcreated => ?_, hactive, fun _ => hidle⟩
    have hcreated : (reached.transaction tx).status = .created := hcreated
    refine hidle fun current hcurrent hbegun => ?_
    cases (hreached.current_of_unended hknown (by rw [hcreated]; rfl)).symm.trans hcurrent
    exact absurd (hcreated.symm.trans hbegun) nofun

/-- The second of two shards is connected after the transaction became active. -/
theorem run_late_attach_active :
    let factory : SessionFactory :=
      ⟨[⟨.ofNat 0, .ofList [.ofNat 0], 0⟩, ⟨.ofNat 1, .ofList [.ofNat 1], 1⟩], .default, none⟩
    let w := ((ofBackends 2).openSession factory).2
    let start := w.run 0 [.establish 0]
    let reached := start.run 0 [.beginTransaction]
    ∃ shard ∈ (w.session 0).shards, start.StaysUnconnected 0 shard [.beginTransaction]
      ∧ ∃ ref w', reached.establish shard = (.ok ref, w') ∧ (w'.native ref).isActive = true
        ∧ (w'.transaction 0).enlisted = [⟨.ofNat 0, ⟨0, 0⟩⟩, ⟨.ofNat 1, ref⟩] := by
  intro factory w start reached
  have hopen : (ofBackends 2).openSession factory = (.ok 0, w) := eq_of_fst (by decide +kernel)
  obtain ⟨shard, hshard, hid, hstays, hok⟩ : ∃ shard ∈ (w.session 0).shards,
      shard.physicalId = .ofNat 1 ∧ start.StaysUnconnected 0 shard [.beginTransaction]
        ∧ (reached.establish shard).1 = .ok ⟨1, 0⟩ := by
    decide +kernel
  have hestablish : reached.establish shard = (.ok ⟨1, 0⟩, (reached.establish shard).2) :=
    eq_of_fst hok
  have htx : 0 = (w.run 0 [.establish 0]).transactions.length := by decide +kernel
  obtain ⟨-, hattach, -⟩ := run_late_attach rfl rfl (by decide +kernel) hopen hshard htx hstays
    (by decide +kernel) (by decide +kernel)
  obtain ⟨-, shown, hpublish, -, -, henlisted, -, hactive, -⟩ := hattach _ _ hestablish
  have hmembers : (reached.transaction 0).enlisted = [⟨.ofNat 0, ⟨0, 0⟩⟩] := by decide +kernel
  refine ⟨shard, hshard, hstays, _, _, hestablish, ?_, ?_⟩
  · rw [hpublish]
    exact hactive (by decide +kernel)
  · rw [hpublish, ← hid]
    exact henlisted.trans (by rw [hmembers]; rfl)

/-- A transaction that was rolled back, and to which a caller still refers, gets a further member
when the second shard is connected; so does one whose commit failed, but the member is not active. -/
theorem late_attach_after_end :
    let factory : SessionFactory :=
      ⟨[⟨.ofNat 0, .ofList [.ofNat 0], 0⟩, ⟨.ofNat 1, .ofList [.ofNat 1], 1⟩], .default, none⟩
    let w := ((ofBackends 2).openSession factory).2
    let ended := w.run 0 [.beginTransaction, .rollback (.handed 0)]
    let failed := w.run 0 [.establish 0, .beginTransaction, .arm 0 .committing, .commit .current]
    ∃ shard ∈ (w.session 0).shards,
      (w.StaysUnconnected 0 shard [.beginTransaction, .rollback (.handed 0)]
        ∧ (ended.transaction 0).status = .rolledBack ∧ ended.isReferenced 0 = true
        ∧ (ended.transaction 0).enlisted = []
        ∧ (ended.establish shard).1 = .ok ⟨1, 0⟩
        ∧ ((ended.establish shard).2.transaction 0).enlisted = [⟨.ofNat 1, ⟨1, 0⟩⟩])
      ∧ w.StaysUnconnected 0 shard
          [.establish 0, .beginTransaction, .arm 0 .committing, .commit .current]
        ∧ (failed.transaction 0).status = .failedCommit ∧ failed.isReferenced 0 = true
        ∧ (failed.establish shard).1 = .ok ⟨1, 0⟩
        ∧ ((failed.establish shard).2.native ⟨1, 0⟩).isActive = false := by
  decide +kernel

end ScatterGather.Cluster
