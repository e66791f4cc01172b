import ScatterGather.Proofs.Cluster.Completion
import ScatterGather.Proofs.Session.Run

/-!
# After a rollback was attempted

A rollback that fails on some members leaves those active, and the transaction with its status, so
that it can be tried again. Whatever is called on the transaction from then on, what the other
members had staged is lost; what the failed members have staged can still be committed.
-/

namespace ScatterGather

/-- A call on a logical transaction, or a fault that is armed between such calls. -/
inductive TransactionCall where
  | begin
  | commit
  | rollback
  | arm (backend : Nat) (call : NativeCall)

namespace Cluster

variable {w w' w'' : Cluster} {tx : Nat}

/-- The state after one call on a transaction. -/
def afterCall (tx : Nat) (w : Cluster) : TransactionCall → Cluster
  | .begin => (w.begin tx).2
  | .commit => (w.commit tx).2
  | .rollback => (w.rollback tx).2
  | .arm i call => w.mapBackend i fun b => b.arm call

/-- The state after some calls on a transaction. -/
def afterCalls (tx : Nat) (w : Cluster) (calls : List TransactionCall) : Cluster :=
  calls.foldl (afterCall tx) w

/-! ## What calls on a begun transaction can do -/

/-- From a state in which a transaction had begun to a later one, between which calls were made on
this transaction alone: a first part of its members has committed what it had staged, and as long as
the transaction is active no member has, and those that are active are as they were. -/
structure Continued (tx : Nat) (done : List Enlisted) (w w' : Cluster) : Prop where
  enlisted : (w'.transaction tx).enlisted = (w.transaction tx).enlisted
  begun : (w'.transaction tx).status ≠ .created
  first : ∃ rest, (w.transaction tx).enlisted = done ++ rest
  active : ∀ e ∈ done, (w.native e.native).isActive = true
  stores : ∀ i, (w'.backend i).store = w.layOver i (done.map (·.native)) (w.backend i).store
  pending : (w'.transaction tx).status = .active → done = [] ∧ ∀ e ∈ (w.transaction tx).enlisted,
    (w'.native e.native).isActive = true → w'.native e.native = w.native e.native

namespace Continued

variable {done : List Enlisted}

theorem refl (hbegun : (w.transaction tx).status ≠ .created) : Continued tx [] w w where
  enlisted := rfl
  begun := hbegun
  first := ⟨_, rfl⟩
  active := nofun
  stores := fun _ => rfl
  pending := fun _ => ⟨rfl, fun _ _ _ => rfl⟩

/-- A step that changes no store; if it leaves the transaction active, then also no member that is
active afterwards. -/
theorem quiet (h : Continued tx done w w')
    (henlisted : (w''.transaction tx).enlisted = (w'.transaction tx).enlisted)
    (hbegun : (w''.transaction tx).status ≠ .created) (hstores : SameStores w' w'')
    (hsame : (w''.transaction tx).status = .active → (w'.transaction tx).status = .active
      ∧ ∀ e ∈ (w'.transaction tx).enlisted, (w''.native e.native).isActive = true →
        w''.native e.native = w'.native e.native) :
    Continued tx done w w'' where
  enlisted := henlisted.trans h.enlisted
  begun := hbegun
  first := h.first
  active := h.active
  stores := fun i => (hstores i).trans (h.stores i)
  pending := by
    intro hactive
    obtain ⟨hbefore, hmembers⟩ := hsame hactive
    obtain ⟨hnone, hkept⟩ := h.pending hbefore
    refine ⟨hnone, fun e he hlive => ?_⟩
    have hstep := hmembers e (h.enlisted ▸ he) hlive
    rw [hstep] at hlive ⊢
    exact hkept e he hlive

theorem begin (h : Continued tx done w w') : Continued tx done w (w'.begin tx).2 := by
  rcases w'.begin_cases tx with
    ⟨w₁, hbegin, -, hwithin, hstores⟩ | ⟨_, _, -, hcreated, -⟩ |
      ⟨e, w₁, hbegin, hidle, hwithin, hstores⟩
  · rw [hbegin]
    refine h.quiet (hwithin.enlisted tx) (hwithin.status tx ▸ h.begun) hstores fun hactive => ?_
    exact ⟨(hwithin.status tx) ▸ hactive, fun e _ _ => hwithin.others e.native List.not_mem_nil⟩
  · exact absurd hcreated h.begun
  · rw [hbegin]
    refine h.quiet (hwithin.enlisted tx) (hwithin.status tx ▸ h.begun) hstores fun hactive => ?_
    exact absurd ((hwithin.status tx).symm.trans hactive) hidle

theorem commit (h : Continued tx done w w') : ∃ more, Continued tx more w (w'.commit tx).2 := by
  rcases w'.commit_cases tx with ⟨-, e, hcommit⟩ | ⟨hactive, more, w₁, w₂, hmore, hstores, hend⟩
  · rw [hcommit]
    exact ⟨done, h⟩
  · obtain ⟨rfl, hkept⟩ := h.pending hactive
    have hknown : tx < w₁.transactions.length := hmore.within.transactions ▸ lt_of_begun h.begun
    -- The commit ends with a status that is not active any more, be it done or not.
    obtain ⟨status, hcommit, hfinal, hfirst, hwithin⟩ : ∃ status, (w'.commit tx).2 = w₂
        ∧ (status = .committed ∨ status = .failedCommit)
        ∧ (∃ rest, (w'.transaction tx).enlisted = more ++ rest)
        ∧ Within [] (w₁.setStatus tx status) w₂ := by
      rcases hend with ⟨hall, hcommit, hwithin⟩ | ⟨e, rest, reason, hpart, hcommit, hwithin⟩
      · exact ⟨_, congrArg Prod.snd hcommit, .inl rfl, ⟨[], hall.trans (List.append_nil _).symm⟩,
          hwithin⟩
      · exact ⟨_, congrArg Prod.snd hcommit, .inr rfl, ⟨_, hpart⟩, hwithin⟩
    have hstatus : (w₂.transaction tx).status = status :=
      (hwithin.status tx).trans (status_setStatus hknown status)
    obtain ⟨rest, hrest⟩ := hfirst
    have hrest : (w.transaction tx).enlisted = more ++ rest := h.enlisted.symm.trans hrest
    have hsame : ∀ e ∈ more, (w'.native e.native).isActive = true
        ∧ w'.native e.native = w.native e.native := by
      intro e he
      have hlive := hmore.active e.native (List.mem_map_of_mem he)
      exact ⟨hlive, hkept e (hrest ▸ List.mem_append_left _ he) hlive⟩
    rw [hcommit]
    refine ⟨more, ?_, ?_, ⟨rest, hrest⟩, ?_, ?_, ?_⟩
    · rw [hwithin.enlisted, enlisted_setStatus, hmore.within.enlisted, h.enlisted]
    · rw [hstatus]
      rcases hfinal with rfl | rfl <;> exact nofun
    · intro e he
      obtain ⟨hlive, hnative⟩ := hsame e he
      rwa [hnative] at hlive
    · intro i
      have hnatives : ∀ ref ∈ more.map (·.native), w'.native ref = w.native ref := by
        intro ref href
        obtain ⟨e, he, rfl⟩ := List.mem_map.mp href
        exact (hsame e he).2
      rw [hstores, hmore.stores, layOver_congr hnatives, h.stores]
      rfl
    · intro hstill
      rw [hstatus] at hstill
      rcases hfinal with rfl | rfl <;> cases hstill

theorem rollback (h : Continued tx done w w') : Continued tx done w (w'.rollback tx).2 := by
  rcases w'.rollback_cases tx with ⟨-, e, hrollback⟩ | ⟨hunfinished, w₁, w₂, hstores, hend⟩
  · rw [hrollback]
    exact h
  · rcases hend with ⟨hundone, hrollback, hwithin⟩ | ⟨_, -, -, hundone, hrollback, hwithin⟩
    · rw [hrollback]
      have hknown : tx < w₁.transactions.length :=
        hundone.within.transactions ▸ lt_of_begun h.begun
      have hstatus : (w₂.transaction tx).status = .rolledBack :=
        (hwithin.status tx).trans (status_setStatus hknown _)
      refine h.quiet ?_ ?_ (hundone.stores.trans hstores) ?_
      · rw [hwithin.enlisted, enlisted_setStatus, hundone.within.enlisted]
      · rw [hstatus]
        exact nofun
      · intro hactive
        rw [hstatus] at hactive
        cases hactive
    · rw [hrollback]
      have hstatus : (w₂.transaction tx).status = (w'.transaction tx).status :=
        (hwithin.status tx).trans (hundone.within.status tx)
      refine h.quiet ?_ (hstatus ▸ h.begun) (hundone.stores.trans hstores) fun hactive => ?_
      · rw [hwithin.enlisted, hundone.within.enlisted]
      · refine ⟨hstatus.symm.trans hactive, fun e he hlive => ?_⟩
        rw [hwithin.others e.native List.not_mem_nil] at hlive ⊢
        exact (hundone.left e he hlive).1

theorem arm (h : Continued tx done w w') (i : Nat) (call : NativeCall) :
    Continued tx done w (w'.mapBackend i fun b => b.arm call) :=
  h.quiet rfl h.begun (fun j => (w'.backend_arm i j call).2.1)
    fun hactive => ⟨hactive, fun e _ _ => w'.native_arm i call e.native⟩

theorem afterCall (h : Continued tx done w w') (call : TransactionCall) :
    ∃ more, Continued tx more w (w'.afterCall tx call) := by
  cases call with
  | begin => exact ⟨done, h.begin⟩
  | commit => exact h.commit
  | rollback => exact ⟨done, h.rollback⟩
  | arm i call => exact ⟨done, h.arm i call⟩

theorem afterCalls (h : Continued tx done w w') (calls : List TransactionCall) :
    ∃ more, Continued tx more w (w'.afterCalls tx calls) := by
  induction calls generalizing done w' with
  | nil => exact ⟨done, h⟩
  | cons call rest ih =>
    obtain ⟨more, hmore⟩ := h.afterCall call
    exact ih hmore

end Continued

/-- What a rollback leaves active it leaves as it was, and reports a failure for. -/
theorem rollback_left (hunfinished : (w.transaction tx).status.isUnfinished = true) :
    ∀ e ∈ (w.transaction tx).enlisted, ((w.rollback tx).2.native e.native).isActive = true →
      (w.rollback tx).2.native e.native = w.native e.native
        ∧ ∃ failures source, (w.rollback tx).1 = .error (.rollbackFailure failures)
          ∧ ⟨e.shard, source⟩ ∈ failures := by
  intro e he hlive
  rcases w.rollback_cases tx with ⟨hstatus, -⟩ | ⟨-, w₁, w', -, hend⟩
  · rw [hunfinished] at hstatus
    cases hstatus
  · rcases hend with ⟨hundone, hrollback, hwithin⟩ | ⟨failures, -, -, hundone, hrollback, hwithin⟩
    · rw [hrollback] at hlive
      rw [hwithin.others e.native List.not_mem_nil] at hlive
      obtain ⟨-, source, hfailure⟩ := hundone.left e he hlive
      exact absurd hfailure List.not_mem_nil
    · rw [hrollback] at hlive ⊢
      have hsame : w'.native e.native = w₁.native e.native :=
        hwithin.others e.native List.not_mem_nil
      rw [hsame] at hlive ⊢
      obtain ⟨hkept, source, hfailure⟩ := hundone.left e he hlive
      exact ⟨hkept, failures, source, rfl, hfailure⟩

/-- Once a rollback of an active transaction was attempted, calls on it can commit a first part of
its members, and only members that are still active because their rollback failed. -/
theorem afterCalls_rollback (hactive : (w.transaction tx).status = .active)
    (later : List TransactionCall) :
    let attempted := w.rollback tx
    ∃ done rest, (w.transaction tx).enlisted = done ++ rest
      ∧ (∀ e ∈ done, (attempted.2.native e.native).isActive = true
        ∧ ∃ failures source, attempted.1 = .error (.rollbackFailure failures)
          ∧ ⟨e.shard, source⟩ ∈ failures)
      ∧ ∀ i, ((attempted.2.afterCalls tx later).backend i).store =
        w.layOver i (done.map (·.native)) (w.backend i).store := by
  intro attempted
  have hunfinished : (w.transaction tx).status.isUnfinished = true := by rw [hactive]; rfl
  have hattempt : Continued tx [] w attempted.2 := (Continued.refl (by rw [hactive]; nofun)).rollback
  obtain ⟨done, hdone⟩ := (Continued.refl hattempt.begun).afterCalls later
  obtain ⟨rest, hrest⟩ := hdone.first
  have hrest : (w.transaction tx).enlisted = done ++ rest := hattempt.enlisted.symm.trans hrest
  have hleft : ∀ e ∈ done, attempted.2.native e.native = w.native e.native
      ∧ ∃ failures source, attempted.1 = .error (.rollbackFailure failures)
        ∧ ⟨e.shard, source⟩ ∈ failures := by
    intro e he
    exact rollback_left hunfinished e (hrest ▸ List.mem_append_left _ he) (hdone.active e he)
  refine ⟨done, rest, hrest, fun e he => ⟨hdone.active e he, (hleft e he).2⟩, fun i => ?_⟩
  have hnatives : ∀ ref ∈ done.map (·.native), attempted.2.native ref = w.native ref := by
    intro ref href
    obtain ⟨e, he, rfl⟩ := List.mem_map.mp href
    exact (hleft e he).1
  rw [hdone.stores, layOver_congr hnatives, hattempt.stores]
  rfl

/-- Two shards, of which the first fails to roll back: the store of the second stays as it is. -/
theorem afterCalls_rollback_partial :
    let factory : SessionFactory :=
      ⟨[⟨.ofNat 0, .ofList [.ofNat 0], 0⟩, ⟨.ofNat 1, .ofList [.ofNat 1], 1⟩], .default, none⟩
    let w := ((ofBackends 2).openSession factory).2.run 0 [.establish 0, .establish 1,
      .beginTransaction, .write 0 "a" (some (.string "x")), .write 1 "b" (some (.string "y")),
      .arm 0 .rollingBack]
    (w.transaction 0).status = .active ∧ (w.rollback 0).1.isOk = false
      ∧ ∀ later, (((w.rollback 0).2.afterCalls 0 later).backend 1).store = (w.backend 1).store := by
  intro factory w
  have hactive : (w.transaction 0).status = .active := by decide +kernel
  refine ⟨hactive, by decide +kernel, fun later => ?_⟩
  obtain ⟨done, rest, hfirst, hdone, hstores⟩ := afterCalls_rollback hactive later
  have hidle : ∀ e ∈ (w.transaction 0).enlisted,
      ((w.rollback 0).2.native e.native).isActive = true → e.native.backend ≠ 1 := by
    decide +kernel
  rw [hstores, layOver_of_not_mem]
  intro ref href
  obtain ⟨e, he, rfl⟩ := List.mem_map.mp href
  exact hidle e (hfirst ▸ List.mem_append_left rest he) (hdone e he).1

/-- What the failed member has staged is not lost: a commit after the rollback makes it permanent,
so the stores need not stay as they are. -/
theorem commit_after_failed_rollback :
    let factory : SessionFactory := ⟨[⟨.ofNat 0, .ofList [.ofNat 0], 0⟩], .default, none⟩
    let w := ((ofBackends 1).openSession factory).2.run 0 [.establish 0, .beginTransaction,
      .write 0 "k" (some (.string "v")), .arm 0 .rollingBack]
    let w' := (w.rollback 0).2.afterCalls 0 [.commit]
    (w.transaction 0).status = .active
      ∧ (w.native ⟨0, 0⟩).staged.get? "k" = some (some (.string "v"))
      ∧ (w.backend 0).store.get? "k" = none ∧ (w'.backend 0).store.get? "k" = some (.string "v")
      ∧ ¬ SameStores w w' := by
  intro factory w w'
  have hbefore : (w.backend 0).store.get? "k" = none := by decide +kernel
  have hafter : (w'.backend 0).store.get? "k" = some (.string "v") := by decide +kernel
  refine ⟨by decide +kernel, by decide +kernel, hbefore, hafter, fun hsame => ?_⟩
  rw [hsame 0, hbefore] at hafter
  cases hafter

end Cluster

end ScatterGather
