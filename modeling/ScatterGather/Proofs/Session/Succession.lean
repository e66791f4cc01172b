import ScatterGather.Proofs.Session.Chains
import ScatterGather.Proofs.Session.Calls

/-!
# One transaction after the other

The status of a transaction goes on in a few ways only, and a call takes it at most one step. None of
them leads out of `committed` or `rolledBack`, and a session makes its next transaction only when the
current one has come to such an end. So of all the transactions that callers keep in hand at most one
is unfinished, and what is asked of the others is refused for their status alone, before any local
transaction is called.
-/

namespace ScatterGather

/-- The statuses that can follow one another. -/
inductive TransactionStatus.Next : TransactionStatus → TransactionStatus → Prop where
  | begun : Next .created .active
  | committed : Next .active .committed
  | halted : Next .active .failedCommit
  | undone : Next .active .rolledBack
  | cleared : Next .failedCommit .rolledBack

namespace Cluster

variable {w w' w₁ : Cluster} {number tx : Nat}

/-! ## How statuses go on -/

/-- From one state to a later one, the status of each transaction is as it was or went on by one
step. -/
def Advances (w w' : Cluster) : Prop :=
  ∀ tx, (w'.transaction tx).status = (w.transaction tx).status
    ∨ (w.transaction tx).status.Next (w'.transaction tx).status

namespace Advances

theorem refl (w : Cluster) : Advances w w := by
  intro tx
  exact .inl rfl

theorem of_within {refs : List NativeRef} (h : Within refs w w') : Advances w w' := by
  intro tx
  exact .inl (h.status tx)

/-- Where the first state only differs in other things than statuses. -/
theorem of_status (h : ∀ tx, (w₁.transaction tx).status = (w.transaction tx).status)
    (hadvances : Advances w₁ w') : Advances w w' := by
  intro tx
  rw [← h tx]
  exact hadvances tx

/-- Work on local transactions, and then one of them gets another status. -/
theorem of_marked {refs : List NativeRef} {status : TransactionStatus} (hwithin : Within refs w w₁)
    (hmarked : Within [] (w₁.setStatus tx status) w')
    (hnext : (w.transaction tx).status.Next status) : Advances w w' := by
  intro other
  rw [hmarked.status]
  by_cases heq : other = tx
  · subst heq
    rw [setStatus, transaction_mapTransaction]
    split
    · exact .inr hnext
    · exact .inl (hwithin.status other)
  · rw [status_setStatus_ne heq]
    exact .inl (hwithin.status other)

end Advances

theorem begin_advances (w : Cluster) (tx : Nat) : Advances w (w.begin tx).2 := by
  rcases w.begin_cases tx with ⟨w', hbegin, -, hwithin, -⟩ |
    ⟨w₁, w', hbegin, hcreated, hwithin, -, -, hmarked, -⟩ | ⟨e, w', hbegin, -, hwithin, -⟩
  · rw [hbegin]
    exact .of_within hwithin
  · rw [hbegin]
    refine .of_marked hwithin hmarked ?_
    rw [hcreated]
    exact .begun
  · rw [hbegin]
    exact .of_within hwithin

theorem commit_advances (w : Cluster) (tx : Nat) : Advances w (w.commit tx).2 := by
  rcases w.commit_cases tx with ⟨-, e, hcommit⟩ | ⟨hactive, done, w₁, w', hdone, -,
    ⟨-, hcommit, hmarked⟩ | ⟨e, rest, reason, -, hcommit, hmarked⟩⟩
  · rw [hcommit]
    exact .refl w
  · rw [hcommit]
    refine .of_marked hdone.within hmarked ?_
    rw [hactive]
    exact .committed
  · rw [hcommit]
    refine .of_marked hdone.within hmarked ?_
    rw [hactive]
    exact .halted

theorem rollback_advances (w : Cluster) (tx : Nat) : Advances w (w.rollback tx).2 := by
  rcases w.rollback_cases tx with ⟨-, e, hrollback⟩ | ⟨hunfinished, w₁, w', -,
    ⟨hundone, hrollback, hmarked⟩ | ⟨failures, -, -, hundone, hrollback, hwithin⟩⟩
  · rw [hrollback]
    exact .refl w
  · rw [hrollback]
    refine .of_marked hundone.within hmarked ?_
    cases hstatus : (w.transaction tx).status with
    | active => exact .undone
    | failedCommit => exact .cleared
    | created | committed | rolledBack =>
      rw [hstatus] at hunfinished
      cases hunfinished
  · rw [hrollback]
    exact .of_within (hundone.within.trans (hwithin.mono (List.nil_subset _)))

theorem beginTransaction_advances (w : Cluster) (number : Nat) :
    Advances w (w.beginTransaction number).2 := by
  have hcurrent := (w.currentTransaction_work number).status_eq rfl
  rw [beginTransaction]
  generalize w.currentTransaction number = current at hcurrent
  obtain ⟨outcome, w₁⟩ := current
  cases outcome with
  | error e => exact .of_status hcurrent (.refl w₁)
  | ok tx =>
    have hbegin := w₁.begin_advances tx
    dsimp only
    generalize w₁.begin tx = begun at hbegin
    obtain ⟨outcome, w₂⟩ := begun
    cases outcome with
    | error e => exact .of_status hcurrent hbegin
    | ok => exact .of_status hcurrent hbegin

/-- A call takes the status of a transaction at most one step on. -/
theorem after_advances (number : Nat) (w : Cluster) (call : SessionCall) :
    Advances w (after number w call) := by
  by_cases hmarks : call.Marks
  · cases call with
    | beginTransaction =>
      intro tx
      rw [after, (handOutOk_work _).status_eq rfl]
      exact w.beginTransaction_advances number tx
    | begin name => exact onNamed_of (.refl w) fun tx _ => w.begin_advances tx
    | commit name => exact onNamed_of (.refl w) fun tx _ => w.commit_advances tx
    | rollback name => exact onNamed_of (.refl w) fun tx _ => w.rollback_advances tx
    | register name sync =>
      exact onNamed_of (.refl w) fun tx _ => .of_within ((Step.register w tx sync).quiet rfl)
    | _ => exact hmarks.elim
  · intro tx
    exact .inl ((after_unheard number w hmarks).status tx)

/-- A kind of statuses that no step leads out of is not left in a run. -/
theorem run_status_induction {P : TransactionStatus → Prop}
    (hnext : ∀ {status status'}, TransactionStatus.Next status status' → P status → P status')
    (h : P (w.transaction tx).status) (calls : List SessionCall) :
    P ((w.run number calls).transaction tx).status := by
  induction calls generalizing w with
  | nil => exact h
  | cons call rest ih =>
    apply ih
    rcases after_advances number w call tx with hsame | hstep
    · rw [hsame]
      exact h
    · exact hnext hstep h

theorem not_next_of_final {status status' : TransactionStatus} (h : status.isFinal = true) :
    ¬ status.Next status' := by
  intro hnext
  cases hnext <;> cases h

/-- A transaction that has come to its end keeps its status in every run. -/
theorem run_final (h : (w.transaction tx).status.isFinal = true) (calls : List SessionCall) :
    ((w.run number calls).transaction tx).status = (w.transaction tx).status :=
  run_status_induction (P := fun status => status = (w.transaction tx).status)
    (fun hnext heq => absurd hnext (not_next_of_final (heq ▸ h))) rfl calls

/-! ## What is refused -/

/-- What callers can ask of a transaction. -/
def demands (tx : Nat) : List (Cluster → Except ShardError Unit × Cluster) :=
  [fun w => w.begin tx, fun w => w.commit tx, fun w => w.rollback tx]

/-- A demand is refused for the status of its transaction: in every state in which the transaction
has this status the answer is the same and the state is left as it is. So no local transaction is
called for it, whatever it would do, and no synchronization. -/
def RefusedFor (demand : Cluster → Except ShardError Unit × Cluster) (tx : Nat)
    (status : TransactionStatus) (reason : String) : Prop :=
  ∀ w : Cluster, (w.transaction tx).status = status → demand w = (.error (.transaction reason), w)

theorem begin_refused {reason : String} (h : (w.begin tx).1 = .error (.transaction reason)) :
    (w.transaction tx).status ≠ .created
      ∧ RefusedFor (fun w => w.begin tx) tx (w.transaction tx).status reason := by
  simp only [begin] at h
  cases hstatus : (w.transaction tx).status with
  | active =>
    rw [hstatus] at h
    cases h
  | created =>
    -- A begin that fails on a shard is reported in other words.
    rw [hstatus] at h
    dsimp only at h
    split at h <;> cases h
  | committed | failedCommit | rolledBack =>
    rw [hstatus] at h
    cases h
    refine ⟨by simp, ?_⟩
    intro v hv
    simp only [begin, hv]

theorem commit_refused {reason : String} (h : (w.commit tx).1 = .error (.transaction reason)) :
    RefusedFor (fun w => w.commit tx) tx (w.transaction tx).status reason := by
  intro v hstatus
  simp only [commit, hstatus] at h ⊢
  split at h
  case isTrue =>
    split at h <;> cases h
  case isFalse hidle =>
    rw [if_neg hidle]
    cases h
    rfl

theorem rollback_refused {reason : String} (h : (w.rollback tx).1 = .error (.transaction reason)) :
    RefusedFor (fun w => w.rollback tx) tx (w.transaction tx).status reason := by
  intro v hstatus
  simp only [rollback, hstatus] at h ⊢
  split at h
  case isTrue =>
    split at h <;> cases h
  case isFalse hended =>
    rw [if_neg hended]
    cases h
    rfl

theorem demand_refused {demand : Cluster → Except ShardError Unit × Cluster}
    (hdemand : demand ∈ demands tx) {reason : String}
    (h : (demand w).1 = .error (.transaction reason)) :
    RefusedFor demand tx (w.transaction tx).status reason := by
  simp only [demands, List.mem_cons, List.not_mem_nil, or_false] at hdemand
  rcases hdemand with rfl | rfl | rfl
  · exact (begin_refused h).2
  · exact commit_refused h
  · exact rollback_refused h

/-- Nothing can be asked of a transaction that has come to its end. -/
theorem demand_of_final {demand : Cluster → Except ShardError Unit × Cluster}
    (hdemand : demand ∈ demands tx) (h : (w.transaction tx).status.isFinal = true) :
    ∃ reason, (demand w).1 = .error (.transaction reason) := by
  simp only [demands, List.mem_cons, List.not_mem_nil, or_false] at hdemand
  cases hstatus : (w.transaction tx).status with
  | created | active | failedCommit =>
    rw [hstatus] at h
    cases h
  | committed | rolledBack =>
    rcases hdemand with rfl | rfl | rfl
    · exact ⟨_, by simp only [begin, hstatus]; rfl⟩
    · exact ⟨_, by simp only [commit, hstatus]; rfl⟩
    · exact ⟨_, by simp only [rollback, hstatus]; rfl⟩

/-- A session begins its current transaction as it is begun itself. -/
theorem beginTransaction_of_current (h : w.currentTransaction number = (.ok tx, w₁)) :
    (w.beginTransaction number).2 = (w₁.begin tx).2
      ∧ ∀ e, (w.beginTransaction number).1 = .error e → (w₁.begin tx).1 = .error e := by
  rw [beginTransaction, h]
  dsimp only
  generalize w₁.begin tx = begun
  obtain ⟨outcome, w₂⟩ := begun
  cases outcome with
  | error e => exact ⟨rfl, fun other heq => congrArg _ (Except.error.inj heq)⟩
  | ok => exact ⟨rfl, by simp⟩

/-- To begin the current transaction of a session is refused without any effect too: where a new one
is made for the call, that one can be begun. -/
theorem Tidy.beginTransaction_refused (h : Tidy w number) {reason : String}
    (hrefused : (w.beginTransaction number).1 = .error (.transaction reason)) :
    (w.beginTransaction number).2 = w := by
  rcases h.currentTransaction_cases with ⟨e, hasked⟩ | ⟨tx, -, -, hasked⟩ |
    ⟨w₁, -, -, -, hasked⟩
  · rw [beginTransaction, hasked]
  · obtain ⟨hstate, hanswer⟩ := beginTransaction_of_current hasked
    have hbegin := hanswer _ hrefused
    exact hstate.trans (congrArg Prod.snd ((begin_refused hbegin).2 w rfl))
  · obtain ⟨-, hanswer⟩ := beginTransaction_of_current hasked
    exact absurd (w₁.status_renewTransaction number) (begin_refused (hanswer _ hrefused)).1

/-! ## Runs -/

/-- A transaction that a caller has in hand and that has not come to its end is the session's current
one. -/
theorem Tidy.current_of_handed (h : Tidy w number) (hhanded : some tx ∈ w.handed)
    (hunended : (w.transaction tx).status.isFinal = false) :
    (w.session number).current = some tx :=
  h.current_of_unended (h.held tx hhanded) hunended

/-- Of the transactions that callers of a session have in hand, whatever they did with them, at most
one has not come to its end, and that is the current one. Each call takes the status of a transaction
at most one step on, so an end is kept in every later run. And what is asked of a transaction, be it
the current one or an old one, is refused for its status alone and without any effect, as
everything is after its end. -/
theorem one_unfinished_transaction {factory : SessionFactory} {w₀ w : Cluster}
    (hfresh : w₀.transactions = []) (hfree : w₀.handed = [])
    (hplaces : ∀ physical ∈ factory.shards, physical.backend < w₀.backends.length)
    (hopen : w₀.openSession factory = (.ok number, w)) (calls : List SessionCall) :
    let reached := w.run number calls
    (∀ tx, some tx ∈ reached.handed → (reached.transaction tx).status.isFinal = false →
      (reached.session number).current = some tx)
    ∧ (∀ call, Advances reached (after number reached call))
    ∧ (∀ tx, (reached.transaction tx).status.isFinal = true →
      (∀ later, ((reached.run number later).transaction tx).status = (reached.transaction tx).status)
        ∧ ∀ demand ∈ demands tx, ∃ reason, (demand reached).1 = .error (.transaction reason))
    ∧ (∀ tx, ∀ demand ∈ demands tx, ∀ reason, (demand reached).1 = .error (.transaction reason) →
      demand reached = (.error (.transaction reason), reached)
        ∧ RefusedFor demand tx (reached.transaction tx).status reason)
    ∧ ∀ reason, (reached.beginTransaction number).1 = .error (.transaction reason) →
      (reached.beginTransaction number).2 = reached := by
  intro reached
  have htidy : Tidy reached number := (openSession_tidy hfresh hfree hplaces hopen).run calls
  refine ⟨?_, ?_, ?_, ?_, ?_⟩
  · intro tx hhanded hunended
    exact htidy.current_of_handed hhanded hunended
  · intro call
    exact after_advances number reached call
  · intro tx hfinal
    refine ⟨run_final hfinal, ?_⟩
    intro demand hdemand
    exact demand_of_final hdemand hfinal
  · intro tx demand hdemand reason hrefused
    have hfor := demand_refused hdemand hrefused
    exact ⟨hfor reached rfl, hfor⟩
  · intro reason hrefused
    exact htidy.beginTransaction_refused hrefused

/-- A commit fails, the transaction is rolled back, and the next one is begun. To roll the old one
back again, which would touch the same connection, is refused. -/
theorem one_unfinished_transaction_stale :
    let factory : SessionFactory := ⟨[⟨.ofNat 0, .ofList [.ofNat 0], 0⟩], .default, none⟩
    let w := ((ofBackends 1).openSession factory).2
    let reached := w.run 0 [.establish 0, .beginTransaction, .arm 0 .committing,
      .commit .current, .rollback (.handed 0), .beginTransaction,
      .write 0 "k" (some (.string "v"))]
    reached.handed = [some 0, some 1] ∧ reached.natives 0 = reached.natives 1
      ∧ (reached.transaction 1).status = .active ∧ (reached.session 0).current = some 1
      ∧ reached.rollback 0
        = (.error (.transaction "cannot roll back a transaction in state RolledBack"), reached) := by
  intro factory w reached
  have hopen : (ofBackends 1).openSession factory = (.ok 0, w) := eq_of_fst (by decide +kernel)
  obtain ⟨hcurrent, -, -, hrefused, -⟩ :=
    one_unfinished_transaction rfl rfl (by decide +kernel) hopen [.establish 0, .beginTransaction,
      .arm 0 .committing, .commit .current, .rollback (.handed 0), .beginTransaction,
      .write 0 "k" (some (.string "v"))]
  refine ⟨by decide +kernel, by decide +kernel, by decide +kernel,
    hcurrent 1 (by decide +kernel) (by decide +kernel), ?_⟩
  exact (hrefused 0 (fun w => w.rollback 0) (by simp [demands]) _ (by decide +kernel)).1

end Cluster

end ScatterGather
