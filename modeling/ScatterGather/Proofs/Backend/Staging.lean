import ScatterGather.Proofs.Backend.Run

/-!
# Staged writes

Only active transactions stage writes, in every state that a run leads to. The store changes when
writes are published, which a refused call never does.
-/

namespace ScatterGather.Backend

variable {b b' : Backend} {call : BackendCall} {answer : Except BackendError BackendAnswer}

/-! ## Only active transactions stage writes -/

/-- Connections have nothing staged outside of a transaction. -/
def StagesInTransactions (b : Backend) : Prop :=
  ∀ number, (b.connection number).isActive = false → (b.connection number).staged = ∅

theorem StagesInTransactions.set {number : Nat} {c d : Connection} (h : b.StagesInTransactions)
    (hconnections : b'.connections = b.connections.set number d)
    (found : b.connection? number = some c) (hd : d.isActive = false → d.staged = ∅) :
    b'.StagesInTransactions := by
  intro other
  rw [connection_set hconnections found]
  split
  · exact hd
  · exact h other

theorem Step.stagesInTransactions (h : Step b call answer b') (hb : b.StagesInTransactions) :
    b'.StagesInTransactions := by
  -- What a connection stages is as before, or nothing, or the connection is active.
  have before {number : Nat} {c : Connection} (found : b.connection? number = some c) :
      c.isActive = false → c.staged = ∅ := connection_eq found ▸ hb number
  cases h with
  | refused | tripped | closedBefore | nothingToRollBack | nothingToTime | read | scanned | written
  | seeded | armed => exact hb
  | connected =>
    intro number
    rw [connection_append_fresh rfl]
    exact hb number
  | closed found | timed found => exact hb.set rfl found (before found :)
  | begun found | committed found | rolledBack found => exact hb.set rfl found fun _ => rfl
  | staged found _ active =>
    exact hb.set rfl found fun inactive => nomatch active.symm.trans inactive

theorem run_stagesInTransactions (calls : List BackendCall) :
    (empty.run calls).StagesInTransactions :=
  run_invariant (fun h => h.stagesInTransactions) (fun _ _ => rfl) calls

/-! ## What a call does to the store -/

/-- A call that changes the store, if it is not refused. -/
def Publishes (b : Backend) : BackendCall → Prop
  | .seed _ _ | .commit _ => True
  | .write number _ _ => (b.connection number).isActive = false
  | _ => False

/-- The store after a call that is not refused. -/
def published (b : Backend) : BackendCall → Store
  | .seed key value => b.store.write key (some value)
  | .write number key value =>
    if (b.connection number).isActive then b.store else b.store.write key value
  | .commit number => (b.connection number).view b.store
  | _ => b.store

theorem published_eq_store (h : ¬ b.Publishes call) : b.published call = b.store := by
  cases call with
  | write number key value => exact if_pos (eq_true_of_ne_false h)
  | seed | commit => exact absurd trivial h
  | _ => rfl

theorem Step.store_eq {result : BackendAnswer} (h : Step b call (.ok result) b') :
    b'.store = b.published call := by
  cases h with
  | committed found => simp [published, connection_eq found, Connection.view]
  | staged found _ active => simp [published, connection_eq found, active, setConnection]
  | written found _ inactive => simp [published, connection_eq found, inactive]
  | _ => rfl

theorem Step.of_error {reason : BackendError} (h : Step b call (.error reason) b') :
    b' = b ∨ ∃ kind, b.faults.isArmed kind = true ∧ b' = b.disarm kind := by
  cases h with
  | refused => exact .inl rfl
  | tripped _ _ kind armed => exact .inr ⟨kind, armed, rfl⟩

theorem Step.publishes (h : Step b call answer b') (hstore : b'.store ≠ b.store) :
    (∃ result, answer = .ok result) ∧ b.Publishes call := by
  cases answer with
  | error reason =>
    rcases h.of_error with rfl | ⟨kind, -, rfl⟩
    · exact absurd rfl hstore
    · exact absurd rfl hstore
  | ok result =>
    refine ⟨⟨result, rfl⟩, ?_⟩
    by_cases hpublishes : b.Publishes call
    · exact hpublishes
    · exact absurd (h.store_eq.trans (published_eq_store hpublishes)) hstore

end ScatterGather.Backend
