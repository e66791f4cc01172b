import ScatterGather.Proofs.Backend.Run

/-!
# The counters of a backend

A call is counted when it has an effect, and only then: neither a refused call is counted, nor a
rollback that finds nothing to roll back, nor a connection that is closed again. So the counters tell
what the connections are doing. Each transaction that was begun was committed, was rolled back, or is
active; each connection that was opened was closed or is open (`Balanced`).
-/

namespace ScatterGather

theorem Connection.isActive_mk (closed : Bool) (phase : Phase) (staged : Writes)
    (timeout : Option UInt32) :
    Connection.isActive ⟨closed, phase, staged, timeout⟩ = decide (phase = .active) :=
  rfl

namespace Backend

variable {b b' : Backend} {call : BackendCall} {answer : Except BackendError BackendAnswer}

/-- How many transactions are active, on open and on closed connections. -/
def active (b : Backend) : Nat :=
  b.connections.countP (·.isActive)

/-- How many connections are open. -/
def unclosed (b : Backend) : Nat :=
  b.connections.countP (!·.closed)

/-- The counters agree with the connections. -/
structure Balanced (b : Backend) : Prop where
  begins : b.calls.begins = b.calls.commits + b.calls.rollbacks + b.active
  opened : b.calls.opened = b.calls.closed + b.unclosed

/-! ## One call -/

/-- Where one connection is replaced, a count changes by what the two count for. -/
theorem countP_set {number : Nat} {c d : Connection} (p : Connection → Bool)
    (hconnections : b'.connections = b.connections.set number d)
    (found : b.connection? number = some c) :
    b'.connections.countP p + (p c).toNat = b.connections.countP p + (p d).toNat := by
  obtain ⟨hlt, rfl⟩ := List.getElem?_eq_some_iff.mp found
  have htoNat : ∀ x : Bool, x.toNat = if x then 1 else 0 := by decide
  have hcounted := List.boole_getElem_le_countP (p := p) hlt
  rw [hconnections, List.countP_set hlt, htoNat, htoNat]
  omega

/-- The counters keep up with a connection that is replaced if they change as it does. -/
theorem Balanced.set {number : Nat} {c d : Connection} (h : b.Balanced)
    (hconnections : b'.connections = b.connections.set number d)
    (found : b.connection? number = some c)
    (hbegins : b'.calls.begins + (b.calls.commits + b.calls.rollbacks) + c.isActive.toNat
      = b.calls.begins + (b'.calls.commits + b'.calls.rollbacks) + d.isActive.toNat)
    (hopened : b'.calls.opened + b.calls.closed + (!c.closed).toNat
      = b.calls.opened + b'.calls.closed + (!d.closed).toNat) : b'.Balanced := by
  have hactive : b'.active + c.isActive.toNat = b.active + d.isActive.toNat :=
    countP_set _ hconnections found
  have hunclosed : b'.unclosed + (!c.closed).toNat = b.unclosed + (!d.closed).toNat :=
    countP_set _ hconnections found
  obtain ⟨hbefore, hbefore'⟩ := h
  constructor <;> omega

theorem Step.balanced (h : Step b call answer b') (hb : b.Balanced) : b'.Balanced := by
  cases h with
  | refused | tripped | closedBefore | nothingToRollBack | nothingToTime | read | scanned | written
  | seeded | armed => exact ⟨hb.begins, hb.opened⟩
  | connected =>
    -- A fresh connection is open, and its transaction is idle.
    have hactive : (b.connections ++ [Connection.fresh]).countP (·.isActive) = b.active :=
      List.countP_append
    have hunclosed : (b.connections ++ [Connection.fresh]).countP (!·.closed) = b.unclosed + 1 :=
      List.countP_append
    have hopened : b.calls.opened + 1
        = b.calls.closed + (b.connections ++ [Connection.fresh]).countP (!·.closed) := by
      rw [hunclosed, hb.opened, Nat.add_assoc]
    exact ⟨hb.begins.trans (congrArg _ hactive.symm), hopened⟩
  | closed found isOpen => exact hb.set rfl found rfl (by simp +arith [isOpen])
  | begun found inactive =>
    exact hb.set rfl found (by simp +arith [inactive, Connection.isActive_mk]) rfl
  | committed found active =>
    exact hb.set rfl found (by simp +arith [active, Connection.isActive_mk]) rfl
  | rolledBack found active =>
    exact hb.set rfl found (by simp +arith [active, Connection.isActive_mk]) rfl
  | timed found | staged found => exact hb.set rfl found rfl rfl

/-! ## Runs -/

theorem Balanced.run (h : b.Balanced) (calls : List BackendCall) : (b.run calls).Balanced :=
  run_invariant Step.balanced h calls

/-- The counters balance after every run, with however many connections and whichever calls are made
to fail. -/
theorem run_balanced (calls : List BackendCall) : (empty.run calls).Balanced :=
  Balanced.run ⟨rfl, rfl⟩ calls

/-- Closing twice, rolling back twice and a refused commit are not counted. -/
example :
    let b := empty.run [.openConnection, .openConnection, .begin 0, .begin 1, .begin 1,
      .arm .committing, .commit 0, .rollback 1, .rollback 1, .close 1, .close 1]
    b.calls = ⟨2, 1, 2, 0, 1⟩ ∧ b.active = 1 ∧ b.unclosed = 1 :=
  ⟨rfl, rfl, rfl⟩

end Backend

end ScatterGather
