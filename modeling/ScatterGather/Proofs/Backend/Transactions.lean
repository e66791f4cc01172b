import ScatterGather.Proofs.Backend.Isolation

/-!
# Transactions of a backend

What callers may rely on at a moment of a run: what the next call does to the store, what its
connection shows before a commit and after a rollback, and that what one connection has staged does
not reach the others. Every run keeps this up, whatever is called on however many connections and
whichever calls are made to fail.
-/

namespace ScatterGather.Backend

variable {b : Backend} {number : Nat}

theorem get_after_write (h : b.StagesInTransactions) {key : String} {value : Option Json}
    (hwrite : (b.write number key value).1 = .ok ()) (k : String) :
    (b.write number key value).2.get number k = if k = key then .ok value else b.get number k := by
  have hstep := b.step_write number key value
  rw [hwrite] at hstep
  generalize (b.write number key value).2 = b' at hstep ⊢
  cases hstep with
  | @staged _ c found isOpen =>
    have found' : (b.setConnection number { c with staged := c.staged.insert key value }).connection?
        number = some { c with staged := c.staged.insert key value } := connection?_set rfl found
    rw [get_eq_view found' isOpen, get_eq_view found isOpen, Connection.view, Connection.view,
      Store.get?_overlay, Store.get?_overlay, Ordered.Map.get?_insert]
    by_cases heq : k = key <;> simp [heq, setConnection]
  | @written _ c found isOpen inactive =>
    have found' : Backend.connection? { b with store := b.store.write key value } number = some c :=
      found
    rw [get_eq_view found' isOpen, get_eq_view found isOpen, h.view_eq found inactive,
      h.view_eq found inactive, Store.get?_write]
    by_cases heq : k = key <;> simp [heq]

theorem scan_before_commit (hcommit : (b.commit number).1 = .ok ())
    (isOpen : (b.connection number).closed = false) :
    b.scan number "" = .ok (b.commit number).2.store.entries := by
  rcases b.commit_cases number with
    ⟨reason, b', hrefused, -⟩ | ⟨c, b', found, -, hcommitted, -, hstore, -⟩
  · rw [hrefused] at hcommit
    cases hcommit
  · rw [connection_eq found] at isOpen
    rw [scan_eq_view found isOpen, Store.scan_all, hcommitted, hstore, Connection.view]

/-- The connection is left with nothing staged, and is open if it was. -/
theorem connection_after_rollback (h : b.StagesInTransactions)
    (hrollback : (b.rollback number).1 = .ok ()) :
    (b.rollback number).2.store = b.store ∧
      ∃ c, (b.rollback number).2.connection? number = some c ∧ c.staged = ∅ ∧
        c.closed = (b.connection number).closed := by
  rcases b.rollback_cases number with
    ⟨reason, b', hrefused, -⟩ | ⟨inactive, hidle⟩ | ⟨c, b', found, -, hdone, -, hstore, hd⟩
  · rw [hrefused] at hrollback
    cases hrollback
  · rw [hidle]
    cases found : b.connection? number with
    | none => simp [rollback, found] at hrollback
    | some c =>
      refine ⟨rfl, c, rfl, ?_, ?_⟩
      · rw [← h number inactive, connection_eq found]
      · rw [connection_eq found]
  · rw [hdone, connection_eq found]
    exact ⟨hstore, _, hd, rfl, rfl⟩

/-- What callers may rely on. -/
structure Transactional (b : Backend) : Prop where
  /-- Writes are staged in active transactions only. -/
  staged : ∀ number, (b.connection number).staged ≠ ∅ → (b.connection number).isActive = true
  /-- Only a seed, a write outside of a transaction and a commit change the store, and only if they
  are not refused. -/
  changed : ∀ call, (b.perform call).2.store ≠ b.store →
    (∃ answer, (b.perform call).1 = .ok answer) ∧ b.Publishes call
  /-- What they make of it. -/
  published : ∀ call answer, (b.perform call).1 = .ok answer →
    (b.perform call).2.store = b.published call
  /-- A connection sees what it has written, and otherwise what it saw before. -/
  written : ∀ number key value, (b.write number key value).1 = .ok () → ∀ k,
    (b.write number key value).2.get number k = if k = key then .ok value else b.get number k
  /-- A commit makes the store what the connection showed. -/
  committed : ∀ number, (b.commit number).1 = .ok () → (b.connection number).closed = false →
    b.scan number "" = .ok (b.commit number).2.store.entries
  /-- After a rollback the connection sees the store, which is as it was. -/
  rolledBack : ∀ number, (b.rollback number).1 = .ok () →
    (b.rollback number).2.store = b.store ∧
      ((b.rollback number).2.connection number).view b.store = b.store ∧
      ((b.connection number).closed = false →
        (∀ start, (b.rollback number).2.scan number start = .ok (b.store.scan start)) ∧
        ∀ key, (b.rollback number).2.get number key = .ok (b.store.get? key))
  /-- A refused call changes nothing, or uses an armed fault up. -/
  refused : ∀ call reason, (b.perform call).1 = .error reason →
    (b.perform call).2 = b ∨
      ∃ kind, b.faults.isArmed kind = true ∧ (b.perform call).2 = b.disarm kind
  /-- What a connection shows is the same whatever another one has staged, now and as long as that
  one does not commit. -/
  isolated : ∀ number other, number ≠ other → ∀ writes calls, b.KeepsBack other calls →
    (∀ key, ((b.restage other writes).run calls).get number key = (b.run calls).get number key) ∧
    ∀ start,
      ((b.restage other writes).run calls).scan number start = (b.run calls).scan number start

theorem StagesInTransactions.transactional (h : b.StagesInTransactions) : b.Transactional where
  staged number hstaged := by
    cases hactive : (b.connection number).isActive with
    | true => rfl
    | false => exact absurd (h number hactive) hstaged
  changed call hstore := (b.step_perform call).publishes hstore
  published call answer hanswer := Step.store_eq (hanswer ▸ b.step_perform call)
  written _ _ _ hwrite k := get_after_write h hwrite k
  committed _ hcommit isOpen := scan_before_commit hcommit isOpen
  rolledBack number hrollback := by
    obtain ⟨hstore, c, found, hstaged, hclosed⟩ := connection_after_rollback h hrollback
    have hview : c.view b.store = b.store := by
      rw [Connection.view, hstaged]
      rfl
    refine ⟨hstore, by rw [connection_eq found, hview], fun isOpen => ?_⟩
    rw [← hclosed] at isOpen
    refine ⟨fun start => ?_, fun key => ?_⟩
    · rw [scan_eq_view found isOpen, hstore, hview]
    · rw [get_eq_view found isOpen, hstore, hview]
  refused call reason hreason := Step.of_error (hreason ▸ b.step_perform call)
  isolated number other hne writes calls hkeeps := by
    have hsame := (b.sameBut_restage other writes).run hkeeps
    exact ⟨hsame.get_eq hne, hsame.scan_eq hne⟩

/-- Every run of a backend leads to such a moment. -/
theorem run_transactional (calls : List BackendCall) : (empty.run calls).Transactional :=
  (run_stagesInTransactions calls).transactional

/-- After a refused commit the transaction can still be committed or rolled back. -/
example :
    let b := empty.run [.seed "a" (.bool true), .openConnection, .openConnection, .begin 0,
      .write 0 "b" (some .null), .write 0 "a" none, .arm .committing, .commit 0]
    b.scan 0 "" = .ok [("b", .null)] ∧ b.scan 1 "" = .ok [("a", .bool true)]
      ∧ (b.run [.commit 0]).scan 1 "" = .ok [("b", .null)]
      ∧ (b.run [.rollback 0]).scan 0 "" = .ok [("a", .bool true)] :=
  ⟨rfl, rfl, rfl, rfl⟩

end ScatterGather.Backend
