import ScatterGather.Proofs.Backend.Calls

/-!
# Runs of a backend

What can be asked of a backend and of the connections to it, as data, so that a run is a list of
calls in any order. `Step` lists what a call can come to, and is what the later modules take apart:
an invariant is shown for each of its cases, and holds after every run.
-/

namespace ScatterGather

/-- A call of a backend, or of the connection with this number. -/
inductive BackendCall where
  | openConnection
  | close (number : Nat)
  | begin (number : Nat)
  | commit (number : Nat)
  | rollback (number : Nat)
  | setTimeout (number : Nat) (seconds : UInt32)
  | get (number : Nat) (key : String)
  | scan (number : Nat) (start : String)
  /-- Put a value, or delete the key if there is none. -/
  | write (number : Nat) (key : String) (value : Option Json)
  | seed (key : String) (value : Json)
  /-- The next call of this kind fails. -/
  | arm (call : NativeCall)
deriving DecidableEq

/-- What a call answers that is not refused. -/
inductive BackendAnswer where
  | done
  | connected (number : Nat)
  | found (value : Option Json)
  | listed (rows : List (String × Json))
deriving DecidableEq

namespace Backend

/-- Carry out one call. -/
def perform (b : Backend) : BackendCall → Except BackendError BackendAnswer × Backend
  | .openConnection => (b.openConnection.1.map .connected, b.openConnection.2)
  | .close number => ((b.close number).1.map fun _ => .done, (b.close number).2)
  | .begin number => ((b.begin number).1.map fun _ => .done, (b.begin number).2)
  | .commit number => ((b.commit number).1.map fun _ => .done, (b.commit number).2)
  | .rollback number => ((b.rollback number).1.map fun _ => .done, (b.rollback number).2)
  | .setTimeout number seconds => (.ok .done, b.setTimeout number seconds)
  | .get number key => ((b.get number key).map .found, b)
  | .scan number start => ((b.scan number start).map .listed, b)
  | .write number key value =>
    ((b.write number key value).1.map fun _ => .done, (b.write number key value).2)
  | .seed key value => (.ok .done, b.seed key value)
  | .arm call => (.ok .done, b.arm call)

/-- The backend after these calls. -/
def run (b : Backend) (calls : List BackendCall) : Backend :=
  calls.foldl (fun b call => (b.perform call).2) b

/-! ## What a call can come to -/

/-- What a call can come to: its answer, and the backend after it. -/
inductive Step (b : Backend) :
    BackendCall → Except BackendError BackendAnswer → Backend → Prop
  | refused (call : BackendCall) (reason : BackendError) : Step b call (.error reason) b
  | tripped (call : BackendCall) (reason : BackendError) (kind : NativeCall)
      (armed : b.faults.isArmed kind = true) : Step b call (.error reason) (b.disarm kind)
  | connected : Step b .openConnection (.ok (.connected b.connections.length))
      { b with
        calls := { b.calls with opened := b.calls.opened + 1 }
        connections := b.connections ++ [.fresh] }
  | closed {number : Nat} {c : Connection} (found : b.connection? number = some c)
      (isOpen : c.closed = false) : Step b (.close number) (.ok .done)
        { b.setConnection number { c with closed := true } with
          calls := { b.calls with closed := b.calls.closed + 1 } }
  | closedBefore {number : Nat} {c : Connection} (found : b.connection? number = some c)
      (isClosed : c.closed = true) : Step b (.close number) (.ok .done) b
  | begun {number : Nat} {c : Connection} (found : b.connection? number = some c)
      (inactive : c.isActive = false) : Step b (.begin number) (.ok .done)
        { b.setConnection number { c with phase := .active, staged := ∅ } with
          calls := { b.calls with begins := b.calls.begins + 1 } }
  | committed {number : Nat} {c : Connection} (found : b.connection? number = some c)
      (active : c.isActive = true) : Step b (.commit number) (.ok .done)
        { b.setConnection number { c with phase := .committed, staged := ∅ } with
          store := b.store.overlay c.staged
          calls := { b.calls with commits := b.calls.commits + 1 } }
  | rolledBack {number : Nat} {c : Connection} (found : b.connection? number = some c)
      (active : c.isActive = true) : Step b (.rollback number) (.ok .done)
        { b.setConnection number { c with phase := .rolledBack, staged := ∅ } with
          calls := { b.calls with rollbacks := b.calls.rollbacks + 1 } }
  | nothingToRollBack {number : Nat} {c : Connection} (found : b.connection? number = some c)
      (inactive : c.isActive = false) : Step b (.rollback number) (.ok .done) b
  | timed {number : Nat} {c : Connection} (found : b.connection? number = some c)
      (seconds : UInt32) : Step b (.setTimeout number seconds) (.ok .done)
        (b.setConnection number { c with timeout := some seconds })
  | nothingToTime {number : Nat} (missing : b.connection? number = none) (seconds : UInt32) :
      Step b (.setTimeout number seconds) (.ok .done) b
  | read {number : Nat} {key : String} {value : Option Json}
      (answer : b.get number key = .ok value) : Step b (.get number key) (.ok (.found value)) b
  | scanned {number : Nat} {start : String} {rows : List (String × Json)}
      (answer : b.scan number start = .ok rows) :
      Step b (.scan number start) (.ok (.listed rows)) b
  | staged {number : Nat} {c : Connection} (found : b.connection? number = some c)
      (isOpen : c.closed = false) (active : c.isActive = true) (key : String)
      (value : Option Json) : Step b (.write number key value) (.ok .done)
        (b.setConnection number { c with staged := c.staged.insert key value })
  | written {number : Nat} {c : Connection} (found : b.connection? number = some c)
      (isOpen : c.closed = false) (inactive : c.isActive = false) (key : String)
      (value : Option Json) : Step b (.write number key value) (.ok .done)
        { b with store := b.store.write key value }
  | seeded (key : String) (value : Json) : Step b (.seed key value) (.ok .done) (b.seed key value)
  | armed (kind : NativeCall) : Step b (.arm kind) (.ok .done) (b.arm kind)

section Endings

variable (b : Backend) (number : Nat)

theorem step_openConnection :
    Step b .openConnection (b.openConnection.1.map .connected) b.openConnection.2 := by
  unfold openConnection
  by_cases hfault : b.faults.opening = true
  · rw [if_pos hfault]
    exact .tripped _ _ .opening hfault
  · rw [if_neg hfault]
    exact .connected

theorem step_close :
    Step b (.close number) ((b.close number).1.map fun _ => .done) (b.close number).2 := by
  unfold close
  cases hc : b.connection? number with
  | none => exact .refused _ _
  | some c =>
    by_cases hfault : b.faults.closing = true
    · simp only [if_pos hfault]
      exact .tripped _ _ .closing hfault
    · simp only [if_neg hfault]
      cases hclosed : c.closed with
      | true => exact .closedBefore hc hclosed
      | false => exact .closed hc hclosed

theorem step_begin :
    Step b (.begin number) ((b.begin number).1.map fun _ => .done) (b.begin number).2 := by
  unfold begin
  cases hc : b.connection? number with
  | none => exact .refused _ _
  | some c =>
    by_cases hfault : b.faults.beginning = true
    · simp only [if_pos hfault]
      exact .tripped _ _ .beginning hfault
    · simp only [if_neg hfault]
      cases hactive : c.isActive with
      | true => exact .refused _ _
      | false => exact .begun hc hactive

theorem step_commit :
    Step b (.commit number) ((b.commit number).1.map fun _ => .done) (b.commit number).2 := by
  unfold commit
  cases hc : b.connection? number with
  | none => exact .refused _ _
  | some c =>
    cases hactive : c.isActive with
    | false => simpa [hactive] using .refused _ _
    | true =>
      by_cases hfault : b.faults.committing = true
      · simpa [hactive, hfault] using .tripped _ _ .committing hfault
      · simpa [hactive, hfault] using .committed hc hactive

theorem step_rollback :
    Step b (.rollback number) ((b.rollback number).1.map fun _ => .done)
      (b.rollback number).2 := by
  unfold rollback
  cases hc : b.connection? number with
  | none => exact .refused _ _
  | some c =>
    cases hactive : c.isActive with
    | false => simpa [hactive] using .nothingToRollBack hc hactive
    | true =>
      by_cases hfault : b.faults.rollingBack = true
      · simpa [hactive, hfault] using .tripped _ _ .rollingBack hfault
      · simpa [hactive, hfault] using .rolledBack hc hactive

theorem step_setTimeout (seconds : UInt32) :
    Step b (.setTimeout number seconds) (.ok .done) (b.setTimeout number seconds) := by
  unfold setTimeout
  cases hc : b.connection? number with
  | none => exact .nothingToTime hc seconds
  | some c => exact .timed hc seconds

theorem step_write (key : String) (value : Option Json) :
    Step b (.write number key value) ((b.write number key value).1.map fun _ => .done)
      (b.write number key value).2 := by
  unfold write
  cases hc : b.connection? number with
  | none => exact .refused _ _
  | some c =>
    by_cases hclosed : c.closed = true
    · simp only [if_pos hclosed]
      exact .refused _ _
    · simp only [if_neg hclosed]
      cases hactive : c.isActive with
      | true => exact .staged hc (eq_false_of_ne_true hclosed) hactive key value
      | false => exact .written hc (eq_false_of_ne_true hclosed) hactive key value

theorem step_get (key : String) :
    Step b (.get number key) ((b.get number key).map .found) b := by
  cases h : b.get number key with
  | ok value => exact .read h
  | error reason => exact .refused _ reason

theorem step_scan (start : String) :
    Step b (.scan number start) ((b.scan number start).map .listed) b := by
  cases h : b.scan number start with
  | ok rows => exact .scanned h
  | error reason => exact .refused _ reason

end Endings

theorem step_perform (b : Backend) (call : BackendCall) :
    Step b call (b.perform call).1 (b.perform call).2 := by
  cases call with
  | openConnection => exact b.step_openConnection
  | close number => exact b.step_close number
  | begin number => exact b.step_begin number
  | commit number => exact b.step_commit number
  | rollback number => exact b.step_rollback number
  | setTimeout number seconds => exact b.step_setTimeout number seconds
  | get number key => exact b.step_get number key
  | scan number start => exact b.step_scan number start
  | write number key value => exact b.step_write number key value
  | seed key value => exact .seeded key value
  | arm kind => exact .armed kind

/-! ## What a call leaves alone

Of what a backend consists of each part is changed by few kinds of calls. -/

namespace Step

variable {b b' : Backend} {call : BackendCall} {answer : Except BackendError BackendAnswer}

theorem store_kept (h : Step b call answer b') (hcommits : ∀ number, call ≠ .commit number)
    (hwrites : ∀ number key value, call ≠ .write number key value)
    (hseeds : ∀ key value, call ≠ .seed key value) : b'.store = b.store := by
  cases h with
  | committed => exact absurd rfl (hcommits _)
  | written => exact absurd rfl (hwrites _ _ _)
  | seeded => exact absurd rfl (hseeds _ _)
  | _ => rfl

theorem length_connections (h : Step b call answer b') (hopens : call ≠ .openConnection) :
    b'.connections.length = b.connections.length := by
  cases h with
  | connected => exact absurd rfl hopens
  | closed | begun | committed | rolledBack | timed | staged => exact List.length_set
  | _ => rfl

theorem closed_eq (h : Step b call answer b') (hcloses : ∀ number, call ≠ .close number)
    (other : Nat) : (b'.connection other).closed = (b.connection other).closed := by
  cases h with
  | closed => exact absurd rfl (hcloses _)
  | connected => rw [connection_append_fresh rfl]
  | begun found | committed found | rolledBack found | timed found | staged found =>
    exact field_set (·.closed) rfl found (by rfl) other
  | _ => rfl

theorem timeout_eq (h : Step b call answer b')
    (hsets : ∀ number seconds, call ≠ .setTimeout number seconds) (other : Nat) :
    (b'.connection other).timeout = (b.connection other).timeout := by
  cases h with
  | timed => exact absurd rfl (hsets _ _)
  | connected => rw [connection_append_fresh rfl]
  | closed found | begun found | committed found | rolledBack found | staged found =>
    exact field_set (·.timeout) rfl found (by rfl) other
  | _ => rfl

theorem work_eq (h : Step b call answer b') (hbegins : ∀ number, call ≠ .begin number)
    (hcommits : ∀ number, call ≠ .commit number) (hundoes : ∀ number, call ≠ .rollback number)
    (hwrites : ∀ number key value, call ≠ .write number key value) (other : Nat) :
    (b'.connection other).phase = (b.connection other).phase
      ∧ (b'.connection other).staged = (b.connection other).staged := by
  cases h with
  | begun => exact absurd rfl (hbegins _)
  | committed => exact absurd rfl (hcommits _)
  | rolledBack => exact absurd rfl (hundoes _)
  | staged => exact absurd rfl (hwrites _ _ _)
  | connected => rw [connection_append_fresh rfl]; exact ⟨rfl, rfl⟩
  | closed found | timed found =>
    exact ⟨field_set (·.phase) rfl found (by rfl) other,
      field_set (·.staged) rfl found (by rfl) other⟩
  | _ => exact ⟨rfl, rfl⟩

end Step

/-- What each call keeps holds after every run. -/
theorem run_invariant {P : Backend → Prop}
    (keeps : ∀ {b b' : Backend} {call : BackendCall} {answer : Except BackendError BackendAnswer},
      Step b call answer b' → P b → P b')
    {b : Backend} (h : P b) (calls : List BackendCall) : P (b.run calls) := by
  induction calls generalizing b with
  | nil => exact h
  | cons call calls ih => exact ih (keeps (b.step_perform call) h)

end Backend

end ScatterGather
