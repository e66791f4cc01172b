import ScatterGather.Backend.Basic

/-!
# What a call does to a backend

A call concerns one connection. It leaves the other connections as they are and arms no fault, and
only a commit, or a write outside of a transaction, changes the store. For each call with several
endings there is one lemma that lists them, with what each of them requires.
-/

namespace ScatterGather.Backend

/-- The connection with this number; one that is not open yet is like one that was just opened. -/
def connection (b : Backend) (number : Nat) : Connection :=
  (b.connection? number).getD .fresh

theorem connection_eq {b : Backend} {number : Nat} {c : Connection}
    (h : b.connection? number = some c) : b.connection number = c := by
  rw [connection, h, Option.getD_some]

theorem lt_of_connection? {b : Backend} {number : Nat} {c : Connection}
    (h : b.connection? number = some c) : number < b.connections.length :=
  (List.getElem?_eq_some_iff.mp h).1

/-! ## Changes to some connections only -/

/-- From one backend to a later one: the given connections may have changed and further ones may
have been opened, but the others are as they were, and no fault was armed. -/
structure Within (numbers : List Nat) (b b' : Backend) : Prop where
  opened : b.connections.length ≤ b'.connections.length
  armed : ∀ call, b'.faults.isArmed call = true → b.faults.isArmed call = true
  others : ∀ number, number ∉ numbers → b'.connection number = b.connection number

theorem Within.refl (numbers : List Nat) (b : Backend) : Within numbers b b :=
  ⟨Nat.le_refl _, fun _ h => h, fun _ _ => rfl⟩

theorem Within.mono {numbers more : List Nat} {b b' : Backend} (h : Within numbers b b')
    (hsub : numbers ⊆ more) : Within more b b' :=
  ⟨h.opened, h.armed, fun number hn => h.others number fun hmem => hn (hsub hmem)⟩

theorem within_disarm (b : Backend) (call : NativeCall) : Within [] b (b.disarm call) := by
  refine ⟨Nat.le_refl _, ?_, fun _ _ => rfl⟩
  intro other h
  cases call <;> cases other <;> first | exact h | cases h

theorem within_set {b b' : Backend} {number : Nat} {c : Connection}
    (hconnections : b'.connections = b.connections.set number c) (hfaults : b'.faults = b.faults) :
    Within [number] b b' := by
  refine ⟨?_, ?_, ?_⟩
  · exact Nat.le_of_eq (by rw [hconnections, List.length_set])
  · intro call h
    rwa [hfaults] at h
  · intro other hne
    have hne : number ≠ other := fun h => hne (h ▸ List.mem_singleton_self _)
    rw [connection, connection, connection?, hconnections, List.getElem?_set_ne hne]
    rfl

theorem connection?_set {b b' : Backend} {number : Nat} {c d : Connection}
    (hconnections : b'.connections = b.connections.set number d)
    (h : b.connection? number = some c) : b'.connection? number = some d := by
  rw [connection?, hconnections, List.getElem?_set_self (lt_of_connection? h)]

theorem connection_set {b b' : Backend} {number : Nat} {c d : Connection}
    (hconnections : b'.connections = b.connections.set number d)
    (h : b.connection? number = some c) (other : Nat) :
    b'.connection other = if other = number then d else b.connection other := by
  split
  case isTrue heq =>
    rw [heq, connection_eq (connection?_set hconnections h)]
  case isFalse hne =>
    rw [connection, connection, connection?, hconnections, List.getElem?_set_ne (Ne.symm hne)]
    rfl

/-- What the new connection has in common with the one that it replaces, no connection changes. -/
theorem field_set {α : Type} (field : Connection → α) {b b' : Backend} {number : Nat}
    {c d : Connection} (hconnections : b'.connections = b.connections.set number d)
    (h : b.connection? number = some c) (hsame : field d = field c) (other : Nat) :
    field (b'.connection other) = field (b.connection other) := by
  rw [connection_set hconnections h]
  split
  case isTrue heq => rw [hsame, heq, connection_eq h]
  case isFalse => rfl

/-! ## Opening and closing -/

/-- A number that nobody has yet stands for a fresh connection already. -/
theorem connection_append_fresh {b b' : Backend}
    (hconnections : b'.connections = b.connections ++ [.fresh]) (number : Nat) :
    b'.connection number = b.connection number := by
  rw [connection, connection, connection?, connection?, hconnections]
  rcases Nat.lt_trichotomy number b.connections.length with hlt | rfl | hgt
  · rw [List.getElem?_append_left hlt]
  · simp
  · rw [List.getElem?_eq_none (by simp; omega), List.getElem?_eq_none (by omega)]

theorem openConnection_cases (b : Backend) :
    (∃ b', b.openConnection = (.error (.injectedFault .opening), b') ∧ Within [] b b'
      ∧ b'.store = b.store) ∨
    ∃ b', b.openConnection = (.ok b.connections.length, b') ∧ Within [] b b'
      ∧ b'.store = b.store ∧ b'.connections = b.connections ++ [.fresh] := by
  unfold openConnection
  split
  · exact .inl ⟨_, rfl, b.within_disarm .opening, rfl⟩
  · refine .inr ⟨_, rfl, ⟨?_, fun _ h => h, ?_⟩, rfl, rfl⟩
    · rw [List.length_append]
      exact Nat.le_add_right _ _
    · exact fun number _ => connection_append_fresh rfl number

theorem close_within (b : Backend) (number : Nat) : Within [number] b (b.close number).2 := by
  unfold close
  split
  · exact .refl _ b
  · split
    · exact (b.within_disarm .closing).mono (List.nil_subset _)
    · split
      · exact .refl _ b
      · exact within_set rfl rfl

/-! ## The transaction of a connection -/

theorem begin_cases (b : Backend) (number : Nat) :
    (∃ reason b', b.begin number = (.error reason, b')
      ∧ (b.connection? number = none ∨ b.faults.beginning = true
        ∨ (b.connection number).isActive = true)
      ∧ Within [] b b' ∧ b'.store = b.store) ∨
    ∃ c b', b.connection? number = some c ∧ c.isActive = false ∧ b.begin number = (.ok (), b')
      ∧ Within [number] b b' ∧ b'.store = b.store
      ∧ b'.connection? number = some { c with phase := .active, staged := ∅ } := by
  unfold begin
  match h : b.connection? number with
  | none => exact .inl ⟨_, b, rfl, .inl rfl, .refl _ b, rfl⟩
  | some c =>
    by_cases hfault : b.faults.beginning = true
    · exact .inl ⟨_, _, if_pos hfault, .inr (.inl hfault), b.within_disarm .beginning, rfl⟩
    · cases hactive : c.isActive with
      | true =>
        refine .inl ⟨.alreadyActive, b, by simp [hfault, hactive], ?_, .refl _ b, rfl⟩
        exact .inr (.inr (by rw [connection_eq h, hactive]))
      | false =>
        exact .inr ⟨c, _, rfl, hactive, (if_neg hfault).trans (if_neg (by simp [hactive])),
          within_set rfl rfl, rfl, connection?_set rfl h⟩

theorem commit_cases (b : Backend) (number : Nat) :
    (∃ reason b', b.commit number = (.error reason, b')
      ∧ ((b.connection number).isActive = false ∨ b.faults.committing = true)
      ∧ Within [] b b' ∧ b'.store = b.store) ∨
    ∃ c b', b.connection? number = some c ∧ c.isActive = true ∧ b.commit number = (.ok (), b')
      ∧ Within [number] b b' ∧ b'.store = b.store.overlay c.staged
      ∧ b'.connection? number = some { c with phase := .committed, staged := ∅ } := by
  unfold commit
  match h : b.connection? number with
  | none => exact .inl ⟨_, b, rfl, .inl (by rw [connection, h]; rfl), .refl _ b, rfl⟩
  | some c =>
    cases hactive : c.isActive with
    | false =>
      exact .inl ⟨.notActive, b, by simp [hactive], .inl (by rw [connection_eq h, hactive]),
        .refl _ b, rfl⟩
    | true =>
      by_cases hfault : b.faults.committing = true
      · exact .inl ⟨_, _, (if_neg (by simp [hactive])).trans (if_pos hfault), .inr hfault,
          b.within_disarm .committing, rfl⟩
      · exact .inr ⟨c, _, rfl, hactive, (if_neg (by simp [hactive])).trans (if_neg hfault),
          within_set rfl rfl, rfl, connection?_set rfl h⟩

theorem rollback_cases (b : Backend) (number : Nat) :
    (∃ reason b', b.rollback number = (.error reason, b')
      ∧ (b.connection? number = none
        ∨ (b.connection number).isActive = true ∧ b.faults.rollingBack = true)
      ∧ Within [] b b' ∧ b'.store = b.store) ∨
    ((b.connection number).isActive = false ∧ b.rollback number = (.ok (), b)) ∨
    ∃ c b', b.connection? number = some c ∧ c.isActive = true ∧ b.rollback number = (.ok (), b')
      ∧ Within [number] b b' ∧ b'.store = b.store
      ∧ b'.connection? number = some { c with phase := .rolledBack, staged := ∅ } := by
  unfold rollback
  match h : b.connection? number with
  | none => exact .inl ⟨_, b, rfl, .inl rfl, .refl _ b, rfl⟩
  | some c =>
    cases hactive : c.isActive with
    | false => exact .inr (.inl ⟨by rw [connection_eq h, hactive], by simp [hactive]⟩)
    | true =>
      by_cases hfault : b.faults.rollingBack = true
      · exact .inl ⟨_, _, (if_neg (by simp [hactive])).trans (if_pos hfault),
          .inr ⟨by rw [connection_eq h, hactive], hfault⟩, b.within_disarm .rollingBack, rfl⟩
      · exact .inr (.inr ⟨c, _, rfl, hactive, (if_neg (by simp [hactive])).trans (if_neg hfault),
          within_set rfl rfl, rfl, connection?_set rfl h⟩)

theorem setTimeout_within (b : Backend) (number : Nat) (seconds : UInt32) :
    Within [number] b (b.setTimeout number seconds) := by
  unfold setTimeout
  split
  · exact .refl _ b
  · exact within_set rfl rfl

/-! ## Writing -/

theorem write_cases (b : Backend) (number : Nat) (key : String) (value : Option Json) :
    b.write number key value = (.error .closed, b) ∨
    (∃ c b', b.connection? number = some c ∧ c.isActive = true
      ∧ b.write number key value = (.ok (), b') ∧ Within [number] b b' ∧ b'.store = b.store
      ∧ b'.connection? number = some { c with staged := c.staged.insert key value }) ∨
    ((b.connection number).isActive = false
      ∧ b.write number key value = (.ok (), { b with store := b.store.write key value })) := by
  unfold write
  match h : b.connection? number with
  | none => exact .inl rfl
  | some c =>
    by_cases hclosed : c.closed = true
    · exact .inl (if_pos hclosed)
    · cases hactive : c.isActive with
      | true =>
        exact .inr (.inl ⟨c, _, rfl, hactive, (if_neg hclosed).trans (if_pos hactive),
          within_set rfl rfl, rfl, connection?_set rfl h⟩)
      | false =>
        exact .inr (.inr ⟨by rw [connection_eq h, hactive],
          (if_neg hclosed).trans (if_neg (by simp [hactive]))⟩)

/-! ## Arming -/

theorem isArmed_arm_ne {call other : NativeCall} (h : call ≠ other) (b : Backend) :
    (b.arm call).faults.isArmed other = b.faults.isArmed other := by
  cases call <;> cases other <;> first | rfl | exact absurd rfl h

end ScatterGather.Backend
