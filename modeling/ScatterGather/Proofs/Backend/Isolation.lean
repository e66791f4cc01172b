import ScatterGather.Proofs.Backend.Views

/-!
# Transactions of a backend

Two runs that differ in what one connection has staged look the same to every other connection, for
as long as it publishes none of it. With what a call does to the store, and with what its connection
shows afterwards, this is what callers may rely on at every moment of a run (`Transactional`).
-/

namespace ScatterGather

/-- The connection with these writes staged instead of its own. -/
def Connection.restage (c : Connection) (writes : Writes) : Connection :=
  { c with staged := writes }

namespace Backend

/-- The backend with other writes staged in one of its connections. -/
def restage (b : Backend) (number : Nat) (writes : Writes) : Backend :=
  { b with connections := b.connections.modify number fun c => c.restage writes }

/-- During these calls the connection does not commit, unless it is refused. -/
def KeepsBack (number : Nat) : Backend → List BackendCall → Prop
  | _, [] => True
  | b, call :: calls =>
    (call = .commit number → ∃ reason, (b.perform call).1 = .error reason)
      ∧ KeepsBack number (b.perform call).2 calls

/-! ## Backends that differ in what one connection has staged -/

/-- The backends differ at most in the writes that one connection has staged. -/
structure SameBut (number : Nat) (b b' : Backend) : Prop where
  store : b'.store = b.store
  faults : b'.faults = b.faults
  opened : b'.connections.length = b.connections.length
  restaged : ∀ n, ∃ writes, b'.connection? n = (b.connection? n).map (·.restage writes)
    ∧ (n ≠ number → b'.connection? n = b.connection? n)

theorem sameBut_restage (b : Backend) (number : Nat) (writes : Writes) :
    SameBut number b (b.restage number writes) := by
  refine ⟨rfl, rfl, List.length_modify .., fun n => ?_⟩
  simp only [connection?, restage, List.getElem?_modify]
  by_cases heq : number = n
  · exact ⟨writes, by simp [heq], fun hne => absurd heq.symm hne⟩
  · refine ⟨(b.connection n).staged, ?_, fun _ => by simp [heq]⟩
    cases hc : b.connections[n]? with
    | none => rfl
    | some c =>
      rw [connection_eq (c := c) hc]
      simp [heq, Connection.restage]

namespace SameBut

variable {number n : Nat} {b b' b₁ b₁' : Backend} {c d : Connection} {writes : Writes}

theorem missing (h : SameBut number b b') (hc : b.connection? n = none) :
    b'.connection? n = none := by
  obtain ⟨writes, hrestaged, -⟩ := h.restaged n
  rw [hrestaged, hc, Option.map_none]

theorem found (h : SameBut number b b') (hc : b.connection? n = some c) :
    ∃ writes, b'.connection? n = some (c.restage writes) ∧ (n ≠ number → writes = c.staged) := by
  obtain ⟨writes, hrestaged, hsame⟩ := h.restaged n
  rw [hc, Option.map_some] at hrestaged
  refine ⟨writes, hrestaged, fun hne => ?_⟩
  have heq : c.restage writes = c := by
    rw [hsame hne, hc] at hrestaged
    exact (Option.some.inj hrestaged).symm
  exact congrArg Connection.staged heq

/-- Both connections of one number are changed alike. -/
theorem set (h : SameBut number b b') (hc : b.connection? n = some c)
    (hc' : b'.connection? n = some (c.restage writes))
    (hstore : b₁'.store = b₁.store) (hfaults : b₁'.faults = b₁.faults)
    (hset : b₁.connections = b.connections.set n d) {staged : Writes}
    (hset' : b₁'.connections = b'.connections.set n (d.restage staged))
    (hstaged : n ≠ number → staged = d.staged) : SameBut number b₁ b₁' := by
  refine ⟨hstore, hfaults, ?_, fun m => ?_⟩
  · rw [hset, hset', List.length_set, List.length_set, h.opened]
  · by_cases heq : m = n
    · subst heq
      rw [connection?_set hset hc, connection?_set hset' hc']
      exact ⟨staged, rfl, fun hne => by rw [hstaged hne]; rfl⟩
    · have hkept : b₁.connection? m = b.connection? m := by
        rw [connection?, hset, List.getElem?_set_ne (Ne.symm heq)]
        rfl
      have hkept' : b₁'.connection? m = b'.connection? m := by
        rw [connection?, hset', List.getElem?_set_ne (Ne.symm heq)]
        rfl
      rw [hkept, hkept']
      exact h.restaged m

theorem disarm (h : SameBut number b b') (kind : NativeCall) :
    SameBut number (b.disarm kind) (b'.disarm kind) :=
  ⟨h.store, congrArg (·.set kind false) h.faults, h.opened, h.restaged⟩

/-- Both backends take the same branch. -/
theorem branch {α : Type} {p q : Prop} [Decidable p] [Decidable q] (hpq : q ↔ p)
    {taken taken' other other' : α × Backend} (htaken : p → SameBut number taken.2 taken'.2)
    (hother : ¬ p → SameBut number other.2 other'.2) :
    SameBut number (if p then taken else other).2 (if q then taken' else other').2 := by
  by_cases hp : p
  · rw [if_pos hp, if_pos (hpq.mpr hp)]
    exact htaken hp
  · rw [if_neg hp, if_neg (mt hpq.mp hp)]
    exact hother hp

/-! ### The calls -/

theorem openConnection (h : SameBut number b b') :
    SameBut number b.openConnection.2 b'.openConnection.2 := by
  refine branch (by rw [h.faults]) (fun _ => h.disarm .opening) fun _ => ?_
  refine ⟨h.store, h.faults, by simp [h.opened], fun m => ?_⟩
  obtain ⟨writes, hrestaged, hsame⟩ := h.restaged m
  simp only [connection?] at hrestaged hsame ⊢
  rcases Nat.lt_or_ge m b.connections.length with hlt | hge
  · rw [List.getElem?_append_left hlt, List.getElem?_append_left (h.opened ▸ hlt)]
    exact ⟨writes, hrestaged, hsame⟩
  · rw [List.getElem?_append_right hge, List.getElem?_append_right (h.opened ▸ hge), h.opened]
    exact ⟨∅, by cases m - b.connections.length <;> rfl, fun _ => rfl⟩

theorem close (h : SameBut number b b') : SameBut number (b.close n).2 (b'.close n).2 := by
  unfold Backend.close
  cases hc : b.connection? n with
  | none => simpa [h.missing hc] using h
  | some c =>
    obtain ⟨writes, hc', hsame⟩ := h.found hc
    rw [hc']
    refine branch (by rw [h.faults]) (fun _ => h.disarm .closing) fun _ => ?_
    refine branch Iff.rfl (fun _ => h) fun _ => ?_
    exact h.set hc hc' h.store h.faults rfl rfl hsame

theorem begin (h : SameBut number b b') : SameBut number (b.begin n).2 (b'.begin n).2 := by
  unfold Backend.begin
  cases hc : b.connection? n with
  | none => simpa [h.missing hc] using h
  | some c =>
    obtain ⟨writes, hc', -⟩ := h.found hc
    rw [hc']
    refine branch (by rw [h.faults]) (fun _ => h.disarm .beginning) fun _ => ?_
    refine branch Iff.rfl (fun _ => h) fun _ => ?_
    exact h.set hc hc' h.store h.faults rfl rfl fun _ => rfl

theorem rollback (h : SameBut number b b') :
    SameBut number (b.rollback n).2 (b'.rollback n).2 := by
  unfold Backend.rollback
  cases hc : b.connection? n with
  | none => simpa [h.missing hc] using h
  | some c =>
    obtain ⟨writes, hc', -⟩ := h.found hc
    rw [hc']
    refine branch Iff.rfl (fun _ => h) fun _ => ?_
    refine branch (by rw [h.faults]) (fun _ => h.disarm .rollingBack) fun _ => ?_
    exact h.set hc hc' h.store h.faults rfl rfl fun _ => rfl

/-- A commit that is not refused would publish what its own connection has staged. -/
theorem commit (h : SameBut number b b')
    (hkeeps : n = number → ∃ reason, (b.commit n).1 = .error reason) :
    SameBut number (b.commit n).2 (b'.commit n).2 := by
  unfold Backend.commit at hkeeps ⊢
  cases hc : b.connection? n with
  | none => simpa [h.missing hc] using h
  | some c =>
    obtain ⟨writes, hc', hsame⟩ := h.found hc
    rw [hc']
    refine branch Iff.rfl (fun _ => h) fun hactive => ?_
    refine branch (by rw [h.faults]) (fun _ => h.disarm .committing) fun hfault => ?_
    have hne : n ≠ number := fun heq => by
      obtain ⟨reason, herror⟩ := hkeeps heq
      simp [hc, hactive, hfault] at herror
    refine h.set hc hc' ?_ h.faults rfl rfl fun _ => rfl
    show b'.store.overlay writes = b.store.overlay c.staged
    rw [h.store, hsame hne]

theorem setTimeout (h : SameBut number b b') (seconds : UInt32) :
    SameBut number (b.setTimeout n seconds) (b'.setTimeout n seconds) := by
  unfold Backend.setTimeout
  cases hc : b.connection? n with
  | none => simpa [h.missing hc] using h
  | some c =>
    obtain ⟨writes, hc', hsame⟩ := h.found hc
    rw [hc']
    exact h.set hc hc' h.store h.faults rfl rfl hsame

theorem write (h : SameBut number b b') (key : String) (value : Option Json) :
    SameBut number (b.write n key value).2 (b'.write n key value).2 := by
  unfold Backend.write
  cases hc : b.connection? n with
  | none => simpa [h.missing hc] using h
  | some c =>
    obtain ⟨writes, hc', hsame⟩ := h.found hc
    rw [hc']
    refine branch Iff.rfl (fun _ => h) fun _ => ?_
    refine branch Iff.rfl (fun _ => ?staged) fun _ => ?written
    case staged =>
      exact h.set hc hc' h.store h.faults rfl rfl fun hne => congrArg (·.insert key value) (hsame hne)
    case written =>
      exact ⟨congrArg (·.write key value) h.store, h.faults, h.opened, h.restaged⟩

theorem perform (h : SameBut number b b') (call : BackendCall)
    (hkeeps : call = .commit number → ∃ reason, (b.perform call).1 = .error reason) :
    SameBut number (b.perform call).2 (b'.perform call).2 := by
  cases call with
  | openConnection => exact h.openConnection
  | close n => exact h.close
  | begin n => exact h.begin
  | rollback n => exact h.rollback
  | setTimeout n seconds => exact h.setTimeout seconds
  | get | scan => exact h
  | write n key value => exact h.write key value
  | seed key value =>
    exact ⟨congrArg (·.write key (some value)) h.store, h.faults, h.opened, h.restaged⟩
  | arm kind => exact ⟨h.store, congrArg (·.set kind true) h.faults, h.opened, h.restaged⟩
  | commit n =>
    refine h.commit fun heq => ?_
    subst heq
    obtain ⟨reason, herror⟩ := hkeeps rfl
    cases hcommit : (b.commit n).1 with
    | error reason => exact ⟨reason, rfl⟩
    | ok => simp [Backend.perform, hcommit, Except.map] at herror

theorem run (h : SameBut number b b') {calls : List BackendCall} (hkeeps : b.KeepsBack number calls) :
    SameBut number (b.run calls) (b'.run calls) := by
  induction calls generalizing b b' with
  | nil => exact h
  | cons call calls ih => exact ih (h.perform call hkeeps.1) hkeeps.2

theorem get_eq (h : SameBut number b b') (hne : n ≠ number) (key : String) :
    b'.get n key = b.get n key := by
  obtain ⟨-, -, hsame⟩ := h.restaged n
  rw [Backend.get, Backend.get, hsame hne, h.store]

theorem scan_eq (h : SameBut number b b') (hne : n ≠ number) (start : String) :
    b'.scan n start = b.scan n start := by
  obtain ⟨-, -, hsame⟩ := h.restaged n
  rw [Backend.scan, Backend.scan, hsame hne, h.store]

end SameBut

end Backend

end ScatterGather
