import ScatterGather.Proofs.Backend.Staging
import ScatterGather.Proofs.Backend.Stores

/-!
# What connections show

A connection shows the store with its own staged writes laid over it. Looking up one key and
scanning are two ways to read it, and they agree: a scan lists the keys that can be looked up.
-/

namespace ScatterGather.Backend

variable {b : Backend} {number : Nat} {c : Connection}

theorem scan_eq_view (found : b.connection? number = some c) (isOpen : c.closed = false)
    (start : String) : b.scan number start = .ok ((c.view b.store).scan start) := by
  simp [scan, found, isOpen]

theorem get_eq_view (found : b.connection? number = some c) (isOpen : c.closed = false)
    (key : String) : b.get number key = .ok ((c.view b.store).get? key) := by
  simp [get, found, isOpen, Connection.get?_eq_view]

/-- A connection that cannot be read refuses both ways of reading. -/
theorem unreadable_or_open (b : Backend) (number : Nat) :
    (∀ start, b.scan number start = .error .closed) ∧ (∀ key, b.get number key = .error .closed) ∨
      ∃ c, b.connection? number = some c ∧ c.closed = false := by
  cases found : b.connection? number with
  | none => exact .inl ⟨fun _ => by rw [scan, found], fun _ => by rw [get, found]⟩
  | some c =>
    cases hclosed : c.closed with
    | true => exact .inl ⟨fun _ => by simp [scan, found, hclosed],
        fun _ => by simp [get, found, hclosed]⟩
    | false => exact .inr ⟨c, rfl, hclosed⟩

/-- Outside of a transaction a connection sees the store as it is. -/
theorem StagesInTransactions.view_eq (h : b.StagesInTransactions)
    (found : b.connection? number = some c) (inactive : c.isActive = false) (store : Store) :
    c.view store = store := by
  rw [← connection_eq found] at inactive
  rw [Connection.view, ← connection_eq found, h number inactive]
  rfl

/-- The rows that a scan shows agree with what the keys are looked up as. -/
structure Lists (b : Backend) (number : Nat) (start : String) (rows : List (String × Json)) :
    Prop where
  ascending : rows.Pairwise fun earlier later => earlier.1 < later.1
  nodup : (rows.map (·.1)).Nodup
  answered : ∀ key, ∃ value, b.get number key = .ok value
  /-- The value may be JSON `null`, which is not the same as no value. -/
  mem_iff : ∀ key value, (key, value) ∈ rows ↔
    start.toList <+: key.toList ∧ b.get number key = .ok (some value)
  /-- A staged value hides that of the store. -/
  staged : ∀ key value, (b.connection number).staged.get? key = some (some value) →
    b.get number key = .ok (some value)
  /-- A staged deletion hides the key, also if the store has it. -/
  deleted : ∀ key, (b.connection number).staged.get? key = some none →
    b.get number key = .ok none ∧ key ∉ rows.map (·.1)
  /-- Outside of a transaction nothing is hidden. -/
  committed : (b.connection number).isActive = false →
    rows = b.store.scan start ∧ ∀ key, b.get number key = .ok (b.store.get? key)

theorem lists_view (h : b.StagesInTransactions) (found : b.connection? number = some c)
    (isOpen : c.closed = false) (start : String) :
    b.Lists number start ((c.view b.store).scan start) := by
  have hc : b.connection number = c := connection_eq found
  have hget := get_eq_view found isOpen
  have hoverlay (key : String) :
      (c.view b.store).get? key = (c.staged.get? key).getD (b.store.get? key) :=
    Store.get?_overlay ..
  have hascending := Store.scan_ascending (c.view b.store) start
  refine ⟨hascending, ?nodup, fun key => ⟨_, hget key⟩, ?mem_iff, ?staged, ?deleted, ?committed⟩
  case nodup =>
    exact List.pairwise_map.mpr (hascending.imp fun hlt hsame => absurd hlt (by simp [hsame]))
  case mem_iff =>
    intro key value
    rw [Store.mem_scan, hget, Except.ok.injEq]
  case staged =>
    intro key value hstaged
    rw [hc] at hstaged
    rw [hget, hoverlay, hstaged, Option.getD_some]
  case deleted =>
    intro key hstaged
    rw [hc] at hstaged
    have hnone : (c.view b.store).get? key = none := by rw [hoverlay, hstaged, Option.getD_some]
    refine ⟨by rw [hget, hnone], ?_⟩
    rintro hmem
    obtain ⟨⟨_, value⟩, hrow, rfl⟩ := List.mem_map.mp hmem
    have hvalue := (Store.mem_scan.mp hrow).2
    rw [hnone] at hvalue
    cases hvalue
  case committed =>
    intro inactive
    have hview := h.view_eq found (hc ▸ inactive) b.store
    exact ⟨by rw [hview], fun key => by rw [hget, hview]⟩

/-- After any run, a connection that can be read lists with every scan what it looks up. -/
theorem scan_agrees_with_get (calls : List BackendCall) (number : Nat) (start : String) :
    let b := empty.run calls
    (b.scan number start = .error .closed ∧ ∀ key, b.get number key = .error .closed) ∨
      ∃ rows, b.scan number start = .ok rows ∧ b.Lists number start rows := by
  intro b
  rcases b.unreadable_or_open number with ⟨hscan, hget⟩ | ⟨c, found, isOpen⟩
  · exact .inl ⟨hscan start, hget⟩
  · exact .inr ⟨_, scan_eq_view found isOpen start,
      lists_view (run_stagesInTransactions calls) found isOpen start⟩

/-- Of the keys that begin with `a` one is deleted and one is `null`. -/
example :
    let b := empty.run [.seed "a1" (.bool true), .seed "a2" (.bool false), .openConnection,
      .begin 0, .write 0 "b" (some .null), .write 0 "a3" (some .null), .write 0 "a1" none]
    b.scan 0 "a" = .ok [("a2", .bool false), ("a3", .null)] ∧ b.get 0 "a1" = .ok none
      ∧ b.get 0 "a3" = .ok (some .null) :=
  ⟨rfl, rfl, rfl⟩

end ScatterGather.Backend
