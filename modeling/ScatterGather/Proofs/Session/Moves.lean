import ScatterGather.Proofs.Session.Attempts
import ScatterGather.Proofs.Session.Enlistment

/-!
# What a session can do in one move

Every call of a session is a chain of a few kinds of moves, whatever faults are armed and whichever
transactions callers still have in hand. A property of all runs is then shown by looking at each
kind of move once. Between any two moves the session is tidy: each of its transactions is the current
one or has come to its end, and no transaction waits on a handle that has a connection.
-/

namespace ScatterGather

/-- A call that closes handles. -/
def SessionCall.Closes : SessionCall → Prop
  | closeShard _ | close => True
  | _ => False

namespace Cluster

variable {w w' w'' : Cluster} {number : Nat} {session : Session} {shard : Shard} {ref : NativeRef}
variable {tx : Nat} {call : SessionCall}

/-! ## A new transaction -/

theorem enlistShards_transaction_ne {other : Nat} (hne : other ≠ tx) (shards : List Shard)
    (w : Cluster) : (enlistShards tx shards w).transaction other = w.transaction other := by
  induction shards generalizing w with
  | nil => rfl
  | cons shard rest ih =>
    rw [enlistShards]
    cases hconnection : w.connection? shard with
    | some ref =>
      rw [registerEvent_of_connected hconnection]
      exact (ih _).trans (transaction_mapTransaction_ne hne _)
    | none =>
      rw [registerEvent_of_unconnected hconnection]
      exact ih _

/-- A handle that has a connection is not told to wait. -/
theorem enlistShards_slot (tx : Nat) (shards : List Shard) (h : w.connection? shard ≠ none) :
    (enlistShards tx shards w).slot shard = w.slot shard := by
  induction shards generalizing w with
  | nil => rfl
  | cons other rest ih =>
    rw [enlistShards]
    cases hconnection : w.connection? other with
    | some ref =>
      rw [registerEvent_of_connected hconnection]
      exact ih h
    | none =>
      rw [registerEvent_of_unconnected hconnection]
      have hhandle : shard.handle ≠ other.handle := by
        intro heq
        refine h ?_
        have hslot : w.slot shard = w.slot other := by rw [slot, slot, heq]
        rw [connection?, Option.map_eq_none_iff] at hconnection ⊢
        rw [hslot, hconnection]
      refine (ih ?_).trans (slot_setSlot_ne hhandle _)
      rwa [connection?_withEvents]

/-- A session got a new transaction: its members are the connections of the handles, and it waits on
the handles that have none. -/
structure Renewed (number : Nat) (w w' : Cluster) : Prop where
  steady : Steady w w'
  session : w'.session number = { w.session number with current := some w.transactions.length }
  sessions : w'.sessions.length = w.sessions.length
  slots : w'.slots.length = w.slots.length
  connection? : ∀ shard, w'.connection? shard = w.connection? shard
  waits : ∀ shard tx, w'.Waits shard tx → w.Waits shard tx ∨ tx = w.transactions.length
  kept : ∀ shard tx, w.Waits shard tx → w'.Waits shard tx
  queued : ∀ shard ∈ (w.session number).shards, shard.handle < w.slots.length →
    w.connection? shard = none → w'.Waits shard w.transactions.length
  connected : ∀ shard, w.connection? shard ≠ none → ∀ tx, w'.Waits shard tx → w.Waits shard tx
  transactions : w'.transactions.length = w.transactions.length + 1
  status : ∀ tx, (w'.transaction tx).status = (w.transaction tx).status
  enlisted : ∀ tx, tx ≠ w.transactions.length →
    (w'.transaction tx).enlisted = (w.transaction tx).enlisted
  members : (w'.transaction w.transactions.length).enlisted =
    (w.session number).shards.filterMap fun shard =>
      (w.connection? shard).map fun ref => ⟨shard.physicalId, ref⟩
  backends : w'.backends.length = w.backends.length
  opened : ∀ i, (w.backend i).connections.length ≤ (w'.backend i).connections.length
  armed : ∀ i call, (w'.backend i).faults.isArmed call = true →
    (w.backend i).faults.isArmed call = true
  work : SameWork w w'

/-- The state in which the handles of a session have been told of a new transaction. -/
def recruited (w : Cluster) (number : Nat) : Cluster :=
  enlistShards w.transactions.length (w.session number).shards w.withTransaction

/-- After that the transaction becomes the current one, and the timeout is passed on. -/
theorem renewTransaction_within (w : Cluster) (number : Nat) :
    ∃ refs, Within refs ((w.recruited number).mapSession number fun session =>
        { session with current := some w.transactions.length }) (w.renewTransaction number).2
      ∧ SameWork (w.recruited number) (w.renewTransaction number).2 := by
  unfold renewTransaction newTransaction
  simp only
  cases (w.session number).timeout with
  | none => exact ⟨[], .refl [] _, .refl _⟩
  | some seconds =>
    have hwithin := (w.recruited number).setTimeout_within w.transactions.length seconds
    exact ⟨_, hwithin.mapSession number _, (setTimeout_work ..).sameWork rfl⟩

theorem renewTransaction_renewed (w : Cluster) (here : number < w.sessions.length) :
    Renewed number w (w.renewTransaction number).2 := by
  have hsteady := (w.renewTransaction_work number).steady rfl
  obtain ⟨refs, hwithin, hwork⟩ := w.renewTransaction_within number
  have hlength : w.transactions.length < w.withTransaction.transactions.length := by
    simp [withTransaction]
  have hrecruits := enlistShards_recruits (w.session number).shards hlength
  have hothers : ∀ tx, tx ≠ w.transactions.length →
      (w.recruited number).transaction tx = w.transaction tx := fun tx hne =>
    (enlistShards_transaction_ne hne _ _).trans (transaction_withTransaction ..)
  have hkept : ∀ shard, w.connection? shard ≠ none →
      (w.recruited number).slot shard = w.slot shard := fun shard h =>
    enlistShards_slot _ _ (w := w.withTransaction) h
  change Recruits w.transactions.length (w.session number).shards w.withTransaction
    (w.recruited number) at hrecruits
  generalize w.recruited number = w₁ at hrecruits hothers hkept hwithin hwork
  generalize (w.renewTransaction number).2 = w₂ at hsteady hwithin hwork
  have hsessions : w₁.sessions = w.sessions := hrecruits.sessions
  have hslot : ∀ shard, w₂.slot shard = w₁.slot shard := hwithin.slot
  have hbackend : ∀ i, w₁.backend i = w.backend i := fun i => by
    rw [backend, hrecruits.backends]
    rfl
  exact
    { steady := hsteady
      session := by
        rw [hwithin.session, session_mapSession (hsessions ▸ here), Cluster.session, hsessions,
          Cluster.session]
      sessions := by rw [hwithin.sessions, mapSession, List.length_set, hsessions]
      slots := (congrArg List.length hwithin.slots).trans hrecruits.slots
      connection? := fun shard => (hwithin.connection? shard).trans (hrecruits.connection? shard)
      waits := fun shard tx hwaits => by
        rw [Waits, hslot] at hwaits
        exact (hrecruits.events shard _ hwaits).imp_right OpenEvent.enlist.inj
      kept := fun shard tx hwaits => by
        rw [Waits, hslot]
        exact hrecruits.kept shard _ hwaits
      queued := fun shard hshard hlt hnone => by
        rw [Waits, hslot]
        exact hrecruits.queued shard hshard hlt hnone
      connected := fun shard hconnected tx hwaits => by
        rw [Waits, hslot, hkept shard hconnected] at hwaits
        exact hwaits
      transactions := by
        rw [hwithin.transactions]
        exact hrecruits.transactions.trans List.length_append
      status := fun tx => (hwithin.status tx).trans
        ((hrecruits.status tx).trans (congrArg _ (transaction_withTransaction ..)))
      enlisted := fun tx hne => (hwithin.enlisted tx).trans (congrArg _ (hothers tx hne))
      members := by
        refine (hwithin.enlisted _).trans (hrecruits.enlisted.trans ?_)
        rw [transaction_withTransaction, enlisted_of_ge (Nat.le_refl _)]
        rfl
      backends := hwithin.backends.trans (congrArg List.length hrecruits.backends)
      opened := fun i => hbackend i ▸ hwithin.opened i
      armed := fun i call harmed => hbackend i ▸ hwithin.armed i call harmed
      work := fun ref => by
        rw [(hwork ref).1, (hwork ref).2, native, hbackend]
        exact ⟨rfl, rfl⟩ }

theorem Renewed.natives (h : Renewed number w w') :
    w'.natives w.transactions.length = (w.session number).shards.filterMap w.connection? := by
  rw [Cluster.natives, h.members, natives_connections]

/-! ## The moves -/

/-- The state in which a handle is without its connection. -/
def unplug (w : Cluster) (shard : Shard) : Cluster :=
  w.setSlot shard { w.slot shard with connection := none }

/-- No handle gets a connection by that. -/
theorem connection?_of_unplug {other : Shard} (h : (w.unplug shard).connection? other = some ref) :
    w.connection? other = some ref := by
  rw [connection?, unplug, slot_setSlot] at h
  split at h
  · cases h
  · exact h

theorem connection?_unplug (hslot : shard.handle < w.slots.length) :
    (w.unplug shard).connection? shard = none := by
  rw [connection?, unplug, slot_setSlot, if_pos ⟨rfl, hslot⟩]
  rfl

theorem waits_unplug {other : Shard} : (w.unplug shard).Waits other tx ↔ w.Waits other tx := by
  rw [Waits, unplug, slot_setSlot]
  split
  case isTrue heq =>
    rw [Waits, slot, heq.1]
    exact .rfl
  case isFalse => exact .rfl

/-- A queued hook makes no transaction wait. -/
theorem waits_of_queue {other : Shard} {hook : Hook}
    (h : (w.withEvents shard ((w.slot shard).events ++ [.hook hook])).Waits other tx) :
    w.Waits other tx := by
  rcases mem_events_withEvents h with hold | ⟨hhandle, hnew⟩
  · exact hold
  · rcases List.mem_append.mp hnew with hold | hlast
    · have hslot : w.slot other = w.slot shard := by rw [slot, slot, hhandle]
      rw [Waits, hslot]
      exact hold
    · cases List.mem_singleton.mp hlast

/-- One move of a call of a session. -/
inductive Move (number : Nat) (call : SessionCall) (w : Cluster) : Cluster → Prop
  /-- Some work on local transactions. Only members of the current transaction become active. -/
  | work {w' : Cluster} {refs : List NativeRef} (within : Within refs w w') (steady : Steady w w')
      (active : ∀ ref, (w'.native ref).isActive = true → (w.native ref).isActive = true ∨
        ∃ tx, (w.session number).current = some tx ∧ ref ∈ w.natives tx) : Move number call w w'
  /-- Such work at the end of which the current transaction has another status. -/
  | mark {w₁ w' : Cluster} {refs : List NativeRef} {tx : Nat} {status : TransactionStatus}
      (current : (w.session number).current = some tx) (within : Within refs w w₁)
      (marked : Within [] (w₁.setStatus tx status) w') (steady : Steady w w')
      (active : ∀ ref, (w'.native ref).isActive = true → (w.native ref).isActive = true ∨
        ∃ tx, (w.session number).current = some tx ∧ ref ∈ w.natives tx)
      (begun : status ≠ .created)
      (begins : status = .active → (w.transaction tx).status = .created) : Move number call w w'
  /-- A caller gets the current transaction in hand, or lets go of one. -/
  | hand {handed : List (Option Nat)} (known : ∀ tx, some tx ∈ handed →
      some tx ∈ w.handed ∨ (w.session number).current = some tx) :
      Move number call w { w with handed := handed }
  | renew {w' : Cluster} (ended : ∀ tx, (w.session number).current = some tx →
      (w.transaction tx).status.isFinal = true) (renewed : Renewed number w w') :
      Move number call w w'
  /-- A hook waits for the connection of a handle. -/
  | queue {shard : Shard} {hook : Hook} (mem : shard ∈ (w.session number).shards)
      (unconnected : w.connection? shard = none) :
      Move number call w (w.withEvents shard ((w.slot shard).events ++ [.hook hook]))
  | connect {w' : Cluster} {shard : Shard} {ref : NativeRef} (stays : ¬ call.Closes)
      (mem : shard ∈ (w.session number).shards) (unconnected : w.connection? shard = none)
      (attached : Attached shard ref w w') : Move number call w w'
  | refuse {w' : Cluster} {shard : Shard} (mem : shard ∈ (w.session number).shards)
      (unconnected : w.connection? shard = none) (refused : TurnedDown shard w w') :
      Move number call w w'
  | disconnect {w' : Cluster} {shard : Shard} {ref : NativeRef} (closes : call.Closes)
      (mem : shard ∈ (w.session number).shards) (connected : w.connection? shard = some ref)
      (within : Within [ref] (w.unplug shard) w') (handed : w'.handed = w.handed) :
      Move number call w w'
  /-- The session is closed. -/
  | shut (closes : call.Closes) :
      Move number call w (w.mapSession number fun session => { session with closed := true })
  | arm {i : Nat} {fault : NativeCall} (armed : call = .arm i fault) :
      Move number call w (w.mapBackend i fun b => b.arm fault)

/-- A step that changes no connection and no transaction. -/
theorem Move.quiet (h : Within [] w w') (hhanded : w'.handed = w.handed) :
    Move number call w w' :=
  .work h (.of_quiet hhanded h) fun ref hactive => by
    rw [h.others ref List.not_mem_nil] at hactive
    exact .inl hactive

/-! ## What every move keeps -/

/-- A session whose transactions are the only ones there are: each is the current one or has come to
its end, and each member was opened. A handle with a connection is awaited by none. -/
structure Tidy (w : Cluster) (number : Nat) : Prop
    extends Handles w number (w.session number) where
  known : ∀ tx, (w.session number).current = some tx → tx < w.transactions.length
  held : ∀ tx, some tx ∈ w.handed → tx < w.transactions.length
  queued : ∀ shard ∈ (w.session number).shards, ∀ tx, w.Waits shard tx →
    tx < w.transactions.length
  settled : ∀ tx < w.transactions.length, w.Due (w.session number) tx
  members : ∀ tx, ∀ ref ∈ w.natives tx, w.IsOpened ref
  drained : ∀ shard ∈ (w.session number).shards, w.connection? shard ≠ none →
    ∀ tx, ¬ w.Waits shard tx

theorem Handles.itself (h : Handles w number session) : Handles w number (w.session number) := by
  rw [h.found]
  exact h

/-- What the session remembers of itself may change, but not its handles. -/
theorem Handles.mapSession (h : Handles w number session) (change : Session → Session)
    (hshards : (change session).shards = session.shards) :
    Handles (w.mapSession number change) number (change session) where
  here := Nat.lt_of_lt_of_eq h.here List.length_set.symm
  found := by rw [session_mapSession h.here, h.found]
  distinct := hshards ▸ h.distinct
  slots := hshards ▸ h.slots
  backends := hshards ▸ h.backends
  opened := hshards ▸ h.opened
  apart := hshards ▸ h.apart

namespace Tidy

theorem within {refs : List NativeRef} (h : Tidy w number) (hwithin : Within refs w w')
    (hhanded : w'.handed = w.handed) : Tidy w' number where
  toHandles := (h.toHandles.within hwithin).itself
  known := fun tx htx => by
    rw [hwithin.session] at htx
    rw [hwithin.transactions]
    exact h.known tx htx
  held := fun tx htx => by
    rw [hhanded] at htx
    rw [hwithin.transactions]
    exact h.held tx htx
  queued := fun shard hshard tx hwaits => by
    rw [hwithin.session] at hshard
    rw [Waits, hwithin.slot] at hwaits
    rw [hwithin.transactions]
    exact h.queued shard hshard tx hwaits
  settled := fun tx htx => by
    rw [hwithin.transactions] at htx
    rw [hwithin.session]
    exact (h.settled tx htx).within hwithin
  members := fun tx ref href => by
    rw [hwithin.natives] at href
    exact hwithin.isOpened (h.members tx ref href)
  drained := fun shard hshard hconnected tx hwaits => by
    rw [hwithin.session] at hshard
    rw [hwithin.connection?] at hconnected
    rw [Waits, hwithin.slot] at hwaits
    exact h.drained shard hshard hconnected tx hwaits

/-- The current transaction may take any status. -/
theorem setStatus (h : Tidy w number) (htx : (w.session number).current = some tx)
    (status : TransactionStatus) : Tidy (w.setStatus tx status) number where
  toHandles := ⟨h.here, rfl, h.distinct, h.slots, h.backends, h.opened, h.apart⟩
  known := fun other hother => Nat.lt_of_lt_of_eq (h.known other hother) List.length_set.symm
  held := fun other hother => Nat.lt_of_lt_of_eq (h.held other hother) List.length_set.symm
  queued := fun shard hshard other hwaits =>
    Nat.lt_of_lt_of_eq (h.queued shard hshard other hwaits) List.length_set.symm
  settled := fun other hother => by
    have hother : other < w.transactions.length := Nat.lt_of_lt_of_eq hother List.length_set
    by_cases heq : other = tx
    · exact .inl (heq ▸ htx)
    · refine (h.settled other hother).imp_right fun hfinal => ?_
      rwa [status_setStatus_ne heq]
  members := fun other ref href => by
    rw [natives_setStatus] at href
    exact h.members other ref href
  drained := h.drained

theorem mark {w₁ : Cluster} {refs : List NativeRef} {status : TransactionStatus}
    (h : Tidy w number) (htx : (w.session number).current = some tx) (hwithin : Within refs w w₁)
    (hmarked : Within [] (w₁.setStatus tx status) w') (hhanded : w'.handed = w.handed) :
    Tidy w' number := by
  -- What callers have in hand at the moment of the mark does not matter.
  have hbefore : Within refs w { w₁ with handed := w.handed } :=
    hwithin.trans (((Step.hand w₁ w.handed).quiet rfl).mono (List.nil_subset _))
  have hafter : Within [] ({ w₁ with handed := w.handed }.setStatus tx status) w' :=
    ((Step.hand ({ w₁ with handed := w.handed }.setStatus tx status) w₁.handed).quiet rfl).trans
      hmarked
  have hcurrent : ({ w₁ with handed := w.handed }.session number).current = some tx := by
    rw [hbefore.session, htx]
  exact ((h.within hbefore rfl).setStatus hcurrent status).within hafter hhanded

theorem hand (h : Tidy w number) {handed : List (Option Nat)} (hknown : ∀ tx, some tx ∈ handed →
    some tx ∈ w.handed ∨ (w.session number).current = some tx) :
    Tidy { w with handed := handed } number where
  toHandles := ⟨h.here, rfl, h.distinct, h.slots, h.backends, h.opened, h.apart⟩
  known := h.known
  held := fun tx htx => (hknown tx htx).elim (h.held tx) (h.known tx)
  queued := h.queued
  settled := h.settled
  members := h.members
  drained := h.drained

theorem renew (h : Tidy w number) (hended : ∀ tx, (w.session number).current = some tx →
      (w.transaction tx).status.isFinal = true) (hrenewed : Renewed number w w') :
    Tidy w' number := by
  have hopened : ∀ ref, w.IsOpened ref → w'.IsOpened ref := fun ref href =>
    Nat.lt_of_lt_of_le href (hrenewed.opened ref.backend)
  have hgrown : w.transactions.length < w'.transactions.length :=
    Nat.lt_of_lt_of_eq (Nat.lt_succ_self _) hrenewed.transactions.symm
  have hsession := hrenewed.session
  refine
    { here := Nat.lt_of_lt_of_eq h.here hrenewed.sessions.symm
      found := rfl
      distinct := hsession ▸ h.distinct
      slots := ?_, backends := ?_, opened := ?_, apart := ?_, known := ?_, held := ?_, queued := ?_
      settled := ?_, members := ?_, drained := ?_ }
  · rw [hsession, hrenewed.slots]
    exact h.slots
  · rw [hsession, hrenewed.backends]
    exact h.backends
  · simp only [hsession, hrenewed.connection?]
    exact fun shard hshard ref href => hopened ref (h.opened shard hshard ref href)
  · simp only [hsession, hrenewed.connection?]
    exact h.apart
  · simp only [hsession, Option.some.injEq]
    rintro tx rfl
    exact hgrown
  · rw [hrenewed.steady.handed]
    exact fun tx htx => Nat.lt_trans (h.held tx htx) hgrown
  · rw [hsession]
    intro shard hshard tx hwaits
    rcases hrenewed.waits shard tx hwaits with hold | rfl
    · exact Nat.lt_trans (h.queued shard hshard tx hold) hgrown
    · exact hgrown
  · intro tx htx
    rw [hrenewed.transactions] at htx
    rw [Due, hsession, hrenewed.status]
    rcases Nat.lt_succ_iff_lt_or_eq.mp htx with hold | rfl
    · exact .inr ((h.settled tx hold).elim (hended tx) id)
    · exact .inl rfl
  · intro tx ref href
    by_cases heq : tx = w.transactions.length
    · -- The members of the new transaction are connections of the handles.
      rw [natives, heq, hrenewed.members, List.mem_map] at href
      obtain ⟨e, he, rfl⟩ := href
      obtain ⟨shard, hshard, hentry⟩ := List.mem_filterMap.mp he
      obtain ⟨ref, hconnected, rfl⟩ := Option.map_eq_some_iff.mp hentry
      exact hopened ref (h.opened shard hshard ref hconnected)
    · rw [natives, hrenewed.enlisted tx heq] at href
      exact hopened ref (h.members tx ref href)
  · simp only [hsession, hrenewed.connection?]
    exact fun shard hshard hconnected tx hwaits =>
      h.drained shard hshard hconnected tx (hrenewed.connected shard hconnected tx hwaits)

theorem queue (h : Tidy w number) (shard : Shard) (hook : Hook) :
    Tidy (w.withEvents shard ((w.slot shard).events ++ [.hook hook])) number where
  toHandles := (h.toHandles.withEvents shard _).itself
  known := h.known
  held := h.held
  queued := fun other hother tx hwaits => h.queued other hother tx (waits_of_queue hwaits)
  settled := h.settled
  members := h.members
  drained := fun other hother hconnected tx hwaits => by
    rw [connection?_withEvents] at hconnected
    exact h.drained other hother hconnected tx (waits_of_queue hwaits)

/-- After an attempt all is tidy if the connection of the handle is a new one, which no transaction
waits for, and further members are opened. -/
theorem attempt (h : Tidy w number) (hshard : shard ∈ (w.session number).shards)
    (hattempt : Attempt shard w w')
    (hnew : ∀ ref, w'.connection? shard = some ref → ¬ w.IsOpened ref ∧ w'.IsOpened ref)
    (hwaits : ∀ tx, w'.Waits shard tx → w.Waits shard tx)
    (hdrained : w'.connection? shard ≠ none → ∀ tx, ¬ w'.Waits shard tx)
    (hmembers : ∀ tx, ∀ ref ∈ w'.natives tx, ref ∈ w.natives tx ∨ w'.IsOpened ref) :
    Tidy w' number := by
  have hsession : w'.session number = w.session number := by
    rw [Cluster.session, hattempt.sessions, Cluster.session]
  have hopened : ∀ ref, w.IsOpened ref → w'.IsOpened ref := fun ref href =>
    Nat.lt_of_lt_of_le href (hattempt.opened ref.backend)
  -- Of another handle of the session nothing has changed.
  have hother : ∀ other ∈ (w.session number).shards, other ≠ shard →
      w'.connection? other = w.connection? other
        ∧ ∀ tx, w'.Waits other tx ↔ w.Waits other tx := by
    intro other hother hne
    have hhandle := h.handle_ne hother hshard hne
    exact ⟨hattempt.connections other hhandle, fun tx => by
      rw [Waits, hattempt.events other hhandle, Waits]⟩
  refine
    { here := hattempt.sessions ▸ h.here
      found := rfl
      distinct := hsession ▸ h.distinct
      slots := ?_, backends := ?_, opened := ?_, apart := ?_, known := ?_, held := ?_, queued := ?_
      settled := ?_, members := ?_, drained := ?_ }
  · rw [hsession, hattempt.slots]
    exact h.slots
  · rw [hsession, hattempt.backends]
    exact h.backends
  · rw [hsession]
    intro other hmem ref href
    by_cases heq : other = shard
    · exact (hnew ref (heq ▸ href)).2
    · rw [(hother other hmem heq).1] at href
      exact hopened ref (h.opened other hmem ref href)
  · rw [hsession]
    intro one hone other hmem ref href href'
    by_cases heq : one = shard
    · by_cases heq' : other = shard
      · rw [heq, heq']
      · rw [(hother other hmem heq').1] at href'
        exact absurd (h.opened other hmem ref href') (hnew ref (heq ▸ href)).1
    · rw [(hother one hone heq).1] at href
      by_cases heq' : other = shard
      · exact absurd (h.opened one hone ref href) (hnew ref (heq' ▸ href')).1
      · rw [(hother other hmem heq').1] at href'
        exact h.apart one hone other hmem ref href href'
  · rw [hsession, hattempt.transactions]
    exact h.known
  · rw [hattempt.handed, hattempt.transactions]
    exact h.held
  · rw [hsession, hattempt.transactions]
    intro other hmem tx hw
    by_cases heq : other = shard
    · exact h.queued other hmem tx (heq ▸ hwaits tx (heq ▸ hw))
    · exact h.queued other hmem tx (((hother other hmem heq).2 tx).mp hw)
  · intro tx htx
    rw [hattempt.transactions] at htx
    rw [Due, hsession, hattempt.status]
    exact h.settled tx htx
  · intro tx ref href
    exact (hmembers tx ref href).elim (fun hold => hopened ref (h.members tx ref hold)) id
  · rw [hsession]
    intro other hmem hconnected tx hw
    by_cases heq : other = shard
    · exact hdrained (heq ▸ hconnected) tx (heq ▸ hw)
    · rw [(hother other hmem heq).1] at hconnected
      exact h.drained other hmem hconnected tx (((hother other hmem heq).2 tx).mp hw)

theorem connect (h : Tidy w number) (hshard : shard ∈ (w.session number).shards)
    (hattached : Attached shard ref w w') : Tidy w' number := by
  refine h.attempt hshard hattached.toAttempt (fun other hother => ?_)
    (fun tx hwaits => absurd hwaits (hattached.drained tx)) (fun _ => hattached.drained) ?_
  · obtain rfl := Option.some.inj (hattached.connected.symm.trans hother)
    exact ⟨hattached.new, hattached.reached⟩
  · intro tx found hfound
    rcases hattached.natives_cases hfound with hold | rfl
    · exact .inl hold
    · exact .inr hattached.reached

theorem refuse (h : Tidy w number) (hshard : shard ∈ (w.session number).shards)
    (hrefused : TurnedDown shard w w') : Tidy w' number := by
  have hnone := hrefused.unconnected
  refine h.attempt hshard hrefused.toAttempt (fun ref href => ?_)
    (fun tx => (hrefused.waits tx).mp) (fun hconnected => absurd hnone hconnected) ?_
  · rw [hnone] at href
    cases href
  · exact fun tx found hfound => (hrefused.natives_cases hfound).imp_right And.right

theorem unplug (h : Tidy w number) (shard : Shard) : Tidy (w.unplug shard) number where
  here := h.here
  found := rfl
  distinct := h.distinct
  slots := fun other hother => Nat.lt_of_lt_of_eq (h.slots other hother) List.length_set.symm
  backends := h.backends
  opened := fun other hother ref href => h.opened other hother ref (connection?_of_unplug href)
  apart := fun one hone other hother ref href href' =>
    h.apart one hone other hother ref (connection?_of_unplug href) (connection?_of_unplug href')
  known := h.known
  held := h.held
  queued := fun other hother tx hwaits => h.queued other hother tx (waits_unplug.mp hwaits)
  settled := h.settled
  members := h.members
  drained := fun other hother hconnected tx hwaits => by
    obtain ⟨ref, href⟩ := Option.ne_none_iff_exists'.mp hconnected
    have hbefore : w.connection? other ≠ none := by simp [connection?_of_unplug href]
    exact h.drained other hother hbefore tx (waits_unplug.mp hwaits)

theorem shut (h : Tidy w number) :
    Tidy (w.mapSession number fun session => { session with closed := true }) number := by
  have hhandles := h.toHandles.mapSession (fun session => { session with closed := true }) rfl
  have hsession := hhandles.found
  exact
    { toHandles := hhandles.itself
      known := hsession ▸ h.known
      held := h.held
      queued := hsession ▸ h.queued
      settled := fun tx htx => by
        rw [Due, hsession]
        exact h.settled tx htx
      members := h.members
      drained := hsession ▸ h.drained }

theorem arm (h : Tidy w number) (i : Nat) (fault : NativeCall) :
    Tidy (w.mapBackend i fun b => b.arm fault) number := by
  have hopened : ∀ ref, w.IsOpened ref → (w.mapBackend i fun b => b.arm fault).IsOpened ref := by
    intro ref href
    rw [IsOpened, (w.backend_arm i ref.backend fault).1]
    exact href
  exact
    { here := h.here
      found := rfl
      distinct := h.distinct
      slots := h.slots
      backends := fun shard hshard =>
        Nat.lt_of_lt_of_eq (h.backends shard hshard) List.length_set.symm
      opened := fun shard hshard ref href => hopened ref (h.opened shard hshard ref href)
      apart := h.apart
      known := h.known
      held := h.held
      queued := h.queued
      settled := h.settled
      members := fun tx ref href => hopened ref (h.members tx ref href)
      drained := h.drained }

/-- A transaction that has not come to its end is the current one. -/
theorem current_of_unended (h : Tidy w number) (htx : tx < w.transactions.length)
    (hunended : (w.transaction tx).status.isFinal = false) :
    (w.session number).current = some tx :=
  (h.settled tx htx).resolve_right fun hfinal => Bool.false_ne_true (hunended.symm.trans hfinal)

/-- Every move keeps a session tidy. -/
theorem move (h : Tidy w number) (hmove : Move number call w w') : Tidy w' number := by
  cases hmove with
  | work within steady active => exact h.within within steady.handed
  | mark current within marked steady active begun begins =>
    exact h.mark current within marked steady.handed
  | hand known => exact h.hand known
  | renew ended renewed => exact h.renew ended renewed
  | queue mem unconnected => exact h.queue _ _
  | connect stays mem unconnected attached => exact h.connect mem attached
  | refuse mem unconnected refused => exact h.refuse mem refused
  | disconnect closes mem connected within handed =>
    exact (h.unplug _).within within handed
  | shut closes => exact h.shut
  | arm armed => exact h.arm _ _

end Tidy

end Cluster

end ScatterGather
