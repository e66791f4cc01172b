import ScatterGather.Proofs.Session.Opening

/-!
# A new transaction for a session

A session's new transaction takes the connections that are there as members and queues its event on
all other handles, so that it covers the session from the beginning. The one before it has come to
its end by then, and what is still queued for it does no harm.
-/

namespace ScatterGather.Cluster

variable {w w' : Cluster} {number : Nat} {session : Session} {shard : Shard} {ref : NativeRef}
variable {tx : Nat}

/-! ## The handles are told -/

theorem registerEvent_of_connected (h : w.connection? shard = some ref) (event : OpenEvent) :
    w.registerEvent shard event = (some ref, w) := by
  rw [registerEvent, h]

theorem registerEvent_of_unconnected (h : w.connection? shard = none) (event : OpenEvent) :
    w.registerEvent shard event
      = (none, w.withEvents shard ((w.slot shard).events ++ [event])) := by
  rw [registerEvent, h]
  rfl

theorem mem_events_withEvents {other : Shard} {events : List OpenEvent} {event : OpenEvent}
    (h : event ∈ ((w.withEvents shard events).slot other).events) :
    event ∈ (w.slot other).events ∨ other.handle = shard.handle ∧ event ∈ events := by
  by_cases heq : other.handle = shard.handle
  · rw [withEvents, slot_setSlot] at h
    split at h
    · exact .inr ⟨heq, h⟩
    · exact .inl h
  · rw [events_withEvents_ne heq] at h
    exact .inl h

theorem mem_events_withEvents_append {other : Shard} {event : OpenEvent} (more : List OpenEvent)
    (h : event ∈ (w.slot other).events) :
    event ∈ ((w.withEvents shard ((w.slot shard).events ++ more)).slot other).events := by
  rw [withEvents, slot_setSlot]
  split
  case isTrue heq =>
    have hslot : w.slot shard = w.slot other := by rw [slot, slot, heq.1]
    exact List.mem_append_left _ (hslot ▸ h)
  case isFalse => exact h

/-- Some handles were told of a transaction: those with a connection take part in it, the others
have its event waiting. -/
structure Recruits (tx : Nat) (shards : List Shard) (w w' : Cluster) : Prop where
  sessions : w'.sessions = w.sessions
  backends : w'.backends = w.backends
  slots : w'.slots.length = w.slots.length
  transactions : w'.transactions.length = w.transactions.length
  connection? : ∀ shard, w'.connection? shard = w.connection? shard
  enlisted : (w'.transaction tx).enlisted = (w.transaction tx).enlisted
    ++ shards.filterMap fun shard => (w.connection? shard).map fun ref => ⟨shard.physicalId, ref⟩
  status : ∀ other, (w'.transaction other).status = (w.transaction other).status
  queued : ∀ shard ∈ shards, shard.handle < w.slots.length → w.connection? shard = none →
    .enlist tx ∈ (w'.slot shard).events
  kept : ∀ shard, ∀ event ∈ (w.slot shard).events, event ∈ (w'.slot shard).events
  events : ∀ shard, ∀ event ∈ (w'.slot shard).events,
    event ∈ (w.slot shard).events ∨ event = .enlist tx

/-- By induction on the handles: one that a session has twice is told twice. -/
theorem enlistShards_recruits (shards : List Shard) (htx : tx < w.transactions.length) :
    Recruits tx shards w (enlistShards tx shards w) := by
  induction shards generalizing w with
  | nil =>
    exact ⟨rfl, rfl, rfl, rfl, fun _ => rfl, (List.append_nil _).symm, fun _ => rfl, nofun,
      fun _ _ h => h, fun _ _ h => .inl h⟩
  | cons shard rest ih =>
    rw [enlistShards]
    cases hconnection : w.connection? shard with
    | some ref =>
      -- A connection joins at once.
      rw [registerEvent_of_connected hconnection]
      simp only
      have hrest := ih (w := w.enlist tx shard.physicalId ref)
        (Nat.lt_of_lt_of_eq htx List.length_set.symm)
      refine ⟨hrest.sessions, hrest.backends, hrest.slots,
        hrest.transactions.trans List.length_set, hrest.connection?, ?_, ?_, ?_, hrest.kept,
        hrest.events⟩
      · rw [hrest.enlisted, enlisted_enlist, if_pos ⟨rfl, htx⟩, List.filterMap_cons, hconnection,
          List.append_assoc]
        rfl
      · exact fun other => (hrest.status other).trans (status_enlist ..)
      · intro other hother hslot hnone
        rcases List.mem_cons.mp hother with rfl | hother
        · rw [hconnection] at hnone
          cases hnone
        · exact hrest.queued other hother hslot hnone
    | none =>
      -- Without one the event waits, behind those that are there.
      rw [registerEvent_of_unconnected hconnection]
      simp only
      have hrest := ih (w := w.withEvents shard ((w.slot shard).events ++ [.enlist tx])) htx
      refine ⟨hrest.sessions, hrest.backends, hrest.slots.trans List.length_set,
        hrest.transactions, ?_, ?_, hrest.status, ?_, ?_, ?_⟩
      · exact fun other => (hrest.connection? other).trans (connection?_withEvents ..)
      · rw [hrest.enlisted, List.filterMap_cons, hconnection]
        simp only [connection?_withEvents]
        rfl
      · intro other hother hslot hnone
        rcases List.mem_cons.mp hother with rfl | hother
        · refine hrest.kept other _ ?_
          rw [events_withEvents hslot]
          exact List.mem_append_right _ (List.mem_singleton_self _)
        · refine hrest.queued other hother (Nat.lt_of_lt_of_eq hslot List.length_set.symm) ?_
          rw [connection?_withEvents, hnone]
      · exact fun other event hevent =>
          hrest.kept other event (mem_events_withEvents_append _ hevent)
      · intro other event hevent
        rcases hrest.events other event hevent with hevent | hevent
        · rcases mem_events_withEvents hevent with hevent | ⟨hhandle, hevent⟩
          · exact .inl hevent
          · have hslot : w.slot shard = w.slot other := by rw [slot, slot, hhandle]
            rcases List.mem_append.mp hevent with hevent | hevent
            · exact .inl (hslot ▸ hevent)
            · exact .inr (List.mem_singleton.mp hevent)
        · exact .inr hevent

/-! ## The new transaction -/

theorem enlisted_of_ge (h : w.transactions.length ≤ tx) : w.transaction tx = .fresh := by
  rw [transaction, List.getD_eq_getElem?_getD, List.getElem?_eq_none h, Option.getD_none]

theorem Within.mapSession {refs : List NativeRef} (h : Within refs w w') (number : Nat)
    (change : Session → Session) :
    Within refs (w.mapSession number change) (w'.mapSession number change) where
  slots := h.slots
  sessions := by
    rw [Cluster.mapSession, Cluster.mapSession, h.session, h.sessions]
  transactions := h.transactions
  enlisted := h.enlisted
  status := h.status
  backends := h.backends
  opened := h.opened
  armed := h.armed
  others := h.others

theorem session_mapSession (h : number < w.sessions.length) (change : Session → Session) :
    (w.mapSession number change).session number = change (w.session number) := by
  rw [session, mapSession, getD_set, if_pos ⟨rfl, h⟩]

/-- The handles are told of the new transaction, and then it may be given a timeout. -/
theorem renewTransaction_spec (w : Cluster) (number : Nat) :
    (w.renewTransaction number).1 = w.transactions.length ∧ ∃ w₁ refs,
      Recruits w.transactions.length (w.session number).shards w.withTransaction w₁
      ∧ Within refs (w₁.mapSession number fun session =>
        { session with current := some w.transactions.length }) (w.renewTransaction number).2
      ∧ SameWork w₁ (w.renewTransaction number).2 := by
  have hlength : w.transactions.length < w.withTransaction.transactions.length := by
    simp [withTransaction]
  have hrecruits := enlistShards_recruits (w.session number).shards hlength
  unfold renewTransaction newTransaction
  refine ⟨rfl, enlistShards w.transactions.length (w.session number).shards w.withTransaction, ?_⟩
  simp only
  cases (w.session number).timeout with
  | none => exact ⟨[], hrecruits, .refl [] _, .refl _⟩
  | some seconds =>
    have hwithin := setTimeout_within
      (enlistShards w.transactions.length (w.session number).shards w.withTransaction)
      w.transactions.length seconds
    exact ⟨_, hrecruits, hwithin.mapSession number _, (setTimeout_work ..).sameWork rfl⟩

theorem status_renewTransaction (w : Cluster) (number : Nat) :
    ((w.renewTransaction number).2.transaction w.transactions.length).status = .created := by
  obtain ⟨-, w₁, refs, hrecruits, hwithin, -⟩ := w.renewTransaction_spec number
  have hstatus : (w₁.transaction w.transactions.length).status = .created := by
    rw [hrecruits.status, transaction_withTransaction, enlisted_of_ge (Nat.le_refl _)]
    rfl
  exact (hwithin.status _).trans hstatus

/-- The members that the connections of some handles make. -/
theorem natives_connections (shards : List Shard) (w : Cluster) :
    (shards.filterMap fun shard => (w.connection? shard).map fun ref =>
      (⟨shard.physicalId, ref⟩ : Enlisted)).map (·.native) = shards.filterMap w.connection? := by
  simp only [List.map_filterMap, Option.map_map]
  congr 1
  funext shard
  exact Option.map_id_apply

/-- The members of a new transaction are the connections that there were. -/
theorem Recruits.natives {shards : List Shard} (h : Recruits tx shards w.withTransaction w')
    (htx : w.transactions.length ≤ tx) : w'.natives tx = shards.filterMap w.connection? := by
  rw [Cluster.natives, h.enlisted, transaction_withTransaction, enlisted_of_ge htx]
  exact natives_connections shards w

/-- No two handles of a session have a connection in common. -/
theorem Handles.nodup_connections (h : Handles w number session) :
    (session.shards.filterMap w.connection?).Nodup := by
  have hshards : session.shards.Nodup := h.distinct.of_map _
  rw [List.Nodup, List.pairwise_filterMap]
  refine List.Pairwise.imp_of_mem ?_ hshards
  intro one other hone hother hne ref href ref' href' heq
  subst heq
  exact hne (h.apart one hone other hother ref href href')

/-- A new transaction covers the session from the beginning, if the one before has ended. -/
theorem Sound.renew (h : Sound w number session)
    (hended : ∀ tx, session.current = some tx → (w.transaction tx).status.isFinal = true) :
    (w.renewTransaction number).1 = w.transactions.length
      ∧ Sound (w.renewTransaction number).2 number
        { session with current := some w.transactions.length } := by
  obtain ⟨htx, w₁, refs, hrecruits, hwithin, hwork⟩ := w.renewTransaction_spec number
  rw [h.found] at hrecruits
  refine ⟨htx, Sound.sameWork (w := w₁.mapSession number _) ?_ hwithin hwork⟩
  have hlength : w₁.sessions.length = w.sessions.length := by rw [hrecruits.sessions]; rfl
  have hfound : w₁.session number = session := by
    rw [Cluster.session, hrecruits.sessions]
    exact h.found
  have hbackend : ∀ i, w₁.backend i = w.backend i := by
    intro i
    rw [Cluster.backend, hrecruits.backends]
    rfl
  have hopened : ∀ ref, w.IsOpened ref → w₁.IsOpened ref := by
    intro ref href
    rw [IsOpened, hbackend]
    exact href
  have hconnection : ∀ shard, w₁.connection? shard = w.connection? shard := hrecruits.connection?
  have hnatives := hrecruits.natives (Nat.le_refl _)
  have hstatus : ∀ tx, (w₁.transaction tx).status = (w.transaction tx).status := by
    intro tx
    rw [hrecruits.status, transaction_withTransaction]
  refine ⟨⟨⟨?_, ?_, h.distinct, ?_, ?_, ?_, ?_⟩, ?_, ?_, ?_⟩, ?_⟩
  · exact Nat.lt_of_lt_of_eq h.here (List.length_set.trans hlength).symm
  · rw [session_mapSession (hlength ▸ h.here), hfound]
  · intro shard hshard
    exact Nat.lt_of_lt_of_eq (h.slots shard hshard) hrecruits.slots.symm
  · intro shard hshard
    exact Nat.lt_of_lt_of_eq (h.backends shard hshard) (congrArg List.length hrecruits.backends).symm
  · intro shard hshard ref href
    exact hopened ref (h.opened shard hshard ref ((hconnection shard).symm.trans href))
  · intro one hone other hother ref href href'
    exact h.apart one hone other hother ref ((hconnection one).symm.trans href)
      ((hconnection other).symm.trans href')
  · intro i
    exact (congrArg (fun b => b.faults.rollingBack) (hbackend i)).trans (h.quiet i)
  · -- The members are the connections that there are, each of them once.
    intro tx' htx'
    obtain rfl := Option.some.inj htx'
    refine ⟨?_, ?_, ?_, ?_⟩
    · have hnew : w₁.transactions.length = w.transactions.length + 1 :=
        hrecruits.transactions.trans List.length_append
      exact Nat.lt_of_lt_of_eq (Nat.lt_succ_self _) hnew.symm
    · exact hnatives ▸ h.nodup_connections
    · intro ref href
      obtain ⟨shard, hshard, hconnected⟩ := List.mem_filterMap.mp (hnatives ▸ href)
      exact hopened ref (h.opened shard hshard ref hconnected)
    · intro shard hshard ref href
      refine ⟨?_, fun hactive => ?_⟩
      · refine hnatives ▸ List.mem_filterMap.mpr ⟨shard, hshard, ?_⟩
        exact (hconnection shard).symm.trans href
      · have hcreated := (hstatus w.transactions.length).symm.trans hactive
        rw [enlisted_of_ge (Nat.le_refl _)] at hcreated
        cases hcreated
  · -- What waited before belongs to the transaction that has ended, or to an earlier one.
    intro shard hshard tx' hevent
    rcases hrecruits.events shard _ hevent with hevent | hevent
    · refine .inr ((congrArg _ (hstatus tx')).trans ?_)
      rcases h.due shard hshard tx' hevent with hcurrent | hfinal
      · exact hended tx' hcurrent
      · exact hfinal
    · exact .inl (congrArg some (OpenEvent.enlist.inj hevent).symm)
  · intro shard hshard hnone tx' htx'
    obtain rfl := Option.some.inj htx'
    exact hrecruits.queued shard hshard (h.slots shard hshard)
      ((hconnection shard).symm.trans hnone)

end ScatterGather.Cluster
