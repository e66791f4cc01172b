import ScatterGather.Proofs.Cluster.Work
import ScatterGather.Proofs.Session.Enlistment

/-!
# Sessions without hooks

Without hooks the only events are those of transactions. Then an attempt to connect a handle writes
nothing, and rejects a connection only before it has joined the current transaction, so that the
members of a transaction are exactly the connections of the handles.
-/

namespace ScatterGather.Cluster

variable {w w' w'' : Cluster} {number : Nat} {session : Session} {shard : Shard} {ref : NativeRef}
variable {tx : Nat}

/-! ## Showing a connection to transactions -/

/-- A connection was shown to some transactions, and may have joined them. -/
structure Shown (id : ShardId) (ref : NativeRef) (w w' : Cluster) : Prop where
  slots : w'.slots = w.slots
  stores : SameStores w w'
  others : ∀ other, other ≠ ref → w'.native other = w.native other
  status : ∀ tx, (w'.transaction tx).status = (w.transaction tx).status
  enlisted : ∀ tx, (w'.transaction tx).enlisted = (w.transaction tx).enlisted ∨
    (w'.transaction tx).enlisted = (w.transaction tx).enlisted ++ [⟨id, ref⟩]
  once : ∀ tx, ref ∈ w.natives tx → (w'.transaction tx).enlisted = (w.transaction tx).enlisted

namespace Shown

variable {id : ShardId}

theorem refl (id : ShardId) (ref : NativeRef) (w : Cluster) : Shown id ref w w :=
  ⟨rfl, .refl w, fun _ _ => rfl, fun _ => rfl, fun _ => .inl rfl, fun _ _ => rfl⟩

theorem of_within (h : Within [ref] w w') (hstores : SameStores w w') : Shown id ref w w' :=
  ⟨h.slots, hstores, fun other hne => h.others other fun hmem => hne (List.mem_singleton.mp hmem),
    h.status, fun tx => .inl (h.enlisted tx), fun tx _ => h.enlisted tx⟩

theorem enlist (tx : Nat) (hnew : ref ∉ w.natives tx) : Shown id ref w (w.enlist tx id ref) where
  slots := rfl
  stores := .refl w
  others := fun _ _ => rfl
  status := fun _ => status_enlist ..
  enlisted := fun other => by
    rw [enlisted_enlist]
    split
    · exact .inr rfl
    · exact .inl rfl
  once := fun other hmem => by
    rw [enlisted_enlist]
    split
    case isTrue h => exact absurd hmem (h.1 ▸ hnew)
    case isFalse => rfl

theorem trans (h : Shown id ref w w') (h' : Shown id ref w' w'') : Shown id ref w w'' where
  slots := h'.slots.trans h.slots
  stores := h.stores.trans h'.stores
  others := fun other hne => (h'.others other hne).trans (h.others other hne)
  status := fun tx => (h'.status tx).trans (h.status tx)
  enlisted := fun tx => by
    rcases h.enlisted tx with hsame | hjoined
    · rw [← hsame]
      exact h'.enlisted tx
    · -- It joined in the first part, so it did not join again in the second.
      have hmem : ref ∈ w'.natives tx := by
        rw [natives, hjoined, List.map_append]
        exact List.mem_append_right _ (List.mem_singleton_self ref)
      exact .inr ((h'.once tx hmem).trans hjoined)
  once := fun tx hmem => by
    have hsame := h.once tx hmem
    have hmem' : ref ∈ w'.natives tx := by rwa [natives, hsame]
    exact (h'.once tx hmem').trans hsame

theorem slot (h : Shown id ref w w') (shard : Shard) : w'.slot shard = w.slot shard :=
  slot_congr h.slots shard

theorem connection? (h : Shown id ref w w') (shard : Shard) :
    w'.connection? shard = w.connection? shard := by
  rw [Cluster.connection?, h.slot, Cluster.connection?]

end Shown

/-- The event of a transaction, not a hook. -/
def IsEnlist (event : OpenEvent) : Prop :=
  ∃ tx, event = .enlist tx

/-- One transaction is shown a connection that has nothing staged: that stays so, or the connection
is rejected without having joined. -/
theorem runEvent_enlist (hdue : w.Due session tx) (hstaged : (w.native ref).staged = ∅) :
    ∃ answer w', w.runEvent shard ref (.enlist tx) = (answer, .enlist tx, w')
      ∧ Shown shard.physicalId ref w w'
      ∧ (answer = .ok () → (w'.native ref).staged = ∅)
      ∧ (∀ e, answer = .error e → session.current = some tx ∧ ref ∉ w'.natives tx) := by
  by_cases hreferenced : w.isReferenced tx = true
  · rw [runEvent_of_referenced hreferenced]
    rcases w.joinLate_cases tx shard.physicalId ref with
      ⟨-, hjoin⟩ | ⟨hnew, w₁, hwithin, hstores, hjoin⟩
    · rw [hjoin]
      exact ⟨_, w, rfl, .refl .., fun _ => hstaged, by simp⟩
    · have hnew₁ : ref ∉ w₁.natives tx := by rwa [hwithin.natives]
      have hshown : Shown shard.physicalId ref w w₁ := .of_within hwithin hstores
      rcases hjoin with ⟨-, hjoin, hwork⟩ | ⟨-, hjoin, -, hempty⟩ | ⟨hstatus, e, hjoin⟩
      · rw [hjoin]
        exact ⟨_, _, rfl, hshown.trans (.enlist tx hnew₁),
          fun _ => (hwork ref).2.trans hstaged, by simp⟩
      · rw [hjoin]
        exact ⟨_, _, rfl, hshown.trans (.enlist tx hnew₁), fun _ => hempty, by simp⟩
      · rw [hjoin]
        refine ⟨_, w₁, rfl, hshown, by simp, fun _ _ => ⟨?_, hnew₁⟩⟩
        rcases hdue with hcurrent | hfinal
        · exact hcurrent
        · rw [hstatus] at hfinal
          cases hfinal
  · rw [runEvent_of_unreferenced hreferenced]
    exact ⟨_, w, rfl, .refl .., fun _ => hstaged, by simp⟩

theorem runEvents_enlist (shard : Shard) (events : List OpenEvent)
    (hplain : ∀ event ∈ events, IsEnlist event) (hdue : ∀ tx, .enlist tx ∈ events → w.Due session tx)
    (hstaged : (w.native ref).staged = ∅) :
    Shown shard.physicalId ref w (runEvents shard ref events w).2.2
      ∧ (runEvents shard ref events w).2.1 = events
      ∧ ((runEvents shard ref events w).1 = .ok () →
        ((runEvents shard ref events w).2.2.native ref).staged = ∅)
      ∧ (∀ e, (runEvents shard ref events w).1 = .error e →
        ∃ tx, session.current = some tx ∧ ref ∉ (runEvents shard ref events w).2.2.natives tx) := by
  induction events generalizing w with
  | nil => exact ⟨.refl .., rfl, fun _ => hstaged, by simp [runEvents]⟩
  | cons event rest ih =>
    obtain ⟨tx, rfl⟩ := hplain event List.mem_cons_self
    obtain ⟨answer, w₁, hrun, hshown, hempty, hrejected⟩ :=
      runEvent_enlist (hdue tx List.mem_cons_self) hstaged
    rw [runEvents, hrun]
    cases answer with
    | error e =>
      refine ⟨hshown, rfl, by simp, fun _ _ => ?_⟩
      obtain ⟨hcurrent, hnew⟩ := hrejected e rfl
      exact ⟨tx, hcurrent, hnew⟩
    | ok =>
      have hrestDue : ∀ tx, .enlist tx ∈ rest → w₁.Due session tx := by
        intro other hevent
        rw [Due, hshown.status]
        exact hdue other (List.mem_cons_of_mem _ hevent)
      obtain ⟨hrest, hsame, hrestEmpty, hrestRejected⟩ :=
        ih (fun event hevent => hplain event (List.mem_cons_of_mem _ hevent)) hrestDue (hempty rfl)
      exact ⟨hshown.trans hrest, congrArg _ hsame, hrestEmpty, hrestRejected⟩

/-! ## The invariant -/

/-- A session in order that has no hooks and whose shards are distinct: every member of the current
transaction is the connection of a handle. -/
structure Hookless (w : Cluster) (number : Nat) (session : Session) : Prop
    extends Sound w number session where
  ids : (session.shards.map (·.physicalId)).Nodup
  places : (session.shards.map (·.backend)).Nodup
  plain : ∀ shard ∈ session.shards, ∀ event ∈ (w.slot shard).events, IsEnlist event
  members : ∀ tx, session.current = some tx → ∀ e ∈ (w.transaction tx).enlisted,
    ∃ shard ∈ session.shards, e.shard = shard.physicalId ∧ w.connection? shard = some e.native

/-- A step that leaves the handles and the members of transactions alone. -/
theorem Hookless.of_same (h : Hookless w number session) (hsound : Sound w' number session)
    (hslots : w'.slots = w.slots)
    (henlisted : ∀ tx, (w'.transaction tx).enlisted = (w.transaction tx).enlisted) :
    Hookless w' number session where
  toSound := hsound
  ids := h.ids
  places := h.places
  plain := fun shard hshard event hevent => by
    rw [slot_congr hslots] at hevent
    exact h.plain shard hshard event hevent
  members := fun tx htx e he => by
    rw [henlisted] at he
    obtain ⟨shard, hshard, hid, hconnection⟩ := h.members tx htx e he
    refine ⟨shard, hshard, hid, ?_⟩
    rw [connection?, slot, hslots]
    exact hconnection

/-! ## Connecting a handle -/

/-- What an attempt to connect a handle leaves alone. -/
structure Attempted (session : Session) (w w' : Cluster) : Prop where
  stores : SameStores w w'
  status : ∀ tx, (w'.transaction tx).status = (w.transaction tx).status
  natives : ∀ ref, w.IsOpened ref → w'.native ref = w.native ref
  plain : ∀ other ∈ session.shards, ∀ event ∈ (w'.slot other).events, IsEnlist event

/-- The attempt failed, and the handle is as it was. -/
structure Refused (session : Session) (w w' : Cluster) : Prop extends Attempted session w w' where
  connection? : ∀ other, w'.connection? other = w.connection? other
  enlisted : ∀ tx, session.current = some tx →
    (w'.transaction tx).enlisted = (w.transaction tx).enlisted

/-- The handle has a new connection, with nothing staged, that may have joined transactions. -/
structure Connected (session : Session) (shard : Shard) (ref : NativeRef) (w w' : Cluster) : Prop
    extends Attempted session w w' where
  published : w'.connection? shard = some ref
  connection? : ∀ other, other.handle ≠ shard.handle → w'.connection? other = w.connection? other
  staged : (w'.native ref).staged = ∅
  enlisted : ∀ tx, (w'.transaction tx).enlisted = (w.transaction tx).enlisted ∨
    (w'.transaction tx).enlisted = (w.transaction tx).enlisted ++ [⟨shard.physicalId, ref⟩]

theorem Hookless.plain_withEvents (h : Hookless w number session) {events : List OpenEvent}
    (hevents : ∀ event ∈ events, IsEnlist event) {other : Shard} (hother : other ∈ session.shards)
    {event : OpenEvent} (hevent : event ∈ ((w.withEvents shard events).slot other).events) :
    IsEnlist event := by
  rcases mem_events_withEvents hevent with hevent | ⟨-, hevent⟩
  · exact h.plain other hother event hevent
  · exact hevents event hevent

theorem withEvents_self (w : Cluster) (shard : Shard) :
    w.withEvents shard (w.slot shard).events = w := by
  have hset : w.slots.set shard.handle (w.slot shard) = w.slots := by
    rcases Nat.lt_or_ge shard.handle w.slots.length with hlt | hge
    · rw [Cluster.slot, List.getD_eq_getElem?_getD, List.getElem?_eq_getElem hlt, Option.getD_some,
        List.set_getElem_self]
    · exact List.set_eq_of_length_le hge
  change { w with slots := w.slots.set shard.handle (w.slot shard) } = w
  rw [hset]

/-- One round of events is enough: afterwards the connection is published, or it was rejected before
it could join the current transaction. -/
theorem Opening.settle_cases (h : Opening w number session shard ref)
    (hplain : ∀ event ∈ (w.slot shard).events, IsEnlist event)
    (hstaged : (w.native ref).staged = ∅) :
    ∃ w₁, Shown shard.physicalId ref (w.withEvents shard []) w₁ ∧
      ((Cluster.settle shard ref (w.rounds shard) [] w = (.ok ref, w₁.publish shard ref)
        ∧ (w₁.native ref).staged = ∅) ∨
      ∃ e, Cluster.settle shard ref (w.rounds shard) [] w
          = (.error e, w₁.reject shard ref (w.slot shard).events e)
        ∧ (Cluster.runEvents shard ref (w.slot shard).events (w.withEvents shard [])).1 = .error e
        ∧ ∃ tx, session.current = some tx ∧ ref ∉ w₁.natives tx) := by
  cases hevents : (w.slot shard).events with
  | nil =>
    refine ⟨w, ?_, .inl ⟨settle_of_nil hevents _ _, hstaged⟩⟩
    rw [← hevents, withEvents_self]
    exact .refl ..
  | cons event rest =>
    have hdue : ∀ tx, .enlist tx ∈ event :: rest → (w.withEvents shard []).Due session tx :=
      fun tx hevent => h.due shard h.mem tx (hevents ▸ hevent)
    have hstaged : ((w.withEvents shard []).native ref).staged = ∅ := hstaged
    obtain ⟨hshown, hsame, hempty, hrejected⟩ :=
      runEvents_enlist shard (event :: rest) (hevents ▸ hplain) hdue hstaged
    have hrounds : w.rounds shard ≠ 0 := by
      obtain ⟨tx, rfl⟩ := hplain event (hevents ▸ List.mem_cons_self)
      exact rounds_ne_zero (hevents ▸ List.mem_cons_self)
    obtain ⟨rounds, hrounds⟩ := Nat.exists_eq_succ_of_ne_zero hrounds
    rw [hrounds, Nat.succ_eq_add_one, settle_of_cons hevents]
    generalize Cluster.runEvents shard ref (event :: rest) (w.withEvents shard []) = ran
      at hshown hsame hempty hrejected
    obtain ⟨answer, events, w₁⟩ := ran
    obtain rfl : events = event :: rest := hsame
    match answer with
    | .ok () =>
      have hslot : (w₁.slot shard).events = [] := by
        rw [hshown.slot, events_withEvents (h.slots shard h.mem)]
      exact ⟨w₁, hshown, .inl ⟨settle_of_nil hslot _ _, hempty rfl⟩⟩
    | .error e => exact ⟨w₁, hshown, .inr ⟨e, rfl, rfl, hrejected e rfl⟩⟩

namespace Attempted

theorem publish (h : Attempted session w w') (shard : Shard) (ref : NativeRef) :
    Attempted session w (w'.publish shard ref) := by
  refine ⟨h.stores, h.status, h.natives, fun other hother event hevent => ?_⟩
  rw [events_publish] at hevent
  exact h.plain other hother event hevent

theorem reject (h : Attempted session w w') (hshard : shard ∈ session.shards)
    (hnew : ¬ w.IsOpened ref) {events : List OpenEvent} (hevents : ∀ event ∈ events, IsEnlist event)
    (e : ShardError) : Attempted session w (w'.reject shard ref events e) := by
  have hreject := w'.reject_within shard ref events e
  have hstores := (w'.reject_work shard ref events e).sameStores rfl
  refine ⟨h.stores.trans hstores, fun tx => (hreject.status tx).trans (h.status tx),
    fun other hother => ?_, fun other hother event hevent => ?_⟩
  · have hne : other ∉ [ref] := fun hmem => hnew (List.mem_singleton.mp hmem ▸ hother)
    exact (hreject.others other hne).trans (h.natives other hother)
  · -- What waits afterwards waited before, or comes back from the round that was given up.
    rw [hreject.slot] at hevent
    rcases mem_events_withEvents hevent with hevent | ⟨-, hevent⟩
    · exact h.plain other hother event hevent
    · rcases List.mem_append.mp hevent with hevent | hevent
      · exact hevents event hevent
      · exact h.plain shard hshard event hevent

end Attempted

theorem Hookless.establish_cases (h : Hookless w number session) (hshard : shard ∈ session.shards) :
    (∃ ref, w.connection? shard = some ref ∧ w.establish shard = (.ok ref, w)) ∨
    w.connection? shard = none ∧ ∃ w',
      ((∃ e, w.establish shard = (.error e, w') ∧ Refused session w w') ∨
      ∃ ref, w.establish shard = (.ok ref, w') ∧ Connected session shard ref w w') := by
  rcases h.toSound.establish_cases hshard with
    hconnected | ⟨hnone, w₁, hwithin, hstores, ⟨e, reason, hestablish, -⟩ | hopened⟩
  · exact .inl hconnected
  · refine .inr ⟨hnone, w₁, .inl ⟨e, hestablish, ⟨hstores, hwithin.status, ?_, ?_⟩, ?_, ?_⟩⟩
    · exact fun ref _ => hwithin.others ref List.not_mem_nil
    · intro other hother event hevent
      rw [hwithin.slot] at hevent
      exact h.plain other hother event hevent
    · exact hwithin.connection?
    · exact fun tx _ => hwithin.enlisted tx
  · obtain ⟨ref, hnew, hfresh, hopening, hestablish⟩ := hopened
    have h₁ : Hookless w₁ number session :=
      h.of_same (h.quietly hwithin) hwithin.slots hwithin.enlisted
    obtain ⟨w₂, hshown, hend⟩ := hopening.settle_cases (h₁.plain shard hshard) (by rw [hfresh]; rfl)
    have hattempted : Attempted session w w₂ := by
      refine ⟨SameStores.trans hstores hshown.stores,
        fun tx => (hshown.status tx).trans (hwithin.status tx), fun other hother => ?_,
        fun other hother event hevent => ?_⟩
      · have hne : other ≠ ref := fun heq => hnew (heq ▸ hother)
        exact (hshown.others other hne).trans (hwithin.others other List.not_mem_nil)
      · rw [hshown.slot] at hevent
        exact h₁.plain_withEvents (fun _ hnil => absurd hnil List.not_mem_nil) hother hevent
    have hconnection : ∀ other, w₂.connection? other = w.connection? other := by
      intro other
      rw [hshown.connection?, connection?_withEvents, hwithin.connection?]
    have henlisted₁ : ∀ tx, ((w₁.withEvents shard []).transaction tx).enlisted
        = (w.transaction tx).enlisted := hwithin.enlisted
    refine .inr ⟨hnone, ?_⟩
    rcases hend with ⟨hsettle, hempty⟩ | ⟨e, hsettle, -, tx, htx, hout⟩
    · refine ⟨_, .inr ⟨ref, hestablish.trans hsettle, hattempted.publish shard ref, ?_, ?_, hempty,
        ?_⟩⟩
      · refine connection?_publish ?_ hopening.backend
        rw [hshown.slots]
        exact Nat.lt_of_lt_of_eq (hopening.slots shard hshard) List.length_set.symm
      · intro other hne
        rw [connection?_publish_ne hne, hconnection]
      · intro tx
        rw [← henlisted₁]
        exact hshown.enlisted tx
    · have hreject := w₂.reject_within shard ref (w₁.slot shard).events e
      refine ⟨_, .inl ⟨e, hestablish.trans hsettle,
        hattempted.reject hshard hnew (h₁.plain shard hshard) e, ?_, ?_⟩⟩
      · intro other
        rw [hreject.connection?, connection?_withEvents, hconnection]
      · -- Had the connection joined the current transaction, it would be among its members.
        intro tx' htx'
        obtain rfl := Option.some.inj (htx.symm.trans htx')
        rcases hshown.enlisted tx with hsame | hjoined
        · exact (hreject.enlisted tx).trans (hsame.trans (henlisted₁ tx))
        · refine absurd ?_ hout
          rw [natives, hjoined, List.map_append]
          exact List.mem_append_right _ (List.mem_singleton_self ref)

theorem Hookless.establish (h : Hookless w number session) (hshard : shard ∈ session.shards) :
    Hookless (w.establish shard).2 number session := by
  have hsound := h.toSound.establish hshard
  rcases h.establish_cases hshard with
    ⟨ref, -, hestablish⟩ | ⟨hnone, w', ⟨e, hestablish, hrefused⟩ | ⟨ref, hestablish, hconnected⟩⟩
  · rw [hestablish]
    exact h
  · rw [hestablish] at hsound ⊢
    refine ⟨hsound, h.ids, h.places, hrefused.plain, fun tx htx member hmember => ?_⟩
    rw [hrefused.enlisted tx htx] at hmember
    obtain ⟨other, hother, hid, hconnection⟩ := h.members tx htx member hmember
    exact ⟨other, hother, hid, (hrefused.connection? other).trans hconnection⟩
  · rw [hestablish] at hsound ⊢
    refine ⟨hsound, h.ids, h.places, hconnected.plain, fun tx htx member hmember => ?_⟩
    have hcases : member ∈ (w.transaction tx).enlisted ∨ member = ⟨shard.physicalId, ref⟩ := by
      rcases hconnected.enlisted tx with hsame | hjoined
      · exact .inl (hsame ▸ hmember)
      · exact (List.mem_append.mp (hjoined ▸ hmember)).imp_right List.mem_singleton.mp
    rcases hcases with hold | rfl
    · obtain ⟨other, hother, hid, hconnection⟩ := h.members tx htx member hold
      refine ⟨other, hother, hid, (hconnected.connection? other fun heq => ?_).trans hconnection⟩
      -- The handle had no connection, so it is not the one of an older member.
      rw [h.eq_of_handle hother hshard heq, hnone] at hconnection
      cases hconnection
    · exact ⟨shard, hshard, rfl, hconnected.published⟩

/-! ## Other calls -/

/-- The handles and the members of transactions are as they were. -/
structure SameMembers (w w' : Cluster) : Prop where
  slots : w'.slots = w.slots
  enlisted : ∀ tx, (w'.transaction tx).enlisted = (w.transaction tx).enlisted

theorem Within.sameMembers {refs : List NativeRef} (h : Within refs w w') : SameMembers w w' :=
  ⟨h.slots, h.enlisted⟩

theorem Work.sameMembers {effects : List Effect} (h : Work effects w w')
    (hkinds : effects.any [.slot, .enlist].contains = false) : SameMembers w w' :=
  ⟨h.slots_eq (Effect.not_any_mono hkinds rfl), h.enlisted_eq (Effect.not_any_mono hkinds rfl)⟩

theorem Hookless.same (h : Hookless w number session) (hsame : SameMembers w w')
    (hsound : Sound w' number session) : Hookless w' number session :=
  h.of_same hsound hsame.slots hsame.enlisted

theorem Hookless.quietly (h : Hookless w number session) (hwithin : Within [] w w') :
    Hookless w' number session :=
  h.same hwithin.sameMembers (h.toSound.quietly hwithin)

theorem Hookless.renew (h : Hookless w number session)
    (hended : ∀ tx, session.current = some tx → (w.transaction tx).status.isFinal = true) :
    Hookless (w.renewTransaction number).2 number
      { session with current := some w.transactions.length } := by
  obtain ⟨-, hsound⟩ := h.toSound.renew hended
  obtain ⟨-, w₁, refs, hrecruits, hwithin, -⟩ := w.renewTransaction_spec number
  rw [h.found] at hrecruits
  have hconnection : ∀ shard, (w.renewTransaction number).2.connection? shard
      = w.connection? shard := fun shard =>
    (hwithin.connection? shard).trans (hrecruits.connection? shard)
  refine ⟨hsound, h.ids, h.places, fun shard hshard event hevent => ?_, fun tx htx e he => ?_⟩
  · have hevent : event ∈ (w₁.slot shard).events := hwithin.slot shard ▸ hevent
    rcases hrecruits.events shard event hevent with hevent | rfl
    · exact h.plain shard hshard event hevent
    · exact ⟨_, rfl⟩
  · obtain rfl := Option.some.inj htx
    have he : e ∈ (w₁.transaction w.transactions.length).enlisted := hwithin.enlisted _ ▸ he
    rw [hrecruits.enlisted, transaction_withTransaction, enlisted_of_ge (Nat.le_refl _)] at he
    obtain ⟨shard, hshard, hmember⟩ := List.mem_filterMap.mp (List.mem_append.mp he |>.resolve_left
      List.not_mem_nil)
    obtain ⟨ref, href, rfl⟩ := Option.map_eq_some_iff.mp hmember
    exact ⟨shard, hshard, rfl, (hconnection shard).trans href⟩

theorem Hookless.currentTransaction (h : Hookless w number session) :
    ∃ current, Hookless (w.currentTransaction number).2 number { session with current := current }
      ∧ ∀ tx, (w.currentTransaction number).1 = .ok tx → current = some tx := by
  rcases h.currentTransaction_cases with ⟨e, hasked⟩ | ⟨tx, htx, -, hasked⟩ |
    ⟨w₁, hwithin, -, hended, hasked⟩
  · rw [hasked]
    exact ⟨session.current, h, nofun⟩
  · rw [hasked]
    exact ⟨session.current, h, fun tx' hok => htx.trans (congrArg some (Except.ok.inj hok))⟩
  · rw [hasked]
    exact ⟨_, (h.quietly hwithin).renew hended, fun tx' hok => congrArg some (Except.ok.inj hok)⟩

theorem Hookless.begin (h : Hookless w number session) (htx : session.current = some tx) :
    Hookless (w.begin tx).2 number session :=
  h.same ((w.begin_work tx).sameMembers rfl) (h.toSound.begin htx)

theorem Hookless.beginTransaction (h : Hookless w number session) :
    ∃ current,
      Hookless (w.beginTransaction number).2 number { session with current := current } := by
  obtain ⟨current, hhookless, hok⟩ := h.currentTransaction
  unfold Cluster.beginTransaction
  generalize w.currentTransaction number = asked at hhookless hok
  match asked with
  | (.error e, w₁) => exact ⟨current, hhookless⟩
  | (.ok tx, w₁) =>
    have hbegun := hhookless.begin (hok tx rfl)
    refine ⟨current, ?_⟩
    simp only
    generalize w₁.begin tx = begun at hbegun
    match begun with
    | (.error e, w₂) => exact hbegun
    | (.ok (), w₂) => exact hbegun

theorem Hookless.write (h : Hookless w number session) (hshard : shard ∈ session.shards)
    (key : String) (value : Option Json) : Hookless (w.write shard key value).2 number session := by
  have hsound := h.toSound.write hshard key value
  have hestablished := h.establish hshard
  unfold Cluster.write onShard at hsound ⊢
  generalize w.establish shard = established at hestablished hsound
  match established with
  | (.error e, w₁) => exact hestablished
  | (.ok ref, w₁) =>
    simp only at hestablished hsound ⊢
    rcases w₁.writeNative_cases ref key value with ⟨w₂, hwrite, hwithin, -⟩ |
      ⟨w₂, hwrite, -, hwithin, -⟩ | ⟨w₂, hwrite, -, hwithin⟩
    all_goals
      rw [hwrite] at hsound ⊢
      exact hestablished.same hwithin.sameMembers hsound

/-! ## Runs -/

theorem Hookless.onNamed (h : Hookless w number session) (name : TransactionName)
    {step : Nat → Cluster} (hstep : ∀ tx, (name = .current → session.current = some tx) →
      Hookless (step tx) number session) : Hookless (w.onNamed number name step) number session :=
  h.toHandles.onNamed (P := fun w => Hookless w number session) h name hstep

theorem Hookless.onHandle (h : Hookless w number session) (index : Nat) {step : Shard → Cluster}
    (hstep : ∀ shard ∈ session.shards, Hookless (step shard) number session) :
    Hookless (w.onHandle number index step) number session :=
  h.toHandles.onHandle (P := fun w => Hookless w number session) h index hstep

/-- Any one call but a hook keeps the session in order and without hooks. -/
theorem Hookless.after (h : Hookless w number session) {call : SessionCall} (hcall : call.Orderly)
    (hplain : call.HookFree) :
    ∃ current, Hookless (w.after number call) number { session with current := current } := by
  have hsame : ∀ {w' : Cluster}, Hookless w' number session →
      ∃ current, Hookless w' number { session with current := current } :=
    fun h => ⟨session.current, h⟩
  cases call with
  | transaction =>
    obtain ⟨current, hhookless, -⟩ := h.currentTransaction
    exact ⟨current, hhookless.quietly ((handOutOk_work _).quiet rfl)⟩
  | beginTransaction =>
    obtain ⟨current, hhookless⟩ := h.beginTransaction
    exact ⟨current, hhookless.quietly ((handOutOk_work _).quiet rfl)⟩
  | begin name =>
    cases name with
    | current => exact hsame (h.onNamed .current fun tx htx => h.begin (htx rfl))
    | handed n => exact hcall.elim
  | commit name =>
    cases name with
    | current =>
      exact hsame (h.onNamed .current fun tx htx =>
        h.same ((w.commit_work tx).sameMembers rfl) (h.toSound.commit (htx rfl)))
    | handed n => exact hcall.elim
  | rollback name =>
    cases name with
    | current =>
      exact hsame (h.onNamed .current fun tx htx =>
        h.same ((w.rollback_work tx).sameMembers rfl) (h.toSound.rollback (htx rfl)))
    | handed n => exact hcall.elim
  | setTimeout name seconds =>
    refine hsame (h.onNamed name fun tx _ => ?_)
    have hwithin := w.setTimeout_within tx seconds
    exact h.same hwithin.sameMembers
      (h.toSound.sameWork hwithin ((w.setTimeout_work tx seconds).sameWork rfl))
  | register name sync =>
    exact hsame (h.onNamed name fun tx _ => h.quietly ((Step.register w tx sync).quiet rfl))
  | letGo n => exact hsame (h.quietly ((Step.hand w _).quiet rfl))
  | establish index => exact hsame (h.onHandle index fun shard hshard => h.establish hshard)
  | hook index hook => exact hplain.elim
  | write index key value =>
    exact hsame (h.onHandle index fun shard hshard => h.write hshard key value)
  | closeShard index => exact hcall.elim
  | close => exact hcall.elim
  | arm i call => exact hsame (h.same ⟨rfl, fun _ => rfl⟩ (h.toSound.arm i hcall))

theorem Hookless.run (h : Hookless w number session) {calls : List SessionCall}
    (hcalls : ∀ call ∈ calls, call.Orderly ∧ call.HookFree) :
    ∃ current, Hookless (w.run number calls) number { session with current := current } :=
  run_keeps (I := fun w session => Hookless w number session)
    (fun h hcall => h.after hcall.1 hcall.2) h hcalls

end ScatterGather.Cluster
