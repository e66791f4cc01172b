import Mathlib.Data.List.Nodup
import ScatterGather.Cluster.Session
import ScatterGather.Proofs.Cluster.Transactions

/-!
# Connections under the session's transaction

The invariant behind every session: the connection of each handle has joined the session's current
transaction, and is active as long as that is, and each handle without a connection has the event
waiting that will make it join. The steps of a session are few kinds of changes to the state, and
there is one lemma for each kind.
-/

namespace ScatterGather.Cluster

variable {w w' : Cluster} {number : Nat} {session : Session} {shard : Shard} {ref : NativeRef}
variable {tx : Nat}

/-! ## The invariant -/

/-- The handles of a session are its own, and so are their connections. -/
structure Handles (w : Cluster) (number : Nat) (session : Session) : Prop where
  here : number < w.sessions.length
  found : w.session number = session
  distinct : (session.shards.map (·.handle)).Nodup
  slots : ∀ shard ∈ session.shards, shard.handle < w.slots.length
  backends : ∀ shard ∈ session.shards, shard.backend < w.backends.length
  opened : ∀ shard ∈ session.shards, ∀ ref, w.connection? shard = some ref → w.IsOpened ref
  apart : ∀ shard ∈ session.shards, ∀ other ∈ session.shards, ∀ ref,
    w.connection? shard = some ref → w.connection? other = some ref → shard = other

/-- A local transaction has joined a logical one, and is active if that is. -/
structure Joined (w : Cluster) (tx : Nat) (ref : NativeRef) : Prop where
  mem : ref ∈ w.natives tx
  active : (w.transaction tx).status = .active → (w.native ref).isActive = true

/-- A logical transaction has all connections among its members. -/
structure Covers (w : Cluster) (session : Session) (tx : Nat) : Prop where
  known : tx < w.transactions.length
  distinct : (w.natives tx).Nodup
  opened : ∀ ref ∈ w.natives tx, w.IsOpened ref
  joined : ∀ shard ∈ session.shards, ∀ ref, w.connection? shard = some ref → w.Joined tx ref

/-- A transaction that may still be waiting for a connection: the current one, or one that has come
to its end, which a connection joins without effect. -/
def Due (w : Cluster) (session : Session) (tx : Nat) : Prop :=
  session.current = some tx ∨ (w.transaction tx).status.isFinal = true

/-- The connections of a session's handles are under its current transaction. -/
structure Guarded (w : Cluster) (number : Nat) (session : Session) : Prop
    extends Handles w number session where
  quiet : w.NoRollbackFault
  covers : ∀ tx, session.current = some tx → w.Covers session tx
  due : ∀ shard ∈ session.shards, ∀ tx, .enlist tx ∈ (w.slot shard).events → w.Due session tx

/-- The current transaction waits for the connection of a handle. -/
def Awaits (w : Cluster) (session : Session) (shard : Shard) : Prop :=
  ∀ tx, session.current = some tx → .enlist tx ∈ (w.slot shard).events

/-- What holds between any two calls of a session. -/
structure Sound (w : Cluster) (number : Nat) (session : Session) : Prop
    extends Guarded w number session where
  awaits : ∀ shard ∈ session.shards, w.connection? shard = none → w.Awaits session shard

/-! ## Steps that change connections -/

/-- Whose handle a connection is under does not depend on what becomes of the connection. -/
theorem Handles.within {refs : List NativeRef} (h : Handles w number session)
    (hwithin : Within refs w w') : Handles w' number session where
  here := hwithin.sessions ▸ h.here
  found := (hwithin.session number).trans h.found
  distinct := h.distinct
  slots := fun shard hshard => by
    rw [hwithin.slots]
    exact h.slots shard hshard
  backends := fun shard hshard => by
    rw [hwithin.backends]
    exact h.backends shard hshard
  opened := fun shard hshard ref href => by
    rw [hwithin.connection?] at href
    exact hwithin.isOpened (h.opened shard hshard ref href)
  apart := fun shard hshard other hother ref href href' => by
    rw [hwithin.connection?] at href href'
    exact h.apart shard hshard other hother ref href href'

/-- All that has to be seen is that an active transaction keeps active connections. -/
theorem Covers.within {refs : List NativeRef} (h : w.Covers session tx)
    (hwithin : Within refs w w')
    (hactive : (w.transaction tx).status = .active → ∀ shard ∈ session.shards, ∀ ref,
      w.connection? shard = some ref → (w'.native ref).isActive = true) :
    w'.Covers session tx where
  known := hwithin.transactions ▸ h.known
  distinct := hwithin.natives tx ▸ h.distinct
  opened := fun ref href => by
    rw [hwithin.natives] at href
    exact hwithin.isOpened (h.opened ref href)
  joined := fun shard hshard ref href => by
    rw [hwithin.connection?] at href
    refine ⟨hwithin.natives tx ▸ (h.joined shard hshard ref href).mem, fun hstatus => ?_⟩
    rw [hwithin.status] at hstatus
    exact hactive hstatus shard hshard ref href

theorem Due.within {refs : List NativeRef} (h : w.Due session tx) (hwithin : Within refs w w') :
    w'.Due session tx := by
  rw [Due, hwithin.status]
  exact h

/-- A step that ends the local transaction of no connection while the current transaction is
active. -/
theorem Guarded.within {refs : List NativeRef} (h : Guarded w number session)
    (hwithin : Within refs w w')
    (hactive : ∀ tx, session.current = some tx → (w.transaction tx).status = .active →
      ∀ shard ∈ session.shards, ∀ ref, w.connection? shard = some ref →
        (w'.native ref).isActive = true) : Guarded w' number session where
  toHandles := h.toHandles.within hwithin
  quiet := hwithin.noRollbackFault h.quiet
  covers := fun tx htx => (h.covers tx htx).within hwithin (hactive tx htx)
  due := fun shard hshard tx hevent => by
    rw [hwithin.slot] at hevent
    exact (h.due shard hshard tx hevent).within hwithin

theorem Sound.within {refs : List NativeRef} (h : Sound w number session)
    (hwithin : Within refs w w')
    (hactive : ∀ tx, session.current = some tx → (w.transaction tx).status = .active →
      ∀ shard ∈ session.shards, ∀ ref, w.connection? shard = some ref →
        (w'.native ref).isActive = true) : Sound w' number session where
  toGuarded := h.toGuarded.within hwithin hactive
  awaits := fun shard hshard hnone tx htx => by
    rw [hwithin.connection?] at hnone
    rw [hwithin.slot]
    exact h.awaits shard hshard hnone tx htx

/-- A step that leaves the connections of the handles alone. -/
theorem Guarded.apartFrom {refs : List NativeRef} (h : Guarded w number session)
    (hwithin : Within refs w w')
    (hrefs : ∀ shard ∈ session.shards, ∀ ref, w.connection? shard = some ref → ref ∉ refs) :
    Guarded w' number session := by
  refine h.within hwithin fun tx htx hstatus shard hshard ref href => ?_
  rw [hwithin.others ref (hrefs shard hshard ref href)]
  exact ((h.covers tx htx).joined shard hshard ref href).active hstatus

theorem Sound.quietly (h : Sound w number session) (hwithin : Within [] w w') :
    Sound w' number session := by
  refine h.within hwithin fun tx htx hstatus shard hshard ref href => ?_
  rw [hwithin.others ref List.not_mem_nil]
  exact ((h.covers tx htx).joined shard hshard ref href).active hstatus

theorem Sound.sameWork {refs : List NativeRef} (h : Sound w number session)
    (hwithin : Within refs w w') (hwork : w.SameWork w') : Sound w' number session := by
  refine h.within hwithin fun tx htx hstatus shard hshard ref href => ?_
  rw [hwork.isActive]
  exact ((h.covers tx htx).joined shard hshard ref href).active hstatus

theorem Handles.eq_of_handle {other : Shard} (h : Handles w number session)
    (hshard : shard ∈ session.shards) (hother : other ∈ session.shards)
    (heq : shard.handle = other.handle) : shard = other :=
  List.inj_on_of_nodup_map h.distinct hshard hother heq

theorem Handles.handle_ne {other : Shard} (h : Handles w number session)
    (hshard : shard ∈ session.shards) (hother : other ∈ session.shards) (hne : shard ≠ other) :
    shard.handle ≠ other.handle := fun heq =>
  hne (h.eq_of_handle hshard hother heq)

/-! ## Steps that change the waiting events -/

/-- The state with other events waiting on a handle. -/
def withEvents (w : Cluster) (shard : Shard) (events : List OpenEvent) : Cluster :=
  w.setSlot shard { w.slot shard with events := events }

/-- What waits on a handle does not change its connection. -/
theorem connection?_withEvents (w : Cluster) (shard other : Shard) (events : List OpenEvent) :
    (w.withEvents shard events).connection? other = w.connection? other := by
  have hslot : ((w.withEvents shard events).slot other).connection
      = (w.slot other).connection := by
    rw [withEvents, slot_setSlot]
    split
    case isTrue h => simp only [slot, h.1]
    case isFalse => rfl
  rw [connection?, hslot, connection?]

theorem events_withEvents (h : shard.handle < w.slots.length) (events : List OpenEvent) :
    ((w.withEvents shard events).slot shard).events = events := by
  rw [withEvents, slot_setSlot_self h]

theorem events_withEvents_ne {other : Shard} (h : other.handle ≠ shard.handle)
    (events : List OpenEvent) :
    ((w.withEvents shard events).slot other).events = (w.slot other).events := by
  rw [withEvents, slot_setSlot_ne h]

theorem Handles.withEvents (h : Handles w number session) (shard : Shard)
    (events : List OpenEvent) : Handles (w.withEvents shard events) number session where
  here := h.here
  found := h.found
  distinct := h.distinct
  slots := fun other hother => by
    rw [show (w.withEvents shard events).slots.length = w.slots.length from List.length_set]
    exact h.slots other hother
  backends := h.backends
  opened := fun other hother ref href => by
    rw [connection?_withEvents] at href
    exact h.opened other hother ref href
  apart := fun one hone other hother ref href href' => by
    rw [connection?_withEvents] at href href'
    exact h.apart one hone other hother ref href href'

theorem Covers.withEvents (h : w.Covers session tx) (shard : Shard) (events : List OpenEvent) :
    (w.withEvents shard events).Covers session tx where
  known := h.known
  distinct := h.distinct
  opened := h.opened
  joined := fun other hother ref href => by
    rw [connection?_withEvents] at href
    obtain ⟨hmem, hactive⟩ := h.joined other hother ref href
    exact ⟨hmem, hactive⟩

theorem Guarded.withEvents (h : Guarded w number session) (hshard : shard ∈ session.shards)
    {events : List OpenEvent} (hevents : ∀ tx, .enlist tx ∈ events → w.Due session tx) :
    Guarded (w.withEvents shard events) number session where
  toHandles := h.toHandles.withEvents shard events
  quiet := h.quiet
  covers := fun tx htx => (h.covers tx htx).withEvents shard events
  due := fun other hother tx hevent => by
    by_cases heq : other.handle = shard.handle
    · obtain rfl := h.eq_of_handle hother hshard heq
      rw [events_withEvents (h.slots other hshard)] at hevent
      exact hevents tx hevent
    · rw [events_withEvents_ne heq] at hevent
      exact h.due other hother tx hevent

/-! ## Publishing a connection -/

theorem connection?_publish (h : shard.handle < w.slots.length)
    (hbackend : ref.backend = shard.backend) :
    (w.publish shard ref).connection? shard = some ref := by
  rw [connection?, publish, slot_setSlot_self h, Option.map_some, ← hbackend]

theorem connection?_publish_ne {other : Shard} (h : other.handle ≠ shard.handle)
    (ref : NativeRef) : (w.publish shard ref).connection? other = w.connection? other := by
  rw [connection?, publish, slot_setSlot_ne h, connection?]

theorem events_publish (w : Cluster) (shard other : Shard) (ref : NativeRef) :
    ((w.publish shard ref).slot other).events = (w.slot other).events := by
  rw [publish, slot_setSlot]
  split
  case isTrue h => simp only [slot, h.1]
  case isFalse => rfl

/-- After a connection was published, the connection of a handle is the published one or an older
one. -/
theorem Handles.published_cases {other : Shard} {found : NativeRef}
    (h : Handles w number session) (hshard : shard ∈ session.shards)
    (hbackend : ref.backend = shard.backend) (hother : other ∈ session.shards)
    (hfound : (w.publish shard ref).connection? other = some found) :
    (other = shard ∧ found = ref) ∨ (other ≠ shard ∧ w.connection? other = some found) := by
  by_cases heq : other.handle = shard.handle
  · obtain rfl := h.eq_of_handle hother hshard heq
    rw [connection?_publish (h.slots other hshard) hbackend] at hfound
    exact .inl ⟨rfl, (Option.some.inj hfound).symm⟩
  · rw [connection?_publish_ne heq] at hfound
    exact .inr ⟨fun hsame => heq (hsame ▸ rfl), hfound⟩

theorem Guarded.publish (h : Guarded w number session) (hshard : shard ∈ session.shards)
    (hbackend : ref.backend = shard.backend) (hopened : w.IsOpened ref)
    (hnew : ∀ other ∈ session.shards, w.connection? other ≠ some ref)
    (hjoined : ∀ tx, session.current = some tx → w.Joined tx ref) :
    Guarded (w.publish shard ref) number session where
  here := h.here
  found := h.found
  distinct := h.distinct
  slots := fun other hother => by
    rw [show (w.publish shard ref).slots.length = w.slots.length from List.length_set]
    exact h.slots other hother
  backends := h.backends
  opened := fun other hother found hfound => by
    rcases h.published_cases hshard hbackend hother hfound with ⟨-, rfl⟩ | ⟨-, hold⟩
    · exact hopened
    · exact h.opened other hother found hold
  apart := fun one hone other hother found hfound hfound' => by
    -- No handle had this connection before, so it is the connection of one handle only.
    rcases h.published_cases hshard hbackend hone hfound with ⟨rfl, rfl⟩ | ⟨-, hold⟩
    · rcases h.published_cases hshard hbackend hother hfound' with ⟨rfl, -⟩ | ⟨-, hold'⟩
      · rfl
      · exact absurd hold' (hnew other hother)
    · rcases h.published_cases hshard hbackend hother hfound' with ⟨-, rfl⟩ | ⟨-, hold'⟩
      · exact absurd hold (hnew one hone)
      · exact h.apart one hone other hother found hold hold'
  quiet := h.quiet
  covers := fun tx htx =>
    { known := (h.covers tx htx).known
      distinct := (h.covers tx htx).distinct
      opened := (h.covers tx htx).opened
      joined := fun other hother found hfound => by
        rcases h.published_cases hshard hbackend hother hfound with ⟨-, rfl⟩ | ⟨-, hold⟩
        · obtain ⟨hmem, hactive⟩ := hjoined tx htx
          exact ⟨hmem, hactive⟩
        · obtain ⟨hmem, hactive⟩ := (h.covers tx htx).joined other hother found hold
          exact ⟨hmem, hactive⟩ }
  due := fun other hother tx hevent => by
    rw [events_publish] at hevent
    exact h.due other hother tx hevent

/-! ## Steps that change a transaction -/

theorem enlisted_enlist (w : Cluster) (tx other : Nat) (id : ShardId) (ref : NativeRef) :
    ((w.enlist tx id ref).transaction other).enlisted =
      if tx = other ∧ tx < w.transactions.length
      then (w.transaction other).enlisted ++ [⟨id, ref⟩] else (w.transaction other).enlisted := by
  rw [enlist, transaction_mapTransaction]
  split
  case isTrue h => rw [h.1]
  case isFalse => rfl

theorem status_enlist (w : Cluster) (tx other : Nat) (id : ShardId) (ref : NativeRef) :
    ((w.enlist tx id ref).transaction other).status = (w.transaction other).status :=
  status_mapTransaction (by exact fun _ => rfl)

theorem natives_enlist_self (h : tx < w.transactions.length) (id : ShardId) (ref : NativeRef) :
    (w.enlist tx id ref).natives tx = w.natives tx ++ [ref] := by
  rw [natives, enlisted_enlist, if_pos ⟨rfl, h⟩, List.map_append, natives]
  rfl

theorem natives_enlist_ne {other : Nat} (h : tx ≠ other) (id : ShardId) (ref : NativeRef) :
    (w.enlist tx id ref).natives other = w.natives other := by
  rw [natives, enlisted_enlist, if_neg fun hand => h hand.1, natives]

theorem Covers.enlist (h : w.Covers session tx) (other : Nat) (id : ShardId)
    (hopened : w.IsOpened ref) (hnew : other = tx → ref ∉ w.natives tx) :
    (w.enlist other id ref).Covers session tx := by
  have hknown : tx < (w.enlist other id ref).transactions.length :=
    Nat.lt_of_lt_of_eq h.known List.length_set.symm
  have hjoined : w.natives tx ⊆ (w.enlist other id ref).natives tx →
      ∀ shard ∈ session.shards, ∀ found, w.connection? shard = some found →
        (w.enlist other id ref).Joined tx found := by
    intro hsub shard hshard found hfound
    obtain ⟨hmem, hactive⟩ := h.joined shard hshard found hfound
    refine ⟨hsub hmem, fun hstatus => ?_⟩
    rw [status_enlist] at hstatus
    exact hactive hstatus
  by_cases heq : other = tx
  · subst heq
    have hnatives := natives_enlist_self h.known id ref
    refine ⟨hknown, ?_, ?_, hjoined ?_⟩
    · rw [hnatives, ← List.concat_eq_append]
      exact List.Nodup.concat (hnew rfl) h.distinct
    · intro found hfound
      rw [hnatives] at hfound
      rcases List.mem_append.mp hfound with hold | hlast
      · exact h.opened found hold
      · obtain rfl := List.mem_singleton.mp hlast
        exact hopened
    · rw [hnatives]
      exact List.subset_append_left _ _
  · have hnatives := natives_enlist_ne (w := w) heq id ref
    refine ⟨hknown, ?_, ?_, hjoined ?_⟩
    · rw [hnatives]
      exact h.distinct
    · intro found hfound
      rw [hnatives] at hfound
      exact h.opened found hfound
    · rw [hnatives]
      exact List.Subset.refl _

theorem Due.enlist {other : Nat} (h : w.Due session tx) (id : ShardId) (ref : NativeRef) :
    (w.enlist other id ref).Due session tx := by
  rw [Due, status_enlist]
  exact h

theorem Guarded.enlist (h : Guarded w number session) (other : Nat) (id : ShardId)
    (hopened : w.IsOpened ref) (hnew : ref ∉ w.natives other) :
    Guarded (w.enlist other id ref) number session where
  here := h.here
  found := h.found
  distinct := h.distinct
  slots := h.slots
  backends := h.backends
  opened := h.opened
  apart := h.apart
  quiet := h.quiet
  covers := fun tx htx => (h.covers tx htx).enlist other id hopened fun heq => heq ▸ hnew
  due := fun shard hshard tx hevent => (h.due shard hshard tx hevent).enlist id ref

/-- The current transaction may take any status; to become active it needs the local transactions
of all connections to be active. -/
theorem Sound.setStatus {refs : List NativeRef} (h : Sound w number session)
    (hwithin : Within refs w w') (htx : session.current = some tx) (status : TransactionStatus)
    (hactive : status = .active → ∀ shard ∈ session.shards, ∀ ref,
      w.connection? shard = some ref → (w'.native ref).isActive = true) :
    Sound (w'.setStatus tx status) number session := by
  have hknown := (h.covers tx htx).known
  have hknown' : tx < w'.transactions.length := hwithin.transactions ▸ hknown
  have hhandles := h.toHandles.within hwithin
  refine ⟨⟨⟨hhandles.here, hhandles.found, hhandles.distinct, hhandles.slots, hhandles.backends,
    hhandles.opened, hhandles.apart⟩, hwithin.noRollbackFault h.quiet, ?_, ?_⟩, ?_⟩
  · intro tx' htx'
    obtain rfl : tx = tx' := Option.some.inj (htx.symm.trans htx')
    have hcovers := h.covers tx htx
    refine ⟨Nat.lt_of_lt_of_eq hknown' List.length_set.symm, ?_, ?_, ?_⟩
    · rw [natives_setStatus, hwithin.natives]
      exact hcovers.distinct
    · intro ref href
      rw [natives_setStatus, hwithin.natives] at href
      exact hwithin.isOpened (hcovers.opened ref href)
    · intro shard hshard ref href
      have href : w.connection? shard = some ref := (hwithin.connection? shard).symm.trans href
      refine ⟨?_, fun hstatus => ?_⟩
      · rw [natives_setStatus, hwithin.natives]
        exact (hcovers.joined shard hshard ref href).mem
      · rw [status_setStatus hknown'] at hstatus
        exact hactive hstatus shard hshard ref href
  · intro shard hshard other hevent
    have hevent : .enlist other ∈ (w.slot shard).events := (hwithin.slot shard) ▸ hevent
    rcases h.due shard hshard other hevent with hcurrent | hfinal
    · exact .inl hcurrent
    · by_cases heq : other = tx
      · exact .inl (heq ▸ htx)
      · refine .inr ?_
        rw [status_setStatus_ne heq, hwithin.status]
        exact hfinal
  · intro shard hshard hnone tx' htx'
    have hnone : w.connection? shard = none := (hwithin.connection? shard).symm.trans hnone
    have hslot : (w'.setStatus tx status).slot shard = w.slot shard := hwithin.slot shard
    rw [hslot]
    exact h.awaits shard hshard hnone tx' htx'

end ScatterGather.Cluster
