import ScatterGather.Cluster.State
import ScatterGather.Proofs.Backend.Calls

/-!
# What a step of a cluster leaves alone

Most steps of a session change a few connections and what transactions remember besides their
members and status, and nothing else. `Within` says so for a step, and composes, so that what is
known of a state can be carried over a whole loop at once.
-/

namespace ScatterGather.Cluster

variable {w w' w'' : Cluster}

/-! ## What an updated cluster looks up -/

theorem getD_set {α : Type} (l : List α) (i j : Nat) (a d : α) :
    (l.set i a).getD j d = if i = j ∧ i < l.length then a else l.getD j d := by
  rw [List.getD_eq_getElem?_getD, List.getElem?_set, List.getD_eq_getElem?_getD]
  by_cases hij : i = j
  · subst hij
    by_cases hlt : i < l.length
    · simp [hlt]
    · simp [hlt]
  · simp [hij]

theorem backend_callBackend {α : Type} (w : Cluster) (i j : Nat) (call : Backend → α × Backend) :
    (w.callBackend i call).2.backend j =
      if i = j ∧ i < w.backends.length then (call (w.backend i)).2 else w.backend j :=
  getD_set ..

theorem backend_ofBackends (count i : Nat) : (ofBackends count).backend i = .empty := by
  rw [backend, ofBackends, List.getD_eq_getElem?_getD, List.getElem?_replicate]
  split <;> rfl

theorem slot_congr (h : w'.slots = w.slots) (shard : Shard) : w'.slot shard = w.slot shard := by
  rw [slot, h, slot]

theorem session_congr (h : w'.sessions = w.sessions) (number : Nat) :
    w'.session number = w.session number := by
  rw [session, h, session]

theorem transaction_mapTransaction (w : Cluster) (tx other : Nat)
    (change : Transaction → Transaction) :
    (w.mapTransaction tx change).transaction other =
      if tx = other ∧ tx < w.transactions.length then change (w.transaction tx)
      else w.transaction other :=
  getD_set ..

/-- A field that the change keeps. The four lemmas after it are instances, and a step that changes a
transaction is looked at one field at a time with them. -/
theorem field_mapTransaction {α : Type} (field : Transaction → α)
    {change : Transaction → Transaction} (h : ∀ t, field (change t) = field t) (w : Cluster)
    (tx other : Nat) :
    field ((w.mapTransaction tx change).transaction other) = field (w.transaction other) := by
  rw [transaction_mapTransaction]
  split
  case isTrue heq => rw [h, heq.1]
  case isFalse => rfl

theorem enlisted_mapTransaction {change : Transaction → Transaction}
    (h : ∀ t, (change t).enlisted = t.enlisted) {tx other : Nat} :
    ((w.mapTransaction tx change).transaction other).enlisted = (w.transaction other).enlisted :=
  field_mapTransaction (·.enlisted) h w tx other

theorem status_mapTransaction {change : Transaction → Transaction}
    (h : ∀ t, (change t).status = t.status) {tx other : Nat} :
    ((w.mapTransaction tx change).transaction other).status = (w.transaction other).status :=
  field_mapTransaction (·.status) h w tx other

theorem timeout_mapTransaction {change : Transaction → Transaction}
    (h : ∀ t, (change t).timeout = t.timeout) {tx other : Nat} :
    ((w.mapTransaction tx change).transaction other).timeout = (w.transaction other).timeout :=
  field_mapTransaction (·.timeout) h w tx other

theorem synchronizations_mapTransaction {change : Transaction → Transaction}
    (h : ∀ t, (change t).synchronizations = t.synchronizations) {tx other : Nat} :
    ((w.mapTransaction tx change).transaction other).synchronizations
      = (w.transaction other).synchronizations :=
  field_mapTransaction (·.synchronizations) h w tx other

theorem transaction_mapTransaction_ne {tx other : Nat} (h : other ≠ tx)
    (change : Transaction → Transaction) :
    (w.mapTransaction tx change).transaction other = w.transaction other := by
  rw [transaction_mapTransaction, if_neg fun hand => h hand.1.symm]

theorem transaction_mapTransaction_self {tx : Nat} (h : tx < w.transactions.length)
    (change : Transaction → Transaction) :
    (w.mapTransaction tx change).transaction tx = change (w.transaction tx) := by
  rw [transaction_mapTransaction, if_pos ⟨rfl, h⟩]

/-- The state with one more transaction. -/
def withTransaction (w : Cluster) : Cluster :=
  { w with transactions := w.transactions ++ [.fresh] }

theorem transaction_withTransaction (w : Cluster) (tx : Nat) :
    w.withTransaction.transaction tx = w.transaction tx := by
  rw [transaction, transaction, List.getD_eq_getElem?_getD, List.getD_eq_getElem?_getD]
  simp only [withTransaction]
  rcases Nat.lt_trichotomy tx w.transactions.length with hlt | heq | hgt
  · rw [List.getElem?_append_left hlt]
  · subst heq
    simp
  · rw [List.getElem?_eq_none (by simp; omega), List.getElem?_eq_none (by omega)]

theorem slot_setSlot (w : Cluster) (shard other : Shard) (slot : Slot) :
    (w.setSlot shard slot).slot other =
      if shard.handle = other.handle ∧ shard.handle < w.slots.length then slot
      else w.slot other :=
  getD_set ..

theorem slot_setSlot_ne {shard other : Shard} (h : other.handle ≠ shard.handle) (slot : Slot) :
    (w.setSlot shard slot).slot other = w.slot other := by
  rw [slot_setSlot, if_neg fun hand => h hand.1.symm]

theorem slot_setSlot_self {shard : Shard} (h : shard.handle < w.slots.length) (slot : Slot) :
    (w.setSlot shard slot).slot shard = slot := by
  rw [slot_setSlot, if_pos ⟨rfl, h⟩]

/-- The local transactions that have joined a logical one. -/
def natives (w : Cluster) (tx : Nat) : List NativeRef :=
  (w.transaction tx).enlisted.map (·.native)

theorem mem_natives {tx : Nat} {ref : NativeRef} :
    ref ∈ w.natives tx ↔ ∃ e ∈ (w.transaction tx).enlisted, e.native = ref :=
  List.mem_map

/-! ## Steps that change some connections -/

/-- There is a connection behind the reference. -/
def IsOpened (w : Cluster) (ref : NativeRef) : Prop :=
  ref.connection < (w.backend ref.backend).connections.length

theorem native_eq (w : Cluster) (ref : NativeRef) :
    w.native ref = (w.backend ref.backend).connection ref.connection :=
  rfl

theorem lt_of_connection? {ref : NativeRef} {c : Connection}
    (h : (w.backend ref.backend).connection? ref.connection = some c) :
    ref.backend < w.backends.length := by
  rcases Nat.lt_or_ge ref.backend w.backends.length with hlt | hge
  · exact hlt
  · have hempty : w.backend ref.backend = .empty := by
      rw [backend, List.getD_eq_getElem?_getD, List.getElem?_eq_none hge, Option.getD_none]
    rw [hempty] at h
    cases h

/-- From one state to a later one: the given connections may have changed, but the others are as
they were, no fault was armed, and transactions have the members and the status they had. Which
transactions callers have in hand is left open. -/
structure Within (refs : List NativeRef) (w w' : Cluster) : Prop where
  slots : w'.slots = w.slots
  sessions : w'.sessions = w.sessions
  transactions : w'.transactions.length = w.transactions.length
  enlisted : ∀ tx, (w'.transaction tx).enlisted = (w.transaction tx).enlisted
  status : ∀ tx, (w'.transaction tx).status = (w.transaction tx).status
  backends : w'.backends.length = w.backends.length
  opened : ∀ i, (w.backend i).connections.length ≤ (w'.backend i).connections.length
  armed : ∀ i call, (w'.backend i).faults.isArmed call = true →
    (w.backend i).faults.isArmed call = true
  others : ∀ ref, ref ∉ refs → w'.native ref = w.native ref

namespace Within

variable {refs more : List NativeRef}

theorem refl (refs : List NativeRef) (w : Cluster) : Within refs w w :=
  ⟨rfl, rfl, rfl, fun _ => rfl, fun _ => rfl, rfl, fun _ => Nat.le_refl _, fun _ _ h => h,
    fun _ _ => rfl⟩

theorem mono (h : Within refs w w') (hsub : refs ⊆ more) : Within more w w' :=
  { h with others := fun ref hn => h.others ref fun hmem => hn (hsub hmem) }

theorem trans (h : Within refs w w') (h' : Within refs w' w'') : Within refs w w'' where
  slots := h'.slots.trans h.slots
  sessions := h'.sessions.trans h.sessions
  transactions := h'.transactions.trans h.transactions
  enlisted := fun tx => (h'.enlisted tx).trans (h.enlisted tx)
  status := fun tx => (h'.status tx).trans (h.status tx)
  backends := h'.backends.trans h.backends
  opened := fun i => Nat.le_trans (h.opened i) (h'.opened i)
  armed := fun i call harmed => h.armed i call (h'.armed i call harmed)
  others := fun ref hn => (h'.others ref hn).trans (h.others ref hn)

theorem report (h : Within refs w w') (level : Level) (text : String) :
    Within refs w (report level text w') :=
  ⟨h.slots, h.sessions, h.transactions, h.enlisted, h.status, h.backends, h.opened, h.armed,
    h.others⟩

theorem record (h : Within refs w w') (entry : Entry) : Within refs w (record w' entry) :=
  ⟨h.slots, h.sessions, h.transactions, h.enlisted, h.status, h.backends, h.opened, h.armed,
    h.others⟩

theorem slot (h : Within refs w w') (shard : Shard) : w'.slot shard = w.slot shard :=
  slot_congr h.slots shard

theorem connection? (h : Within refs w w') (shard : Shard) :
    w'.connection? shard = w.connection? shard := by
  rw [Cluster.connection?, h.slot, Cluster.connection?]

theorem session (h : Within refs w w') (number : Nat) : w'.session number = w.session number :=
  session_congr h.sessions number

theorem natives (h : Within refs w w') (tx : Nat) : w'.natives tx = w.natives tx := by
  rw [Cluster.natives, h.enlisted, Cluster.natives]

theorem isOpened (h : Within refs w w') {ref : NativeRef} (hopened : w.IsOpened ref) :
    w'.IsOpened ref :=
  Nat.lt_of_lt_of_le hopened (h.opened ref.backend)

/-- A change that transactions keep their members and status in. -/
theorem mapTransaction (w : Cluster) (tx : Nat) {change : Transaction → Transaction}
    (henlisted : ∀ t, (change t).enlisted = t.enlisted) (hstatus : ∀ t, (change t).status = t.status)
    : Within refs w (w.mapTransaction tx change) where
  slots := rfl
  sessions := rfl
  transactions := List.length_set
  enlisted := fun _ => enlisted_mapTransaction henlisted
  status := fun _ => status_mapTransaction hstatus
  backends := rfl
  opened := fun _ => Nat.le_refl _
  armed := fun _ _ h => h
  others := fun _ _ => rfl

/-- A call of a backend that changes no other connection of it than those given. -/
theorem callBackend {α : Type} (w : Cluster) (i : Nat) (numbers : List Nat)
    {call : Backend → α × Backend}
    (h : Backend.Within numbers (w.backend i) (call (w.backend i)).2) :
    Within (numbers.map fun number => ⟨i, number⟩) w (w.callBackend i call).2 where
  slots := rfl
  sessions := rfl
  transactions := rfl
  enlisted := fun _ => rfl
  status := fun _ => rfl
  backends := List.length_set
  opened := fun j => by
    rw [backend_callBackend]
    split
    case isTrue hij => exact hij.1 ▸ h.opened
    case isFalse => exact Nat.le_refl _
  armed := fun j called harmed => by
    rw [backend_callBackend] at harmed
    split at harmed
    case isTrue hij => exact hij.1 ▸ h.armed called harmed
    case isFalse => exact harmed
  others := fun ref hn => by
    rw [native_eq, native_eq, backend_callBackend]
    split
    case isTrue hij =>
      obtain ⟨hij, -⟩ := hij
      subst hij
      exact h.others ref.connection fun hmem => hn (List.mem_map.mpr ⟨_, hmem, rfl⟩)
    case isFalse => rfl

end Within

/-- No rollback is about to fail. -/
def NoRollbackFault (w : Cluster) : Prop :=
  ∀ i, (w.backend i).faults.rollingBack = false

theorem Within.noRollbackFault {refs : List NativeRef} (h : Within refs w w')
    (hquiet : w.NoRollbackFault) : w'.NoRollbackFault := by
  intro i
  refine Bool.eq_false_iff.mpr fun harmed => ?_
  have hbefore : (w.backend i).faults.rollingBack = true := h.armed i .rollingBack harmed
  rw [hquiet i] at hbefore
  cases hbefore

/-! ## Steps that change no store -/

/-- Every backend has the store that it had. -/
def SameStores (w w' : Cluster) : Prop :=
  ∀ i, (w'.backend i).store = (w.backend i).store

theorem SameStores.refl (w : Cluster) : SameStores w w :=
  fun _ => rfl

theorem SameStores.trans (h : SameStores w w') (h' : SameStores w' w'') : SameStores w w'' :=
  fun i => (h' i).trans (h i)

theorem SameStores.of_backends (h : w'.backends = w.backends) : SameStores w w' := by
  intro i
  rw [backend, h, backend]

theorem SameStores.callBackend {α : Type} (w : Cluster) (i : Nat) {call : Backend → α × Backend}
    (h : (call (w.backend i)).2.store = (w.backend i).store) :
    SameStores w (w.callBackend i call).2 := by
  intro j
  rw [backend_callBackend]
  split
  case isTrue hij => exact hij.1 ▸ h
  case isFalse => rfl

end ScatterGather.Cluster
