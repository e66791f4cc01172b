import ScatterGather.Proofs.Cluster.Timeouts
import ScatterGather.Proofs.Session.Attempts

/-!
# The timeout of a connection that joins

A connection that is shown to events joins one transaction after the other, and each of them gives it
its timeout if it has one. What stays is the timeout of the last one that has any. The current
transaction is the last that waits on a handle, since it was made after all others, so the connection
ends with the timeout of that one, or with that of an older transaction if the current one has none.
Attempts that fail leave the order of the waiting transactions as it is.
-/

namespace ScatterGather

/-- The transaction that an event enlists a connection in. -/
def OpenEvent.transaction? : OpenEvent → Option Nat
  | .enlist tx => some tx
  | .hook _ => none

namespace Cluster

variable {w w' w'' : Cluster} {shard : Shard} {ref : NativeRef} {tx : Nat}

/-! ## The order of waiting transactions -/

/-- The transactions among some events, in order. -/
def waiting (events : List OpenEvent) : List Nat :=
  events.filterMap OpenEvent.transaction?

theorem waiting_append (events more : List OpenEvent) :
    waiting (events ++ more) = waiting events ++ waiting more :=
  List.filterMap_append

theorem waiting_hooks (hooks : List Hook) : waiting (hooks.map .hook) = [] := by
  rw [waiting, List.filterMap_map]
  exact List.filterMap_eq_nil_iff.mpr fun _ _ => rfl

theorem mem_waiting {events : List OpenEvent} : tx ∈ waiting events ↔ .enlist tx ∈ events := by
  rw [waiting, List.mem_filterMap]
  constructor
  · rintro ⟨event, hevent, htx⟩
    cases event with
    | enlist other => exact Option.some.inj htx ▸ hevent
    | hook hook => cases htx
  · exact fun hevent => ⟨_, hevent, rfl⟩

theorem waiting_withEvents {other : Shard} {events : List OpenEvent}
    (h : waiting events = waiting (w.slot shard).events) :
    waiting ((w.withEvents shard events).slot other).events = waiting (w.slot other).events := by
  rw [withEvents, slot_setSlot]
  split
  case isTrue heq => rw [h, slot, heq.1, slot]
  case isFalse => rfl

/-- Among some events none comes after that of a transaction but of the same transaction. -/
def Last (tx : Nat) (events : List OpenEvent) : Prop :=
  (waiting events).Pairwise fun one other => one = tx → other = tx

theorem Last.congr {events events' : List OpenEvent} (h : Last tx events)
    (hsame : waiting events' = waiting events) : Last tx events' := by
  rwa [Last, hsame]

theorem Last.of_nil {events : List OpenEvent} (h : waiting events = []) : Last tx events := by
  rw [Last, h]
  exact .nil

/-- To be shown the connection changes no event but a hook. -/
theorem runEvent_waiting (w : Cluster) (shard : Shard) (ref : NativeRef) (event : OpenEvent) :
    let ran := w.runEvent shard ref event
    ran.2.1.transaction? = event.transaction?
      ∧ ∀ other, waiting (ran.2.2.slot other).events = waiting (w.slot other).events := by
  cases event with
  | enlist tx =>
    by_cases hreferenced : w.isReferenced tx = true
    · rw [runEvent_of_referenced hreferenced]
      obtain ⟨-, hslots, -⟩ := w.joinLate_heard tx shard ref
      exact ⟨rfl, fun other => by rw [slot_congr hslots]⟩
    · rw [runEvent_of_unreferenced hreferenced]
      exact ⟨rfl, fun _ => rfl⟩
  | hook hook =>
    obtain ⟨answer, hook', w₁, children, hrun, hwithin, -⟩ := w.runHook_cases shard ref hook
    rw [runEvent, hrun]
    refine ⟨rfl, fun other => ?_⟩
    rw [← hwithin.slot]
    exact waiting_withEvents (by rw [waiting_append, waiting_hooks, List.append_nil])

theorem runEvents_waiting (shard : Shard) (ref : NativeRef) (events : List OpenEvent) (w : Cluster) :
    let ran := runEvents shard ref events w
    waiting ran.2.1 = waiting events
      ∧ ∀ other, waiting (ran.2.2.slot other).events = waiting (w.slot other).events := by
  induction events generalizing w with
  | nil => exact ⟨rfl, fun _ => rfl⟩
  | cons event rest ih =>
    obtain ⟨hsame, hwaiting⟩ := w.runEvent_waiting shard ref event
    rw [runEvents]
    generalize w.runEvent shard ref event = ran at hsame hwaiting
    obtain ⟨answer, event', w₁⟩ := ran
    have hhead : ∀ tail tail' : List OpenEvent, waiting tail' = waiting tail →
        waiting (event' :: tail') = waiting (event :: tail) := by
      intro tail tail' htail
      rw [waiting, List.filterMap_cons, hsame, waiting, List.filterMap_cons]
      rw [waiting, waiting] at htail
      rw [htail]
    cases answer with
    | error e => exact ⟨hhead rest rest rfl, hwaiting⟩
    | ok done =>
      obtain ⟨hrest, hrestWaiting⟩ := ih w₁
      exact ⟨hhead rest _ hrest, fun other => (hrestWaiting other).trans (hwaiting other)⟩

/-- If an attempt failed, the same transactions wait in the same order. -/
theorem settle_waiting (ref : NativeRef) (hslot : shard.handle < w.slots.length) (rounds : Nat)
    (fired : List OpenEvent) :
    let settled := settle shard ref rounds fired w
    ∀ e, settled.1 = .error e →
      waiting (settled.2.slot shard).events = waiting fired ++ waiting (w.slot shard).events := by
  induction rounds generalizing fired w with
  | zero =>
    rw [settle]
    simp
  | succ rounds ih =>
    cases hevents : (w.slot shard).events with
    | nil =>
      rw [settle_of_nil hevents]
      simp
    | cons event rest =>
      obtain ⟨hsame, hwaiting⟩ :=
        runEvents_waiting shard ref (event :: rest) (w.withEvents shard [])
      obtain ⟨hpresented, -⟩ := runEvents_heard shard ref (event :: rest) (w.withEvents shard [])
      have hslots := hpresented.slots
      have hempty := hwaiting shard
      rw [events_withEvents hslot] at hempty
      rw [settle_of_cons hevents]
      generalize runEvents shard ref (event :: rest) (w.withEvents shard []) = ran
        at hsame hempty hslots
      obtain ⟨answer, events, w₁⟩ := ran
      have hslot₁ : shard.handle < w₁.slots.length :=
        Nat.lt_of_lt_of_eq hslot (hslots.trans List.length_set).symm
      intro settled e he
      cases answer with
      | error reason =>
        have hclose := w₁.reject_within shard ref (fired ++ events) reason
        refine (congrArg (fun slot => waiting slot.events) (hclose.slot shard)).trans ?_
        rw [events_withEvents hslot₁, waiting_append, waiting_append, hsame, hempty]
        exact List.append_nil _
      | ok done =>
        refine (ih hslot₁ (fired ++ events) e he).trans ?_
        rw [waiting_append, hsame, hempty]
        exact List.append_nil _

/-! ## Where a timeout comes from -/

/-- A transaction that a connection has joined has the timeout that the connection has. -/
def Gives (w : Cluster) (tx : Nat) (ref : NativeRef) : Prop :=
  ref ∈ w.natives tx ∧ (w.native ref).timeout = (w.transaction tx).timeout

/-- The timeout of a connection, if it has one, is that of a transaction it has joined. -/
def Sourced (w : Cluster) (ref : NativeRef) : Prop :=
  (w.native ref).timeout = none ∨ ∃ tx, w.Gives tx ref

/-- If a transaction has a timeout, it is that of a connection. -/
def Obeys (w : Cluster) (tx : Nat) (ref : NativeRef) : Prop :=
  (w.transaction tx).timeout = none ∨ (w.native ref).timeout = (w.transaction tx).timeout

/-- The timeout of a connection comes from a transaction that it has joined, and from the given one
if it has joined that. -/
structure Clocked (tx : Nat) (ref : NativeRef) (w : Cluster) : Prop where
  sourced : w.Sourced ref
  obeys : ref ∈ w.natives tx → w.Obeys tx ref

theorem Gives.kept (h : w.Gives tx ref) (hjoined : ref ∈ w'.natives tx)
    (hnative : (w'.native ref).timeout = (w.native ref).timeout)
    (htime : (w'.transaction tx).timeout = (w.transaction tx).timeout) : w'.Gives tx ref :=
  ⟨hjoined, hnative.trans (h.2.trans htime.symm)⟩

theorem Sourced.kept (h : w.Sourced ref)
    (hjoined : ∀ tx, ref ∈ w.natives tx → ref ∈ w'.natives tx)
    (hnative : (w'.native ref).timeout = (w.native ref).timeout)
    (htime : ∀ tx, (w'.transaction tx).timeout = (w.transaction tx).timeout) : w'.Sourced ref := by
  rcases h with hnone | ⟨tx, hgives⟩
  · exact .inl (hnative.trans hnone)
  · exact .inr ⟨tx, hgives.kept (hjoined tx hgives.1) hnative (htime tx)⟩

theorem Obeys.kept (h : w.Obeys tx ref)
    (hnative : (w'.native ref).timeout = (w.native ref).timeout)
    (htime : (w'.transaction tx).timeout = (w.transaction tx).timeout) : w'.Obeys tx ref := by
  rw [Obeys, hnative, htime]
  exact h

theorem Clocked.same (h : Clocked tx ref w) (hnatives : ∀ tx, w'.natives tx = w.natives tx)
    (htimeouts : SameTimeouts w w') : Clocked tx ref w' where
  sourced := h.sourced.kept (fun tx hmem => (hnatives tx).symm ▸ hmem) (htimeouts.native ref)
    htimeouts.transaction
  obeys := fun hmem => by
    rw [hnatives] at hmem
    exact (h.obeys hmem).kept (htimeouts.native ref) (htimeouts.transaction tx)

theorem Clocked.publish (h : Clocked tx ref w) (shard : Shard) :
    Clocked tx ref (w.publish shard ref) :=
  h.same (fun _ => rfl) ⟨fun _ => rfl, fun _ => rfl⟩

/-- A connection that joins a transaction has the timeout of that one from then on, if it has any. -/
theorem Clocked.joined {other : Nat} (h : Clocked tx ref w)
    (hkept : ∀ tx, ref ∈ w.natives tx → ref ∈ w'.natives tx)
    (hjoined : other < w.transactions.length → ref ∈ w'.natives other)
    (honly : ref ∈ w'.natives tx → tx = other)
    (htime : ∀ tx, (w'.transaction tx).timeout = (w.transaction tx).timeout)
    (hgiven : (w'.native ref).timeout = (w.transaction other).timeout.or (w.native ref).timeout) :
    Clocked tx ref w' := by
  cases htimeout : (w.transaction other).timeout with
  | none =>
    rw [htimeout, Option.none_or] at hgiven
    refine ⟨h.sourced.kept hkept hgiven htime, fun hmem => ?_⟩
    obtain rfl := honly hmem
    exact .inl ((htime tx).trans htimeout)
  | some seconds =>
    have hsame : (w'.native ref).timeout = (w'.transaction other).timeout := by
      rw [hgiven, htime, htimeout, Option.some_or]
    have hknown : other < w.transactions.length := by
      rcases Nat.lt_or_ge other w.transactions.length with hlt | hge
      · exact hlt
      · rw [enlisted_of_ge hge] at htimeout
        cases htimeout
    refine ⟨.inr ⟨other, hjoined hknown, hsame⟩, fun hmem => ?_⟩
    obtain rfl := honly hmem
    exact .inr hsame

/-! ## Showing the connection to events -/

theorem joinLate_timeout (hopened : w.IsOpened ref) {other : Nat} (hnew : ref ∉ w.natives other)
    (id : ShardId) :
    ((w.joinLate other id ref).2.native ref).timeout
      = (w.transaction other).timeout.or (w.native ref).timeout := by
  have hany : ¬ (w.transaction other).enlisted.any (fun e => e.native = ref) = true := by
    simpa [mem_natives] using hnew
  have hpass := passTimeout_passed (w := report .debug ("setting up transaction on shard " ++ id.text)
    w) other hopened
  rw [((joinLate_passed w hany).sameTimeouts rfl).native, hpass.given ref (List.mem_singleton_self ref)]
  rfl

/-- The timeout of a connection that is shown to events. Once it has joined the given transaction, it
is shown to no other. -/
structure Showing (tx : Nat) (ref : NativeRef) (events : List OpenEvent) (w : Cluster) : Prop
    extends Clocked tx ref w where
  last : Last tx events
  alone : ref ∈ w.natives tx → ∀ other ∈ waiting events, other = tx

theorem Last.tail {event : OpenEvent} {rest : List OpenEvent} (h : Last tx (event :: rest)) :
    Last tx rest :=
  List.Pairwise.sublist ((List.sublist_cons_self event rest).filterMap _) h

theorem Showing.skip {event : OpenEvent} {rest : List OpenEvent}
    (h : Showing tx ref (event :: rest) w) (hnatives : ∀ tx, w'.natives tx = w.natives tx)
    (htimeouts : SameTimeouts w w') : Showing tx ref rest w' := by
  refine ⟨h.toClocked.same hnatives htimeouts, h.last.tail, fun hmem other hother => ?_⟩
  rw [hnatives] at hmem
  exact h.alone hmem other (mem_waiting.mpr (List.mem_cons_of_mem _ (mem_waiting.mp hother)))

theorem joinLate_error {other : Nat} {id : ShardId} (hnew : ref ∉ w.natives other) {e : ShardError}
    (h : (w.joinLate other id ref).1 = .error e) :
    ∀ tx, (w.joinLate other id ref).2.natives tx = w.natives tx := by
  rcases w.joinLate_cases other id ref with
    ⟨hmem, -⟩ | ⟨-, w₁, hwithin, -, ⟨-, hjoin, -⟩ | ⟨-, hjoin, -⟩ | ⟨-, e, hjoin⟩⟩
  · exact absurd hmem hnew
  · rw [hjoin] at h
    cases h
  · rw [hjoin] at h
    cases h
  · rw [hjoin]
    exact hwithin.natives

/-- The connection is shown to a transaction that it has not joined. -/
theorem Showing.join {other : Nat} {rest : List OpenEvent}
    (h : Showing tx ref (.enlist other :: rest) w) (shard : Shard) (hopened : w.IsOpened ref)
    (hnew : ref ∉ w.natives other) :
    let joined := w.joinLate other shard.physicalId ref
    (joined.1 = .ok () → Showing tx ref rest joined.2)
      ∧ (ref ∈ joined.2.natives tx → Clocked tx ref joined.2) := by
  have hgiven := joinLate_timeout hopened hnew shard.physicalId
  have htime := (w.joinLate_work other shard.physicalId ref).timeout_eq rfl
  obtain ⟨hpresented, -, hheard⟩ := w.joinLate_heard other shard ref
  have herror (e : ShardError) (hanswer : (w.joinLate other shard.physicalId ref).1 = .error e) :=
    joinLate_error hnew hanswer
  -- The transaction asked about has not been joined before, or this event would be its own.
  have hfirst : ref ∉ w.natives tx := by
    intro hmem
    obtain rfl := h.alone hmem other (mem_waiting.mpr List.mem_cons_self)
    exact hnew hmem
  generalize w.joinLate other shard.physicalId ref = joined at *
  obtain ⟨answer, w₁⟩ := joined
  cases answer with
  | error e =>
    refine ⟨by simp, fun hmem => absurd hmem ?_⟩
    rwa [show w₁.natives tx = w.natives tx from herror e rfl tx]
  | ok done =>
    have hheard := hheard rfl
    have honly (hmem : ref ∈ w₁.natives tx) : tx = other := (hheard.only tx hmem).resolve_left hfirst
    have hclocked : Clocked tx ref w₁ :=
      h.toClocked.joined (fun _ => hpresented.mem_natives) (hheard.joined other rfl) honly htime
        hgiven
    refine ⟨fun _ => ⟨hclocked, h.last.tail, fun hmem later hafter => ?_⟩, fun _ => hclocked⟩
    obtain rfl := honly hmem
    exact (List.pairwise_cons.mp h.last).1 later hafter rfl

theorem runEvent_clocked (shard : Shard) (hopened : w.IsOpened ref) {event : OpenEvent}
    {rest : List OpenEvent} (h : Showing tx ref (event :: rest) w) :
    let ran := w.runEvent shard ref event
    (ran.1 = .ok () → Showing tx ref rest ran.2.2)
      ∧ (ref ∈ ran.2.2.natives tx → Clocked tx ref ran.2.2) := by
  cases event with
  | hook hook =>
    have htimeouts := (w.runHook_work shard ref hook).sameTimeouts rfl
    obtain ⟨answer, hook', w₁, children, hrun, hwithin, -⟩ := w.runHook_cases shard ref hook
    rw [hrun] at htimeouts
    rw [runEvent, hrun]
    have hshown : Showing tx ref rest (w₁.withEvents shard _) := h.skip hwithin.natives htimeouts
    exact ⟨fun _ => hshown, fun _ => hshown.toClocked⟩
  | enlist other =>
    have hskipped := h.skip (fun _ => rfl) (.refl w)
    by_cases hreferenced : w.isReferenced other = true
    case neg =>
      rw [runEvent_of_unreferenced hreferenced]
      exact ⟨fun _ => hskipped, fun _ => hskipped.toClocked⟩
    rw [runEvent_of_referenced hreferenced]
    by_cases hjoined : ref ∈ w.natives other
    case neg => exact h.join shard hopened hjoined
    have hany : (w.transaction other).enlisted.any (fun e => e.native = ref) = true := by
      simpa [mem_natives] using hjoined
    rw [joinLate_of_joined hany]
    exact ⟨fun _ => hskipped, fun _ => hskipped.toClocked⟩

theorem runEvents_clocked (shard : Shard) {events : List OpenEvent} (hopened : w.IsOpened ref)
    (h : Showing tx ref events w) :
    let ran := runEvents shard ref events w
    (ran.1 = .ok () → Clocked tx ref ran.2.2)
      ∧ (ref ∈ ran.2.2.natives tx → Clocked tx ref ran.2.2) := by
  induction events generalizing w with
  | nil => exact ⟨fun _ => h.toClocked, fun _ => h.toClocked⟩
  | cons event rest ih =>
    obtain ⟨hok, hmember⟩ := runEvent_clocked shard hopened h
    obtain ⟨hpresented, -⟩ := w.runEvent_heard shard ref event
    have hreached := Nat.lt_of_lt_of_le hopened (hpresented.opened ref.backend)
    rw [runEvents]
    generalize w.runEvent shard ref event = ran at hok hmember hreached
    obtain ⟨answer, event', w₁⟩ := ran
    cases answer with
    | error e => exact ⟨by simp, hmember⟩
    | ok done => exact ih hreached (hok rfl)

/-- The rounds of an attempt. All transactions are heard in the first of them. -/
theorem settle_clocked (hslot : shard.handle < w.slots.length) (hopened : w.IsOpened ref)
    (h : Showing tx ref (w.slot shard).events w) (rounds : Nat) (fired : List OpenEvent) :
    let settled := settle shard ref rounds fired w
    (settled.1 = .ok ref → Clocked tx ref settled.2)
      ∧ (ref ∈ settled.2.natives tx → Clocked tx ref settled.2) := by
  have hpublished := h.toClocked.publish shard
  induction rounds generalizing fired w with
  | zero =>
    rw [settle]
    exact ⟨fun _ => hpublished, fun _ => hpublished⟩
  | succ rounds ih =>
    cases hevents : (w.slot shard).events with
    | nil =>
      rw [settle_of_nil hevents]
      exact ⟨fun _ => hpublished, fun _ => hpublished⟩
    | cons event rest =>
      rw [hevents] at h
      have hemptied : Showing tx ref (event :: rest) (w.withEvents shard []) :=
        ⟨h.toClocked.same (fun _ => rfl) ⟨fun _ => rfl, fun _ => rfl⟩, h.last, h.alone⟩
      obtain ⟨hok, hmember⟩ := runEvents_clocked (w := w.withEvents shard []) shard hopened hemptied
      obtain ⟨-, hwaiting⟩ := runEvents_waiting shard ref (event :: rest) (w.withEvents shard [])
      obtain ⟨hpresented, -⟩ := runEvents_heard shard ref (event :: rest) (w.withEvents shard [])
      have hslots := hpresented.slots
      have hreached := hpresented.opened ref.backend
      have hempty := hwaiting shard
      rw [events_withEvents hslot] at hempty
      rw [settle_of_cons hevents]
      generalize runEvents shard ref (event :: rest) (w.withEvents shard []) = ran
        at hok hmember hempty hslots hreached
      obtain ⟨answer, events, w₁⟩ := ran
      cases answer with
      | error e =>
        have hclose := w₁.reject_within shard ref (fired ++ events) e
        refine ⟨by simp, fun hmem => ?_⟩
        have hmem : ref ∈ (w₁.reject shard ref (fired ++ events) e).natives tx := hmem
        rw [hclose.natives] at hmem
        exact (hmember hmem).same hclose.natives ((w₁.reject_work ..).sameTimeouts rfl)
      | ok done =>
        have hslot₁ : shard.handle < w₁.slots.length :=
          Nat.lt_of_lt_of_eq hslot (hslots.trans List.length_set).symm
        have hdone : waiting (w₁.slot shard).events = [] := hempty
        have hclocked := hok rfl
        refine ih hslot₁ (Nat.lt_of_lt_of_le hopened hreached)
          ⟨hclocked, .of_nil hdone, fun _ other hother => ?_⟩ _ (hclocked.publish shard)
        rw [hdone] at hother
        exact absurd hother List.not_mem_nil

/-! ## The whole attempt -/

/-- After an attempt to connect a handle. The connection that the handle gets, or that joins the last
transaction on its way to be rejected, has the timeout of a transaction that it has joined, and of
the last one if it has joined that. If the attempt failed, the same transactions wait in the same
order. -/
structure Punctual (tx : Nat) (shard : Shard) (w w' : Cluster) : Prop where
  clocked : ∀ ref, w'.connection? shard = some ref ∨ ref ∈ w'.natives tx ∧ ref ∉ w.natives tx →
    Clocked tx ref w'
  requeued : w'.connection? shard = none →
    waiting (w'.slot shard).events = waiting (w.slot shard).events

/-- The connection could not be opened. -/
theorem Punctual.of_within (h : Within [] w w') (hnone : w.connection? shard = none) :
    Punctual tx shard w w' where
  clocked := by
    rintro ref (hconnected | ⟨hmem, hout⟩)
    · rw [h.connection?, hnone] at hconnected
      cases hconnected
    · exact absurd (h.natives tx ▸ hmem) hout
  requeued := fun _ => congrArg (fun slot => waiting slot.events) (h.slot shard)

namespace Dialled

variable {shown : Cluster}

/-- A new connection has joined nothing and has no timeout. -/
theorem showing (h : Dialled shard ref w w')
    (hmembers : ∀ tx, ∀ ref ∈ w.natives tx, w.IsOpened ref) (hlast : Last tx (w.slot shard).events) :
    Showing tx ref (w'.slot shard).events w' := by
  have hout := h.not_mem hmembers tx
  refine ⟨⟨.inl (by rw [h.fresh]; rfl), fun hmem => absurd hmem hout⟩, ?_,
    fun hmem => absurd hmem hout⟩
  rwa [h.within.slot]

/-- All events accepted the connection. -/
theorem punctual_publish (h : Dialled shard ref w w') (hslot : shard.handle < w.slots.length)
    (hshown : Presented shard ref w' shown) (hclocked : Clocked tx ref (shown.publish shard ref)) :
    Punctual tx shard w (shown.publish shard ref) := by
  have hconnected : (shown.publish shard ref).connection? shard = some ref :=
    connection?_publish (by rwa [hshown.slots, h.within.slots]) h.backend
  constructor
  · rintro found (hfound | ⟨hmem, hbefore⟩)
    · obtain rfl := Option.some.inj (hconnected.symm.trans hfound)
      exact hclocked
    · rw [← h.within.natives] at hbefore
      obtain rfl := (hshown.natives_cases hmem).resolve_left hbefore
      exact hclocked
  · intro hunconnected
    rw [hconnected] at hunconnected
    cases hunconnected

/-- An event rejected the connection. -/
theorem punctual_reject (h : Dialled shard ref w w') (hnone : w.connection? shard = none)
    (hshown : Presented shard ref w' shown) {events : List OpenEvent} {reason : ShardError}
    (hclocked : ref ∈ (shown.reject shard ref events reason).natives tx →
      Clocked tx ref (shown.reject shard ref events reason))
    (hwaiting : waiting ((shown.reject shard ref events reason).slot shard).events
      = waiting (w'.slot shard).events) :
    Punctual tx shard w (shown.reject shard ref events reason) := by
  have hclose := shown.reject_within shard ref events reason
  have hunconnected : (shown.reject shard ref events reason).connection? shard = none := by
    rw [hclose.connection?, connection?_withEvents, hshown.connection?, h.within.connection?, hnone]
  constructor
  · rintro found (hfound | ⟨hmem, hbefore⟩)
    · rw [hunconnected] at hfound
      cases hfound
    · have hjoined := hmem
      rw [hclose.natives] at hjoined
      rw [← h.within.natives] at hbefore
      obtain rfl := (hshown.natives_cases hjoined).resolve_left hbefore
      exact hclocked hmem
  · intro _
    rw [hwaiting, h.within.slot]

end Dialled

theorem establish_punctual (hslot : shard.handle < w.slots.length)
    (hbackend : shard.backend < w.backends.length) (hnone : w.connection? shard = none)
    (hmembers : ∀ tx, ∀ ref ∈ w.natives tx, w.IsOpened ref)
    (hlast : Last tx (w.slot shard).events) : Punctual tx shard w (w.establish shard).2 := by
  rcases establish_dialled hbackend hnone with
    ⟨e, w₁, hestablish, hwithin, -⟩ | ⟨ref, w₁, hdialled, hestablish⟩
  · rw [hestablish]
    exact .of_within hwithin hnone
  · have hslot₁ : shard.handle < w₁.slots.length := by rwa [hdialled.within.slots]
    obtain ⟨hok, hmember⟩ := settle_clocked hslot₁ hdialled.opened
      (hdialled.showing hmembers hlast) (w₁.rounds shard) []
    have hwaiting := settle_waiting ref hslot₁ (w₁.rounds shard) []
    rw [hestablish]
    rcases settle_cases ref hslot₁ (w₁.rounds shard) [] fun tx hwaits => rounds_ne_zero hwaits with
      ⟨shown, hshown, -, hsettle⟩ | ⟨shown, events, e, hshown, -, hsettle⟩
    · rw [hsettle] at hok ⊢
      exact hdialled.punctual_publish hslot hshown.toPresented (hok rfl)
    · rw [hsettle] at hmember hwaiting ⊢
      exact hdialled.punctual_reject hnone hshown hmember (hwaiting e rfl)

end Cluster

end ScatterGather
