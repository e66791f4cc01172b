import ScatterGather.Proofs.Cluster.Steady
import ScatterGather.Proofs.Session.Renewal

/-!
# Attempts to connect a handle

What becomes of an attempt to connect a handle, whichever events wait for it and whatever hooks do
in between. If the connection is published, it has joined every transaction that waited and is still
referred to, it is active if one of these is, and no transaction waits on the handle any more. If it
is rejected, the same transactions wait again; some may have the rejected connection among their
members then, since nothing takes it back.
-/

namespace ScatterGather.Cluster

variable {w w' w'' : Cluster} {shard : Shard} {ref : NativeRef} {tx : Nat}

/-- A transaction waits for the connection of a handle. -/
def Waits (w : Cluster) (shard : Shard) (tx : Nat) : Prop :=
  .enlist tx ∈ (w.slot shard).events

/-! ## A connection that is shown to events -/

/-- A connection was shown to events of a handle: some transactions may have got it as a further
member, and the events of the handle may have changed, but nothing else did. -/
structure Presented (shard : Shard) (ref : NativeRef) (w w' : Cluster) : Prop where
  steady : Steady w w'
  sessions : w'.sessions = w.sessions
  slots : w'.slots.length = w.slots.length
  connection? : ∀ other, w'.connection? other = w.connection? other
  events : ∀ other, other.handle ≠ shard.handle → (w'.slot other).events = (w.slot other).events
  transactions : w'.transactions.length = w.transactions.length
  status : ∀ tx, (w'.transaction tx).status = (w.transaction tx).status
  enlisted : ∀ tx, (w'.transaction tx).enlisted = (w.transaction tx).enlisted ∨
    ref ∉ w.natives tx
      ∧ (w'.transaction tx).enlisted = (w.transaction tx).enlisted ++ [⟨shard.physicalId, ref⟩]
  backends : w'.backends.length = w.backends.length
  opened : ∀ i, (w.backend i).connections.length ≤ (w'.backend i).connections.length
  armed : ∀ i call, (w'.backend i).faults.isArmed call = true →
    (w.backend i).faults.isArmed call = true
  others : ∀ other, other ≠ ref → w'.native other = w.native other

namespace Presented

theorem refl (shard : Shard) (ref : NativeRef) (w : Cluster) : Presented shard ref w w :=
  ⟨.refl w, rfl, rfl, fun _ => rfl, fun _ _ => rfl, rfl, fun _ => rfl, fun _ => .inl rfl, rfl,
    fun _ => Nat.le_refl _, fun _ _ h => h, fun _ _ => rfl⟩

theorem of_within (shard : Shard) (h : Within [ref] w w') (hsteady : Steady w w') :
    Presented shard ref w w' where
  steady := hsteady
  sessions := h.sessions
  slots := congrArg List.length h.slots
  connection? := h.connection?
  events := fun other _ => by rw [h.slot]
  transactions := h.transactions
  status := h.status
  enlisted := fun tx => .inl (h.enlisted tx)
  backends := h.backends
  opened := h.opened
  armed := h.armed
  others := fun other hne => h.others other fun hmem => hne (List.mem_singleton.mp hmem)

theorem enlist (shard : Shard) (hnew : ref ∉ w.natives tx) :
    Presented shard ref w (w.enlist tx shard.physicalId ref) where
  steady := (Step.enlist w tx shard.physicalId ref).steady rfl
  sessions := rfl
  slots := rfl
  connection? := fun _ => rfl
  events := fun _ _ => rfl
  transactions := List.length_set
  status := fun _ => status_enlist ..
  enlisted := fun other => by
    rw [enlisted_enlist]
    split
    case isTrue h => exact .inr ⟨h.1 ▸ hnew, rfl⟩
    case isFalse => exact .inl rfl
  backends := rfl
  opened := fun _ => Nat.le_refl _
  armed := fun _ _ h => h
  others := fun _ _ => rfl

theorem withEvents (shard : Shard) (ref : NativeRef) (w : Cluster) (events : List OpenEvent) :
    Presented shard ref w (w.withEvents shard events) where
  steady := (Step.slot w shard { w.slot shard with events := events }).steady rfl
  sessions := rfl
  slots := List.length_set
  connection? := fun other => connection?_withEvents w shard other events
  events := fun _ hne => events_withEvents_ne hne events
  transactions := rfl
  status := fun _ => rfl
  enlisted := fun _ => .inl rfl
  backends := rfl
  opened := fun _ => Nat.le_refl _
  armed := fun _ _ h => h
  others := fun _ _ => rfl

theorem mem_natives (h : Presented shard ref w w') (hmem : ref ∈ w.natives tx) :
    ref ∈ w'.natives tx := by
  rw [natives] at hmem ⊢
  rcases h.enlisted tx with hsame | ⟨-, hjoined⟩
  · rwa [hsame]
  · rw [hjoined, List.map_append]
    exact List.mem_append_left _ hmem

theorem natives_cases (h : Presented shard ref w w') {found : NativeRef}
    (hfound : found ∈ w'.natives tx) : found ∈ w.natives tx ∨ found = ref := by
  rw [natives] at hfound
  rcases h.enlisted tx with hsame | ⟨-, hjoined⟩
  · rw [hsame] at hfound
    exact .inl hfound
  · rw [hjoined, List.map_append, List.mem_append] at hfound
    exact hfound.imp_right List.mem_singleton.mp

theorem trans (h : Presented shard ref w w') (h' : Presented shard ref w' w'') :
    Presented shard ref w w'' where
  steady := h.steady.trans h'.steady
  sessions := h'.sessions.trans h.sessions
  slots := h'.slots.trans h.slots
  connection? := fun other => (h'.connection? other).trans (h.connection? other)
  events := fun other hne => (h'.events other hne).trans (h.events other hne)
  transactions := h'.transactions.trans h.transactions
  status := fun tx => (h'.status tx).trans (h.status tx)
  enlisted := fun tx => by
    -- A connection that joined in the first part does not join again in the second.
    rcases h.enlisted tx with hsame | ⟨hnew, hjoined⟩
    · rcases h'.enlisted tx with hsame' | ⟨hnew', hjoined'⟩
      · exact .inl (hsame'.trans hsame)
      · rw [natives, hsame] at hnew'
        exact .inr ⟨hnew', by rw [hjoined', hsame]⟩
    · rcases h'.enlisted tx with hsame' | ⟨hnew', -⟩
      · exact .inr ⟨hnew, hsame'.trans hjoined⟩
      · rw [natives, hjoined, List.map_append] at hnew'
        exact absurd (List.mem_append_right _ (List.mem_singleton_self ref)) hnew'
  backends := h'.backends.trans h.backends
  opened := fun i => Nat.le_trans (h.opened i) (h'.opened i)
  armed := fun i call harmed => h.armed i call (h'.armed i call harmed)
  others := fun other hne => (h'.others other hne).trans (h.others other hne)

theorem isReferenced (h : Presented shard ref w w') (tx : Nat) :
    w'.isReferenced tx = w.isReferenced tx := by
  rw [Cluster.isReferenced, h.steady.handed, h.sessions, Cluster.isReferenced]

end Presented

/-- A connection was shown to events, among them those of the wanted transactions, and all of them
accepted it. -/
structure Heard (shard : Shard) (ref : NativeRef) (wanted : Nat → Prop) (w w' : Cluster) : Prop
    extends Presented shard ref w w' where
  joined : ∀ tx, wanted tx → tx < w.transactions.length → ref ∈ w'.natives tx
  only : ∀ tx, ref ∈ w'.natives tx → ref ∈ w.natives tx ∨ wanted tx
  begun : (w.native ref).isActive = true ∨ (∃ tx, wanted tx ∧ ref ∉ w.natives tx
    ∧ (w.transaction tx).status = .active) → (w'.native ref).isActive = true
  idle : (∀ tx, wanted tx → (w.transaction tx).status ≠ .active) →
    (w'.native ref).phase = (w.native ref).phase

namespace Heard

variable {wanted more : Nat → Prop}

/-- Nothing is wanted, and the local transaction stays where it is. -/
theorem of_presented (h : Presented shard ref w w') (hwanted : ∀ tx, ¬ wanted tx)
    (hnatives : ∀ tx, w'.natives tx = w.natives tx)
    (hphase : (w'.native ref).phase = (w.native ref).phase) : Heard shard ref wanted w w' where
  toPresented := h
  joined := fun tx htx => absurd htx (hwanted tx)
  only := fun tx hmem => .inl (hnatives tx ▸ hmem)
  begun := by
    rintro (hactive | ⟨tx, htx, -⟩)
    · rwa [Connection.isActive, hphase]
    · exact absurd htx (hwanted tx)
  idle := fun _ => hphase

theorem refl (shard : Shard) (ref : NativeRef) (w : Cluster) (hwanted : ∀ tx, ¬ wanted tx) :
    Heard shard ref wanted w w :=
  .of_presented (.refl shard ref w) hwanted (fun _ => rfl) rfl

theorem congr (h : Heard shard ref wanted w w') (hsame : ∀ tx, wanted tx ↔ more tx) :
    Heard shard ref more w w' where
  toPresented := h.toPresented
  joined := fun tx htx => h.joined tx ((hsame tx).mpr htx)
  only := fun tx hmem => (h.only tx hmem).imp_right (hsame tx).mp
  begun := fun hwhy => h.begun <| hwhy.imp_right fun ⟨tx, htx, hrest⟩ =>
    ⟨tx, (hsame tx).mpr htx, hrest⟩
  idle := fun hwhy => h.idle fun tx htx => hwhy tx ((hsame tx).mp htx)

theorem trans (h : Heard shard ref wanted w w') (h' : Heard shard ref more w' w'') :
    Heard shard ref (fun tx => wanted tx ∨ more tx) w w'' where
  toPresented := h.toPresented.trans h'.toPresented
  joined := fun tx htx hknown => by
    rcases htx with htx | htx
    · exact h'.mem_natives (h.joined tx htx hknown)
    · exact h'.joined tx htx (h.transactions ▸ hknown)
  only := fun tx hmem => by
    rcases h'.only tx hmem with hmem | htx
    · exact (h.only tx hmem).imp_right .inl
    · exact .inr (.inr htx)
  begun := by
    rintro (hactive | ⟨tx, htx | htx, hnew, hstatus⟩)
    · exact h'.begun (.inl (h.begun (.inl hactive)))
    · exact h'.begun (.inl (h.begun (.inr ⟨tx, htx, hnew, hstatus⟩)))
    · by_cases hjoined : ref ∈ w'.natives tx
      · have hwanted := (h.only tx hjoined).resolve_left hnew
        exact h'.begun (.inl (h.begun (.inr ⟨tx, hwanted, hnew, hstatus⟩)))
      · exact h'.begun (.inr ⟨tx, htx, hjoined, (h.status tx).trans hstatus⟩)
  idle := fun hnone => by
    rw [h'.idle fun tx htx => (h.status tx).symm ▸ hnone tx (.inr htx),
      h.idle fun tx htx => hnone tx (.inl htx)]

end Heard

/-! ## One event -/

theorem runHook_phase (w : Cluster) (shard : Shard) (ref : NativeRef) (hook : Hook) :
    ((w.runHook shard ref hook).2.2.native ref).phase = (w.native ref).phase := by
  obtain ⟨tag, rejects, key, children, runs⟩ := hook
  unfold runHook
  simp only
  generalize hw₁ : record w _ = w₁
  have hnative : w₁.native ref = w.native ref := hw₁ ▸ rfl
  cases key with
  | none => exact congrArg Connection.phase hnative
  | some key =>
    simp only
    rw [← hnative]
    rcases w₁.writeNative_cases ref key (some (.string tag)) with
      ⟨w₂, hwrite, hwithin, -⟩ | ⟨w₂, hwrite, -, -, -, hnative₂⟩ | ⟨w₂, hwrite, -, hwithin⟩
    · rw [hwrite]
      exact congrArg Connection.phase (hwithin.others ref List.not_mem_nil)
    · rw [hwrite]
      have hkept : (w₂.native ref).phase = (w₁.native ref).phase := by rw [hnative₂]
      exact hkept
    · rw [hwrite]
      exact congrArg Connection.phase (hwithin.others ref List.not_mem_nil)

/-- The transactions that an event stands for: the one it enlists a connection in, if that is still
referred to. -/
def Stands (w : Cluster) (events : List OpenEvent) (tx : Nat) : Prop :=
  .enlist tx ∈ events ∧ w.isReferenced tx = true

theorem joinLate_heard (w : Cluster) (tx : Nat) (shard : Shard) (ref : NativeRef) :
    Presented shard ref w (w.joinLate tx shard.physicalId ref).2
      ∧ (w.joinLate tx shard.physicalId ref).2.slots = w.slots
      ∧ ((w.joinLate tx shard.physicalId ref).1 = .ok () →
        Heard shard ref (· = tx) w (w.joinLate tx shard.physicalId ref).2) := by
  have hsteady := (w.joinLate_work tx shard.physicalId ref).steady rfl
  rcases w.joinLate_cases tx shard.physicalId ref with
    ⟨hmem, hjoin⟩ | ⟨hnew, w₁, hwithin, -, hjoin⟩
  · -- It has joined before, and nothing is left to do.
    rw [hjoin]
    refine ⟨.refl shard ref w, rfl,
      fun _ => ⟨.refl shard ref w, ?_, fun _ => .inl, ?_, fun _ => rfl⟩⟩
    · rintro _ rfl -
      exact hmem
    · rintro (hactive | ⟨_, rfl, hnew, -⟩)
      · exact hactive
      · exact absurd hmem hnew
  · have hnew₁ : ref ∉ w₁.natives tx := by rwa [hwithin.natives]
    -- What joining brings about once the local transaction is ready.
    have henlist : Steady w (w₁.enlist tx shard.physicalId ref) →
        Presented shard ref w (w₁.enlist tx shard.physicalId ref)
          ∧ (∀ other, other = tx → other < w.transactions.length →
            ref ∈ (w₁.enlist tx shard.physicalId ref).natives other)
          ∧ ∀ other, ref ∈ (w₁.enlist tx shard.physicalId ref).natives other →
            ref ∈ w.natives other ∨ other = tx := by
      intro hsteady
      have hpresented : Presented shard ref w w₁ :=
        .of_within shard hwithin ⟨hsteady.handed, hsteady.closed⟩
      refine ⟨hpresented.trans (.enlist shard hnew₁), ?_, fun other hmem => ?_⟩
      · rintro other rfl hknown
        rw [natives_enlist_self (hwithin.transactions ▸ hknown)]
        exact List.mem_append_right _ (List.mem_singleton_self ref)
      · by_cases heq : other = tx
        · exact .inr heq
        · rw [natives_enlist_ne (Ne.symm heq), hwithin.natives] at hmem
          exact .inl hmem
    rcases hjoin with ⟨hstatus, hjoin, hwork⟩ | ⟨hstatus, hjoin, hactive, -⟩ | ⟨hstatus, e, hjoin⟩
    · rw [hjoin] at hsteady ⊢
      obtain ⟨hpresented, hjoined, honly⟩ := henlist hsteady
      refine ⟨hpresented, hwithin.slots, fun _ => ⟨hpresented, hjoined, honly, ?_, ?_⟩⟩
      · rintro (hactive | ⟨_, rfl, -, hactive⟩)
        · exact (hwork.isActive ref).trans hactive
        · exact absurd hactive hstatus
      · exact fun _ => (hwork ref).1
    · rw [hjoin] at hsteady ⊢
      obtain ⟨hpresented, hjoined, honly⟩ := henlist hsteady
      exact ⟨hpresented, hwithin.slots, fun _ => ⟨hpresented, hjoined, honly, fun _ => hactive,
        fun hnone => absurd hstatus (hnone tx rfl)⟩⟩
    · rw [hjoin] at hsteady ⊢
      exact ⟨.of_within shard hwithin hsteady, hwithin.slots, nofun⟩

/-- An event is shown the connection. A hook queues only further hooks, so the same transactions
wait as before. -/
theorem runEvent_heard (w : Cluster) (shard : Shard) (ref : NativeRef) (event : OpenEvent) :
    let ran := w.runEvent shard ref event
    Presented shard ref w ran.2.2
      ∧ (∀ tx, ran.2.1 = .enlist tx ↔ event = .enlist tx)
      ∧ (∀ tx, ran.2.2.Waits shard tx ↔ w.Waits shard tx)
      ∧ (ran.1 = .ok () → Heard shard ref (w.Stands [event]) w ran.2.2) := by
  cases event with
  | enlist tx =>
    have hstands : ∀ {other}, w.Stands [.enlist tx] other ↔
        other = tx ∧ w.isReferenced tx = true := by
      intro other
      simp only [Stands, List.mem_singleton, OpenEvent.enlist.injEq]
      exact ⟨fun h => ⟨h.1, h.1 ▸ h.2⟩, fun h => ⟨h.1, h.1 ▸ h.2⟩⟩
    by_cases hreferenced : w.isReferenced tx = true
    · rw [runEvent_of_referenced hreferenced]
      obtain ⟨hpresented, hslots, hheard⟩ := w.joinLate_heard tx shard ref
      refine ⟨hpresented, fun _ => .rfl, fun other => ?_,
        fun hok => (hheard hok).congr fun other => ?_⟩
      · rw [Waits, slot, hslots]
        exact .rfl
      · rw [hstands]
        exact ⟨fun heq => ⟨heq, hreferenced⟩, fun h => h.1⟩
    · rw [runEvent_of_unreferenced hreferenced]
      refine ⟨.refl shard ref w, fun _ => .rfl, fun _ => .rfl, fun _ => .refl shard ref w ?_⟩
      exact fun other hother => hreferenced (hstands.mp hother).2
  | hook hook =>
    have hsteady := (w.runHook_work shard ref hook).steady rfl
    have hphase := w.runHook_phase shard ref hook
    obtain ⟨answer, hook', w₁, children, hrun, hwithin, -⟩ := w.runHook_cases shard ref hook
    rw [hrun] at hsteady hphase
    have hpresented : Presented shard ref w
        (w₁.withEvents shard ((w₁.slot shard).events ++ children.map .hook)) :=
      (Presented.of_within shard hwithin ⟨hsteady.handed, hsteady.closed⟩).trans
        (.withEvents shard ref w₁ _)
    rw [runEvent, hrun]
    have hnone : ∀ tx, ¬ w.Stands [.hook hook] tx := fun tx htx => by
      cases List.mem_singleton.mp htx.1
    refine ⟨hpresented, fun tx => ?_, fun tx => ⟨fun hwaits => ?_, fun hwaits => ?_⟩,
      fun _ => .of_presented hpresented hnone hwithin.natives hphase⟩
    · simp only [reduceCtorEq]
    · rw [Waits, ← hwithin.slot]
      rcases mem_events_withEvents hwaits with hold | ⟨-, hnew⟩
      · exact hold
      · rcases List.mem_append.mp hnew with hold | hchild
        · exact hold
        · obtain ⟨child, -, hchild⟩ := List.mem_map.mp hchild
          cases hchild
    · rw [Waits, ← hwithin.slot] at hwaits
      exact mem_events_withEvents_append _ hwaits

/-! ## All events -/

theorem runEvents_heard (shard : Shard) (ref : NativeRef) (events : List OpenEvent) (w : Cluster) :
    let ran := runEvents shard ref events w
    Presented shard ref w ran.2.2
      ∧ (∀ tx, .enlist tx ∈ ran.2.1 ↔ .enlist tx ∈ events)
      ∧ (∀ tx, ran.2.2.Waits shard tx ↔ w.Waits shard tx)
      ∧ (ran.1 = .ok () → Heard shard ref (w.Stands events) w ran.2.2) := by
  induction events generalizing w with
  | nil =>
    exact ⟨.refl shard ref w, fun _ => .rfl, fun _ => .rfl,
      fun _ => .refl shard ref w fun tx htx => absurd htx.1 List.not_mem_nil⟩
  | cons event rest ih =>
    obtain ⟨hpresented, hsame, hwaits, hheard⟩ := w.runEvent_heard shard ref event
    rw [runEvents]
    generalize w.runEvent shard ref event = ran at hpresented hsame hwaits hheard
    obtain ⟨answer, event', w₁⟩ := ran
    have hhead : ∀ {tail tail' : List OpenEvent} {tx : Nat},
        (.enlist tx ∈ tail' ↔ .enlist tx ∈ tail) →
          (.enlist tx ∈ event' :: tail' ↔ .enlist tx ∈ event :: tail) := by
      intro tail tail' tx htail
      rw [List.mem_cons, List.mem_cons, htail, eq_comm, hsame, eq_comm]
    cases answer with
    | error e =>
      refine ⟨hpresented, fun tx => hhead .rfl, hwaits, fun hok => ?_⟩
      cases hok
    | ok done =>
      obtain ⟨hrest, hrestSame, hrestWaits, hrestHeard⟩ := ih w₁
      refine ⟨hpresented.trans hrest, fun tx => hhead (hrestSame tx),
        fun tx => (hrestWaits tx).trans (hwaits tx),
        fun hok => ((hheard rfl).trans (hrestHeard hok)).congr fun tx => ?_⟩
      simp only [Stands, hpresented.isReferenced, List.mem_cons, List.not_mem_nil, or_false,
        or_and_right]

/-- The rounds of an attempt. Hooks register only hooks, so the transactions that wait are all heard
in the first round. -/
theorem settle_cases (ref : NativeRef) (hslot : shard.handle < w.slots.length) (rounds : Nat)
    (fired : List OpenEvent) (hrounds : ∀ tx, w.Waits shard tx → rounds ≠ 0) :
    (∃ shown, Heard shard ref (w.Stands (w.slot shard).events) w shown
      ∧ (∀ tx, ¬ shown.Waits shard tx)
      ∧ settle shard ref rounds fired w = (.ok ref, shown.publish shard ref)) ∨
    ∃ shown events e, Presented shard ref w shown
      ∧ (∀ tx, .enlist tx ∈ events ++ (shown.slot shard).events ↔
        .enlist tx ∈ fired ∨ w.Waits shard tx)
      ∧ settle shard ref rounds fired w = (.error e, shown.reject shard ref events e) := by
  induction rounds generalizing w fired with
  | zero =>
    have hnone : ∀ tx, ¬ w.Waits shard tx := fun tx hwaits => hrounds tx hwaits rfl
    exact .inl ⟨w, .refl shard ref w fun tx htx => hnone tx htx.1, hnone, by rw [settle]⟩
  | succ rounds ih =>
    cases hevents : (w.slot shard).events with
    | nil =>
      have hnone : ∀ tx, ¬ w.Waits shard tx := by
        intro tx hwaits
        rw [Waits, hevents] at hwaits
        exact absurd hwaits List.not_mem_nil
      refine .inl ⟨w, .refl shard ref w fun tx htx => ?_, hnone, settle_of_nil hevents ..⟩
      exact absurd htx.1 List.not_mem_nil
    | cons event rest =>
      obtain ⟨hran, hsame, hleft, hheard⟩ :=
        runEvents_heard shard ref (event :: rest) (w.withEvents shard [])
      have hemptied := Presented.withEvents shard ref w []
      rw [settle_of_cons hevents]
      generalize runEvents shard ref (event :: rest) (w.withEvents shard []) = ran
        at hran hsame hleft hheard
      obtain ⟨answer, events, w₁⟩ := ran
      have hnone : ∀ tx, ¬ w₁.Waits shard tx := by
        intro tx hwaits
        have hwaits := (hleft tx).mp hwaits
        rw [Waits, events_withEvents hslot] at hwaits
        exact absurd hwaits List.not_mem_nil
      have hwaited : ∀ tx, .enlist tx ∈ events ↔ w.Waits shard tx := by
        intro tx
        rw [hsame, Waits, hevents]
      cases answer with
      | error e =>
        refine .inr ⟨w₁, fired ++ events, e, hemptied.trans hran, fun tx => ?_, rfl⟩
        rw [List.mem_append, List.mem_append, hwaited]
        exact or_iff_left (hnone tx)
      | ok done =>
        have hquiet : Heard shard ref (fun _ => False) w (w.withEvents shard []) :=
          .of_presented hemptied (fun _ => id) (fun _ => rfl) rfl
        have hfirst : Heard shard ref (w.Stands (event :: rest)) w w₁ :=
          (hquiet.trans (hheard rfl)).congr fun tx => ⟨fun h => h.resolve_left id, .inr⟩
        have hslot₁ : shard.handle < w₁.slots.length :=
          Nat.lt_of_lt_of_eq hslot hfirst.slots.symm
        rcases ih hslot₁ (fired ++ events) fun tx hwaits => absurd hwaits (hnone tx) with
          ⟨shown, hshown, hafter, hsettle⟩ | ⟨shown, requeued, e, hshown, hafter, hsettle⟩
        · refine .inl ⟨shown, (hfirst.trans hshown).congr fun tx => ?_, hafter, hsettle⟩
          exact or_iff_left fun htx => hnone tx htx.1
        · refine .inr ⟨shown, requeued, e, hfirst.toPresented.trans hshown, fun tx => ?_, hsettle⟩
          rw [hafter, List.mem_append, hwaited, or_iff_left (hnone tx)]

/-! ## The whole attempt -/

/-- What an attempt to connect a handle leaves alone, whatever comes of it: other handles, statuses
and the connections that there were. -/
structure Attempt (shard : Shard) (w w' : Cluster) : Prop where
  handed : w'.handed = w.handed
  sessions : w'.sessions = w.sessions
  slots : w'.slots.length = w.slots.length
  connections : ∀ other, other.handle ≠ shard.handle → w'.connection? other = w.connection? other
  events : ∀ other, other.handle ≠ shard.handle → (w'.slot other).events = (w.slot other).events
  transactions : w'.transactions.length = w.transactions.length
  status : ∀ tx, (w'.transaction tx).status = (w.transaction tx).status
  backends : w'.backends.length = w.backends.length
  opened : ∀ i, (w.backend i).connections.length ≤ (w'.backend i).connections.length
  armed : ∀ i call, (w'.backend i).faults.isArmed call = true →
    (w.backend i).faults.isArmed call = true
  others : ∀ ref, w.IsOpened ref → w'.native ref = w.native ref

/-- The attempt gave the handle a connection, and every event that waited has heard of it. -/
structure Attached (shard : Shard) (ref : NativeRef) (w w' : Cluster) : Prop
    extends Attempt shard w w' where
  backend : ref.backend = shard.backend
  new : ¬ w.IsOpened ref
  reached : w'.IsOpened ref
  connected : w'.connection? shard = some ref
  drained : ∀ tx, ¬ w'.Waits shard tx
  unclosed : (w'.native ref).closed = false
  joined : ∀ tx, w.Stands (w.slot shard).events tx → tx < w.transactions.length →
    (w'.transaction tx).enlisted = (w.transaction tx).enlisted ++ [⟨shard.physicalId, ref⟩]
  apart : ∀ tx, ¬ w.Stands (w.slot shard).events tx →
    (w'.transaction tx).enlisted = (w.transaction tx).enlisted
  begun : (∃ tx, w.Stands (w.slot shard).events tx ∧ (w.transaction tx).status = .active) →
    (w'.native ref).isActive = true
  idle : (∀ tx, w.Stands (w.slot shard).events tx → (w.transaction tx).status ≠ .active) →
    (w'.native ref).phase = .idle
  /-- All this was so before the connection was published. -/
  last : ∃ shown : Cluster, w' = shown.publish shard ref ∧ shown.connection? shard = none

/-- The attempt failed: the handle is as it was, with the same transactions waiting, but a rejected
connection may have stayed behind among the members of some transactions. -/
structure TurnedDown (shard : Shard) (w w' : Cluster) : Prop extends Attempt shard w w' where
  unconnected : w'.connection? shard = none
  waits : ∀ tx, w'.Waits shard tx ↔ w.Waits shard tx
  enlisted : ∀ tx, (w'.transaction tx).enlisted = (w.transaction tx).enlisted ∨
    ∃ ref, ref.backend = shard.backend ∧ ¬ w.IsOpened ref ∧ w'.IsOpened ref
      ∧ (w'.transaction tx).enlisted = (w.transaction tx).enlisted ++ [⟨shard.physicalId, ref⟩]
      ∧ ((w.backend ref.backend).faults.closing = false → (w'.native ref).closed = true)

theorem Attached.enlisted_cases (h : Attached shard ref w w') (tx : Nat) :
    (w'.transaction tx).enlisted = (w.transaction tx).enlisted ∨
      (w'.transaction tx).enlisted = (w.transaction tx).enlisted ++ [⟨shard.physicalId, ref⟩] := by
  by_cases hstands : w.Stands (w.slot shard).events tx
  · rcases Nat.lt_or_ge tx w.transactions.length with hlt | hge
    · exact .inr (h.joined tx hstands hlt)
    · refine .inl ?_
      rw [enlisted_of_ge hge, enlisted_of_ge (h.transactions ▸ hge)]
  · exact .inl (h.apart tx hstands)

theorem Attached.natives_cases (h : Attached shard ref w w') {found : NativeRef}
    (hfound : found ∈ w'.natives tx) : found ∈ w.natives tx ∨ found = ref := by
  rcases h.enlisted_cases tx with hsame | hjoined
  · rw [natives, hsame] at hfound
    exact .inl hfound
  · rw [natives, hjoined, List.map_append, List.mem_append] at hfound
    exact hfound.imp_right List.mem_singleton.mp

theorem TurnedDown.natives_cases (h : TurnedDown shard w w') {found : NativeRef}
    (hfound : found ∈ w'.natives tx) :
    found ∈ w.natives tx ∨ ¬ w.IsOpened found ∧ w'.IsOpened found := by
  rcases h.enlisted tx with hsame | ⟨ref, -, hnew, hreached, hjoined, -⟩
  · rw [natives, hsame] at hfound
    exact .inl hfound
  · rw [natives, hjoined, List.map_append, List.mem_append] at hfound
    refine hfound.imp_right fun hlast => ?_
    rw [List.mem_singleton.mp hlast]
    exact ⟨hnew, hreached⟩

/-- Without an armed fault a close takes effect. -/
theorem closeNative_closed (hopened : w.IsOpened ref)
    (hquiet : (w.backend ref.backend).faults.closing = false) :
    ((w.closeNative ref).2.native ref).closed = true := by
  have hlt : ref.connection < (w.backend ref.backend).connections.length := hopened
  have hfound := List.getElem?_eq_getElem hlt
  generalize (w.backend ref.backend).connections[ref.connection] = c at hfound
  have hfound : (w.backend ref.backend).connection? ref.connection = some c := hfound
  rw [native_eq, closeNative, backend_callBackend, if_pos ⟨rfl, lt_of_connection? hfound⟩,
    Backend.close, hfound]
  simp only [hquiet, Bool.false_eq_true, if_false]
  split
  case isTrue hclosed => rwa [Backend.connection_eq hfound]
  case isFalse =>
    have hset : ((w.backend ref.backend).setConnection ref.connection
        { c with closed := true }).connection? ref.connection = some { c with closed := true } :=
      Backend.connection?_set rfl hfound
    exact congrArg Connection.closed (Backend.connection_eq hset)

/-- So a connection that is rejected is closed. -/
theorem reject_closed (hopened : w.IsOpened ref)
    (hquiet : (w.backend ref.backend).faults.closing = false) (shard : Shard)
    (events : List OpenEvent) (reason : ShardError) :
    ((w.reject shard ref events reason).native ref).closed = true := by
  unfold Cluster.reject
  simp only
  generalize hw₁ : (report .warn _ w).setSlot shard _ = w₁
  have hbackends : w₁.backends = w.backends := hw₁ ▸ rfl
  have hclosed : ((w₁.closeNative ref).2.native ref).closed = true := by
    refine closeNative_closed ?_ ?_
    · rwa [IsOpened, Cluster.backend, hbackends]
    · rwa [Cluster.backend, hbackends]
  generalize w₁.closeNative ref = closed at hclosed
  obtain ⟨answer, w₂⟩ := closed
  cases answer with
  | ok done => exact hclosed
  | error close => exact hclosed

namespace Attempt

theorem of_within (shard : Shard) (h : Within [] w w') (hhanded : w'.handed = w.handed) :
    Attempt shard w w' where
  handed := hhanded
  sessions := h.sessions
  slots := congrArg List.length h.slots
  connections := fun other _ => h.connection? other
  events := fun other _ => by rw [h.slot]
  transactions := h.transactions
  status := h.status
  backends := h.backends
  opened := h.opened
  armed := h.armed
  others := fun ref _ => h.others ref List.not_mem_nil

theorem presented (h : Attempt shard w w') (hnew : ¬ w.IsOpened ref)
    (hpresented : Presented shard ref w' w'') : Attempt shard w w'' where
  handed := hpresented.steady.handed.trans h.handed
  sessions := hpresented.sessions.trans h.sessions
  slots := hpresented.slots.trans h.slots
  connections := fun other hne => (hpresented.connection? other).trans (h.connections other hne)
  events := fun other hne => (hpresented.events other hne).trans (h.events other hne)
  transactions := hpresented.transactions.trans h.transactions
  status := fun tx => (hpresented.status tx).trans (h.status tx)
  backends := hpresented.backends.trans h.backends
  opened := fun i => Nat.le_trans (h.opened i) (hpresented.opened i)
  armed := fun i call harmed => h.armed i call (hpresented.armed i call harmed)
  others := fun other hopened => by
    have hne : other ≠ ref := fun heq => hnew (heq ▸ hopened)
    rw [hpresented.others other hne, h.others other hopened]

theorem publish (h : Attempt shard w w') (ref : NativeRef) :
    Attempt shard w (w'.publish shard ref) where
  handed := h.handed
  sessions := h.sessions
  slots := List.length_set.trans h.slots
  connections := fun other hne => (connection?_publish_ne hne ref).trans (h.connections other hne)
  events := fun other hne => (events_publish w' shard other ref).trans (h.events other hne)
  transactions := h.transactions
  status := h.status
  backends := h.backends
  opened := h.opened
  armed := h.armed
  others := h.others

theorem reject (h : Attempt shard w w') (hnew : ¬ w.IsOpened ref) (events : List OpenEvent)
    (reason : ShardError) : Attempt shard w (w'.reject shard ref events reason) := by
  have hclose := w'.reject_within shard ref events reason
  have hhanded := (w'.reject_work shard ref events reason).handed_eq rfl
  have hevents := h.presented hnew
    (.withEvents shard ref w' (events ++ (w'.slot shard).events))
  exact
    { handed := hhanded.trans h.handed
      sessions := hclose.sessions.trans hevents.sessions
      slots := (congrArg List.length hclose.slots).trans hevents.slots
      connections := fun other hne =>
        (hclose.connection? other).trans (hevents.connections other hne)
      events := fun other hne => by rw [hclose.slot, hevents.events other hne]
      transactions := hclose.transactions.trans hevents.transactions
      status := fun tx => (hclose.status tx).trans (hevents.status tx)
      backends := hclose.backends.trans hevents.backends
      opened := fun i => Nat.le_trans (hevents.opened i) (hclose.opened i)
      armed := fun i call harmed => hevents.armed i call (hclose.armed i call harmed)
      others := fun other hopened => by
        have hne : other ≠ ref := fun heq => hnew (heq ▸ hopened)
        rw [hclose.others other fun hmem => hne (List.mem_singleton.mp hmem),
          hevents.others other hopened] }

end Attempt

/-- A connection was opened for a handle, and nothing else happened yet. -/
structure Dialled (shard : Shard) (ref : NativeRef) (w w' : Cluster) : Prop where
  within : Within [] w w'
  handed : w'.handed = w.handed
  backend : ref.backend = shard.backend
  new : ¬ w.IsOpened ref
  opened : w'.IsOpened ref
  fresh : w'.native ref = .fresh

namespace Dialled

variable {shown : Cluster}

theorem attempt (h : Dialled shard ref w w') : Attempt shard w w' :=
  .of_within shard h.within h.handed

theorem waits (h : Dialled shard ref w w') (tx : Nat) : w'.Waits shard tx ↔ w.Waits shard tx := by
  rw [Waits, h.within.slot, Waits]

theorem stands (h : Dialled shard ref w w') (tx : Nat) :
    w'.Stands (w'.slot shard).events tx ↔ w.Stands (w.slot shard).events tx := by
  rw [Stands, h.within.slot, isReferenced, h.handed, h.within.sessions, Stands, isReferenced]

theorem not_mem (h : Dialled shard ref w w') (hmembers : ∀ tx, ∀ ref ∈ w.natives tx, w.IsOpened ref)
    (tx : Nat) : ref ∉ w'.natives tx := by
  rw [h.within.natives]
  exact fun hmem => h.new (hmembers tx ref hmem)

/-- The connection is published after every event accepted it. -/
theorem attached (h : Dialled shard ref w w') (hslot : shard.handle < w.slots.length)
    (hnone : w.connection? shard = none) (hmembers : ∀ tx, ∀ ref ∈ w.natives tx, w.IsOpened ref)
    (hshown : Heard shard ref (w'.Stands (w'.slot shard).events) w' shown)
    (hdrained : ∀ tx, ¬ shown.Waits shard tx) :
    Attached shard ref w (shown.publish shard ref) where
  toAttempt := (h.attempt.presented h.new hshown.toPresented).publish ref
  backend := h.backend
  new := h.new
  reached := Nat.lt_of_lt_of_le h.opened (hshown.opened ref.backend)
  connected := by
    refine connection?_publish ?_ h.backend
    rwa [hshown.slots, h.within.slots]
  drained := fun tx hwaits => by
    rw [Waits, events_publish] at hwaits
    exact hdrained tx hwaits
  unclosed := by
    rw [show (shown.publish shard ref).native ref = shown.native ref from rfl, hshown.steady.closed,
      h.fresh]
    rfl
  joined := fun tx hstands hknown => by
    have hmem := hshown.joined tx ((h.stands tx).mpr hstands) (h.within.transactions ▸ hknown)
    rcases hshown.enlisted tx with hsame | ⟨-, hjoined⟩
    · rw [natives, hsame] at hmem
      exact absurd hmem (h.not_mem hmembers tx)
    · exact hjoined.trans (by rw [h.within.enlisted])
  apart := fun tx hnot => by
    rcases hshown.enlisted tx with hsame | ⟨-, hjoined⟩
    · exact hsame.trans (h.within.enlisted tx)
    · have hmem : ref ∈ shown.natives tx := by
        rw [natives, hjoined, List.map_append]
        exact List.mem_append_right _ (List.mem_singleton_self ref)
      rcases hshown.only tx hmem with hold | hstands
      · exact absurd hold (h.not_mem hmembers tx)
      · exact absurd ((h.stands tx).mp hstands) hnot
  begun := by
    rintro ⟨tx, hstands, hstatus⟩
    refine hshown.begun (.inr ⟨tx, (h.stands tx).mpr hstands, h.not_mem hmembers tx, ?_⟩)
    rw [h.within.status, hstatus]
  idle := fun hnone => by
    have hphase := hshown.idle fun tx hstands => by
      rw [h.within.status]
      exact hnone tx ((h.stands tx).mp hstands)
    rw [h.fresh] at hphase
    exact hphase
  last := ⟨shown, rfl, by rw [hshown.connection?, h.within.connection?, hnone]⟩

/-- The connection is rejected, and the events wait again. -/
theorem refused (h : Dialled shard ref w w') (hslot : shard.handle < w.slots.length)
    (hnone : w.connection? shard = none) (hshown : Presented shard ref w' shown)
    {events : List OpenEvent} (hrequeued : ∀ tx,
      .enlist tx ∈ events ++ (shown.slot shard).events ↔ w'.Waits shard tx)
    (reason : ShardError) : TurnedDown shard w (shown.reject shard ref events reason) := by
  have hclose := shown.reject_within shard ref events reason
  have hopened : shown.IsOpened ref := Nat.lt_of_lt_of_le h.opened (hshown.opened ref.backend)
  refine ⟨(h.attempt.presented h.new hshown).reject h.new events reason, ?_, fun tx => ?_,
    fun tx => ?_⟩
  · rw [hclose.connection?, connection?_withEvents, hshown.connection?, h.within.connection?, hnone]
  · have hslot' : shard.handle < shown.slots.length := by rwa [hshown.slots, h.within.slots]
    rw [Waits, hclose.slot, events_withEvents hslot', hrequeued, h.waits]
  · rcases hshown.enlisted tx with hsame | ⟨-, hjoined⟩
    · exact .inl ((hclose.enlisted tx).trans (hsame.trans (h.within.enlisted tx)))
    · refine .inr ⟨ref, h.backend, h.new, hclose.isOpened hopened,
        (hclose.enlisted tx).trans (hjoined.trans (by rw [h.within.enlisted])), fun hquiet => ?_⟩
      refine reject_closed hopened (Bool.eq_false_iff.mpr fun harmed => ?_) shard events reason
      have hbefore := h.within.armed _ .closing (hshown.armed _ .closing harmed)
      exact Bool.false_ne_true (hquiet.symm.trans hbefore)

end Dialled

/-- An attempt to connect a handle that has no connection. The backend refuses to open one, or one is
opened and shown to the events that wait. -/
theorem establish_dialled (hbackend : shard.backend < w.backends.length)
    (hnone : w.connection? shard = none) :
    (∃ e w', w.establish shard = (.error e, w') ∧ Within [] w w' ∧ w'.handed = w.handed) ∨
      ∃ ref w', Dialled shard ref w w'
        ∧ w.establish shard = settle shard ref (w'.rounds shard) [] w' := by
  have hhanded := (Step.connect w shard.backend).handed_eq rfl
  unfold establish
  rw [hnone]
  rcases w.openConnection_cases shard.backend hbackend with
    ⟨reason, w₁, hopen, hwithin, -⟩ | ⟨n, w₁, hopen, hwithin, -, hnew, hopened, hfresh⟩
  · rw [hopen] at hhanded ⊢
    exact .inl ⟨_, w₁, rfl, hwithin, hhanded⟩
  · rw [hopen] at hhanded ⊢
    exact .inr ⟨⟨shard.backend, n⟩, report .info ("open session on shard " ++ shard.label) w₁,
      ⟨hwithin.report .., hhanded, rfl, hnew, hopened, hfresh⟩, rfl⟩

/-- An attempt to connect a handle that has no connection gives it one, or fails. -/
theorem establish_attempt (hslot : shard.handle < w.slots.length)
    (hbackend : shard.backend < w.backends.length) (hnone : w.connection? shard = none)
    (hmembers : ∀ tx, ∀ ref ∈ w.natives tx, w.IsOpened ref) :
    (∃ ref w', w.establish shard = (.ok ref, w') ∧ Attached shard ref w w') ∨
      ∃ e w', w.establish shard = (.error e, w') ∧ TurnedDown shard w w' := by
  rcases establish_dialled hbackend hnone with
    ⟨e, w₁, hestablish, hwithin, hhanded⟩ | ⟨ref, w₁, hdialled, hestablish⟩
  · refine .inr ⟨e, w₁, hestablish, .of_within shard hwithin hhanded, ?_, fun tx => ?_,
      fun tx => .inl (hwithin.enlisted tx)⟩
    · rw [hwithin.connection?, hnone]
    · rw [Waits, hwithin.slot, Waits]
  · rw [hestablish]
    have hslot₁ : shard.handle < w₁.slots.length := by rwa [hdialled.within.slots]
    rcases settle_cases ref hslot₁ (w₁.rounds shard) [] fun tx hwaits => rounds_ne_zero hwaits with
      ⟨shown, hshown, hdrained, hsettle⟩ | ⟨shown, events, e, hshown, hrequeued, hsettle⟩
    · exact .inl ⟨_, _, hsettle, hdialled.attached hslot hnone hmembers hshown hdrained⟩
    · have hwaiting := fun tx => (hrequeued tx).trans (or_iff_right List.not_mem_nil)
      exact .inr ⟨e, _, hsettle, hdialled.refused hslot hnone hshown hwaiting e⟩

end ScatterGather.Cluster
