import ScatterGather.Proofs.Session.Guarded

/-!
# Connecting a handle

While a handle is being connected, its connection is shown to the waiting events. The event of the
current transaction is among them, so that the connection has joined before it is published; where
an event rejects the connection, that event waits again together with all others.
-/

namespace ScatterGather.Cluster

variable {w w' w'' : Cluster} {number : Nat} {session : Session} {shard : Shard} {ref : NativeRef}
variable {tx : Nat}

/-! ## One event -/

/-- A connection joins a transaction that it has not joined yet: at once where that is not active,
else after a begin, which may fail. -/
theorem joinLate_cases (w : Cluster) (tx : Nat) (id : ShardId) (ref : NativeRef) :
    (ref ∈ w.natives tx ∧ w.joinLate tx id ref = (.ok (), w)) ∨
    ref ∉ w.natives tx ∧ ∃ w', Within [ref] w w' ∧ SameStores w w' ∧
      (((w.transaction tx).status ≠ .active ∧ w.joinLate tx id ref = (.ok (), w'.enlist tx id ref)
        ∧ SameWork w w') ∨
      ((w.transaction tx).status = .active ∧ w.joinLate tx id ref = (.ok (), w'.enlist tx id ref)
        ∧ (w'.native ref).isActive = true ∧ (w'.native ref).staged = ∅) ∨
      ((w.transaction tx).status = .active ∧ ∃ e, w.joinLate tx id ref = (.error e, w'))) := by
  have hany : ((w.transaction tx).enlisted.any fun e => e.native = ref) = true
      ↔ ref ∈ w.natives tx := by
    simp [mem_natives]
  unfold joinLate
  by_cases hmem : ref ∈ w.natives tx
  · exact .inl ⟨hmem, if_pos (hany.mpr hmem)⟩
  · refine .inr ⟨hmem, ?_⟩
    simp only [if_neg fun h => hmem (hany.mp h)]
    have hpass := w.settingUp_within tx id ref
    have hpassed := w.settingUp_work tx id ref
    generalize (report .debug ("setting up transaction on shard " ++ id.text) w).passTimeout tx ref
      = w₁ at hpass hpassed
    have hpassStores : SameStores w w₁ := hpassed.sameStores rfl
    by_cases hstatus : (w.transaction tx).status = .active
    · simp only [if_pos hstatus]
      rcases w₁.beginNative_cases ref with
        ⟨reason, w₂, hbegin, hwithin, hstores⟩ | ⟨w₂, hbegin, -, hwithin, hstores, hnative⟩
      · rw [hbegin]
        simp only
        generalize hw₃ : report .warn ("exception starting late transaction on shard " ++ id.text
          ++ ": " ++ reason.message) w₂ = w₃
        have hfailed : Within [ref] w w₃ :=
          hw₃ ▸ (hpass.trans (hwithin.mono (List.nil_subset _))).report ..
        have hfailedStores : SameStores w w₃ := hw₃ ▸ hpassStores.trans hstores
        split
        · rcases w₃.rollbackNative_cases ref with
            ⟨undo, w₄, hrollback, -, hundo, hundoStores⟩ | ⟨w₄, hrollback, hundo, hundoStores, -⟩
          · rw [hrollback]
            have hundo : Within [ref] w₃ w₄ := hundo.mono (List.nil_subset _)
            exact ⟨_, (hfailed.trans hundo).report .., hfailedStores.trans hundoStores,
              .inr (.inr ⟨hstatus, _, rfl⟩)⟩
          · rw [hrollback]
            exact ⟨_, hfailed.trans hundo, hfailedStores.trans hundoStores,
              .inr (.inr ⟨hstatus, _, rfl⟩)⟩
        · exact ⟨_, hfailed, hfailedStores, .inr (.inr ⟨hstatus, _, rfl⟩)⟩
      · rw [hbegin]
        refine ⟨w₂, hpass.trans hwithin, hpassStores.trans hstores, .inr (.inl ⟨hstatus, rfl, ?_⟩)⟩
        rw [hnative]
        exact ⟨rfl, rfl⟩
    · simp only [if_neg hstatus]
      exact ⟨w₁, hpass, hpassStores, .inl ⟨hstatus, rfl, hpassed.sameWork rfl⟩⟩

/-- A hook writes through the connection and queues further hooks; whether or not it accepts, it
leaves the local transaction where it was. -/
theorem runHook_cases (w : Cluster) (shard : Shard) (ref : NativeRef) (hook : Hook) :
    ∃ answer hook' w', ∃ children : List Hook, w.runHook shard ref hook
        = (answer, hook', w'.withEvents shard ((w'.slot shard).events ++ children.map .hook))
      ∧ Within [ref] w w' ∧ (w'.native ref).isActive = (w.native ref).isActive := by
  obtain ⟨tag, rejects, key, children, runs⟩ := hook
  unfold runHook
  simp only
  generalize hw₁ : record w _ = w₁
  have hremark : Within [ref] w w₁ := hw₁ ▸ (Within.refl _ w).record _
  have hnative : w₁.native ref = w.native ref := hw₁ ▸ rfl
  cases key with
  | none => exact ⟨_, _, w₁, children, rfl, hremark, by rw [hnative]⟩
  | some key =>
    refine ⟨_, _, _, children, rfl, ?_⟩
    simp only
    rcases w₁.writeNative_cases ref key (some (.string tag)) with
      ⟨w₂, hwrite, hwithin, -⟩ | ⟨w₂, hwrite, hactive, hwithin, -, hnative₂⟩ |
        ⟨w₂, hwrite, hidle, hwithin⟩
    · rw [hwrite]
      refine ⟨hremark.trans (hwithin.mono (List.nil_subset _)), ?_⟩
      rw [hwithin.others ref List.not_mem_nil, hnative]
    · rw [hwrite]
      refine ⟨hremark.trans hwithin, ?_⟩
      rw [hnative₂, ← hnative]
      rfl
    · rw [hwrite]
      refine ⟨hremark.trans (hwithin.mono (List.nil_subset _)), ?_⟩
      rw [hwithin.others ref List.not_mem_nil, hnative]

/-! ## A connection that is not published yet -/

/-- A connection was opened for a handle and is being shown to events. -/
structure Opening (w : Cluster) (number : Nat) (session : Session) (shard : Shard)
    (ref : NativeRef) : Prop extends Guarded w number session where
  mem : shard ∈ session.shards
  unconnected : w.connection? shard = none
  backend : ref.backend = shard.backend
  reached : w.IsOpened ref
  unpublished : ∀ other ∈ session.shards, w.connection? other ≠ some ref
  held : ∀ tx, session.current = some tx → ref ∈ w.natives tx →
    (w.transaction tx).status = .active → (w.native ref).isActive = true
  awaits : ∀ other ∈ session.shards, other ≠ shard → w.connection? other = none →
    w.Awaits session other

/-- What has joined stays joined, and statuses stay. -/
structure Keeps (ref : NativeRef) (w w' : Cluster) : Prop where
  natives : ∀ tx, ref ∈ w.natives tx → ref ∈ w'.natives tx
  status : ∀ tx, (w'.transaction tx).status = (w.transaction tx).status

theorem Keeps.trans (h : Keeps ref w w') (h' : Keeps ref w' w'') : Keeps ref w w'' :=
  ⟨fun tx hmem => h'.natives tx (h.natives tx hmem), fun tx => (h'.status tx).trans (h.status tx)⟩

theorem Keeps.refl (ref : NativeRef) (w : Cluster) : Keeps ref w w :=
  ⟨fun _ h => h, fun _ => rfl⟩

theorem Keeps.due (h : Keeps ref w w') (hdue : w.Due session tx) : w'.Due session tx := by
  rw [Due, h.status]
  exact hdue

theorem Within.keeps {refs : List NativeRef} (h : Within refs w w') : Keeps ref w w' :=
  ⟨fun tx hmem => h.natives tx ▸ hmem, h.status⟩

namespace Opening

theorem within (h : Opening w number session shard ref) (hwithin : Within [ref] w w')
    (hheld : ∀ tx, session.current = some tx → ref ∈ w.natives tx →
      (w.transaction tx).status = .active → (w'.native ref).isActive = true) :
    Opening w' number session shard ref where
  toGuarded := h.toGuarded.apartFrom hwithin fun other hother found hfound hmem =>
    h.unpublished other hother (List.mem_singleton.mp hmem ▸ hfound)
  mem := h.mem
  unconnected := (hwithin.connection? shard).trans h.unconnected
  backend := h.backend
  reached := hwithin.isOpened h.reached
  unpublished := fun other hother href =>
    h.unpublished other hother ((hwithin.connection? other).symm.trans href)
  held := fun tx htx hmem hstatus => by
    rw [hwithin.natives] at hmem
    rw [hwithin.status] at hstatus
    exact hheld tx htx hmem hstatus
  awaits := fun other hother hne hnone tx htx => by
    rw [hwithin.connection?] at hnone
    rw [hwithin.slot]
    exact h.awaits other hother hne hnone tx htx

theorem withEvents (h : Opening w number session shard ref) {events : List OpenEvent}
    (hevents : ∀ tx, .enlist tx ∈ events → w.Due session tx) :
    Opening (w.withEvents shard events) number session shard ref where
  toGuarded := h.toGuarded.withEvents h.mem hevents
  mem := h.mem
  unconnected := (connection?_withEvents ..).trans h.unconnected
  backend := h.backend
  reached := h.reached
  unpublished := fun other hother href =>
    h.unpublished other hother ((connection?_withEvents ..).symm.trans href)
  held := h.held
  awaits := fun other hother hne hnone tx htx => by
    rw [connection?_withEvents] at hnone
    have hhandle := h.handle_ne hother h.mem hne
    rw [events_withEvents_ne hhandle]
    exact h.awaits other hother hne hnone tx htx

theorem enlist (h : Opening w number session shard ref) (id : ShardId) (hnew : ref ∉ w.natives tx)
    (hheld : session.current = some tx → (w.transaction tx).status = .active →
      (w.native ref).isActive = true) :
    Opening (w.enlist tx id ref) number session shard ref where
  toGuarded := h.toGuarded.enlist tx id h.reached hnew
  mem := h.mem
  unconnected := h.unconnected
  backend := h.backend
  reached := h.reached
  unpublished := h.unpublished
  held := fun other hother hmem hstatus => by
    rw [status_enlist] at hstatus
    by_cases heq : tx = other
    · subst heq
      exact hheld hother hstatus
    · rw [natives_enlist_ne heq] at hmem
      exact h.held other hother hmem hstatus
  awaits := h.awaits

end Opening

theorem Handles.isReferenced (h : Handles w number session) (htx : session.current = some tx) :
    w.isReferenced tx = true := by
  have hmem : session ∈ w.sessions := by
    have hget := h.found
    rw [Cluster.session, List.getD_eq_getElem?_getD, List.getElem?_eq_getElem h.here,
      Option.getD_some] at hget
    exact hget ▸ List.getElem_mem h.here
  rw [Cluster.isReferenced, Bool.or_eq_true, List.any_eq_true]
  exact .inr ⟨session, hmem, decide_eq_true htx⟩

theorem Keeps.enlist (tx : Nat) (id : ShardId) (ref : NativeRef) (w : Cluster) :
    Keeps ref w (w.enlist tx id ref) := by
  refine ⟨fun other hmem => ?_, fun other => status_enlist ..⟩
  rw [Cluster.natives, enlisted_enlist]
  split
  · rw [List.map_append]
    exact List.mem_append_left _ hmem
  · exact hmem

theorem runEvent_of_referenced (h : w.isReferenced tx = true) (shard : Shard) (ref : NativeRef) :
    w.runEvent shard ref (.enlist tx) = ((w.joinLate tx shard.physicalId ref).1, .enlist tx,
      (w.joinLate tx shard.physicalId ref).2) := by
  rw [runEvent, if_pos h]

theorem runEvent_of_unreferenced (h : ¬ w.isReferenced tx = true) (shard : Shard)
    (ref : NativeRef) : w.runEvent shard ref (.enlist tx) = (.ok (), .enlist tx, w) := by
  rw [runEvent, if_neg h]

/-- A hook is shown the connection: it queues no event of a transaction, and all stays in order. -/
theorem Opening.runHook (h : Opening w number session shard ref) (hook : Hook) :
    ∃ answer hook' w', w.runEvent shard ref (.hook hook) = (answer, .hook hook', w')
      ∧ Opening w' number session shard ref ∧ Keeps ref w w' := by
  obtain ⟨answer, hook', w₁, children, hrun, hwithin, hactive⟩ := w.runHook_cases shard ref hook
  have hopening : Opening w₁ number session shard ref := by
    refine h.within hwithin fun tx htx hmem hstatus => ?_
    rw [hactive]
    exact h.held tx htx hmem hstatus
  refine ⟨answer, hook', _, by rw [Cluster.runEvent, hrun], hopening.withEvents fun tx hevent => ?_,
    ⟨hwithin.keeps.natives, hwithin.status⟩⟩
  rcases List.mem_append.mp hevent with hevent | hevent
  · exact hopening.due shard h.mem tx hevent
  · obtain ⟨child, -, hchild⟩ := List.mem_map.mp hevent
    cases hchild

/-- A connection asks to join a transaction late: all stays in order, and if the current transaction
accepts, the connection has joined it. -/
theorem Opening.joinLate (h : Opening w number session shard ref) (hdue : w.Due session tx) :
    Opening (w.joinLate tx shard.physicalId ref).2 number session shard ref
      ∧ Keeps ref w (w.joinLate tx shard.physicalId ref).2
      ∧ ((w.joinLate tx shard.physicalId ref).1 = .ok () → session.current = some tx →
        ref ∈ (w.joinLate tx shard.physicalId ref).2.natives tx) := by
  rcases w.joinLate_cases tx shard.physicalId ref with
    ⟨hmem, hjoin⟩ | ⟨hnew, w₁, hwithin, -, hjoin⟩
  · rw [hjoin]
    exact ⟨h, .refl ref w, fun _ _ => hmem⟩
  · have hkeeps : Keeps ref w (w₁.enlist tx shard.physicalId ref) :=
      hwithin.keeps.trans (.enlist ..)
    have hmember : session.current = some tx →
        ref ∈ (w₁.enlist tx shard.physicalId ref).natives tx := by
      intro htx
      rw [natives_enlist_self (hwithin.transactions ▸ (h.covers tx htx).known)]
      exact List.mem_append_right _ (List.mem_singleton_self ref)
    have hnew₁ : ref ∉ w₁.natives tx := by rwa [hwithin.natives]
    rcases hjoin with ⟨hstatus, hjoin, hwork⟩ | ⟨hstatus, hjoin, hactive, -⟩ | ⟨hstatus, e, hjoin⟩
    · rw [hjoin]
      have hopening : Opening w₁ number session shard ref := by
        refine h.within hwithin fun other hother hmem hactive => ?_
        rw [hwork.isActive]
        exact h.held other hother hmem hactive
      refine ⟨hopening.enlist _ hnew₁ fun _ hactive => ?_, hkeeps, fun _ => hmember⟩
      rw [hwithin.status] at hactive
      exact absurd hactive hstatus
    · rw [hjoin]
      have hopening : Opening w₁ number session shard ref :=
        h.within hwithin fun _ _ _ _ => hactive
      exact ⟨hopening.enlist _ hnew₁ fun _ _ => hactive, hkeeps, fun _ => hmember⟩
    · rw [hjoin]
      refine ⟨h.within hwithin fun other hother hmem hactive => ?_, hwithin.keeps, nofun⟩
      -- An active transaction that waits is the current one, which was not joined yet.
      have hcurrent : session.current = some tx := by
        rcases hdue with hcurrent | hfinal
        · exact hcurrent
        · rw [hstatus] at hfinal
          cases hfinal
      obtain rfl := Option.some.inj (hcurrent.symm.trans hother)
      exact absurd hmem hnew

/-- An event is shown the connection: all stays in order, and if it is the event of the current
transaction and accepts, the connection has joined. -/
theorem Opening.runEvent (h : Opening w number session shard ref) (event : OpenEvent)
    (hdue : ∀ tx, event = .enlist tx → w.Due session tx) :
    Opening (w.runEvent shard ref event).2.2 number session shard ref
      ∧ Keeps ref w (w.runEvent shard ref event).2.2
      ∧ (∀ tx, (w.runEvent shard ref event).2.1 = .enlist tx ↔ event = .enlist tx)
      ∧ ((w.runEvent shard ref event).1 = .ok () → ∀ tx, session.current = some tx →
        event = .enlist tx → ref ∈ (w.runEvent shard ref event).2.2.natives tx) := by
  cases event with
  | hook hook =>
    obtain ⟨answer, hook', w₁, hrun, hopening, hkeeps⟩ := h.runHook hook
    rw [hrun]
    exact ⟨hopening, hkeeps, fun tx => ⟨nofun, nofun⟩, fun _ tx _ hevent => nomatch hevent⟩
  | enlist tx =>
    by_cases hreferenced : w.isReferenced tx = true
    · rw [runEvent_of_referenced hreferenced]
      obtain ⟨hopening, hkeeps, hmember⟩ := h.joinLate (hdue tx rfl)
      refine ⟨hopening, hkeeps, fun _ => .rfl, fun hok other hother hevent => ?_⟩
      obtain rfl := OpenEvent.enlist.inj hevent
      exact hmember hok hother
    · rw [runEvent_of_unreferenced hreferenced]
      refine ⟨h, .refl ref w, fun _ => .rfl, fun _ other hother hevent => ?_⟩
      obtain rfl := OpenEvent.enlist.inj hevent
      exact absurd (h.isReferenced hother) hreferenced

/-! ## All events -/

theorem Opening.runEvents (h : Opening w number session shard ref) (events : List OpenEvent)
    (hdue : ∀ tx, .enlist tx ∈ events → w.Due session tx) :
    Opening (runEvents shard ref events w).2.2 number session shard ref
      ∧ Keeps ref w (runEvents shard ref events w).2.2
      ∧ (∀ tx, .enlist tx ∈ (runEvents shard ref events w).2.1 ↔ .enlist tx ∈ events)
      ∧ ((runEvents shard ref events w).1 = .ok () → ∀ tx, session.current = some tx →
        .enlist tx ∈ events → ref ∈ (runEvents shard ref events w).2.2.natives tx) := by
  induction events generalizing w with
  | nil => exact ⟨h, .refl ref w, fun _ => .rfl, fun _ _ _ hevent => absurd hevent List.not_mem_nil⟩
  | cons event rest ih =>
    obtain ⟨hopening, hkeeps, hsame, hjoined⟩ :=
      h.runEvent event fun tx heq => hdue tx (heq ▸ List.mem_cons_self)
    rw [Cluster.runEvents]
    generalize w.runEvent shard ref event = ran at hopening hkeeps hsame hjoined
    obtain ⟨answer, event', w₁⟩ := ran
    have hhead : ∀ {tail tail' : List OpenEvent} {tx : Nat},
        (.enlist tx ∈ tail' ↔ .enlist tx ∈ tail) →
          (.enlist tx ∈ event' :: tail' ↔ .enlist tx ∈ event :: tail) := by
      intro tail tail' tx htail
      rw [List.mem_cons, List.mem_cons, htail, eq_comm, hsame, eq_comm]
    cases answer with
    | error e =>
      refine ⟨hopening, hkeeps, fun tx => hhead .rfl, fun hok => ?_⟩
      cases hok
    | ok done =>
      obtain ⟨hrest, hrestKeeps, hrestSame, hrestJoined⟩ := ih hopening fun tx hevent =>
        hkeeps.due (hdue tx (List.mem_cons_of_mem _ hevent))
      refine ⟨hrest, hkeeps.trans hrestKeeps, fun tx => hhead (hrestSame tx), ?_⟩
      intro hok tx htx hevent
      rcases List.mem_cons.mp hevent with hevent | hevent
      · exact hrestKeeps.natives tx (hjoined rfl tx htx hevent.symm)
      · exact hrestJoined hok tx htx hevent

/-- When a connection that has joined is published, all is in order again. -/
theorem Opening.publish (h : Opening w number session shard ref)
    (hmem : ∀ tx, session.current = some tx → ref ∈ w.natives tx) :
    Sound (w.publish shard ref) number session where
  toGuarded := h.toGuarded.publish h.mem h.backend h.reached h.unpublished fun tx htx =>
    ⟨hmem tx htx, h.held tx htx (hmem tx htx)⟩
  awaits := fun other hother hnone tx htx => by
    by_cases heq : other.handle = shard.handle
    · obtain rfl := h.eq_of_handle hother h.mem heq
      rw [connection?_publish (h.slots other hother) h.backend] at hnone
      cases hnone
    · rw [connection?_publish_ne heq] at hnone
      rw [events_publish]
      exact h.awaits other hother (fun hsame => heq (hsame ▸ rfl)) hnone tx htx

theorem reject_within (w : Cluster) (shard : Shard) (ref : NativeRef) (events : List OpenEvent)
    (reason : ShardError) :
    Within [ref] (w.withEvents shard (events ++ (w.slot shard).events))
      (w.reject shard ref events reason) := by
  unfold Cluster.reject
  simp only
  generalize hw₁ : (report .warn _ w).setSlot shard _ = w₁
  have hreport : Within [ref] (w.withEvents shard (events ++ (w.slot shard).events)) w₁ :=
    hw₁ ▸ (Within.refl _ (w.withEvents shard (events ++ (w.slot shard).events))).report ..
  have hclose := hreport.trans (w₁.closeNative_within ref)
  generalize w₁.closeNative ref = closed at hclose
  match closed with
  | (.ok (), w₂) => exact hclose
  | (.error close, w₂) => exact hclose.report ..

/-- When a connection is turned down, all is in order again if the event of the current transaction
waits again. -/
theorem Opening.reject (h : Opening w number session shard ref) {events : List OpenEvent}
    (hdue : ∀ tx, .enlist tx ∈ events → w.Due session tx)
    (hawaits : ∀ tx, session.current = some tx → .enlist tx ∈ events) (reason : ShardError) :
    Sound (w.reject shard ref events reason) number session := by
  have hrequeued : Opening (w.withEvents shard (events ++ (w.slot shard).events)) number session
      shard ref := by
    refine h.withEvents fun tx hevent => ?_
    rcases List.mem_append.mp hevent with hevent | hevent
    · exact hdue tx hevent
    · exact h.due shard h.mem tx hevent
  have hsound : Sound (w.withEvents shard (events ++ (w.slot shard).events)) number session := by
    refine ⟨hrequeued.toGuarded, fun other hother hnone tx htx => ?_⟩
    by_cases heq : other = shard
    · rw [heq, events_withEvents (h.slots shard h.mem)]
      exact List.mem_append_left _ (hawaits tx htx)
    · exact hrequeued.awaits other hother heq hnone tx htx
  have hclose := w.reject_within shard ref events reason
  refine hsound.within hclose fun tx htx hstatus other hother found hfound => ?_
  have hne : found ∉ [ref] := fun hmem =>
    hrequeued.unpublished other hother (List.mem_singleton.mp hmem ▸ hfound)
  rw [hclose.others found hne]
  exact ((hsound.covers tx htx).joined other hother found hfound).active hstatus

theorem settle_of_nil (hevents : (w.slot shard).events = []) (rounds : Nat)
    (fired : List OpenEvent) :
    settle shard ref rounds fired w = (.ok ref, w.publish shard ref) := by
  cases rounds with
  | zero => rw [Cluster.settle]
  | succ rounds =>
    unfold Cluster.settle
    simp only [hevents]

theorem settle_of_cons {event : OpenEvent} {rest : List OpenEvent}
    (hevents : (w.slot shard).events = event :: rest) (rounds : Nat) (fired : List OpenEvent) :
    settle shard ref (rounds + 1) fired w =
      match Cluster.runEvents shard ref (event :: rest) (w.withEvents shard []) with
      | (.ok (), events, w) => settle shard ref rounds (fired ++ events) w
      | (.error e, events, w) => (.error e, w.reject shard ref (fired ++ events) e) := by
  conv => lhs; unfold Cluster.settle
  simp only [hevents]
  rfl

theorem Opening.settle (h : Opening w number session shard ref) (rounds : Nat)
    {fired : List OpenEvent} (hfired : ∀ tx, .enlist tx ∈ fired → w.Due session tx)
    (hawaits : ∀ tx, session.current = some tx →
      .enlist tx ∈ fired ∨ .enlist tx ∈ (w.slot shard).events)
    (hjoins : ∀ tx, session.current = some tx →
      ref ∈ w.natives tx ∨ rounds ≠ 0 ∧ .enlist tx ∈ (w.slot shard).events) :
    Sound (settle shard ref rounds fired w).2 number session := by
  -- On the rounds: while the connection has not joined, the event it needs waits for the next one.
  induction rounds generalizing w fired with
  | zero =>
    rw [Cluster.settle]
    exact h.publish fun tx htx => (hjoins tx htx).resolve_right fun hround => hround.1 rfl
  | succ rounds ih =>
    cases hevents : (w.slot shard).events with
    | nil =>
      rw [settle_of_nil hevents]
      refine h.publish fun tx htx => (hjoins tx htx).resolve_right fun hround => ?_
      rw [hevents] at hround
      exact absurd hround.2 List.not_mem_nil
    | cons event rest =>
      have hdue : ∀ tx, .enlist tx ∈ event :: rest → w.Due session tx := fun tx hevent =>
        h.due shard h.mem tx (hevents ▸ hevent)
      have hemptied : Opening (w.withEvents shard []) number session shard ref :=
        h.withEvents fun tx hevent => absurd hevent List.not_mem_nil
      obtain ⟨hopening, hkeeps, hsame, hjoined⟩ := hemptied.runEvents (event :: rest) hdue
      rw [settle_of_cons hevents]
      generalize Cluster.runEvents shard ref (event :: rest) (w.withEvents shard []) = ran
        at hopening hkeeps hsame hjoined
      obtain ⟨answer, events, w₁⟩ := ran
      -- The events that were shown the connection so far, those of this round included.
      have hshown : ∀ tx, .enlist tx ∈ fired ++ events → w₁.Due session tx := by
        intro tx hevent
        rcases List.mem_append.mp hevent with hevent | hevent
        · exact hkeeps.due (hfired tx hevent)
        · exact hkeeps.due (hdue tx ((hsame tx).mp hevent))
      have hcurrent : ∀ tx, session.current = some tx → .enlist tx ∈ fired ++ events := by
        intro tx htx
        rcases hawaits tx htx with hevent | hevent
        · exact List.mem_append_left _ hevent
        · exact List.mem_append_right _ ((hsame tx).mpr (hevents ▸ hevent))
      cases answer with
      | error e => exact hopening.reject hshown hcurrent e
      | ok done =>
        refine ih hopening hshown (fun tx htx => .inl (hcurrent tx htx)) fun tx htx => .inl ?_
        rcases hjoins tx htx with hmem | ⟨-, hevent⟩
        · exact hkeeps.natives tx hmem
        · exact hjoined rfl tx htx (hevents ▸ hevent)

/-! ## The whole attempt -/

theorem rounds_ne_zero (h : .enlist tx ∈ (w.slot shard).events) : w.rounds shard ≠ 0 := by
  have hfold : ∀ (events : List OpenEvent) (most : Nat), most ≠ 0 ∨ .enlist tx ∈ events →
      events.foldl (fun most event => max most event.generations) most ≠ 0 := by
    intro events
    induction events with
    | nil => exact fun most h => h.resolve_right List.not_mem_nil
    | cons event rest ih =>
      intro most h
      refine ih _ ?_
      rcases h with hmost | hevent
      · have hmax : max most event.generations ≠ 0 := by omega
        exact .inl hmax
      · rcases List.mem_cons.mp hevent with rfl | hevent
        · exact .inl (by simp [OpenEvent.generations])
        · exact .inr hevent
  exact hfold _ 0 (.inr h)

/-- A handle either has a connection, or is refused one by its backend, or gets one that is shown to
the waiting events. -/
theorem Sound.establish_cases (h : Sound w number session) (hshard : shard ∈ session.shards) :
    (∃ ref, w.connection? shard = some ref ∧ w.establish shard = (.ok ref, w)) ∨
    w.connection? shard = none ∧ ∃ w₁, Within [] w w₁ ∧ SameStores w w₁ ∧
      ((∃ e reason, w.establish shard = (.error e, w₁)
        ∧ (w.callBackend shard.backend Backend.openConnection).1 = .error reason) ∨
      ∃ ref, ¬ w.IsOpened ref ∧ w₁.native ref = .fresh ∧ Opening w₁ number session shard ref
        ∧ w.establish shard = Cluster.settle shard ref (w₁.rounds shard) [] w₁) := by
  unfold Cluster.establish
  cases hnone : w.connection? shard with
  | some ref => exact .inl ⟨ref, rfl, rfl⟩
  | none =>
    refine .inr ⟨rfl, ?_⟩
    rcases w.openConnection_cases shard.backend (h.backends shard hshard) with
      ⟨reason, w₁, hopen, hwithin, hstores⟩ | ⟨n, w₁, hopen, hwithin, hstores, hnew, hopened, hfresh⟩
    · rw [hopen]
      exact ⟨w₁, hwithin, hstores, .inl ⟨_, reason, rfl, rfl⟩⟩
    · rw [hopen]
      simp only
      generalize hw₂ : report .info ("open session on shard " ++ shard.label) w₁ = w₂
      have hwithin : Within [] w w₂ := hw₂ ▸ hwithin.report ..
      have hsound := h.quietly hwithin
      have hunconnected : w₂.connection? shard = none := (hwithin.connection? shard).trans hnone
      refine ⟨w₂, hwithin, hw₂ ▸ hstores, .inr ⟨⟨shard.backend, n⟩, hnew, hw₂ ▸ hfresh, ?_, rfl⟩⟩
      refine ⟨hsound.toGuarded, hshard, hunconnected, rfl, hw₂ ▸ hopened, ?_, ?_, ?_⟩
      · intro other hother href
        exact hnew (h.opened other hother _ ((hwithin.connection? other).symm.trans href))
      · intro tx htx hmem
        rw [hwithin.natives] at hmem
        exact absurd ((h.covers tx htx).opened _ hmem) hnew
      · exact fun other hother _ hother' => hsound.awaits other hother hother'

/-- Whatever comes of an attempt to connect a handle, the connections of the session are in order
after it. -/
theorem Sound.establish (h : Sound w number session) (hshard : shard ∈ session.shards) :
    Sound (w.establish shard).2 number session := by
  rcases h.establish_cases hshard with
    ⟨ref, -, hestablish⟩ | ⟨hnone, w₁, hwithin, -, ⟨e, reason, hestablish, -⟩ | hopened⟩
  · rw [hestablish]
    exact h
  · rw [hestablish]
    exact h.quietly hwithin
  · obtain ⟨ref, -, -, hopening, hestablish⟩ := hopened
    have hawaits := (h.quietly hwithin).awaits shard hshard ((hwithin.connection? shard).trans hnone)
    rw [hestablish]
    exact hopening.settle _ (fun tx hevent => absurd hevent List.not_mem_nil)
      (fun tx htx => .inr (hawaits tx htx))
      fun tx htx => .inr ⟨rounds_ne_zero (hawaits tx htx), hawaits tx htx⟩

end ScatterGather.Cluster
