import ScatterGather.Proofs.Cluster.Completion
import ScatterGather.Proofs.Session.Calls
import ScatterGather.Proofs.Session.Renewal

/-!
# No write escapes an active transaction

From the moment a session is opened, every call keeps its connections in order, as long as no handle
is closed and no rollback fails. So while the session's transaction is active each connection is a
member of it, exactly once, and what is written through a handle is staged and not stored.
-/

namespace ScatterGather.Cluster

variable {w w' : Cluster} {number : Nat} {session : Session} {shard : Shard} {ref : NativeRef}
variable {tx : Nat}

/-! ## Opening a session -/

/-- The physical shard that a handle stands for. -/
def physicalOf (shard : Shard) : PhysicalShard :=
  ⟨shard.physicalId, shard.served, shard.backend⟩

/-- Handles were added for some physical shards: new ones, in that order, none of them connected. -/
structure Added (physical : List PhysicalShard) (shards : List Shard) (w w' : Cluster) : Prop where
  backends : w'.backends = w.backends
  sessions : w'.sessions = w.sessions
  transactions : w'.transactions = w.transactions
  slots : w'.slots = w.slots ++ List.replicate shards.length ⟨none, []⟩
  handles : shards.map (·.handle) = List.range' w.slots.length shards.length
  parts : shards.map physicalOf = physical

theorem Added.physicalIds {physical : List PhysicalShard} {shards : List Shard}
    (h : Added physical shards w w') :
    shards.map (·.physicalId) = physical.map (·.physicalId) := by
  rw [← h.parts, List.map_map]
  rfl

theorem Added.places {physical : List PhysicalShard} {shards : List Shard}
    (h : Added physical shards w w') : shards.map (·.backend) = physical.map (·.backend) := by
  rw [← h.parts, List.map_map]
  rfl

theorem addShards_added {physical : List PhysicalShard} {shards : List Shard}
    (h : addShards physical w = (.ok shards, w')) : Added physical shards w w' := by
  induction physical generalizing w shards with
  | nil =>
    cases h
    exact ⟨rfl, rfl, rfl, (List.append_nil _).symm, rfl, rfl⟩
  | cons first rest ih =>
    rw [addShards, addShard, Shard.create] at h
    by_cases hempty : first.served.isEmpty = true
    · simp only [if_pos hempty] at h
      cases h
    · simp only [if_neg hempty] at h
      generalize hrest : addShards rest { w with slots := w.slots ++ [⟨none, []⟩] } = added at h
      obtain ⟨answer, w₁⟩ := added
      cases answer with
      | error e => cases h
      | ok tail =>
        cases h
        obtain ⟨hbackends, hsessions, htransactions, hslots, hhandles, hparts⟩ := ih hrest
        refine ⟨hbackends, hsessions, htransactions, ?_, ?_, congrArg (first :: ·) hparts⟩
        · rw [hslots, List.append_assoc, List.length_cons, List.replicate_succ]
          rfl
        · rw [List.map_cons, hhandles, List.length_cons, List.range'_succ]
          simp

/-- Handles can be added for shards that each serve some id. -/
theorem addShards_ok (physical : List PhysicalShard)
    (h : ∀ shard ∈ physical, shard.served.isEmpty = false) (w : Cluster) :
    ∃ shards w', addShards physical w = (.ok shards, w') := by
  induction physical generalizing w with
  | nil => exact ⟨[], w, rfl⟩
  | cons first rest ih =>
    obtain ⟨hfirst, hrest⟩ := List.forall_mem_cons.mp h
    obtain ⟨shards, w', hadded⟩ := ih hrest { w with slots := w.slots ++ [⟨none, []⟩] }
    refine ⟨⟨w.slots.length, first.physicalId, first.served, first.backend⟩ :: shards, w', ?_⟩
    simp [addShards, addShard, Shard.create, hfirst, hadded, Except.map]

theorem Added.slot {physical : List PhysicalShard} {shards : List Shard}
    (h : Added physical shards w w') (hshard : shard ∈ shards) : w'.slot shard = ⟨none, []⟩ := by
  have hhandle : shard.handle ∈ List.range' w.slots.length shards.length :=
    h.handles ▸ List.mem_map_of_mem hshard
  have hge : w.slots.length ≤ shard.handle := (List.mem_range'_1.mp hhandle).1
  rw [Cluster.slot, h.slots, List.getD_eq_getElem?_getD, List.getElem?_append_right hge,
    List.getElem?_replicate]
  split <;> rfl

theorem openSession_spec {factory : SessionFactory}
    (h : w.openSession factory = (.ok number, w')) :
    ∃ shards w₁, Added factory.shards shards w w₁ ∧ number = w.sessions.length
      ∧ w' = { w₁ with sessions := w₁.sessions ++ [⟨shards, factory.timeout, none, false⟩] }
      ∧ w'.session number = ⟨shards, factory.timeout, none, false⟩ := by
  rw [openSession] at h
  generalize hadded : addShards factory.shards w = added at h
  obtain ⟨answer, w₁⟩ := added
  cases answer with
  | error e => cases h
  | ok shards =>
    have hadded := addShards_added hadded
    cases h
    refine ⟨shards, w₁, hadded, by rw [hadded.sessions], rfl, ?_⟩
    rw [Cluster.session, List.getD_eq_getElem?_getD, List.getElem?_append_right (Nat.le_refl _),
      Nat.sub_self]
    rfl

theorem Added.unconnected {physical : List PhysicalShard} {shards : List Shard}
    (h : Added physical shards w w') (hshard : shard ∈ shards) : w'.connection? shard = none := by
  rw [connection?, h.slot hshard]
  rfl

/-- The handles of a session that was just opened are its own. -/
theorem openSession_handles {factory : SessionFactory}
    (hplaces : ∀ physical ∈ factory.shards, physical.backend < w.backends.length)
    (h : w.openSession factory = (.ok number, w')) : Handles w' number (w'.session number) := by
  obtain ⟨shards, w₁, hadded, rfl, rfl, hfound⟩ := openSession_spec h
  rw [hfound]
  refine ⟨?_, hfound, ?_, ?_, ?_, ?_, ?_⟩
  · simp [hadded.sessions]
  · rw [hadded.handles]
    exact List.nodup_range'
  · intro shard hshard
    have hhandle : shard.handle ∈ List.range' w.slots.length shards.length :=
      hadded.handles ▸ List.mem_map_of_mem hshard
    have hlt := (List.mem_range'_1.mp hhandle).2
    rw [hadded.slots, List.length_append, List.length_replicate]
    exact hlt
  · intro shard hshard
    have hplace : shard.backend ∈ factory.shards.map (·.backend) :=
      hadded.places ▸ List.mem_map_of_mem hshard
    obtain ⟨physical, hphysical, hbackend⟩ := List.mem_map.mp hplace
    exact hbackend ▸ hadded.backends ▸ hplaces physical hphysical
  · intro shard hshard ref href
    cases (hadded.unconnected hshard).symm.trans href
  · intro shard hshard other _ ref href _
    cases (hadded.unconnected hshard).symm.trans href

/-- A session that was just opened is in order. -/
theorem openSession_sound {factory : SessionFactory} (hquiet : w.NoRollbackFault)
    (hplaces : ∀ physical ∈ factory.shards, physical.backend < w.backends.length)
    (h : w.openSession factory = (.ok number, w')) : Sound w' number (w'.session number) := by
  have hhandles := openSession_handles hplaces h
  obtain ⟨shards, w₁, hadded, rfl, rfl, hfound⟩ := openSession_spec h
  rw [hfound] at hhandles ⊢
  refine ⟨⟨hhandles, ?_, by simp, ?_⟩, by simp [Awaits]⟩
  · intro i
    rw [backend]
    simp only [hadded.backends]
    exact hquiet i
  · intro shard hshard tx hevent
    have hevent : OpenEvent.enlist tx ∈ (w₁.slot shard).events := hevent
    rw [hadded.slot hshard] at hevent
    exact absurd hevent List.not_mem_nil

/-! ## Calls on the current transaction -/

theorem Sound.begin (h : Sound w number session) (htx : session.current = some tx) :
    Sound (w.begin tx).2 number session := by
  rcases w.begin_cases tx with ⟨w', hbegin, -, hwithin, -⟩ |
    ⟨w₁, w', hbegin, -, hwithin, -, hall, hafter, -⟩ | ⟨e, w', hbegin, hstatus, hwithin, -⟩
  · rw [hbegin]
    exact h.quietly hwithin
  · rw [hbegin]
    have hset : Sound (w₁.setStatus tx .active) number session :=
      h.setStatus hwithin htx .active fun _ shard hshard ref href =>
        (hall ref ((h.covers tx htx).joined shard hshard ref href).mem).1
    exact hset.quietly hafter
  · rw [hbegin]
    refine h.within hwithin fun tx' htx' hactive => ?_
    obtain rfl := Option.some.inj (htx.symm.trans htx')
    exact absurd hactive hstatus

theorem Sound.commit (h : Sound w number session) (htx : session.current = some tx) :
    Sound (w.commit tx).2 number session := by
  rcases w.commit_cases tx with ⟨-, e, hcommit⟩ | ⟨-, done, w₁, w', hdone, -, hend⟩
  · rw [hcommit]
    exact h
  · rcases hend with ⟨-, hcommit, hafter⟩ | ⟨e, rest, reason, -, hcommit, hafter⟩
    · rw [hcommit]
      exact (h.setStatus hdone.within htx .committed nofun).quietly hafter
    · rw [hcommit]
      exact (h.setStatus hdone.within htx .failedCommit nofun).quietly hafter

theorem Sound.rollback (h : Sound w number session) (htx : session.current = some tx) :
    Sound (w.rollback tx).2 number session := by
  rcases w.rollback_cases tx with ⟨-, e, hrollback⟩ | ⟨-, w₁, w', -, hend⟩
  · rw [hrollback]
    exact h
  · rcases hend with ⟨hundone, hrollback, hafter⟩ | ⟨failures, hfailed, hne, -⟩
    · rw [hrollback]
      exact (h.setStatus hundone.within htx .rolledBack nofun).quietly hafter
    · have hok := rollbackEach_ok (w.transaction tx).enlisted (h.covers tx htx).opened h.quiet
      exact absurd (hfailed.symm.trans hok) hne

/-- To ask for the current transaction of a session is refused, or answers the one that is there and
has not come to its end, or makes a new one. -/
theorem Handles.currentTransaction_cases (h : Handles w number session) :
    (∃ e, w.currentTransaction number = (.error e, w)) ∨
    (∃ tx, session.current = some tx ∧ (w.transaction tx).status.isFinal = false
      ∧ w.currentTransaction number = (.ok tx, w)) ∨
    ∃ w₁, Within [] w w₁ ∧ SameStores w w₁
      ∧ (∀ tx, session.current = some tx → (w₁.transaction tx).status.isFinal = true)
      ∧ w.currentTransaction number =
        (.ok w₁.transactions.length, (w₁.renewTransaction number).2) := by
  unfold Cluster.currentTransaction
  simp only [h.found]
  split
  · exact .inl ⟨_, rfl⟩
  · cases hcurrent : session.current with
    | none =>
      refine .inr (.inr ⟨w, .refl [] w, .refl w, nofun, ?_⟩)
      rw [← (w.renewTransaction_spec number).1]
    | some tx =>
      simp only
      split
      case isTrue hfinal =>
        generalize hw₁ : report .debug "previous transaction completed, starting a new one" w = w₁
        have hreport : Within [] w w₁ := hw₁ ▸ (Within.refl _ w).report ..
        refine .inr (.inr ⟨w₁, hreport, hw₁ ▸ .refl w, fun tx' htx' => ?_, ?_⟩)
        · obtain rfl := Option.some.inj htx'
          rw [hreport.status]
          exact hfinal
        · rw [← (w₁.renewTransaction_spec number).1]
      case isFalse hunfinished =>
        exact .inr (.inl ⟨tx, rfl, Bool.eq_false_iff.mpr hunfinished, rfl⟩)

/-- The current transaction as it is asked for is in order, with the same handles. -/
theorem Sound.currentTransaction (h : Sound w number session) :
    ∃ current, Sound (w.currentTransaction number).2 number { session with current := current }
      ∧ ∀ tx, (w.currentTransaction number).1 = .ok tx → current = some tx := by
  rcases h.currentTransaction_cases with ⟨e, hasked⟩ | ⟨tx, htx, -, hasked⟩ |
    ⟨w₁, hwithin, -, hended, hasked⟩
  · rw [hasked]
    exact ⟨session.current, h, nofun⟩
  · rw [hasked]
    exact ⟨session.current, h, fun tx' hok => htx.trans (congrArg some (Except.ok.inj hok))⟩
  · rw [hasked]
    obtain ⟨-, hrenewed⟩ := (h.quietly hwithin).renew hended
    exact ⟨_, hrenewed, fun tx' hok => congrArg some (Except.ok.inj hok)⟩

theorem Sound.beginTransaction (h : Sound w number session) :
    ∃ current, Sound (w.beginTransaction number).2 number { session with current := current } := by
  obtain ⟨current, hsound, hok⟩ := h.currentTransaction
  unfold Cluster.beginTransaction
  generalize w.currentTransaction number = asked at hsound hok
  match asked with
  | (.error e, w₁) => exact ⟨current, hsound⟩
  | (.ok tx, w₁) =>
    have hbegun := hsound.begin (hok tx rfl)
    refine ⟨current, ?_⟩
    simp only
    generalize w₁.begin tx = begun at hbegun
    match begun with
    | (.error e, w₂) => exact hbegun
    | (.ok (), w₂) => exact hbegun

/-! ## Other calls -/

theorem Sound.hook (h : Sound w number session) (hshard : shard ∈ session.shards) (hook : Hook) :
    Sound (w.registerEvent shard (.hook hook)).2 number session := by
  cases hconnection : w.connection? shard with
  | some ref =>
    rw [registerEvent_of_connected hconnection]
    exact h
  | none =>
    rw [registerEvent_of_unconnected hconnection]
    refine ⟨h.toGuarded.withEvents hshard fun tx hevent => ?_, ?_⟩
    · rcases List.mem_append.mp hevent with hevent | hevent
      · exact h.due shard hshard tx hevent
      · exact nomatch List.mem_singleton.mp hevent
    · intro other hother hnone tx htx
      rw [connection?_withEvents] at hnone
      exact mem_events_withEvents_append _ (h.awaits other hother hnone tx htx)

theorem Sound.write (h : Sound w number session) (hshard : shard ∈ session.shards) (key : String)
    (value : Option Json) : Sound (w.write shard key value).2 number session := by
  have hestablished := h.establish hshard
  unfold Cluster.write onShard
  generalize w.establish shard = established at hestablished
  match established with
  | (.error e, w₁) => exact hestablished
  | (.ok ref, w₁) =>
    simp only at hestablished ⊢
    rcases w₁.writeNative_cases ref key value with ⟨w₂, hwrite, hwithin, -⟩ |
      ⟨w₂, hwrite, hactive, hwithin, -, hnative⟩ | ⟨w₂, hwrite, -, hwithin⟩
    · rw [hwrite]
      exact hestablished.quietly hwithin
    · rw [hwrite]
      refine hestablished.within hwithin fun tx htx hstatus other hother found hfound => ?_
      by_cases heq : found = ref
      · rw [heq, hnative]
        exact hactive
      · rw [hwithin.others found fun hmem => heq (List.mem_singleton.mp hmem)]
        exact ((hestablished.covers tx htx).joined other hother found hfound).active hstatus
    · rw [hwrite]
      exact hestablished.quietly hwithin

theorem Sound.arm (h : Sound w number session) (i : Nat) {call : NativeCall}
    (hcall : call ≠ .rollingBack) : Sound (w.mapBackend i fun b => b.arm call) number session := by
  have hopened : ∀ ref, w.IsOpened ref → (w.mapBackend i fun b => b.arm call).IsOpened ref := by
    intro ref href
    rw [IsOpened, (w.backend_arm i ref.backend call).1]
    exact href
  refine ⟨⟨⟨h.here, h.found, h.distinct, h.slots, ?_, ?_, h.apart⟩, ?_, ?_, h.due⟩, h.awaits⟩
  · intro shard hshard
    exact Nat.lt_of_lt_of_eq (h.backends shard hshard) List.length_set.symm
  · intro shard hshard ref href
    exact hopened ref (h.opened shard hshard ref href)
  · intro j
    exact ((w.backend_arm i j call).2.2 .rollingBack hcall).trans (h.quiet j)
  · intro tx htx
    have hcovers := h.covers tx htx
    refine ⟨hcovers.known, hcovers.distinct,
      fun ref href => hopened ref (hcovers.opened ref href), ?_⟩
    intro shard hshard ref href
    obtain ⟨hmem, hactive⟩ := hcovers.joined shard hshard ref href
    refine ⟨hmem, fun hstatus => ?_⟩
    rw [native_arm]
    exact hactive hstatus

/-! ## Runs -/

theorem Handles.onNamed {P : Cluster → Prop} (h : Handles w number session) (hw : P w)
    (name : TransactionName) {step : Nat → Cluster}
    (hstep : ∀ tx, (name = .current → session.current = some tx) → P (step tx)) :
    P (w.onNamed number name step) := by
  unfold Cluster.onNamed
  split
  case h_1 tx htx =>
    refine hstep tx fun hname => ?_
    subst hname
    rw [named?, h.found] at htx
    exact htx
  case h_2 => exact hw

theorem Handles.onHandle {P : Cluster → Prop} (h : Handles w number session) (hw : P w)
    (index : Nat) {step : Shard → Cluster} (hstep : ∀ shard ∈ session.shards, P (step shard)) :
    P (w.onHandle number index step) := by
  unfold Cluster.onHandle
  rw [h.found]
  split
  case h_1 shard hshard => exact hstep shard (List.mem_of_getElem? hshard)
  case h_2 => exact hw

theorem Sound.onNamed (h : Sound w number session) (name : TransactionName)
    {step : Nat → Cluster} (hstep : ∀ tx, (name = .current → session.current = some tx) →
      Sound (step tx) number session) : Sound (w.onNamed number name step) number session :=
  h.toHandles.onNamed (P := fun w => Sound w number session) h name hstep

theorem Sound.onHandle (h : Sound w number session) (index : Nat) {step : Shard → Cluster}
    (hstep : ∀ shard ∈ session.shards, Sound (step shard) number session) :
    Sound (w.onHandle number index step) number session :=
  h.toHandles.onHandle (P := fun w => Sound w number session) h index hstep

/-- Any one call keeps the session in order, with the same handles. -/
theorem Sound.after (h : Sound w number session) {call : SessionCall} (hcall : call.Orderly) :
    ∃ current, Sound (w.after number call) number { session with current := current } := by
  have hsame : ∀ {w' : Cluster}, Sound w' number session →
      ∃ current, Sound w' number { session with current := current } :=
    fun h => ⟨session.current, h⟩
  cases call with
  | transaction =>
    obtain ⟨current, hsound, -⟩ := h.currentTransaction
    exact ⟨current, hsound.quietly ((handOutOk_work _).quiet rfl)⟩
  | beginTransaction =>
    obtain ⟨current, hsound⟩ := h.beginTransaction
    exact ⟨current, hsound.quietly ((handOutOk_work _).quiet rfl)⟩
  | begin name =>
    cases name with
    | current => exact hsame (h.onNamed .current fun tx htx => h.begin (htx rfl))
    | handed n => exact hcall.elim
  | commit name =>
    cases name with
    | current => exact hsame (h.onNamed .current fun tx htx => h.commit (htx rfl))
    | handed n => exact hcall.elim
  | rollback name =>
    cases name with
    | current => exact hsame (h.onNamed .current fun tx htx => h.rollback (htx rfl))
    | handed n => exact hcall.elim
  | setTimeout name seconds =>
    refine hsame (h.onNamed name fun tx _ => ?_)
    exact h.sameWork (w.setTimeout_within tx seconds) ((w.setTimeout_work tx seconds).sameWork rfl)
  | register name sync =>
    exact hsame (h.onNamed name fun tx _ => h.quietly ((Step.register w tx sync).quiet rfl))
  | letGo n => exact hsame (h.quietly ((Step.hand w _).quiet rfl))
  | establish index => exact hsame (h.onHandle index fun shard hshard => h.establish hshard)
  | hook index hook => exact hsame (h.onHandle index fun shard hshard => h.hook hshard hook)
  | write index key value =>
    exact hsame (h.onHandle index fun shard hshard => h.write hshard key value)
  | closeShard index => exact hcall.elim
  | close => exact hcall.elim
  | arm i call => exact hsame (h.arm i hcall)

/-- What each allowed call keeps, a run of allowed calls keeps. -/
theorem run_keeps {I : Cluster → Session → Prop} {allowed : SessionCall → Prop}
    (hafter : ∀ {w session call}, I w session → allowed call →
      ∃ current, I (w.after number call) { session with current := current })
    (h : I w session) {calls : List SessionCall} (hcalls : ∀ call ∈ calls, allowed call) :
    ∃ current, I (w.run number calls) { session with current := current } := by
  induction calls generalizing w session with
  | nil => exact ⟨session.current, h⟩
  | cons call rest ih =>
    obtain ⟨current, hfirst⟩ := hafter h (hcalls call List.mem_cons_self)
    obtain ⟨last, hrest⟩ := ih hfirst fun call hcall => hcalls call (List.mem_cons_of_mem _ hcall)
    exact ⟨last, hrest⟩

theorem Sound.run (h : Sound w number session) {calls : List SessionCall}
    (hcalls : ∀ call ∈ calls, call.Orderly) :
    ∃ current, Sound (w.run number calls) number { session with current := current } :=
  run_keeps (I := fun w session => Sound w number session) (fun h => h.after) h hcalls

/-- A write through a connection of the session changes no store while its transaction is active. -/
theorem Sound.write_staged (h : Sound w number session) (htx : session.current = some tx)
    (hactive : (w.transaction tx).status = .active) (hshard : shard ∈ session.shards)
    (href : w.connection? shard = some ref) (key : String) (value : Option Json) :
    SameStores w (w.write shard key value).2 := by
  have hestablish : w.establish shard = (.ok ref, w) := by
    rw [Cluster.establish, href]
  rw [Cluster.write, onShard, hestablish]
  simp only
  rcases w.writeNative_cases ref key value with ⟨w₁, hwrite, -, hstores⟩ |
    ⟨w₁, hwrite, -, -, hstores, -⟩ | ⟨w₁, hwrite, hidle, -⟩
  · rw [hwrite]
    exact hstores
  · rw [hwrite]
    exact hstores
  · rw [((h.covers tx htx).joined shard hshard ref href).active hactive] at hidle
    cases hidle

/-- In every state of a session whose current transaction is active, the connection of each handle
has joined that transaction exactly once and is active, so that writing through the handle changes
no store. -/
theorem run_no_write_escapes {w₀ w : Cluster} {factory : SessionFactory}
    (hquiet : w₀.NoRollbackFault)
    (hplaces : ∀ physical ∈ factory.shards, physical.backend < w₀.backends.length)
    (hopen : w₀.openSession factory = (.ok number, w)) {calls : List SessionCall}
    (hcalls : ∀ call ∈ calls, call.Orderly) :
    let w' := w.run number calls
    ∀ tx, (w'.session number).current = some tx → (w'.transaction tx).status = .active →
      ∀ shard ∈ (w'.session number).shards, ∀ ref, w'.connection? shard = some ref →
        (w'.natives tx).count ref = 1 ∧ (w'.native ref).isActive = true
          ∧ ∀ key value, SameStores w' (w'.write shard key value).2 := by
  intro w' tx htx hactive shard hshard ref href
  obtain ⟨current, hsound⟩ := (openSession_sound hquiet hplaces hopen).run hcalls
  have hsound : Sound w' number (w'.session number) := by
    rw [hsound.found]
    exact hsound
  have hcovers := hsound.covers tx htx
  obtain ⟨hmem, hjoined⟩ := hcovers.joined shard hshard ref href
  refine ⟨List.count_eq_one_of_mem hcovers.distinct hmem, hjoined hactive, ?_⟩
  exact fun key value => hsound.write_staged htx hactive hshard href key value

theorem noRollbackFault_ofBackends (count : Nat) : (ofBackends count).NoRollbackFault := by
  intro i
  rw [backend_ofBackends]
  rfl

/-- Two shards, of which the second is connected while the transaction is active: a delete through
it then leaves every store as it is. -/
theorem run_no_write_escapes_late :
    let factory : SessionFactory :=
      ⟨[⟨.ofNat 0, .ofList [.ofNat 0], 0⟩, ⟨.ofNat 1, .ofList [.ofNat 1], 1⟩], .default, none⟩
    let w := ((ofBackends 2).openSession factory).2.run 0 [.establish 0, .beginTransaction,
      .write 1 "k" (some (.string "v"))]
    ∃ shard ∈ (w.session 0).shards, w.connection? shard = some ⟨1, 0⟩
      ∧ (w.natives 0).count ⟨1, 0⟩ = 1 ∧ SameStores w (w.write shard "k" none).2 := by
  intro factory w
  have hopen : (ofBackends 2).openSession factory = (.ok 0, ((ofBackends 2).openSession factory).2) :=
    eq_of_fst (by decide +kernel)
  have hplaces : ∀ physical ∈ factory.shards, physical.backend < (ofBackends 2).backends.length := by
    decide +kernel
  have hcalls : ∀ call ∈ [SessionCall.establish 0, .beginTransaction,
      .write 1 "k" (some (.string "v"))], call.Orderly := by
    simp [SessionCall.Orderly]
  obtain ⟨shard, hshard, href⟩ : ∃ shard ∈ (w.session 0).shards,
      w.connection? shard = some ⟨1, 0⟩ := by
    decide +kernel
  obtain ⟨hcount, -, hwrite⟩ := run_no_write_escapes (noRollbackFault_ofBackends 2) hplaces hopen
    hcalls 0 (by decide +kernel) (by decide +kernel) shard hshard ⟨1, 0⟩ href
  exact ⟨shard, hshard, href, hcount, hwrite "k" none⟩

end ScatterGather.Cluster
