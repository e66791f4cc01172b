import ScatterGather.Proofs.Handle.Ownership

/-!
# The events of a handle

No event of a handle is lost, doubled or moved, however the calls on the handle are interleaved. The
events that were registered since a connection was last published are all there, in the order in
which they were registered: first those that a call has in hand, then those in the queue
(`Queued.waiting`). So a connection is published to exactly these, each of which was shown it once
and accepted it, and an attempt that fails leaves them as they were.
-/

namespace ScatterGather

/-! ## What a history says of events -/

/-- The events that wait after an incident, regardless of how often they ran. -/
def Incident.await (waiting : List OpenEvent) : Incident → List OpenEvent
  | registered event none => waiting ++ [event.bare]
  | published _ _ => []
  | registered _ (some _) | opened _ | shown .. | rejected _ | parted _ | answered .. => waiting

/-- The events that were queued since a connection was last published. -/
def queuedSince (history : List Incident) : List OpenEvent :=
  history.foldl Incident.await []

/-- The event that a connection was shown to, and whether it accepted it. -/
def Incident.presents (ref : NativeRef) : Incident → Option (OpenEvent × Bool)
  | shown other event accepted => if other = ref then some (event.bare, accepted) else none
  | _ => none

/-- The events that a connection was shown to, in order. -/
def shownOn (ref : NativeRef) (history : List Incident) : List (OpenEvent × Bool) :=
  history.filterMap (Incident.presents ref)

/-- The events that a call took out of the queue. -/
def CallStage.inHand : CallStage → List OpenEvent
  | showing _ heard left => heard ++ left
  | _ => []

theorem CallStage.inHand_of_free {stage : CallStage} (h : stage.holds = false) :
    stage.inHand = [] := by
  cases stage with
  | showing => cases h
  | waiting | opening | dropping | established | leaving | parting | closed => rfl

theorem shownOn_append (ref : NativeRef) (history more : List Incident) :
    shownOn ref (history ++ more) = shownOn ref history ++ shownOn ref more :=
  List.filterMap_append

theorem queuedSince_append (history more : List Incident) :
    queuedSince (history ++ more) = more.foldl Incident.await (queuedSince history) :=
  List.foldl_append

theorem shownOn_registers (ref : NativeRef) (events : List OpenEvent) :
    shownOn ref (events.map fun child => .registered child none) = [] := by
  simp [shownOn, Incident.presents]

theorem await_registers (events waiting : List OpenEvent) :
    (events.map fun child => .registered child none).foldl Incident.await waiting
      = waiting ++ events.map OpenEvent.bare := by
  induction events generalizing waiting with
  | nil => exact (List.append_nil waiting).symm
  | cons event rest ih =>
    rw [List.map_cons, List.foldl_cons, ih, List.map_cons, Incident.await, List.append_assoc]
    rfl

/-- An incident of a history that went on happened before, or after that. -/
theorem append_eq_split {α : Type} {l more before after : List α} {a : α}
    (h : l ++ more = before ++ a :: after) :
    (∃ rest, l = before ++ a :: rest ∧ after = rest ++ more) ∨
      ∃ early, before = l ++ early ∧ more = early ++ a :: after := by
  rcases List.append_eq_append_iff.mp h with ⟨early, hbefore, hmore⟩ | ⟨rest, hl, hafter⟩
  · exact .inr ⟨early, hbefore, hmore⟩
  · cases rest with
    | nil => exact .inr ⟨[], by rw [hl, List.append_nil, List.append_nil], hafter.symm⟩
    | cons head rest =>
      obtain ⟨rfl, rfl⟩ := List.cons.inj hafter
      exact .inl ⟨rest, hl, rfl⟩

/-! ## What a turn does to the events -/

variable {shard : Shard} {call : Nat} {w : Cluster} {stage : CallStage} {ref : NativeRef}
variable {result : Cluster × CallStage × List Incident}

/-- The events in hand, followed by those in the queue. -/
def line (shard : Shard) (w : Cluster) (stage : CallStage) : List OpenEvent :=
  (stage.inHand ++ (w.slot shard).events).map OpenEvent.bare

/-- A turn changes the line of events only as the history says. -/
theorem Turned.queues (h : Turned shard call w stage result)
    (hslot : shard.handle < w.slots.length) :
    line shard result.1 result.2.1 = result.2.2.foldl Incident.await (line shard w stage) := by
  cases h with
  | share | enter | pass | rest => rfl
  | refuse undisturbed | opened undisturbed | dropped undisturbed | parted undisturbed =>
    dsimp only
    rw [line, undisturbed.slot]
    rfl
  | publish drained =>
    dsimp only
    rw [line, Cluster.events_publish, drained]
    rfl
  | take queued =>
    dsimp only
    rw [line, Cluster.events_withEvents hslot, line, queued]
    simp [CallStage.inHand]
  | @accept _ _ _ _ event _ same undisturbed =>
    dsimp only
    rw [line, undisturbed.slot, Cluster.events_withEvents hslot, List.foldl_cons, await_registers,
      Incident.await, line]
    simp [CallStage.inHand, same]
  | @reject _ _ _ _ event _ _ same undisturbed =>
    dsimp only
    rw [line, undisturbed.slot, Cluster.events_withEvents hslot, List.cons_append,
      List.foldl_cons, List.foldl_append, await_registers, Incident.await, line]
    simp [CallStage.inHand, same, Incident.await]
  | part _ undisturbed =>
    dsimp only
    rw [line, undisturbed.slot, Cluster.unplug, Cluster.slot_setSlot_self hslot]
    rfl

/-- Only the connection that a call is setting up is shown to events. -/
theorem Turned.shows (h : Turned shard call w stage result) (hother : stage.setsUp ≠ some ref) :
    shownOn ref result.2.2 = [] := by
  cases h with
  | share | enter | refuse | opened | publish | take | dropped | pass | part | parted | rest => rfl
  | @accept _ shown _ _ event =>
    have hne : shown ≠ ref := fun heq => hother (congrArg some heq)
    rw [shownOn, List.filterMap_cons, Incident.presents, if_neg hne]
    exact shownOn_registers ref event.registers
  | @reject _ shown _ _ event =>
    have hne : shown ≠ ref := fun heq => hother (congrArg some heq)
    dsimp only
    rw [shownOn_append, shownOn, List.filterMap_cons, Incident.presents, if_neg hne]
    exact congrArg (· ++ []) (shownOn_registers ref event.registers)

/-- What a call that shows a connection has heard: as much as before and the events of this turn, or
nothing, and then the connection is new. -/
theorem Turned.hears (h : Turned shard call w stage result) {heard left : List OpenEvent}
    (hshows : result.2.1 = .showing ref heard left) :
    (∃ before left, stage = .showing ref before left
      ∧ heard.map (fun event => (event.bare, true))
        = before.map (fun event => (event.bare, true)) ++ shownOn ref result.2.2) ∨
    heard = [] ∧ ¬ w.IsOpened ref ∧ shownOn ref result.2.2 = [] := by
  cases h with
  | share | enter | refuse | publish | reject | dropped | pass | part | parted => cases hshows
  | opened _ _ new =>
    cases hshows
    exact .inr ⟨rfl, new, rfl⟩
  | take =>
    cases hshows
    exact .inl ⟨_, _, rfl, (List.append_nil _).symm⟩
  | @accept _ _ before _ event _ same =>
    cases hshows
    refine .inl ⟨before, _, rfl, ?_⟩
    have hqueued := shownOn_registers ref event.registers
    rw [shownOn] at hqueued
    rw [List.map_append, shownOn, List.filterMap_cons, Incident.presents, if_pos rfl, hqueued,
      ← same]
    rfl
  | rest => exact .inl ⟨heard, left, hshows, (List.append_nil _).symm⟩

/-- A connection is published when no event is left. -/
theorem Turned.drained (h : Turned shard call w stage result) {other : Nat}
    (hmem : .published other ref ∈ result.2.2) :
    (∃ heard, stage = .showing ref heard [])
      ∧ (w.slot shard).events = []
      ∧ result.2.2 = [.published other ref, .answered other (.ok ref)] := by
  cases h with
  | enter | take | pass | parted | rest => cases hmem
  | share | refuse | dropped | opened | part => cases List.mem_singleton.mp hmem
  | publish drained =>
    rcases List.mem_cons.mp hmem with hmem | hmem
    · cases hmem
      exact ⟨⟨_, rfl⟩, drained, rfl⟩
    · cases List.mem_singleton.mp hmem
  | accept => simp at hmem
  | reject => simp at hmem

/-- Nothing happens in the turn of a publication before it. -/
theorem first_of_publish {other : Nat} {early after : List Incident}
    (h : [.published other ref, .answered other (.ok ref)]
      = early ++ .published other ref :: after) : early = [] := by
  cases early with
  | nil => rfl
  | cons first rest =>
    obtain ⟨-, hrest⟩ := List.cons.inj h
    cases rest with
    | nil => cases (List.cons.inj hrest).1
    | cons second rest =>
      obtain ⟨-, hnone⟩ := List.cons.inj hrest
      exact absurd hnone.symm (List.append_ne_nil_of_right_ne_nil _ (List.cons_ne_nil _ _))

namespace Sharing

variable {s s' : Sharing}

namespace Arrived

variable {calls : List CallStage} {incidents : List Incident}

/-- What arrives changes the queue as the history says, behind all that is in hand. -/
theorem queues (h : Arrived shard s w calls incidents)
    (hslot : shard.handle < s.cluster.slots.length) (hand : List OpenEvent) :
    (hand ++ (w.slot shard).events).map OpenEvent.bare = incidents.foldl Incident.await
      ((hand ++ (s.cluster.slot shard).events).map OpenEvent.bare) := by
  cases h with
  | elsewhere undisturbed =>
    rw [undisturbed.slot]
    rfl
  | returned | shared | waits | leaves => rfl
  | queued event =>
    rw [Cluster.events_withEvents hslot, ← List.append_assoc, List.map_append]
    rfl

theorem shows (h : Arrived shard s w calls incidents) (ref : NativeRef) :
    shownOn ref incidents = [] := by
  cases h with
  | elsewhere | returned | shared | waits | leaves | queued => rfl

end Arrived

/-! ## The queue of a handle -/

/-- The events of a handle are all there and in order, and a connection that is being set up was
shown to those that a call has in hand. -/
structure Queued (shard : Shard) (s : Sharing) : Prop extends Ledger shard s where
  waiting : (s.calls.flatMap CallStage.inHand ++ (s.cluster.slot shard).events).map OpenEvent.bare
    = queuedSince s.history
  heard : ∀ (call : Nat) ref heard left, s.calls[call]? = some (.showing ref heard left) →
    shownOn ref s.history = heard.map (fun event => (event.bare, true))
      ∧ ∀ other, .published other ref ∉ s.history
  unseen : ∀ ref, ref ∉ openedIn s.history →
    shownOn ref s.history = [] ∧ ∀ other, .published other ref ∉ s.history
  exact : ∀ before other ref after, s.history = before ++ .published other ref :: after →
    shownOn ref s.history = (queuedSince before).map fun event => (event, true)

namespace Queued

theorem start (hslot : w.slots[shard.handle]? = some ⟨none, []⟩)
    (hbackend : shard.backend < w.backends.length) : Queued shard (Sharing.start w) where
  toLedger := .start hslot hbackend
  waiting := by
    rw [Sharing.start, Cluster.slot, List.getD_eq_getElem?_getD, hslot]
    rfl
  heard := nofun
  unseen := fun _ _ => ⟨rfl, nofun⟩
  exact := fun before other ref after hhistory => by
    cases before with
    | nil => cases hhistory
    | cons => cases hhistory

theorem arrived {calls : List CallStage} {incidents : List Incident} (h : Queued shard s)
    (harrived : Arrived shard s w calls incidents) : Queued shard (s.arrive w calls incidents) := by
  have hfree : calls.flatMap CallStage.inHand = [] :=
    List.flatMap_eq_nil_iff.mpr fun stage hmem => CallStage.inHand_of_free (harrived.free hmem)
  have hshown : ∀ ref, shownOn ref (s.history ++ incidents) = shownOn ref s.history := fun ref => by
    rw [shownOn_append, harrived.shows, List.append_nil]
  have hpublished : ∀ other ref, .published other ref ∈ s.history ++ incidents →
      .published other ref ∈ s.history := fun other ref hmem =>
    (List.mem_append.mp hmem).resolve_right (harrived.publishes other ref)
  refine ⟨h.toLedger.arrived harrived, ?_, ?_, ?_, ?_⟩
  · rw [arrive, List.flatMap_append, hfree, List.append_nil, harrived.queues h.slot,
      queuedSince_append, h.waiting]
  · intro other ref heard left hfound
    rcases getElem?_append_cases hfound with hfound | ⟨-, hnew⟩
    · obtain ⟨hheard, hunpublished⟩ := h.heard other ref heard left hfound
      exact ⟨(hshown ref).trans hheard, fun call hmem => hunpublished call (hpublished _ _ hmem)⟩
    · cases harrived.free hnew
  · intro ref hmem
    rw [arrive, openedIn_append, harrived.idle.1, List.append_nil] at hmem
    obtain ⟨hunseen, hunpublished⟩ := h.unseen ref hmem
    exact ⟨(hshown ref).trans hunseen, fun call hmem => hunpublished call (hpublished _ _ hmem)⟩
  · intro before other ref after hhistory
    rcases append_eq_split hhistory with ⟨rest, hold, -⟩ | ⟨early, -, hnew⟩
    · exact (hshown ref).trans (h.exact before other ref rest hold)
    · refine absurd ?_ (harrived.publishes other ref)
      rw [hnew]
      exact List.mem_append_right _ List.mem_cons_self

/-- While a call takes its turn, the line of events is what it has in hand and the queue. -/
theorem line_eq (h : Queued shard s) (hready : s.Ready call stage) :
    line shard s.cluster stage = queuedSince s.history := by
  rw [← h.waiting, flatMap_of_alone hready.found fun other stage' hfound hne =>
    CallStage.inHand_of_free (h.others hready hfound hne)]
  rfl

/-- The connection that a call is setting up was opened, and was not published. -/
theorem opened_of_setsUp (h : Queued shard s) (hready : s.Ready call stage)
    (hsetsUp : stage.setsUp = some ref) : ref ∈ openedIn s.history := by
  refine h.accounted.mem_iff.mpr (List.mem_append_right _ ?_)
  rw [h.owned_of_ready hready, hsetsUp]
  exact List.mem_append_right _ (List.mem_singleton_self ref)

theorem unpublished (h : Queued shard s) (hready : s.Ready call stage)
    (hsetsUp : stage.setsUp = some ref) (other : Nat) : .published other ref ∉ s.history := by
  cases stage with
  | showing shown heard left =>
    obtain rfl := Option.some.inj hsetsUp
    exact (h.heard call shown heard left hready.found).2 other
  | waiting | opening | dropping | established | leaving | parting | closed => cases hsetsUp

/-- What is shown in a turn is shown on the connection that the call is setting up, so nothing is
shown on a connection that was published before. -/
theorem shown_of_published (h : Queued shard s) (hready : s.Ready call stage) {other : Nat}
    (hpublished : .published other ref ∈ s.history) :
    shownOn ref (stage.turn shard call s.cluster).2.2 = [] :=
  (h.turned call stage).shows fun hsetsUp => h.unpublished hready hsetsUp other hpublished

theorem advance (h : Queued shard s) (hready : s.Ready call stage) :
    Queued shard (s.advance shard call stage) := by
  have hturned := h.turned call stage
  have hledger := h.toLedger.advance hready
  have hlt : call < s.calls.length := (List.getElem?_eq_some_iff.mp hready.found).1
  have hhistory : (s.advance shard call stage).history
      = s.history ++ (stage.turn shard call s.cluster).2.2 := rfl
  refine ⟨hledger, ?_, ?_, ?_, ?_⟩
  · have hself : (s.advance shard call stage).calls[call]?
        = some (stage.turn shard call s.cluster).2.1 := List.getElem?_set_self hlt
    have hhand := flatMap_of_alone (f := CallStage.inHand) hself fun other stage' hfound hne => by
      rcases getElem?_set_cases hfound with ⟨heq, -⟩ | ⟨-, hfound⟩
      · exact absurd heq hne
      · exact CallStage.inHand_of_free (h.others hready hfound hne)
    rw [hhand, hhistory, queuedSince_append, ← h.line_eq hready]
    exact hturned.queues h.slot
  · intro other ref heard left hfound
    rw [hhistory, shownOn_append]
    rcases getElem?_set_cases hfound with ⟨rfl, hshows⟩ | ⟨hne, hfound⟩
    · have hnow : ∀ who, .published who ref ∉ (stage.turn shard other s.cluster).2.2 := by
        intro who hmem
        cases hshows.trans (hturned.publishes hmem).2
      rcases hturned.hears hshows.symm with ⟨before, left, rfl, hheard⟩ | ⟨rfl, hnew, hshown⟩
      · obtain ⟨hbefore, hunpublished⟩ := h.heard other ref before left hready.found
        refine ⟨by rw [hbefore, hheard], fun who hmem => ?_⟩
        exact (List.mem_append.mp hmem).elim (hunpublished who) (hnow who)
      · obtain ⟨hunseen, hunpublished⟩ := h.unseen ref fun hmem => hnew (h.reached ref hmem)
        refine ⟨by rw [hunseen, hshown]; rfl, fun who hmem => ?_⟩
        exact (List.mem_append.mp hmem).elim (hunpublished who) (hnow who)
    · cases h.others hready hfound hne
  · intro ref hmem
    have hunopened : ref ∉ openedIn s.history := fun hopened => hmem (by
      rw [hhistory, openedIn_append]
      exact List.mem_append_left _ hopened)
    have hother : stage.setsUp ≠ some ref := fun hsetsUp =>
      hunopened (h.opened_of_setsUp hready hsetsUp)
    obtain ⟨hunseen, hunpublished⟩ := h.unseen ref hunopened
    rw [hhistory, shownOn_append, hunseen, hturned.shows hother]
    refine ⟨rfl, fun who hmem => ?_⟩
    rcases List.mem_append.mp hmem with hold | hnow
    · exact hunpublished who hold
    · obtain ⟨⟨heard, rfl⟩, -⟩ := hturned.drained hnow
      exact hother rfl
  · intro before other ref after hsplit
    rw [hhistory] at hsplit ⊢
    rw [shownOn_append]
    rcases append_eq_split hsplit with ⟨rest, hold, -⟩ | ⟨early, hbefore, hnow⟩
    · have hpublished : .published other ref ∈ s.history := by
        rw [hold]
        exact List.mem_append_right _ List.mem_cons_self
      rw [h.exact before other ref rest hold, h.shown_of_published hready hpublished,
        List.append_nil]
    · -- The last turn published the connection, and showed it to nobody.
      have hmem : .published other ref ∈ (stage.turn shard call s.cluster).2.2 := by
        rw [hnow]
        exact List.mem_append_right _ List.mem_cons_self
      obtain ⟨⟨heard, rfl⟩, hdrained, hincidents⟩ := hturned.drained hmem
      have hfirst : early = [] := first_of_publish (hincidents.symm.trans hnow)
      have hline := h.line_eq hready
      rw [line, hdrained] at hline
      obtain ⟨hheard, -⟩ := h.heard call ref heard [] hready.found
      rw [hbefore, hfirst, hincidents, List.append_nil, ← hline, hheard]
      simp [shownOn, CallStage.inHand, Incident.presents, List.filterMap_cons]

theorem step (h : Queued shard s) (hstep : Step shard s s') : Queued shard s' := by
  rcases hstep.cases with ⟨w, calls, incidents, harrived, rfl⟩ | ⟨call, stage, hready, rfl⟩
  · exact h.arrived harrived
  · exact h.advance hready

theorem reaches (h : Queued shard s) (hreaches : Reaches shard s s') : Queued shard s' := by
  induction hreaches with
  | refl => exact h
  | tail _ hstep ih => exact ih.step hstep

/-- Where no call sets a connection up, all events are in the queue. -/
theorem queue_eq (h : Queued shard s) (hidle : ∀ stage ∈ s.calls, stage.setsUp = none) :
    (s.cluster.slot shard).events.map OpenEvent.bare = queuedSince s.history := by
  have hhand : s.calls.flatMap CallStage.inHand = [] := by
    refine List.flatMap_eq_nil_iff.mpr fun stage hmem => ?_
    cases stage with
    | showing => cases hidle _ hmem
    | waiting | opening | dropping | established | leaving | parting | closed => rfl
  rw [← h.waiting, hhand, List.nil_append]

end Queued

/-- An event is queued, or the connection is returned. -/
theorem registerEvent_cases (shard : Shard) (event : OpenEvent)
    (hslot : shard.handle < w.slots.length) :
    (∃ ref, w.connection? shard = some ref ∧ w.registerEvent shard event = (some ref, w)) ∨
    w.connection? shard = none ∧ ∃ w', w.registerEvent shard event = (none, w')
      ∧ (w'.slot shard).events = (w.slot shard).events ++ [event]
      ∧ w'.connection? shard = none := by
  cases hconnection : w.connection? shard with
  | some ref => exact .inl ⟨ref, rfl, Cluster.registerEvent_of_connected hconnection event⟩
  | none =>
    exact .inr ⟨rfl, _, Cluster.registerEvent_of_unconnected hconnection event,
      Cluster.events_withEvents hslot _, (Cluster.connection?_withEvents ..).trans hconnection⟩

/-- However registrations, attempts and closes of a handle are interleaved, whichever events reject
a connection and whatever the backend refuses: a connection that is published was shown to exactly
the events that were registered since the last one was, each once, in the order in which they were
registered, and all of them accepted it. Whenever no connection is being set up, as after an attempt
that failed, these events are the queue; a call that failed published nothing. The handle has no
connection that was not published. An event that is registered is queued, or the published
connection is returned. -/
theorem events_in_order (hslot : w.slots[shard.handle]? = some ⟨none, []⟩)
    (hbackend : shard.backend < w.backends.length) (h : Reaches shard (Sharing.start w) s) :
    (∀ before call ref after, s.history = before ++ .published call ref :: after →
      shownOn ref s.history = (queuedSince before).map (fun event => (event, true))
        ∧ s.calls[call]? = some (.established (.ok ref)))
    ∧ ((∀ stage ∈ s.calls, stage.setsUp = none) →
      (s.cluster.slot shard).events.map OpenEvent.bare = queuedSince s.history)
    ∧ (∀ (call : Nat) e, s.calls[call]? = some (.established (.error e)) →
      ∀ ref, .published call ref ∉ s.history)
    ∧ (∀ ref, s.cluster.connection? shard = some ref →
      ∃ before call after, s.history = before ++ .published call ref :: after
        ∧ ∀ gone, .parted gone ∉ after)
    ∧ (∀ event,
      (∃ ref, s.cluster.connection? shard = some ref
        ∧ s.cluster.registerEvent shard event = (some ref, s.cluster)) ∨
      s.cluster.connection? shard = none
        ∧ ∃ w', s.cluster.registerEvent shard event = (none, w')
          ∧ (w'.slot shard).events = (s.cluster.slot shard).events ++ [event]
          ∧ w'.connection? shard = none)
    ∧ (s.lock = none → ∃ s', Reaches shard s s'
      ∧ s'.cluster = (s.cluster.establish shard).2 ∧ s'.lock = none
      ∧ s'.calls = s.calls ++ [.established (s.cluster.establish shard).1]) := by
  have hqueued : Queued shard s := (Queued.start hslot hbackend).reaches h
  refine ⟨fun before call ref after hhistory => ?_, hqueued.queue_eq, fun call e hfound ref => ?_,
    fun ref hconnected => ?_, fun event => registerEvent_cases shard event hqueued.slot,
    hqueued.establish_alone⟩
  · refine ⟨hqueued.exact before call ref after hhistory, hqueued.publisher call ref ?_⟩
    rw [hhistory]
    exact List.mem_append_right _ List.mem_cons_self
  · exact hqueued.not_published ((hqueued.ended call _).mpr hfound) ref
  · exact published_of_connectionAfter (hqueued.current.trans hconnected)

/-- A hook that rejects the first connection it is shown, and one that accepts all. -/
def picky (runs : Nat) : OpenEvent :=
  .hook (.mk "picky" (· == 0) none [] runs)

def plain (runs : Nat) : OpenEvent :=
  .hook (.mk "plain" (fun _ => false) none [] runs)

/-- The first hook is about to see a connection when the second is registered. -/
def interrupted : Sharing :=
  let waiting := ((start soleCluster).register soleShard (picky 0)).connect soleShard
  let opening := waiting.advance soleShard 0 .waiting
  let showing := opening.advance soleShard 0 .opening
  (showing.advance soleShard 0 (.showing ⟨0, 0⟩ [] [])).register soleShard (plain 0)

/-- The first hook rejects the connection. -/
def turnedDown : Sharing :=
  (interrupted.advance soleShard 0 (.showing ⟨0, 0⟩ [] [picky 0])).advance soleShard 0
    (.dropping ⟨0, 0⟩ (.transaction ("picky" ++ " rejects shard " ++ soleShard.physicalId.text)))

/-- The next attempt has opened a connection and taken both hooks out of the queue. -/
def retried : Sharing :=
  let opening := (turnedDown.connect soleShard).advance soleShard 1 .waiting
  (opening.advance soleShard 1 .opening).advance soleShard 1 (.showing ⟨0, 1⟩ [] [])

/-- Both hooks accept it. -/
def settled : Sharing :=
  let heard := retried.advance soleShard 1 (.showing ⟨0, 1⟩ [] [picky 1, plain 0])
  (heard.advance soleShard 1 (.showing ⟨0, 1⟩ [picky 2] [plain 0])).advance soleShard 1
    (.showing ⟨0, 1⟩ [picky 2, plain 1] [])

theorem settled_reaches : Reaches soleShard (start soleCluster) settled := by
  have hregister : Reaches soleShard (start soleCluster)
      ((start soleCluster).register soleShard (picky 0)) := .single (.register _)
  have hconnect : Reaches soleShard (start soleCluster) _ := hregister.tail .connect
  have hinterrupted : Reaches soleShard (start soleCluster) interrupted :=
    (((hconnect.advance 0 .waiting rfl (.inr rfl)).advance 0 .opening rfl (.inl rfl)).advance 0
      (.showing ⟨0, 0⟩ [] []) rfl (.inl rfl)).tail (.register _)
  have hturnedDown : Reaches soleShard (start soleCluster) turnedDown :=
    (hinterrupted.advance 0 (.showing ⟨0, 0⟩ [] [picky 0]) rfl (.inl rfl)).advance 0 _ rfl
      (.inl rfl)
  have hconnect : Reaches soleShard (start soleCluster) _ := hturnedDown.tail .connect
  have hretried : Reaches soleShard (start soleCluster) retried :=
    ((hconnect.advance 1 .waiting rfl (.inr rfl)).advance 1 .opening rfl (.inl rfl)).advance 1
      (.showing ⟨0, 1⟩ [] []) rfl (.inl rfl)
  exact ((hretried.advance 1 (.showing ⟨0, 1⟩ [] [picky 1, plain 0]) rfl (.inl rfl)).advance 1
    (.showing ⟨0, 1⟩ [picky 2] [plain 0]) rfl (.inl rfl)).advance 1
    (.showing ⟨0, 1⟩ [picky 2, plain 1] []) rfl (.inl rfl)

theorem events_in_order_settled :
    settled.history = [.registered (picky 0) none, .opened ⟨0, 0⟩, .registered (plain 0) none,
        .shown ⟨0, 0⟩ (picky 0) false, .rejected ⟨0, 0⟩,
        .answered 0 (.error (.transaction
          ("picky" ++ " rejects shard " ++ soleShard.physicalId.text))),
        .opened ⟨0, 1⟩, .shown ⟨0, 1⟩ (picky 1) true, .shown ⟨0, 1⟩ (plain 0) true,
        .published 1 ⟨0, 1⟩, .answered 1 (.ok ⟨0, 1⟩)]
      ∧ shownOn ⟨0, 1⟩ settled.history = [(picky 0, true), (plain 0, true)] := by
  obtain ⟨hexact, -⟩ := events_in_order rfl Nat.zero_lt_one settled_reaches
  exact ⟨rfl, (hexact (settled.history.take 9) 1 ⟨0, 1⟩ [.answered 1 (.ok ⟨0, 1⟩)] rfl).1⟩

end Sharing

end ScatterGather
