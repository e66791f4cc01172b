import Mathlib.Logic.Relation
import ScatterGather.Proofs.Session.Moves

/-!
# Calls that share a handle

Many callers may connect and close one handle at a time. A call can be interrupted wherever it waits:
for the lock of the handle, for the backend to open or close a connection, and for the end of each
event. Between two such points it takes a turn that nobody interrupts (`CallStage.turn`), and which
call takes the next turn is left open (`Sharing.Step`). What every step keeps therefore holds for
every way in which the calls can be interleaved. `turn_turned` says once what a turn can do.
-/

namespace ScatterGather

/-! ## Calls and what they leave in the history -/

/-- How far a call on a handle has come. -/
inductive CallStage where
  /-- A call that connects the handle, and found no connection, waits for the lock. -/
  | waiting
  /-- It has the lock, and the backend opens a connection. -/
  | opening
  /-- The connection is shown to the events of a round: `left` are to come, and `heard`, with those
  of earlier rounds, have accepted it. -/
  | showing (ref : NativeRef) (heard left : List OpenEvent)
  /-- The connection was turned down, and the backend closes it. -/
  | dropping (ref : NativeRef) (reason : ShardError)
  | established (answer : Except ShardError NativeRef)
  /-- A call that closes the handle waits for the lock. -/
  | leaving
  /-- It took the connection out of the handle, and the backend closes it. -/
  | parting (ref : NativeRef)
  | closed (answer : Except ShardError Unit)

/-- Whether a call has the lock. -/
def CallStage.holds : CallStage → Bool
  | opening | showing .. | dropping .. | parting _ => true
  | waiting | established _ | leaving | closed _ => false

/-- The connection that a call is setting up. -/
def CallStage.setsUp : CallStage → Option NativeRef
  | showing ref _ _ => some ref
  | _ => none

/-- What happened on a handle. -/
inductive Incident where
  /-- An event was registered: it was queued, or the connection was returned. -/
  | registered (event : OpenEvent) (answer : Option NativeRef)
  | opened (ref : NativeRef)
  /-- A connection was shown to an event. -/
  | shown (ref : NativeRef) (event : OpenEvent) (accepted : Bool)
  /-- A connection that an event did not accept was handed to its close. -/
  | rejected (ref : NativeRef)
  | published (call : Nat) (ref : NativeRef)
  /-- The connection of the handle was handed to its close. -/
  | parted (ref : NativeRef)
  /-- A call that connects came to its end. -/
  | answered (call : Nat) (answer : Except ShardError NativeRef)

/-- The events that an event registers when it is shown a connection. -/
def OpenEvent.registers : OpenEvent → List OpenEvent
  | .enlist _ => []
  | .hook (.mk _ _ _ children _) => children.map .hook

/-- An event regardless of how often it ran. -/
def OpenEvent.bare : OpenEvent → OpenEvent
  | .enlist tx => .enlist tx
  | .hook (.mk tag rejects key children _) => .hook (.mk tag rejects key children 0)

/-! ## Turns -/

namespace Cluster

/-- The first half of turning a connection down: the events wait again. -/
def requeue (w : Cluster) (shard : Shard) (events : List OpenEvent) (reason : ShardError) :
    Cluster :=
  report .warn ("open session event failed on shard " ++ shard.label ++ ": " ++ reason.message)
    (w.withEvents shard (events ++ (w.slot shard).events))

/-- The second half: the connection is closed. -/
def dispose (w : Cluster) (shard : Shard) (ref : NativeRef) : Cluster :=
  match w.closeNative ref with
  | (.ok (), w) => w
  | (.error close, w) =>
    report .warn ("closing rejected session on shard " ++ shard.label ++ " failed: "
      ++ close.message) w

theorem reject_eq_dispose (w : Cluster) (shard : Shard) (ref : NativeRef) (events : List OpenEvent)
    (reason : ShardError) :
    w.reject shard ref events reason = (w.requeue shard events reason).dispose shard ref :=
  rfl

end Cluster

/-- What a call does until it can be interrupted again: the cluster after it, where the call stands
then, and what happened. A call that waits for the lock has it for this turn. -/
def CallStage.turn (shard : Shard) (call : Nat) (w : Cluster) :
    CallStage → Cluster × CallStage × List Incident
  | waiting =>
    match w.connection? shard with
    | some ref => (w, .established (.ok ref), [.answered call (.ok ref)])
    | none => (w, .opening, [])
  | opening =>
    match w.callBackend shard.backend Backend.openConnection with
    | (.error reason, w) =>
      let e := .session shard.physicalId reason.message
      (w, .established (.error e), [.answered call (.error e)])
    | (.ok number, w) =>
      (report .info ("open session on shard " ++ shard.label) w,
        .showing ⟨shard.backend, number⟩ [] [], [.opened ⟨shard.backend, number⟩])
  | showing ref heard [] =>
    match (w.slot shard).events with
    | [] =>
      (w.publish shard ref, .established (.ok ref),
        [.published call ref, .answered call (.ok ref)])
    | event :: rest => (w.withEvents shard [], .showing ref heard (event :: rest), [])
  | showing ref heard (event :: rest) =>
    let queued := event.registers.map fun child => Incident.registered child none
    match w.runEvent shard ref event with
    | (.ok (), event', w) =>
      (w, .showing ref (heard ++ [event']) rest, .shown ref event true :: queued)
    | (.error e, event', w) =>
      (w.requeue shard (heard ++ event' :: rest) e, .dropping ref e,
        .shown ref event false :: queued ++ [.rejected ref])
  | dropping ref reason =>
    (w.dispose shard ref, .established (.error reason), [.answered call (.error reason)])
  | leaving =>
    match w.connection? shard with
    | none => (w, .closed (.ok ()), [])
    | some ref =>
      (report .debug ("close session on shard " ++ shard.label) (w.unplug shard), .parting ref,
        [.parted ref])
  | parting ref =>
    match w.closeNative ref with
    | (.ok (), w) => (w, .closed (.ok ()), [])
    | (.error reason, w) => (w, .closed (.error (.session shard.physicalId reason.message)), [])
  | established answer => (w, .established answer, [])
  | closed answer => (w, .closed answer, [])

/-! ## Interleavings -/

/-- A handle with the calls on it. -/
structure Sharing where
  cluster : Cluster
  /-- The call that has the lock of the handle. -/
  lock : Option Nat
  calls : List CallStage
  history : List Incident

/-- No handle, no backend and no connection is forgotten. -/
structure Grows (w w' : Cluster) : Prop where
  slots : w.slots.length ≤ w'.slots.length
  backends : w.backends.length ≤ w'.backends.length
  opened : ∀ i, (w.backend i).connections.length ≤ (w'.backend i).connections.length

/-- Besides, what is kept under the handle stays: so it is with all that goes on elsewhere in the
cluster. -/
structure Undisturbed (shard : Shard) (w w' : Cluster) : Prop extends Grows w w' where
  slot : w'.slot shard = w.slot shard

namespace Sharing

/-- A handle on which no call was made yet. -/
def start (w : Cluster) : Sharing :=
  ⟨w, none, [], []⟩

/-- Somebody registers an event. -/
def register (shard : Shard) (event : OpenEvent) (s : Sharing) : Sharing :=
  let (answer, w) := s.cluster.registerEvent shard event
  { s with cluster := w, history := s.history ++ [.registered event answer] }

/-- Somebody wants the handle connected; where there is a connection, the call is over at once. -/
def connect (shard : Shard) (s : Sharing) : Sharing :=
  match s.cluster.connection? shard with
  | some ref =>
    { s with
      calls := s.calls ++ [.established (.ok ref)]
      history := s.history ++ [.answered s.calls.length (.ok ref)] }
  | none => { s with calls := s.calls ++ [.waiting] }

/-- A call takes its turn. -/
def advance (shard : Shard) (call : Nat) (stage : CallStage) (s : Sharing) : Sharing :=
  let (w, stage, incidents) := stage.turn shard call s.cluster
  { cluster := w
    lock := if stage.holds then some call else none
    calls := s.calls.set call stage
    history := s.history ++ incidents }

/-- A call can take its turn: it has the lock, or can get it. -/
structure Ready (s : Sharing) (call : Nat) (stage : CallStage) : Prop where
  found : s.calls[call]? = some stage
  free : stage.holds = true ∨ s.lock = none

/-- One step on a handle. -/
inductive Step (shard : Shard) (s : Sharing) : Sharing → Prop where
  | elsewhere {w : Cluster} (undisturbed : Undisturbed shard s.cluster w) :
      Step shard s { s with cluster := w }
  | register (event : OpenEvent) : Step shard s (s.register shard event)
  | connect : Step shard s (s.connect shard)
  /-- Somebody wants the handle closed. -/
  | disconnect : Step shard s { s with calls := s.calls ++ [.leaving] }
  | advance {call : Nat} {stage : CallStage} (ready : s.Ready call stage) :
      Step shard s (s.advance shard call stage)

/-- The states that some interleaving leads to. -/
abbrev Reaches (shard : Shard) : Sharing → Sharing → Prop :=
  Relation.ReflTransGen (Step shard)

theorem Reaches.advance {shard : Shard} {s s' : Sharing} (h : Reaches shard s s') (call : Nat)
    (stage : CallStage) (found : s'.calls[call]? = some stage)
    (free : stage.holds = true ∨ s'.lock = none) :
    Reaches shard s (s'.advance shard call stage) :=
  h.tail (.advance ⟨found, free⟩)

end Sharing

open Cluster

section Frames

variable {shard : Shard} {w w' w'' : Cluster} {ref : NativeRef}

namespace Grows

theorem refl (w : Cluster) : Grows w w :=
  ⟨Nat.le_refl _, Nat.le_refl _, fun _ => Nat.le_refl _⟩

theorem trans (h : Grows w w') (h' : Grows w' w'') : Grows w w'' where
  slots := Nat.le_trans h.slots h'.slots
  backends := Nat.le_trans h.backends h'.backends
  opened := fun i => Nat.le_trans (h.opened i) (h'.opened i)

theorem setSlot (w : Cluster) (shard : Shard) (slot : Slot) : Grows w (w.setSlot shard slot) :=
  ⟨Nat.le_of_eq List.length_set.symm, Nat.le_refl _, fun _ => Nat.le_refl _⟩

theorem isOpened (h : Grows w w') (hopened : w.IsOpened ref) : w'.IsOpened ref :=
  Nat.lt_of_lt_of_le hopened (h.opened ref.backend)

end Grows

namespace Undisturbed

theorem refl (shard : Shard) (w : Cluster) : Undisturbed shard w w :=
  ⟨.refl w, rfl⟩

theorem of_within {refs : List NativeRef} (h : Within refs w w') : Undisturbed shard w w' where
  slots := Nat.le_of_eq (congrArg List.length h.slots).symm
  backends := Nat.le_of_eq h.backends.symm
  opened := h.opened
  slot := h.slot shard

theorem report (h : Undisturbed shard w w') (level : Level) (text : String) :
    Undisturbed shard w (ScatterGather.report level text w') :=
  ⟨⟨h.slots, h.backends, h.opened⟩, h.slot⟩

theorem connection? (h : Undisturbed shard w w') :
    w'.connection? shard = w.connection? shard := by
  rw [Cluster.connection?, h.slot, Cluster.connection?]

theorem after_setSlot {slot : Slot} (h : Undisturbed shard (w.setSlot shard slot) w') :
    Grows w w' :=
  (Grows.setSlot w shard slot).trans h.toGrows

/-- An event only adds to the queue of the handle. -/
theorem of_presented {more : List OpenEvent} (hslot : shard.handle < w.slots.length)
    (h : Presented shard ref w w')
    (hevents : (w'.slot shard).events = (w.slot shard).events ++ more) :
    Undisturbed shard (w.withEvents shard ((w.slot shard).events ++ more)) w' where
  slots := Nat.le_of_eq (List.length_set.trans h.slots.symm)
  backends := Nat.le_of_eq h.backends.symm
  opened := h.opened
  slot := by
    have hconnection : (w'.slot shard).connection = (w.slot shard).connection :=
      Option.map_injective (fun m n heq => congrArg NativeRef.connection heq)
        (h.connection? shard)
    have hparts : w'.slot shard = ⟨(w'.slot shard).connection, (w'.slot shard).events⟩ := rfl
    rw [withEvents, slot_setSlot_self hslot, hparts, hconnection, hevents]

/-- Events are put back in front of the queue. -/
theorem requeue {queue : List OpenEvent} (hslot : shard.handle < w.slots.length)
    (h : Undisturbed shard (w.withEvents shard queue) w') (events : List OpenEvent)
    (reason : ShardError) :
    Undisturbed shard (w.withEvents shard (events ++ queue)) (w'.requeue shard events reason) := by
  have hlength : w.slots.length ≤ w'.slots.length := h.after_setSlot.slots
  have hfront : Undisturbed shard (w.withEvents shard (events ++ queue))
      (w'.withEvents shard (events ++ (w'.slot shard).events)) := by
    refine ⟨⟨?_, h.backends, h.opened⟩, ?_⟩
    · exact Nat.le_trans (Nat.le_of_eq List.length_set)
        (Nat.le_trans hlength (Nat.le_of_eq List.length_set.symm))
    · rw [withEvents, slot_setSlot_self (Nat.lt_of_lt_of_le hslot hlength), h.slot, withEvents,
        slot_setSlot_self hslot, withEvents, slot_setSlot_self hslot]
  exact hfront.report ..

end Undisturbed

end Frames

/-! ## What a turn does -/

namespace Cluster

variable {w : Cluster} {shard : Shard} {ref : NativeRef}

theorem runHook_queues (hslot : shard.handle < w.slots.length) (ref : NativeRef) (hook : Hook) :
    ((w.runHook shard ref hook).2.2.slot shard).events
        = (w.slot shard).events ++ (OpenEvent.hook hook).registers
      ∧ (OpenEvent.hook (w.runHook shard ref hook).2.1).bare = (OpenEvent.hook hook).bare := by
  obtain ⟨tag, rejects, key, children, runs⟩ := hook
  refine ⟨?_, rfl⟩
  cases key with
  | none => exact events_withEvents hslot _
  | some key => exact events_withEvents hslot _

/-- An event queues what it registers, and comes back as it was but for the number of its runs. -/
theorem runEvent_queues (hslot : shard.handle < w.slots.length) (ref : NativeRef)
    (event : OpenEvent) :
    ((w.runEvent shard ref event).2.2.slot shard).events
        = (w.slot shard).events ++ event.registers
      ∧ (w.runEvent shard ref event).2.1.bare = event.bare := by
  cases event with
  | hook hook => exact runHook_queues hslot ref hook
  | enlist tx =>
    rw [OpenEvent.registers, List.append_nil]
    by_cases hreferenced : w.isReferenced tx = true
    · rw [runEvent_of_referenced hreferenced]
      obtain ⟨-, hslots, -⟩ := w.joinLate_heard tx shard ref
      exact ⟨by rw [slot_congr hslots], rfl⟩
    · rw [runEvent_of_unreferenced hreferenced]
      exact ⟨rfl, rfl⟩

theorem dispose_within (w : Cluster) (shard : Shard) (ref : NativeRef) :
    Within [ref] w (w.dispose shard ref) := by
  have hwithin := w.closeNative_within ref
  unfold dispose
  generalize w.closeNative ref = closed at hwithin
  obtain ⟨answer, w'⟩ := closed
  cases answer with
  | ok done => exact hwithin
  | error close => exact hwithin.report ..

end Cluster

variable {shard : Shard} {call : Nat} {w : Cluster} {stage : CallStage}
variable {result : Cluster × CallStage × List Incident}

/-- What a turn can do, as far as the handle is concerned. -/
inductive Turned (shard : Shard) (call : Nat) (w : Cluster) :
    CallStage → Cluster × CallStage × List Incident → Prop where
  | share {ref : NativeRef} (connected : w.connection? shard = some ref) :
      Turned shard call w .waiting (w, .established (.ok ref), [.answered call (.ok ref)])
  | enter (unconnected : w.connection? shard = none) :
      Turned shard call w .waiting (w, .opening, [])
  | refuse {w' : Cluster} {e : ShardError} (undisturbed : Undisturbed shard w w') :
      Turned shard call w .opening (w', .established (.error e), [.answered call (.error e)])
  | opened {w' : Cluster} {ref : NativeRef} (undisturbed : Undisturbed shard w w')
      (backend : ref.backend = shard.backend) (new : ¬ w.IsOpened ref)
      (reached : w'.IsOpened ref) :
      Turned shard call w .opening (w', .showing ref [] [], [.opened ref])
  | publish {ref : NativeRef} {heard : List OpenEvent} (drained : (w.slot shard).events = []) :
      Turned shard call w (.showing ref heard [])
        (w.publish shard ref, .established (.ok ref),
          [.published call ref, .answered call (.ok ref)])
  | take {ref : NativeRef} {heard left : List OpenEvent} (queued : (w.slot shard).events = left) :
      Turned shard call w (.showing ref heard [])
        (w.withEvents shard [], .showing ref heard left, [])
  | accept {w' : Cluster} {ref : NativeRef} {heard rest : List OpenEvent}
      {event event' : OpenEvent} (same : event'.bare = event.bare)
      (undisturbed : Undisturbed shard
        (w.withEvents shard ((w.slot shard).events ++ event.registers)) w') :
      Turned shard call w (.showing ref heard (event :: rest))
        (w', .showing ref (heard ++ [event']) rest,
          .shown ref event true :: event.registers.map fun child => .registered child none)
  | reject {w' : Cluster} {ref : NativeRef} {heard rest : List OpenEvent}
      {event event' : OpenEvent} {e : ShardError} (same : event'.bare = event.bare)
      (undisturbed : Undisturbed shard (w.withEvents shard
        (heard ++ event' :: rest ++ ((w.slot shard).events ++ event.registers))) w') :
      Turned shard call w (.showing ref heard (event :: rest))
        (w', .dropping ref e,
          .shown ref event false :: (event.registers.map fun child => .registered child none)
            ++ [.rejected ref])
  | dropped {w' : Cluster} {ref : NativeRef} {e : ShardError}
      (undisturbed : Undisturbed shard w w') :
      Turned shard call w (.dropping ref e)
        (w', .established (.error e), [.answered call (.error e)])
  | pass (unconnected : w.connection? shard = none) :
      Turned shard call w .leaving (w, .closed (.ok ()), [])
  | part {w' : Cluster} {ref : NativeRef} (connected : w.connection? shard = some ref)
      (undisturbed : Undisturbed shard (w.unplug shard) w') :
      Turned shard call w .leaving (w', .parting ref, [.parted ref])
  | parted {w' : Cluster} {ref : NativeRef} {answer : Except ShardError Unit}
      (undisturbed : Undisturbed shard w w') :
      Turned shard call w (.parting ref) (w', .closed answer, [])
  /-- A call that is over stays where it is. -/
  | rest {stage : CallStage} (ended : stage.holds = false) : Turned shard call w stage (w, stage, [])

theorem turn_opening (hbackend : shard.backend < w.backends.length) :
    Turned shard call w .opening (CallStage.opening.turn shard call w) := by
  rw [CallStage.turn]
  rcases w.openConnection_cases shard.backend hbackend with
    ⟨reason, w₁, hopen, hwithin, -⟩ | ⟨n, w₁, hopen, hwithin, -, hnew, hreached, -⟩
  · rw [hopen]
    exact .refuse (.of_within hwithin)
  · rw [hopen]
    exact .opened ((Undisturbed.of_within hwithin).report ..) rfl hnew hreached

theorem turn_showing (hslot : shard.handle < w.slots.length) (ref : NativeRef)
    (heard left : List OpenEvent) :
    Turned shard call w (.showing ref heard left)
      ((CallStage.showing ref heard left).turn shard call w) := by
  cases left with
  | nil =>
    rw [CallStage.turn]
    cases hevents : (w.slot shard).events with
    | nil => exact .publish hevents
    | cons event rest => exact .take hevents
  | cons event rest =>
    obtain ⟨hpresented, -⟩ := w.runEvent_heard shard ref event
    obtain ⟨hevents, hsame⟩ := runEvent_queues hslot ref event
    rw [CallStage.turn]
    generalize w.runEvent shard ref event = ran at hpresented hevents hsame
    obtain ⟨answer, event', w₁⟩ := ran
    have hgrown := Undisturbed.of_presented hslot hpresented hevents
    cases answer with
    | ok done => exact .accept hsame hgrown
    | error e => exact .reject hsame (hgrown.requeue hslot (heard ++ event' :: rest) e)

theorem turn_turned (hslot : shard.handle < w.slots.length)
    (hbackend : shard.backend < w.backends.length) (stage : CallStage) :
    Turned shard call w stage (stage.turn shard call w) := by
  cases stage with
  | waiting =>
    rw [CallStage.turn]
    cases hconnection : w.connection? shard with
    | none => exact .enter hconnection
    | some ref => exact .share hconnection
  | opening => exact turn_opening hbackend
  | showing ref heard left => exact turn_showing hslot ref heard left
  | dropping ref e => exact .dropped (.of_within (w.dispose_within shard ref))
  | leaving =>
    rw [CallStage.turn]
    cases hconnection : w.connection? shard with
    | none => exact .pass hconnection
    | some ref => exact .part hconnection ((Undisturbed.refl shard _).report ..)
  | parting ref =>
    have hwithin := w.closeNative_within ref
    rw [CallStage.turn]
    generalize w.closeNative ref = closed at hwithin
    obtain ⟨answer, w₁⟩ := closed
    cases answer with
    | ok done => exact .parted (.of_within hwithin)
    | error reason => exact .parted (.of_within hwithin)
  | established answer => exact .rest rfl
  | closed answer => exact .rest rfl

/-! ## One call at a time -/

theorem Turned.grows (h : Turned shard call w stage result) : Grows w result.1 := by
  cases h with
  | share | enter | pass | rest => exact .refl w
  | publish | take => exact .setSlot ..
  | accept _ undisturbed | reject _ undisturbed | part _ undisturbed =>
    exact undisturbed.after_setSlot
  | refuse undisturbed | opened undisturbed | dropped undisturbed | parted undisturbed =>
    exact undisturbed.toGrows

/-- As long as a call has the lock, the handle has no connection. -/
theorem Turned.unconnected (h : Turned shard call w stage result)
    (hslot : shard.handle < w.slots.length)
    (halone : stage.holds = true → w.connection? shard = none) (hholds : result.2.1.holds = true) :
    result.1.connection? shard = none := by
  cases h with
  | share | publish | refuse | dropped | pass | parted => exact absurd hholds Bool.false_ne_true
  | enter unconnected => exact unconnected
  | opened undisturbed => exact undisturbed.connection?.trans (halone rfl)
  | take => exact (connection?_withEvents ..).trans (halone rfl)
  | accept _ undisturbed | reject _ undisturbed =>
    exact undisturbed.connection?.trans ((connection?_withEvents ..).trans (halone rfl))
  | part _ undisturbed => exact undisturbed.connection?.trans (connection?_unplug hslot)
  | rest ended => exact absurd hholds (Bool.eq_false_iff.mp ended)

/-- A connection is shown as one of the handle's backend. -/
theorem Turned.own {ref : NativeRef} {heard left : List OpenEvent}
    (h : Turned shard call w stage result)
    (hown : ∀ ref heard left, stage = .showing ref heard left → ref.backend = shard.backend)
    (hshows : result.2.1 = .showing ref heard left) : ref.backend = shard.backend := by
  cases h with
  | share | publish | refuse | dropped | pass | parted | enter | reject | part => cases hshows
  | opened _ backend =>
    cases hshows
    exact backend
  | take | accept =>
    cases hshows
    exact hown _ _ _ rfl
  | rest => exact hown _ _ _ hshows

theorem getElem?_append_cases {α : Type} {l more : List α} {b : α} {i : Nat}
    (h : (l ++ more)[i]? = some b) : l[i]? = some b ∨ l.length ≤ i ∧ b ∈ more := by
  rcases Nat.lt_or_ge i l.length with hlt | hge
  · rw [List.getElem?_append_left hlt] at h
    exact .inl h
  · rw [List.getElem?_append_right hge] at h
    exact .inr ⟨hge, List.mem_of_getElem? h⟩

theorem getElem?_set_cases {α : Type} {l : List α} {a b : α} {i j : Nat}
    (h : (l.set i a)[j]? = some b) : j = i ∧ b = a ∨ j ≠ i ∧ l[j]? = some b := by
  by_cases heq : j = i
  · subst heq
    have hlt : j < l.length := by
      rw [← List.length_set]
      exact (List.getElem?_eq_some_iff.mp h).1
    rw [List.getElem?_set_self hlt] at h
    exact .inl ⟨rfl, (Option.some.inj h).symm⟩
  · rw [List.getElem?_set_ne (Ne.symm heq)] at h
    exact .inr ⟨heq, h⟩

namespace Sharing

variable {s s' : Sharing}

/-- What can happen on a handle without its lock: the cluster after it, the call that began, if one
did, and what it left in the history. -/
inductive Arrived (shard : Shard) (s : Sharing) : Cluster → List CallStage → List Incident → Prop where
  | elsewhere {w : Cluster} (undisturbed : Undisturbed shard s.cluster w) : Arrived shard s w [] []
  | queued (event : OpenEvent) (unconnected : s.cluster.connection? shard = none) :
      Arrived shard s (s.cluster.withEvents shard ((s.cluster.slot shard).events ++ [event])) []
        [.registered event none]
  | returned (event : OpenEvent) {ref : NativeRef}
      (connected : s.cluster.connection? shard = some ref) :
      Arrived shard s s.cluster [] [.registered event (some ref)]
  | shared {ref : NativeRef} (connected : s.cluster.connection? shard = some ref) :
      Arrived shard s s.cluster [.established (.ok ref)] [.answered s.calls.length (.ok ref)]
  | waits (unconnected : s.cluster.connection? shard = none) :
      Arrived shard s s.cluster [.waiting] []
  | leaves : Arrived shard s s.cluster [.leaving] []

/-- The state in which something arrived. -/
def arrive (s : Sharing) (w : Cluster) (calls : List CallStage) (incidents : List Incident) :
    Sharing :=
  { s with cluster := w, calls := s.calls ++ calls, history := s.history ++ incidents }

theorem Step.cases (h : Step shard s s') :
    (∃ w calls incidents, Arrived shard s w calls incidents ∧ s' = s.arrive w calls incidents) ∨
      ∃ call stage, s.Ready call stage ∧ s' = s.advance shard call stage := by
  cases h with
  | advance ready => exact .inr ⟨_, _, ready, rfl⟩
  | disconnect => exact .inl ⟨_, _, _, .leaves, by rw [arrive, List.append_nil]⟩
  | elsewhere undisturbed =>
    exact .inl ⟨_, _, _, .elsewhere undisturbed, by rw [arrive, List.append_nil, List.append_nil]⟩
  | register event =>
    cases hconnection : s.cluster.connection? shard with
    | none =>
      refine .inl ⟨_, _, _, .queued event hconnection, ?_⟩
      rw [Sharing.register, registerEvent_of_unconnected hconnection, arrive, List.append_nil]
    | some ref =>
      refine .inl ⟨_, _, _, .returned event hconnection, ?_⟩
      rw [Sharing.register, registerEvent_of_connected hconnection, arrive, List.append_nil]
  | connect =>
    cases hconnection : s.cluster.connection? shard with
    | none =>
      refine .inl ⟨_, _, _, .waits hconnection, ?_⟩
      rw [Sharing.connect, hconnection, arrive, List.append_nil]
    | some ref =>
      refine .inl ⟨_, _, _, .shared hconnection, ?_⟩
      rw [Sharing.connect, hconnection, arrive]

namespace Arrived

variable {calls : List CallStage} {incidents : List Incident}

theorem grows (h : Arrived shard s w calls incidents) : Grows s.cluster w := by
  cases h with
  | elsewhere undisturbed => exact undisturbed.toGrows
  | queued => exact .setSlot ..
  | returned | shared | waits | leaves => exact .refl _

theorem connection? (h : Arrived shard s w calls incidents) :
    w.connection? shard = s.cluster.connection? shard := by
  cases h with
  | elsewhere undisturbed => exact undisturbed.connection?
  | queued => exact connection?_withEvents ..
  | returned | shared | waits | leaves => rfl

/-- A call begins without the lock. -/
theorem free (h : Arrived shard s w calls incidents) {stage : CallStage} (hmem : stage ∈ calls) :
    stage.holds = false := by
  cases h with
  | elsewhere | queued | returned => cases hmem
  | shared | waits | leaves =>
    rw [List.mem_singleton.mp hmem]
    rfl

end Arrived

/-- The calls on a handle respect its lock, and while one of them has it, the handle has no
connection. -/
structure Governed (shard : Shard) (s : Sharing) : Prop where
  slot : shard.handle < s.cluster.slots.length
  backend : shard.backend < s.cluster.backends.length
  holder : ∀ (call : Nat) stage, s.calls[call]? = some stage → stage.holds = true →
    s.lock = some call ∧ s.cluster.connection? shard = none
  own : ∀ (call : Nat) ref heard left, s.calls[call]? = some (.showing ref heard left) →
    ref.backend = shard.backend

namespace Governed

theorem start (hslot : shard.handle < w.slots.length)
    (hbackend : shard.backend < w.backends.length) : Governed shard (start w) :=
  ⟨hslot, hbackend, nofun, nofun⟩

/-- The turn that a call takes. -/
theorem turned (h : Governed shard s) (call : Nat) (stage : CallStage) :
    Turned shard call s.cluster stage (stage.turn shard call s.cluster) :=
  turn_turned h.slot h.backend stage

theorem unconnected (h : Governed shard s) (hready : s.Ready call stage)
    (hholds : stage.holds = true) : s.cluster.connection? shard = none :=
  (h.holder call stage hready.found hholds).2

theorem own_of_ready (h : Governed shard s) (hready : s.Ready call stage) (ref : NativeRef)
    (heard left : List OpenEvent) (hshows : stage = .showing ref heard left) :
    ref.backend = shard.backend :=
  h.own call ref heard left (hshows ▸ hready.found)

/-- While a call takes its turn, no other call has the lock. -/
theorem others (h : Governed shard s) (hready : s.Ready call stage) {other : Nat}
    {stage' : CallStage} (hfound : s.calls[other]? = some stage') (hne : other ≠ call) :
    stage'.holds = false := by
  refine Bool.eq_false_iff.mpr fun hholds => ?_
  have hlock := (h.holder other stage' hfound hholds).1
  rcases hready.free with hholder | hfree
  · have hown := (h.holder call stage hready.found hholder).1
    exact hne (Option.some.inj (hlock.symm.trans hown))
  · rw [hfree] at hlock
    cases hlock

theorem arrived {calls : List CallStage} {incidents : List Incident} (h : Governed shard s)
    (harrived : Arrived shard s w calls incidents) :
    Governed shard (s.arrive w calls incidents) where
  slot := Nat.lt_of_lt_of_le h.slot harrived.grows.slots
  backend := Nat.lt_of_lt_of_le h.backend harrived.grows.backends
  holder := fun other stage hfound hholds => by
    rcases getElem?_append_cases hfound with hold | ⟨-, hnew⟩
    · obtain ⟨hlock, hnone⟩ := h.holder other stage hold hholds
      exact ⟨hlock, harrived.connection?.trans hnone⟩
    · exact absurd hholds (Bool.eq_false_iff.mp (harrived.free hnew))
  own := fun other ref heard left hfound => by
    rcases getElem?_append_cases hfound with hold | ⟨-, hnew⟩
    · exact h.own other ref heard left hold
    · cases harrived.free hnew

theorem advance (h : Governed shard s) (hready : s.Ready call stage) :
    Governed shard (s.advance shard call stage) := by
  have hturned := h.turned call stage
  have hgrows := hturned.grows
  refine ⟨Nat.lt_of_lt_of_le h.slot hgrows.slots, Nat.lt_of_lt_of_le h.backend hgrows.backends,
    fun other stage' hfound hholds => ?_, fun other ref heard left hfound => ?_⟩
  · rcases getElem?_set_cases hfound with ⟨rfl, rfl⟩ | ⟨hne, hfound⟩
    · exact ⟨if_pos hholds, hturned.unconnected h.slot (h.unconnected hready) hholds⟩
    · rw [h.others hready hfound hne] at hholds
      cases hholds
  · rcases getElem?_set_cases hfound with ⟨rfl, hshows⟩ | ⟨-, hfound⟩
    · exact hturned.own (h.own_of_ready hready) hshows.symm
    · exact h.own other ref heard left hfound

end Governed

end Sharing

end ScatterGather
