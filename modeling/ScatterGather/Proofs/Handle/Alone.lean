import ScatterGather.Proofs.Handle.Sharing

/-!
# A call that nobody interrupts

The turns of a call on a handle are those of `Cluster.establish` and `Cluster.closeShard`: taken one
after the other, with nothing in between, they lead to the same answer and the same cluster
(`establish_alone`, `closeShard_alone`). That the rounds of an attempt suffice is part of it: the
events that one round queues are of a later generation than those it ran.
-/

namespace ScatterGather

/-! ## Generations -/

theorem OpenEvent.generations_pos (event : OpenEvent) : 0 < event.generations := by
  cases event with
  | enlist tx => exact Nat.zero_lt_one
  | hook hook =>
    obtain ⟨tag, rejects, key, children, runs⟩ := hook
    rw [generations, Hook.generations]
    exact Nat.add_pos_left Nat.zero_lt_one _

theorem Hook.generations_le_greatest {hook : Hook} {hooks : List Hook} (h : hook ∈ hooks) :
    hook.generations ≤ greatest hooks := by
  induction hooks with
  | nil => cases h
  | cons first rest ih =>
    rw [greatest]
    rcases List.mem_cons.mp h with rfl | hrest
    · exact Nat.le_max_left ..
    · exact Nat.le_trans (ih hrest) (Nat.le_max_right ..)

/-- What an event registers is of a later generation. -/
theorem OpenEvent.generations_registers {event child : OpenEvent} (h : child ∈ event.registers) :
    child.generations < event.generations := by
  cases event with
  | enlist tx => cases h
  | hook hook =>
    obtain ⟨tag, rejects, key, children, runs⟩ := hook
    obtain ⟨hook, hmem, rfl⟩ := List.mem_map.mp h
    have hle := Hook.generations_le_greatest hmem
    rw [generations, generations, Hook.generations]
    omega

namespace Cluster

variable {w : Cluster} {shard : Shard}

theorem foldl_max_ge (events : List OpenEvent) (most : Nat) :
    most ≤ events.foldl (fun most event => max most event.generations) most ∧
      ∀ event ∈ events,
        event.generations ≤ events.foldl (fun most event => max most event.generations) most := by
  induction events generalizing most with
  | nil => exact ⟨Nat.le_refl _, nofun⟩
  | cons first rest ih =>
    obtain ⟨hmost, hrest⟩ := ih (max most first.generations)
    refine ⟨Nat.le_trans (Nat.le_max_left ..) hmost, fun event hevent => ?_⟩
    rcases List.mem_cons.mp hevent with rfl | hevent
    · exact Nat.le_trans (Nat.le_max_right ..) hmost
    · exact hrest event hevent

theorem generations_le_rounds {event : OpenEvent} (h : event ∈ (w.slot shard).events) :
    event.generations ≤ w.rounds shard :=
  (foldl_max_ge (w.slot shard).events 0).2 event h

/-- A round that all events accept leaves what they registered. -/
theorem runEvents_queues (ref : NativeRef) (events : List OpenEvent)
    (hslot : shard.handle < w.slots.length)
    (hok : (runEvents shard ref events w).1 = .ok ()) :
    ((runEvents shard ref events w).2.2.slot shard).events
      = (w.slot shard).events ++ events.flatMap OpenEvent.registers := by
  induction events generalizing w with
  | nil => exact (List.append_nil _).symm
  | cons event rest ih =>
    obtain ⟨hpresented, -⟩ := w.runEvent_heard shard ref event
    obtain ⟨hevents, -⟩ := runEvent_queues hslot ref event
    rw [runEvents] at hok ⊢
    generalize w.runEvent shard ref event = first at hpresented hevents hok
    obtain ⟨answer, event', w₁⟩ := first
    cases answer with
    | error e => cases hok
    | ok done =>
      have hrest := ih (hpresented.slots ▸ hslot) hok
      rw [List.flatMap_cons, ← List.append_assoc, ← hevents]
      exact hrest

end Cluster

/-! ## Turns of one call -/

/-- The turns that a call takes when no other step comes in between. -/
def Turns (shard : Shard) (call : Nat) : Cluster × CallStage → Cluster × CallStage → Prop :=
  Relation.ReflTransGen fun before after =>
    ∃ incidents, before.2.turn shard call before.1 = (after.1, after.2, incidents)

open Cluster

variable {shard : Shard} {call : Nat} {w w' : Cluster} {stage stage' : CallStage}
variable {ref : NativeRef}

theorem Turns.trans {one two three : Cluster × CallStage} (h : Turns shard call one two)
    (h' : Turns shard call two three) : Turns shard call one three :=
  Relation.ReflTransGen.trans h h'

theorem Turns.single {incidents : List Incident}
    (h : stage.turn shard call w = (w', stage', incidents)) :
    Turns shard call (w, stage) (w', stage') :=
  Relation.ReflTransGen.single ⟨incidents, h⟩

theorem turns_runEvents (shard : Shard) (call : Nat) (ref : NativeRef)
    (events heard : List OpenEvent) (w : Cluster) :
    match runEvents shard ref events w with
    | (.ok (), events', w') =>
      Turns shard call (w, .showing ref heard events) (w', .showing ref (heard ++ events') [])
    | (.error e, events', w') =>
      Turns shard call (w, .showing ref heard events)
        (w'.reject shard ref (heard ++ events') e, .established (.error e)) := by
  induction events generalizing heard w with
  | nil =>
    rw [runEvents]
    simp only [List.append_nil]
    exact .refl
  | cons event rest ih =>
    rw [runEvents]
    cases hran : w.runEvent shard ref event with
    | mk answer ran =>
      obtain ⟨event', w₁⟩ := ran
      cases answer with
      | error e =>
        have hturn : Turns shard call (w, .showing ref heard (event :: rest))
            (w₁.requeue shard (heard ++ event' :: rest) e, .dropping ref e) :=
          .single (by rw [CallStage.turn, hran])
        simp only [reject_eq_dispose]
        exact hturn.trans (.single rfl)
      | ok done =>
        have hturn : Turns shard call (w, .showing ref heard (event :: rest))
            (w₁, .showing ref (heard ++ [event']) rest) :=
          .single (by rw [CallStage.turn, hran])
        have hrest := ih (heard ++ [event']) w₁
        simp only
        cases hrestRan : runEvents shard ref rest w₁ with
        | mk answer ran =>
          obtain ⟨rest', w₂⟩ := ran
          simp only [hrestRan, List.append_assoc, List.singleton_append] at hrest
          cases answer with
          | error e => exact hturn.trans hrest
          | ok done => exact hturn.trans hrest

/-- The rounds of an attempt, with as many of them as there are generations. -/
theorem turns_settle (ref : NativeRef) (hslot : shard.handle < w.slots.length) (rounds : Nat)
    (hrounds : ∀ event ∈ (w.slot shard).events, event.generations ≤ rounds)
    (heard : List OpenEvent) :
    Turns shard call (w, .showing ref heard [])
      ((settle shard ref rounds heard w).2, .established (settle shard ref rounds heard w).1) := by
  induction rounds generalizing w heard with
  | zero =>
    have hnone : (w.slot shard).events = [] := by
      refine List.eq_nil_iff_forall_not_mem.mpr fun event hevent => ?_
      exact absurd (hrounds event hevent) (Nat.not_le.mpr event.generations_pos)
    rw [settle_of_nil hnone]
    exact .single (by rw [CallStage.turn, hnone])
  | succ rounds ih =>
    cases hevents : (w.slot shard).events with
    | nil =>
      rw [settle_of_nil hevents]
      exact .single (by rw [CallStage.turn, hevents])
    | cons event rest =>
      have htake : Turns shard call (w, .showing ref heard [])
          (w.withEvents shard [], .showing ref heard (event :: rest)) :=
        .single (by rw [CallStage.turn, hevents])
      have hround := turns_runEvents shard call ref (event :: rest) heard
        (w.withEvents shard [])
      have hemptied : shard.handle < (w.withEvents shard []).slots.length :=
        Nat.lt_of_lt_of_eq hslot List.length_set.symm
      rw [settle_of_cons hevents]
      cases hran : runEvents shard ref (event :: rest) (w.withEvents shard []) with
      | mk answer ran =>
        obtain ⟨events', w₁⟩ := ran
        rw [hran] at hround
        cases answer with
        | error e => exact htake.trans hround
        | ok done =>
          obtain ⟨hpresented, -⟩ :=
            runEvents_heard shard ref (event :: rest) (w.withEvents shard [])
          rw [hran] at hpresented
          refine (htake.trans hround).trans (ih (hpresented.slots ▸ hemptied) ?_ _)
          -- What waits now was registered in this round, by events of an earlier generation.
          have hqueued := runEvents_queues ref (event :: rest) hemptied (by rw [hran])
          rw [hran, events_withEvents hslot, List.nil_append] at hqueued
          intro child hchild
          rw [hqueued] at hchild
          obtain ⟨parent, hparent, hregistered⟩ := List.mem_flatMap.mp hchild
          have hlater := OpenEvent.generations_registers hregistered
          have hbound := hrounds parent (hevents ▸ hparent)
          omega

theorem turns_establish (hslot : shard.handle < w.slots.length)
    (hbackend : shard.backend < w.backends.length) :
    Turns shard call (w, .waiting)
      ((w.establish shard).2, .established (w.establish shard).1) := by
  unfold establish
  cases hconnection : w.connection? shard with
  | some ref => exact .single (by rw [CallStage.turn, hconnection])
  | none =>
    have henter : Turns shard call (w, .waiting) (w, .opening) :=
      .single (by rw [CallStage.turn, hconnection])
    rcases w.openConnection_cases shard.backend hbackend with
      ⟨reason, w₁, hopen, -⟩ | ⟨number, w₁, hopen, hwithin, -⟩
    · rw [hopen]
      exact henter.trans (.single (by rw [CallStage.turn, hopen]))
    · rw [hopen]
      have hturn : Turns shard call (w, .opening)
          (report .info ("open session on shard " ++ shard.label) w₁,
            .showing ⟨shard.backend, number⟩ [] []) :=
        .single (by rw [CallStage.turn, hopen])
      have hslot₁ : shard.handle
          < (report .info ("open session on shard " ++ shard.label) w₁).slots.length :=
        Nat.lt_of_lt_of_eq hslot (congrArg List.length hwithin.slots.symm)
      exact (henter.trans hturn).trans
        (turns_settle _ hslot₁ _ (fun event => generations_le_rounds) [])

theorem closeShard_of_connected (h : w.connection? shard = some ref) :
    w.closeShard shard =
      match (report .debug ("close session on shard " ++ shard.label)
        (w.unplug shard)).closeNative ref with
      | (.ok (), w) => (.ok (), w)
      | (.error reason, w) => (.error (.session shard.physicalId reason.message), w) := by
  rw [closeShard, h]
  rfl

theorem turns_closeShard (shard : Shard) (call : Nat) (w : Cluster) :
    Turns shard call (w, .leaving) ((w.closeShard shard).2, .closed (w.closeShard shard).1) := by
  cases hconnection : w.connection? shard with
  | none =>
    rw [closeShard, hconnection]
    exact .single (by rw [CallStage.turn, hconnection])
  | some ref =>
    have hpart : Turns shard call (w, .leaving)
        (report .debug ("close session on shard " ++ shard.label) (w.unplug shard),
          .parting ref) :=
      .single (by rw [CallStage.turn, hconnection])
    rw [closeShard_of_connected hconnection]
    refine hpart.trans ?_
    cases hclose : (report .debug ("close session on shard " ++ shard.label)
        (w.unplug shard)).closeNative ref with
    | mk answer w₁ =>
      cases answer with
      | ok done => exact .single (by rw [CallStage.turn, hclose])
      | error reason => exact .single (by rw [CallStage.turn, hclose])

/-! ## The call among others -/

namespace Sharing

variable {s : Sharing}

theorem Ready.advance (h : s.Ready call stage) (shard : Shard) :
    (s.advance shard call stage).Ready call (stage.turn shard call s.cluster).2.1 where
  found := List.getElem?_set_self (List.getElem?_eq_some_iff.mp h.found).1
  free := by
    unfold Sharing.advance
    simp only
    split
    case isTrue hholds => exact .inl hholds
    case isFalse => exact .inr rfl

/-- A call that is ready can take any number of turns in a row. -/
theorem Ready.turns (h : s.Ready call stage)
    (hturns : Turns shard call (s.cluster, stage) (w', stage')) :
    ∃ s', Reaches shard s s' ∧ s'.cluster = w' ∧ s'.calls = s.calls.set call stage'
      ∧ s'.Ready call stage' := by
  generalize hafter : (w', stage') = after at hturns
  induction hturns generalizing w' stage' with
  | refl =>
    cases hafter
    refine ⟨s, .refl, rfl, ?_, h⟩
    obtain ⟨hlt, hfound⟩ := List.getElem?_eq_some_iff.mp h.found
    rw [← hfound, List.set_getElem_self]
  | @tail before after _ hturn ih =>
    subst hafter
    obtain ⟨w₁, stage₁⟩ := before
    obtain ⟨s₁, hreaches, hcluster, hcalls, hready⟩ := ih rfl
    obtain ⟨incidents, hturn⟩ := hturn
    subst hcluster
    refine ⟨s₁.advance shard call stage₁, hreaches.tail (.advance hready), ?_, ?_, ?_⟩
    · exact congrArg (·.1) hturn
    · have hcalls₁ : (s₁.advance shard call stage₁).calls =
          s₁.calls.set call (stage₁.turn shard call s₁.cluster).2.1 := rfl
      rw [hcalls₁, hturn, hcalls, List.set_set]
    · have hready₁ := hready.advance shard
      rwa [hturn] at hready₁

/-- A call that begins when the lock is free and is not interrupted. -/
theorem runs_alone (hfree : s.lock = none) (hends : stage'.holds = false)
    (hbegin : Step shard s { s with calls := s.calls ++ [stage] })
    (hturns : Turns shard s.calls.length (s.cluster, stage) (w', stage')) :
    ∃ s', Reaches shard s s' ∧ s'.cluster = w' ∧ s'.lock = none
      ∧ s'.calls = s.calls ++ [stage'] := by
  have hready : ({ s with calls := s.calls ++ [stage] } : Sharing).Ready s.calls.length stage :=
    ⟨List.getElem?_concat_length, .inr hfree⟩
  obtain ⟨s', hreaches, hcluster, hcalls, hready'⟩ := hready.turns hturns
  refine ⟨s', .head hbegin hreaches, hcluster, ?_, ?_⟩
  · exact hready'.free.resolve_left (Bool.eq_false_iff.mp hends)
  · rw [hcalls]
    simp

/-- `establish` is the interleaving in which nothing comes in between. -/
theorem Governed.establish_alone (h : Governed shard s) (hfree : s.lock = none) :
    ∃ s', Reaches shard s s' ∧ s'.cluster = (s.cluster.establish shard).2 ∧ s'.lock = none
      ∧ s'.calls = s.calls ++ [.established (s.cluster.establish shard).1] := by
  cases hconnection : s.cluster.connection? shard with
  | some ref =>
    refine ⟨s.connect shard, .single .connect, ?_⟩
    rw [connect, establish, hconnection]
    exact ⟨rfl, hfree, rfl⟩
  | none =>
    have hconnect : s.connect shard = { s with calls := s.calls ++ [.waiting] } := by
      rw [connect, hconnection]
    exact runs_alone hfree rfl (hconnect ▸ .connect) (turns_establish h.slot h.backend)

/-- `closeShard` is the interleaving in which nothing comes in between. -/
theorem closeShard_alone (shard : Shard) (hfree : s.lock = none) :
    ∃ s', Reaches shard s s' ∧ s'.cluster = (s.cluster.closeShard shard).2 ∧ s'.lock = none
      ∧ s'.calls = s.calls ++ [.closed (s.cluster.closeShard shard).1] :=
  runs_alone hfree rfl .disconnect (turns_closeShard shard s.calls.length s.cluster)

end Sharing

end ScatterGather
