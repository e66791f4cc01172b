import Mathlib.Logic.Relation
import ScatterGather.Access.Parallel

/-!
# Schedules of a concurrent call

What may happen next to a concurrent call: a shard is started, a running operation ends, the merger
takes an outcome, or it cancels the call. Here everything is left open that the runtime decides:
which of the shards starts next and when, which outcome reaches the merger first, and how long after
a failure the call is cancelled. Permits and the cancellation are not even looked at, so what every
step keeps holds on every runtime. How permits are handed out, and that the machine in virtual time
takes one of these schedules, is the subject of `Race`; here are the facts about its rounds, with
enough of which nothing is left to do (`settle_rests`).
-/

namespace ScatterGather.Parallel.Flight

variable {ω σ T O : Type}

/-- Nothing is left to do: no operation runs, every outcome was read, and no shard can be
started. -/
structure AtRest (flight : Flight ω σ T) : Prop where
  running : flight.running = []
  arrived : flight.arrived = []
  queue : flight.queue = [] ∨ flight.cancelled = true

/-- How a call ends that came to this flight. -/
def conclude (operation : Operation ω T) (strategy : ExitStrategy σ T O)
    (collector : Option (Collector O)) (flight : Flight ω σ T) : Outcome ω σ O :=
  match flight.verdict with
  | some (.error e) => .failed e flight.exit flight.world flight.trace
  | some (.ok ()) => .compiled strategy collector flight.exit flight.world flight.trace
  | none =>
    match flight.merger.error? operation.name with
    | some e => .failed e flight.exit flight.world flight.trace
    | none => .compiled strategy collector flight.exit flight.world flight.trace

variable [Journaled ω]

theorem dispatch_eq_conclude (operation : Operation ω T) (strategy : ExitStrategy σ T O)
    (collector : Option (Collector O)) (permits : Nat) (order : MergeOrder) (shards : List Shard)
    (exit : σ) (world : ω) :
    dispatch operation strategy collector permits order shards exit world =
      conclude operation strategy collector
        ((start order shards exit world).settle operation strategy permits shards.length
          shards.length) :=
  rfl

/-- The merger takes an outcome, and has not cancelled the call yet where it will. -/
def take (strategy : ExitStrategy σ T O) (name : String) (dispatched : Nat) (flight : Flight ω σ T)
    (arrival : Arrival T) : Flight ω σ T :=
  { flight.read strategy name dispatched arrival with
    cancelled := flight.cancelled
    trace := flight.trace }

/-- What may happen next to a concurrent call. -/
inductive Step (operation : Operation ω T) (strategy : ExitStrategy σ T O) (dispatched : Nat) :
    Flight ω σ T → Flight ω σ T → Prop where
  /-- Any shard that was not started yet is, and its operation runs. -/
  | start {flight : Flight ω σ T} {position : Nat} {shard : Shard} {rest : List (Nat × Shard)}
      (queue : flight.queue.Perm ((position, shard) :: rest)) (endsAt : Nat) :
      Step operation strategy dispatched flight
        { flight with
          queue := rest
          running := flight.running ++ [⟨endsAt, position, shard⟩]
          trace := flight.trace ++ [.started position shard.physicalId] }
  /-- Any shard that was not started yet is, and its operation is over at once. -/
  | pass {flight : Flight ω σ T} {position : Nat} {shard : Shard} {rest : List (Nat × Shard)}
      (queue : flight.queue.Perm ((position, shard) :: rest)) :
      Step operation strategy dispatched flight
        (finish operation
          { flight with
            queue := rest
            trace := flight.trace ++ [.started position shard.physicalId] } position shard)
  /-- One of the running operations ends. -/
  | finish {flight : Flight ω σ T} {next : Ongoing} (mem : next ∈ flight.running) (now : Nat) :
      Step operation strategy dispatched flight
        (finish operation
          { flight with
            now := now
            running := flight.running.filter fun running => running.position != next.position }
          next.position next.shard)
  /-- The merger takes any of the outcomes that are there. -/
  | take {flight : Flight ω σ T} {arrival : Arrival T} {rest : List (Arrival T)}
      (arrived : flight.arrived.Perm (arrival :: rest)) :
      Step operation strategy dispatched flight
        (take strategy operation.name dispatched { flight with arrived := rest } arrival)
  /-- The call is cancelled, at any time after a failure or a verdict. -/
  | cancel {flight : Flight ω σ T} (why : flight.verdict ≠ none ∨ flight.merger.failures ≠ []) :
      Step operation strategy dispatched flight flight.cancel

/-- The flights that some schedule leads to. -/
abbrev Reaches (operation : Operation ω T) (strategy : ExitStrategy σ T O) (dispatched : Nat) :
    Flight ω σ T → Flight ω σ T → Prop :=
  Relation.ReflTransGen (Step operation strategy dispatched)

section

variable {operation : Operation ω T} {strategy : ExitStrategy σ T O} {permits dispatched : Nat}

/-! ## Launching -/

omit [Journaled ω] in
/-- Launching ends for want of shards, of permission or of permits. -/
theorem launch_stops (flight : Flight ω σ T) (queue : List (Nat × Shard)) :
    let after := flight.launch operation permits queue
    after.queue = [] ∨ after.cancelled = true ∨ permits ≤ after.running.length := by
  induction queue generalizing flight with
  | nil => exact .inl rfl
  | cons head rest ih =>
    rw [launch]
    split
    case isTrue hstop => exact .inr hstop
    case isFalse =>
      split
      · exact ih _
      · exact ih _

omit [Journaled ω] in
/-- A started shard leaves the queue, and at most takes a place among the running ones. -/
theorem launch_length_le (flight : Flight ω σ T) (queue : List (Nat × Shard)) :
    (flight.launch operation permits queue).queue.length
      + (flight.launch operation permits queue).running.length
      ≤ queue.length + flight.running.length := by
  induction queue generalizing flight with
  | nil => exact Nat.le_refl _
  | cons head rest ih =>
    rw [launch]
    split
    case isTrue => exact Nat.le_refl _
    case isFalse =>
      split
      case isTrue =>
        refine Nat.le_trans (ih _) ?_
        simp only [Flight.finish, List.length_cons]
        omega
      case isFalse =>
        refine Nat.le_trans (ih _) ?_
        simp only [List.length_append, List.length_cons, List.length_nil]
        omega

/-! ## Reading -/

@[simp]
theorem read_queue (flight : Flight ω σ T) (name : String) (arrival : Arrival T) :
    (flight.read strategy name dispatched arrival).queue = flight.queue := by
  unfold read cancel
  split
  · rfl
  · split
    · rfl
    · dsimp only
      split <;> rfl

@[simp]
theorem read_running (flight : Flight ω σ T) (name : String) (arrival : Arrival T) :
    (flight.read strategy name dispatched arrival).running = flight.running := by
  unfold read cancel
  split
  · rfl
  · split
    · rfl
    · dsimp only
      split <;> rfl

@[simp]
theorem take_queue (flight : Flight ω σ T) (name : String) (arrival : Arrival T) :
    (flight.take strategy name dispatched arrival).queue = flight.queue :=
  flight.read_queue name arrival

@[simp]
theorem take_running (flight : Flight ω σ T) (name : String) (arrival : Arrival T) :
    (flight.take strategy name dispatched arrival).running = flight.running :=
  flight.read_running name arrival

@[simp]
theorem take_cancelled (flight : Flight ω σ T) (name : String) (arrival : Arrival T) :
    (flight.take strategy name dispatched arrival).cancelled = flight.cancelled :=
  rfl

@[simp]
theorem take_trace (flight : Flight ω σ T) (name : String) (arrival : Arrival T) :
    (flight.take strategy name dispatched arrival).trace = flight.trace :=
  rfl

/-- Reading does not look at the outcomes behind the one it reads. -/
theorem read_arrived (strategy : ExitStrategy σ T O) (dispatched : Nat) (flight : Flight ω σ T)
    (name : String) (arrival : Arrival T) (rest : List (Arrival T)) :
    read strategy name dispatched { flight with arrived := rest } arrival =
      { read strategy name dispatched flight arrival with arrived := rest } := by
  unfold read cancel
  dsimp only
  split
  · rfl
  · split
    · rfl
    · split <;> rfl

@[simp]
theorem take_arrived (strategy : ExitStrategy σ T O) (dispatched : Nat) (flight : Flight ω σ T)
    (name : String) (arrival : Arrival T) (rest : List (Arrival T)) :
    (take strategy name dispatched { flight with arrived := rest } arrival).arrived = rest :=
  congrArg Flight.arrived (read_arrived strategy dispatched flight name arrival rest)

theorem read_cancelled (flight : Flight ω σ T) (name : String) (arrival : Arrival T)
    (h : flight.cancelled = true) :
    (flight.read strategy name dispatched arrival).cancelled = true := by
  unfold read cancel
  split
  · exact h
  · split
    · rfl
    · dsimp only
      split
      · exact h
      · rfl
      · rfl

theorem foldl_read_frame (strategy : ExitStrategy σ T O) (dispatched : Nat)
    (flight : Flight ω σ T) (name : String) (arrived : List (Arrival T)) :
    let after := arrived.foldl (fun flight arrival =>
      flight.read strategy name dispatched arrival) flight
    after.queue = flight.queue ∧ after.running = flight.running
      ∧ (flight.cancelled = true → after.cancelled = true)
      ∧ (flight.arrived = [] → after.arrived = []) := by
  induction arrived generalizing flight with
  | nil => exact ⟨rfl, rfl, id, id⟩
  | cons arrival rest ih =>
    obtain ⟨hqueue, hrunning, hcancelled, harrived⟩ :=
      ih (flight.read strategy name dispatched arrival)
    refine ⟨by simpa using hqueue, by simpa using hrunning,
      fun h => hcancelled (read_cancelled flight name arrival h), fun h => harrived ?_⟩
    have hread := read_arrived strategy dispatched flight name arrival []
    rw [← h] at hread
    exact (congrArg Flight.arrived hread).trans h

/-! ## Settling -/

theorem earliest?_mem {running : List Ongoing} {next : Ongoing}
    (h : earliest? running = some next) : next ∈ running := by
  induction running generalizing next with
  | nil => cases h
  | cons head rest ih =>
    rw [earliest?] at h
    split at h
    case h_1 =>
      obtain rfl := Option.some.inj h
      exact List.mem_cons_self
    case h_2 other hrest =>
      split at h
      · obtain rfl := Option.some.inj h
        exact List.mem_cons_of_mem _ (ih hrest)
      · obtain rfl := Option.some.inj h
        exact List.mem_cons_self

theorem eq_nil_of_earliest?_eq_none {running : List Ongoing} (h : earliest? running = none) :
    running = [] := by
  cases running with
  | nil => rfl
  | cons head rest =>
    rw [earliest?] at h
    split at h
    · cases h
    · split at h <;> cases h

/-- A round of the machine: start what can be started, then read what has arrived. -/
def round (operation : Operation ω T) (strategy : ExitStrategy σ T O) (permits dispatched : Nat)
    (flight : Flight ω σ T) : Flight ω σ T :=
  (flight.launch operation permits flight.queue).readAll strategy operation.name dispatched

theorem round_arrived (flight : Flight ω σ T) :
    (flight.round operation strategy permits dispatched).arrived = [] :=
  (foldl_read_frame strategy dispatched
    { flight.launch operation permits flight.queue with arrived := [] } operation.name _).2.2.2 rfl

theorem round_length_le (operation : Operation ω T) (strategy : ExitStrategy σ T O)
    (permits dispatched : Nat) (flight : Flight ω σ T) :
    (flight.round operation strategy permits dispatched).queue.length
      + (flight.round operation strategy permits dispatched).running.length
      ≤ flight.queue.length + flight.running.length := by
  obtain ⟨hqueue, hrunning, -, -⟩ := foldl_read_frame strategy dispatched
    { flight.launch operation permits flight.queue with arrived := [] } operation.name
    (flight.launch operation permits flight.queue).arrived
  rw [round, readAll, hqueue, hrunning]
  exact launch_length_le flight flight.queue

/-- After a round in which nothing was left running, nothing is left to do. -/
theorem round_rests (hpermits : 0 < permits) (flight : Flight ω σ T)
    (h : (flight.round operation strategy permits dispatched).running = []) :
    (flight.round operation strategy permits dispatched).AtRest := by
  refine ⟨h, round_arrived flight, ?_⟩
  have hframe := foldl_read_frame strategy dispatched
    { flight.launch operation permits flight.queue with arrived := [] } operation.name
    (flight.launch operation permits flight.queue).arrived
  obtain ⟨hqueue, hrunning, hcancelled, -⟩ := hframe
  rcases launch_stops flight flight.queue with hstop | hstop | hstop
  · exact .inl (hqueue.trans hstop)
  · exact .inr (hcancelled hstop)
  · have hnone : (flight.launch operation permits flight.queue).running = [] :=
      hrunning.symm.trans h
    rw [hnone] at hstop
    exact absurd hstop (Nat.not_le_of_lt hpermits)

theorem settle_zero (flight : Flight ω σ T) :
    flight.settle operation strategy permits dispatched 0 =
      flight.round operation strategy permits dispatched := by
  rw [settle.eq_def]
  dsimp only
  split
  · rfl
  · rfl
  · contradiction

theorem settle_succ (rounds : Nat) (flight : Flight ω σ T) :
    flight.settle operation strategy permits dispatched (rounds + 1) =
      match earliest? (flight.round operation strategy permits dispatched).running with
      | none => flight.round operation strategy permits dispatched
      | some next =>
        let flight := flight.round operation strategy permits dispatched
        (finish operation
          { flight with
            now := next.endsAt
            running := flight.running.filter fun running => running.position != next.position }
          next.position next.shard).settle operation strategy permits dispatched rounds := by
  rw [settle.eq_def]
  dsimp only
  rw [show readAll strategy operation.name dispatched
    (launch operation permits flight flight.queue)
      = flight.round operation strategy permits dispatched from rfl]
  cases earliest? (flight.round operation strategy permits dispatched).running with
  | none => rfl
  | some next => rfl

/-- Each round ends one operation, so as many rounds as there are shards not over are enough. -/
theorem settle_rests (hpermits : 0 < permits) (rounds : Nat) (flight : Flight ω σ T)
    (h : flight.queue.length + flight.running.length ≤ rounds) :
    (flight.settle operation strategy permits dispatched rounds).AtRest := by
  induction rounds generalizing flight with
  | zero =>
    rw [settle_zero]
    have hle := round_length_le operation strategy permits dispatched flight
    exact round_rests hpermits flight (List.eq_nil_of_length_eq_zero (by omega))
  | succ rounds ih =>
    rw [settle_succ]
    split
    case h_1 hnone =>
      exact round_rests hpermits flight (eq_nil_of_earliest?_eq_none hnone)
    case h_2 next hnext =>
      refine ih _ ?_
      have hle := round_length_le operation strategy permits dispatched flight
      have hlt : ((flight.round operation strategy permits dispatched).running.filter
          fun running => running.position != next.position).length
            < (flight.round operation strategy permits dispatched).running.length :=
        List.length_filter_lt_length_iff_exists.mpr ⟨next, earliest?_mem hnext, by simp⟩
      simp only [Flight.finish]
      omega

end

end ScatterGather.Parallel.Flight
