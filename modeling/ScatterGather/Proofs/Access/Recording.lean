import ScatterGather.Access.Strategy
import ScatterGather.Proofs.Access.Schedule

/-!
# Calls do not look into the exit strategy

A call uses an exit strategy through its answers alone. So if one strategy is a finer view of
another, giving the same answers, the two calls are the same up to that view (`apply_view`). In
particular a strategy can be recorded without changing the call (`apply_recorded`), which makes
"the results that the exit strategy received" something to state theorems about (`received`).
-/

namespace ScatterGather

variable {ω σ τ T O : Type}

/-- The `fine` strategy answers as the `coarse` one does on what `view` shows of its state. -/
structure ExitStrategy.Refines (fine : ExitStrategy τ T O) (coarse : ExitStrategy σ T O)
    (view : τ → σ) : Prop where
  add : ∀ state result shard, coarse.add (view state) result shard =
    ((fine.add state result shard).1, view (fine.add state result shard).2)
  compile : ∀ state, coarse.compile (view state) =
    ((fine.compile state).1, view (fine.compile state).2)

theorem ExitStrategy.recorded_refines (strategy : ExitStrategy σ T O) :
    (strategy.recorded none).Refines strategy Recording.state where
  add := by
    intro state result shard
    have hanswer : ∀ answer : Except ShardError Bool, answer.map (· || false) = answer := by
      intro answer
      cases answer <;> simp [Except.map]
    simp only [recorded, hanswer]
  compile := fun state => rfl

theorem ExitStrategy.Refines.compileWith {fine : ExitStrategy τ T O} {coarse : ExitStrategy σ T O}
    {view : τ → σ} (h : fine.Refines coarse view) (collector : Option (Collector O)) (state : τ) :
    coarse.compileWith collector (view state) =
      ((fine.compileWith collector state).1, view (fine.compileWith collector state).2) := by
  unfold ExitStrategy.compileWith
  rw [h.compile]
  cases collector with
  | none => rfl
  | some collector => rfl

/-- An outcome with a coarser view of the exit strategy. -/
def Outcome.view (view : τ → σ) (outcome : Outcome ω τ O) : Outcome ω σ O :=
  ⟨outcome.result, view outcome.exit, outcome.world, outcome.trace⟩

/-- A flight with a coarser view of the exit strategy. -/
def Parallel.Flight.view (view : τ → σ) (flight : Flight ω τ T) : Flight ω σ T :=
  ⟨flight.now, flight.queue, flight.running, flight.arrived, flight.cancelled, flight.merger,
    flight.verdict, view flight.exit, flight.world, flight.trace⟩

section

variable {fine : ExitStrategy τ T O} {coarse : ExitStrategy σ T O} {view : τ → σ}

theorem Outcome.compiled_view (h : fine.Refines coarse view) (collector : Option (Collector O))
    (exit : τ) (world : ω) (trace : List Mark) :
    Outcome.compiled coarse collector (view exit) world trace =
      (Outcome.compiled fine collector exit world trace).view view := by
  unfold Outcome.compiled
  rw [h.compileWith]
  rfl

variable [Journaled ω]

theorem feed_view (h : fine.Refines coarse view) (name : String) (shard : Shard)
    (result : Option T) (exit : τ) (world : ω) :
    feed coarse name shard result (view exit) world =
      let fed := feed fine name shard result exit world
      (fed.1, view fed.2.1, fed.2.2) := by
  unfold feed
  rw [h.add]
  generalize fine.add exit result (some shard) = added
  obtain ⟨answer, exit'⟩ := added
  match answer with
  | .ok false | .ok true | .error e => rfl

theorem Sequential.visit_view (h : fine.Refines coarse view) (operation : Operation ω T)
    (collector : Option (Collector O)) (shards : List Shard) (completed : List ShardId) (exit : τ)
    (world : ω) :
    visit operation coarse collector shards completed (view exit) world =
      (visit operation fine collector shards completed exit world).view view := by
  induction shards generalizing completed exit world with
  | nil => exact Outcome.compiled_view h collector exit world []
  | cons shard rest ih =>
    unfold visit
    generalize operation.run shard world = ran
    obtain ⟨outcome, world'⟩ := ran
    match outcome with
    | .error (.panicked payload) => rfl
    | .error (.failed source) => rfl
    | .ok result =>
      dsimp only
      rw [feed_view h]
      dsimp only
      generalize feed fine operation.name shard result exit world' = fed
      obtain ⟨answer, exit', world''⟩ := fed
      match answer with
      | .error e => rfl
      | .ok true => exact Outcome.compiled_view h collector exit' world'' _
      | .ok false =>
        dsimp only
        rw [ih]
        rfl

namespace Merger

theorem drain_view (h : fine.Refines coarse view) (name : String)
    (pending : List (Nat × Shard × Option T)) (next : Nat) (exit : τ) (world : ω) :
    drain coarse name pending next (view exit) world =
      let drained := drain fine name pending next exit world
      (drained.1, drained.2.1, drained.2.2.1, view drained.2.2.2.1, drained.2.2.2.2) := by
  induction pending generalizing next exit world with
  | nil => rfl
  | cons head rest ih =>
    obtain ⟨position, shard, result⟩ := head
    unfold drain
    split
    · rw [feed_view h]
      dsimp only
      generalize feed fine name shard result exit world = fed
      obtain ⟨answer, exit', world'⟩ := fed
      match answer with
      | .ok false => exact ih (next + 1) exit' world'
      | .ok true => rfl
      | .error e => rfl
    · rfl

theorem accept_view (h : fine.Refines coarse view) (name : String) (merger : Merger T)
    (position : Nat) (shard : Shard) (result : Option T) (exit : τ) (world : ω) :
    merger.accept coarse name position shard result (view exit) world =
      let accepted := merger.accept fine name position shard result exit world
      (accepted.1, accepted.2.1, view accepted.2.2.1, accepted.2.2.2) := by
  unfold accept
  dsimp only
  split
  · rfl
  · split
    · rw [feed_view h]
    · rw [drain_view h]

end Merger

namespace Parallel.Flight

omit [Journaled ω] in
theorem launch_view (view : τ → σ) (operation : Operation ω T) (permits : Nat)
    (flight : Flight ω τ T) (queue : List (Nat × Shard)) :
    (flight.view view).launch operation permits queue =
      (flight.launch operation permits queue).view view := by
  induction queue generalizing flight with
  | nil => rfl
  | cons head rest ih =>
    obtain ⟨position, shard⟩ := head
    by_cases hstop : flight.cancelled = true ∨ permits ≤ flight.running.length
    · rw [launch, launch, if_pos hstop, if_pos (by exact hstop)]
      rfl
    · rw [launch, launch, if_neg hstop, if_neg (by exact hstop)]
      dsimp only
      split
      · exact ih (finish operation { flight with
          trace := flight.trace ++ [.started position shard.physicalId] } position shard)
      · exact ih { flight with
          trace := flight.trace ++ [.started position shard.physicalId]
          running := flight.running
            ++ [⟨flight.now + operation.delay shard, position, shard⟩] }

theorem read_view (h : fine.Refines coarse view) (name : String) (dispatched : Nat)
    (flight : Flight ω τ T) (arrival : Arrival T) :
    (flight.view view).read coarse name dispatched arrival =
      (flight.read fine name dispatched arrival).view view := by
  unfold read
  by_cases hdone : flight.verdict.isSome
  · rw [if_pos hdone, if_pos (by exact hdone)]
  · rw [if_neg hdone, if_neg (by exact hdone)]
    cases arrival.outcome with
    | error mishap => rfl
    | ok result =>
      have haccept := Merger.accept_view h name flight.merger arrival.position arrival.shard result
        flight.exit flight.world
      dsimp only [Flight.view] at haccept ⊢
      rw [haccept]
      generalize flight.merger.accept fine name arrival.position arrival.shard result flight.exit
        flight.world = accepted
      obtain ⟨answer, merger, exit, world⟩ := accepted
      match answer with
      | .ok false | .ok true | .error e => rfl

theorem readAll_view (h : fine.Refines coarse view) (name : String) (dispatched : Nat)
    (flight : Flight ω τ T) :
    (flight.view view).readAll coarse name dispatched =
      (flight.readAll fine name dispatched).view view := by
  have hfold : ∀ (arrived : List (Arrival T)) (flight : Flight ω τ T),
      arrived.foldl (fun flight arrival => flight.read coarse name dispatched arrival)
          (flight.view view) =
        (arrived.foldl (fun flight arrival => flight.read fine name dispatched arrival)
          flight).view view := by
    intro arrived
    induction arrived with
    | nil => exact fun _ => rfl
    | cons arrival rest ih =>
      intro flight
      rw [List.foldl_cons, List.foldl_cons, read_view h]
      exact ih _
  exact hfold flight.arrived { flight with arrived := [] }

theorem round_view (h : fine.Refines coarse view) (operation : Operation ω T)
    (permits dispatched : Nat) (flight : Flight ω τ T) :
    (flight.view view).round operation coarse permits dispatched =
      (flight.round operation fine permits dispatched).view view := by
  rw [round, round, ← readAll_view h, ← launch_view]
  rfl

theorem settle_view (h : fine.Refines coarse view) (operation : Operation ω T)
    (permits dispatched rounds : Nat) (flight : Flight ω τ T) :
    (flight.view view).settle operation coarse permits dispatched rounds =
      (flight.settle operation fine permits dispatched rounds).view view := by
  induction rounds generalizing flight with
  | zero =>
    rw [settle_zero, settle_zero]
    exact round_view h operation permits dispatched flight
  | succ rounds ih =>
    rw [settle_succ, settle_succ, round_view h]
    generalize flight.round operation fine permits dispatched = flight
    cases hnext : earliest? flight.running with
    | none =>
      rw [show (flight.view view).running = flight.running from rfl, hnext]
    | some next =>
      rw [show (flight.view view).running = flight.running from rfl, hnext]
      exact ih (finish operation
        { flight with
          now := next.endsAt
          running := flight.running.filter fun running => running.position != next.position }
        next.position next.shard)

omit [Journaled ω] in
theorem conclude_view (h : fine.Refines coarse view) (operation : Operation ω T)
    (collector : Option (Collector O)) (flight : Flight ω τ T) :
    (flight.view view).conclude operation coarse collector =
      (flight.conclude operation fine collector).view view := by
  have hcompiled := Outcome.compiled_view h collector flight.exit flight.world flight.trace
  unfold conclude
  dsimp only [Flight.view]
  cases flight.verdict with
  | some verdict =>
    match verdict with
    | .error e => rfl
    | .ok () => exact hcompiled
  | none =>
    dsimp only
    cases flight.merger.error? operation.name with
    | some e => rfl
    | none => exact hcompiled

end Parallel.Flight

namespace AccessStrategy

theorem apply_view (h : fine.Refines coarse view) (strategy : AccessStrategy)
    (shards : List Shard) (operation : Operation ω T) (collector : Option (Collector O)) (exit : τ)
    (world : ω) :
    (strategy.apply shards operation coarse collector (view exit) world).1 =
      (strategy.apply shards operation fine collector exit world).1.view view := by
  unfold apply
  cases strategy.refusal? shards with
  | some error => rfl
  | none =>
    dsimp only
    cases (strategy.ordering.order shards).1 with
    | error e => rfl
    | ok ordered =>
      dsimp only
      cases strategy with
      | sequential ordering =>
        exact Sequential.visit_view h operation collector ordered [] exit world
      | parallel access =>
        simp only [withOrdering, dispatch, Parallel.Flight.dispatch_eq_conclude]
        rw [← Parallel.Flight.conclude_view h, ← Parallel.Flight.settle_view h]
        rfl

/-- Recording what an exit strategy is fed does not change the call. -/
theorem apply_recorded (strategy : AccessStrategy) (shards : List Shard) (operation : Operation ω T)
    (exitStrategy : ExitStrategy σ T O) (collector : Option (Collector O)) (exit : σ) (world : ω)
    (added : List (Shard × Option T)) :
    (strategy.apply shards operation exitStrategy collector exit world).1 =
      (strategy.apply shards operation (exitStrategy.recorded none) collector ⟨exit, added⟩
        world).1.view ExitStrategy.Recording.state :=
  apply_view exitStrategy.recorded_refines strategy shards operation collector ⟨exit, added⟩ world

/-- The results that the exit strategy of a call receives, in order. -/
def received (strategy : AccessStrategy) (shards : List Shard) (operation : Operation ω T)
    (exitStrategy : ExitStrategy σ T O) (collector : Option (Collector O)) (exit : σ) (world : ω) :
    List (Shard × Option T) :=
  (strategy.apply shards operation (exitStrategy.recorded none) collector ⟨exit, []⟩
    world).1.exit.added.reverse

end AccessStrategy

end

end ScatterGather
