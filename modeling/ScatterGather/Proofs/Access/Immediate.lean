import ScatterGather.Proofs.Access.Feeding

/-!
# Calls that take no time

An operation without delay is over before the next shard is looked at. So in either way of dispatch it
is run on one shard after the other, in the order of dispatch, and its results are fed in that order,
whatever the order of merging. This needs no more of the operation than what it does in the states in
which it is run.
-/

namespace ScatterGather

variable {ω σ T O : Type}

/-- The operation was run on one shard after the other, and gave these results. -/
inductive Operation.Runs (operation : Operation ω T) : List (Shard × Option T) → ω → ω → Prop
  | nil (world : ω) : Runs operation [] world world
  | cons {shard : Shard} {result : Option T} {fed : List (Shard × Option T)} {world next last : ω}
      (ran : operation.run shard world = (.ok result, next)) (rest : Runs operation fed next last) :
      Runs operation ((shard, result) :: fed) world last

/-- Results were added one after the other, and none but the last asked to stop. -/
inductive ExitStrategy.Takes (strategy : ExitStrategy σ T O) :
    List (Shard × Option T) → σ → Bool → σ → Prop
  | nil (exit : σ) : Takes strategy [] exit false exit
  | stop {shard : Shard} {result : Option T} {exit last : σ}
      (taken : strategy.add exit result (some shard) = (.ok true, last)) :
      Takes strategy [(shard, result)] exit true last
  | more {shard : Shard} {result : Option T} {fed : List (Shard × Option T)} {exit next last : σ}
      {stop : Bool} (taken : strategy.add exit result (some shard) = (.ok false, next))
      (rest : Takes strategy fed next stop last) :
      Takes strategy ((shard, result) :: fed) exit stop last

variable [Journaled ω]

/-- Some events were reported, and nothing else has happened. -/
inductive Logged (world : ω) : ω → Prop
  | refl : Logged world world
  | report {later : ω} (before : Logged world later) (level : Level) (text : String) :
      Logged world (report level text later)

theorem Logged.trans {world later last : ω} (h : Logged world later) (h' : Logged later last) :
    Logged world last := by
  induction h' with
  | refl => exact h
  | report _ level text ih => exact ih.report level text

variable {operation : Operation ω T} {strategy : ExitStrategy σ T O}
variable {fed : List (Shard × Option T)} {exit exit' : σ} {stop : Bool} {world last : ω}

theorem feed_taken {shard : Shard} {result : Option T}
    (h : strategy.add exit result (some shard) = (.ok stop, exit')) (name : String) (world : ω) :
    ∃ world', feed strategy name shard result exit world = (.ok stop, exit', world')
      ∧ Logged world world' := by
  unfold feed
  rw [h]
  cases stop with
  | true => exact ⟨_, rfl, Logged.refl.report ..⟩
  | false => exact ⟨_, rfl, .refl⟩

/-- How a call has ended that was fed all results, the last of which may have asked to stop. -/
structure Outcome.Complete (call : Outcome ω σ O) (strategy : ExitStrategy σ T O)
    (collector : Option (Collector O)) (stop : Bool) (exit : σ) (world : ω) : Prop where
  ending : (call.result, call.exit) = strategy.ending collector (.ok stop) exit
  logged : Logged world call.world

/-! ## Sequential dispatch -/

theorem Sequential.visit_immediate (hruns : operation.Runs fed world last)
    (htakes : strategy.Takes fed exit stop exit') (collector : Option (Collector O))
    (completed : List ShardId) :
    (visit operation strategy collector (fed.map (·.1)) completed exit world).Complete strategy
      collector stop exit' last := by
  induction htakes generalizing world completed with
  | nil exit =>
    cases hruns
    exact ⟨rfl, .refl⟩
  | stop taken =>
    obtain _ | ⟨ran, hrest⟩ := hruns
    cases hrest
    rw [List.map_cons, visit, ran]
    obtain ⟨world', hfeed, hlogged⟩ := feed_taken taken operation.name last
    simp only [hfeed]
    exact ⟨rfl, hlogged⟩
  | @more shard result fed exit next exit' stop taken rest ih =>
    obtain _ | ⟨ran, hrest⟩ := hruns
    have hrest := ih hrest (completed ++ [shard.physicalId])
    rw [List.map_cons, visit, ran]
    simp only [feed, taken]
    exact ⟨hrest.ending, hrest.logged⟩

/-! ## Concurrent dispatch -/

namespace Parallel

/-- The results of shards that stand from a place on, as they arrive. -/
def arrivals (place : Nat) (fed : List (Shard × Option T)) : List (Arrival T) :=
  (fed.zipIdx place).map fun x => ⟨x.2, x.1.1, .ok x.1.2⟩

theorem arrivals_cons (place : Nat) (shard : Shard) (result : Option T)
    (fed : List (Shard × Option T)) : arrivals place ((shard, result) :: fed)
      = ⟨place, shard, .ok result⟩ :: arrivals (place + 1) fed := by
  simp [arrivals, List.zipIdx_cons]

namespace Flight

omit [Journaled ω] in
/-- All shards are started and over before the first result is read. -/
theorem launch_immediate (hruns : operation.Runs fed world last)
    (hdelay : ∀ shard, operation.delay shard = 0) {permits : Nat} (hpermits : 0 < permits)
    (place : Nat) (flight : Flight ω σ T) (hworld : flight.world = world)
    (hidle : flight.running = []) (hgoing : flight.cancelled = false) :
    ∃ trace, flight.launch operation permits (((fed.map (·.1)).zipIdx place).map Prod.swap)
      = { flight with
          queue := []
          world := last
          arrived := flight.arrived ++ arrivals place fed
          trace := trace } := by
  induction hruns generalizing place flight with
  | nil world =>
    subst hworld
    exact ⟨flight.trace, by simp [launch, arrivals]⟩
  | @cons shard result fed world next last ran rest ih =>
    subst hworld
    let started : Flight ω σ T := { flight with
      trace := flight.trace ++ [Mark.started place shard.physicalId] }
    have hfinish : started.finish operation place shard = { started with
        world := next
        arrived := flight.arrived ++ [⟨place, shard, .ok result⟩]
        trace := started.trace ++ [.ended place shard.physicalId] } := by
      simp only [finish, started, ran]
    obtain ⟨trace, hlaunch⟩ := ih (place + 1) (started.finish operation place shard)
      (by rw [hfinish]) (by rw [hfinish]; exact hidle) (by rw [hfinish]; exact hgoing)
    have hroom : ¬ (flight.cancelled = true ∨ permits ≤ flight.running.length) := by
      simp [hgoing, hidle, Nat.ne_of_gt hpermits]
    refine ⟨trace, ?_⟩
    rw [List.map_cons, List.zipIdx_cons, List.map_cons, Prod.swap_prod_mk, launch, if_neg hroom]
    simp only [hdelay shard, if_true]
    refine hlaunch.trans ?_
    rw [hfinish, arrivals_cons]
    simp [started]

end Flight

/-- The next result in turn is fed at once in both orders of merging. -/
theorem accept_immediate {merger : Merger T} (hfailures : merger.failures = [])
    (hpending : merger.pending = []) {place : Nat}
    (hnext : merger.order = .shardOrder → merger.next = place) {shard : Shard} {result : Option T}
    (htaken : strategy.add exit result (some shard) = (.ok stop, exit')) (name : String)
    (world : ω) :
    ∃ merger' world', merger.accept strategy name place shard result exit world
        = (.ok stop, merger', exit', world')
      ∧ merger'.failures = [] ∧ merger'.pending = []
      ∧ (merger'.order = .shardOrder → merger'.next = place + 1) ∧ Logged world world' := by
  obtain ⟨world', hfeed, hlogged⟩ := feed_taken htaken name world
  unfold Merger.accept
  simp only [hfailures, List.isEmpty_nil, Bool.not_true, Bool.false_eq_true, if_false]
  cases horder : merger.order with
  | completion =>
    simp only [hfeed]
    exact ⟨_, _, rfl, rfl, hpending, nofun, hlogged⟩
  | shardOrder =>
    simp only [hpending, insertAt, Merger.drain, hnext horder, if_true, hfeed]
    cases stop with
    | true => exact ⟨_, _, rfl, rfl, rfl, fun _ => rfl, hlogged⟩
    | false => exact ⟨_, _, rfl, rfl, rfl, fun _ => rfl, hlogged⟩

namespace Flight

/-- Nothing has ended the call, no result waits, and it is the turn of this place. -/
structure Feeding (place : Nat) (flight : Flight ω σ T) : Prop where
  undecided : flight.verdict = none
  failures : flight.merger.failures = []
  pending : flight.merger.pending = []
  next : flight.merger.order = .shardOrder → flight.merger.next = place

theorem read_immediate {place : Nat} {flight : Flight ω σ T} (h : flight.Feeding place)
    {shard : Shard} {result : Option T}
    (htaken : strategy.add flight.exit result (some shard) = (.ok stop, exit')) (name : String)
    (dispatched : Nat) :
    let after := flight.read strategy name dispatched ⟨place, shard, .ok result⟩
    after.exit = exit' ∧ after.verdict = verdictOf (.ok stop) ∧ after.merger.failures = []
      ∧ (stop = false → after.Feeding (place + 1)) ∧ Logged flight.world after.world := by
  obtain ⟨merger, world, haccept, hfailures, hpending, hnext, hlogged⟩ :=
    accept_immediate h.failures h.pending h.next htaken name flight.world
  unfold read
  simp only [h.undecided, Option.isSome_none, Bool.false_eq_true, if_false, haccept]
  cases stop with
  | true => exact ⟨rfl, rfl, hfailures, nofun, hlogged.report ..⟩
  | false =>
    exact ⟨rfl, rfl, hfailures, fun _ => ⟨rfl, hfailures, hpending, hnext⟩, hlogged⟩

theorem foldl_read_immediate (htakes : strategy.Takes fed exit stop exit') (name : String)
    (dispatched : Nat) {place : Nat} {flight : Flight ω σ T} (h : flight.Feeding place)
    (hexit : flight.exit = exit) :
    let after := (arrivals place fed).foldl
      (fun flight arrival => flight.read strategy name dispatched arrival) flight
    after.exit = exit' ∧ after.verdict = verdictOf (.ok stop) ∧ after.merger.failures = []
      ∧ Logged flight.world after.world := by
  induction htakes generalizing place flight with
  | nil exit => exact ⟨hexit, h.undecided, h.failures, .refl⟩
  | stop taken =>
    subst hexit
    obtain ⟨hexit', hverdict, hfailures, -, hlogged⟩ := read_immediate h taken name dispatched
    exact ⟨hexit', hverdict, hfailures, hlogged⟩
  | more taken rest ih =>
    subst hexit
    obtain ⟨hexit', -, -, hfeeding, hlogged⟩ := read_immediate h taken name dispatched
    rw [arrivals_cons, List.foldl_cons]
    obtain ⟨hlast, hverdict, hfailures, hrest⟩ := ih (hfeeding rfl) hexit'
    exact ⟨hlast, hverdict, hfailures, hlogged.trans hrest⟩

end Flight

/-- A concurrent call is over after one round. -/
theorem dispatch_immediate (hruns : operation.Runs fed world last)
    (htakes : strategy.Takes fed exit stop exit') (hdelay : ∀ shard, operation.delay shard = 0)
    (collector : Option (Collector O)) {permits : Nat} (hpermits : 0 < permits)
    (order : MergeOrder) :
    (dispatch operation strategy collector permits order (fed.map (·.1)) exit world).Complete
      strategy collector stop exit' last := by
  let start : Flight ω σ T := .start order (fed.map (·.1)) exit world
  have hqueue : start.queue = ((fed.map (·.1)).zipIdx 0).map Prod.swap := by
    simp only [start, Flight.start, List.mapIdx_eq_zipIdx_map]
    rfl
  obtain ⟨trace, hlaunch⟩ :=
    start.launch_immediate hruns hdelay hpermits 0 rfl rfl rfl
  rw [← hqueue] at hlaunch
  let launched : Flight ω σ T := { start with
    queue := []
    world := last
    arrived := []
    trace := trace }
  have hfeeding : launched.Feeding 0 := ⟨rfl, rfl, rfl, fun _ => rfl⟩
  have hread : (start.launch operation permits start.queue).readAll strategy operation.name
        (fed.map (·.1)).length
      = (arrivals 0 fed).foldl (fun flight arrival =>
        flight.read strategy operation.name (fed.map (·.1)).length arrival) launched := by
    rw [hlaunch]
    rfl
  obtain ⟨hexit, hverdict, hfailures, hlogged⟩ :=
    Flight.foldl_read_immediate htakes operation.name (fed.map (·.1)).length hfeeding rfl
  have hrunning : ((start.launch operation permits start.queue).readAll strategy operation.name
      (fed.map (·.1)).length).running = [] := by
    rw [hread]
    exact (Flight.foldl_read_frame strategy _ launched _ _).2.1
  have hsettle : start.settle operation strategy permits (fed.map (·.1)).length
        (fed.map (·.1)).length
      = (start.launch operation permits start.queue).readAll strategy operation.name
        (fed.map (·.1)).length := by
    unfold Flight.settle
    simp only [hrunning, earliest?]
  unfold dispatch
  simp only
  rw [show Flight.start order (fed.map (·.1)) exit world = start from rfl, hsettle, hread]
  generalize (arrivals 0 fed).foldl (fun flight arrival =>
    flight.read strategy operation.name (fed.map (·.1)).length arrival) launched = flight at *
  cases stop with
  | true =>
    rw [hverdict]
    subst hexit
    exact ⟨rfl, hlogged⟩
  | false =>
    rw [hverdict]
    subst hexit
    simp only [verdictOf, Merger.error?, hfailures, List.isEmpty_nil, if_true]
    exact ⟨rfl, hlogged⟩

end Parallel

/-! ## Calls -/

/-- A call of an operation without delay that is dispatched over these shards: the operation is run on
them in turn, and its results are fed in the same order. -/
theorem AccessStrategy.apply_immediate {access : AccessStrategy} {shards : List Shard}
    (hdispatches : access.Dispatches shards (fed.map (·.1)))
    (hdelay : ∀ shard, operation.delay shard = 0) (hruns : operation.Runs fed world last)
    (htakes : strategy.Takes fed exit stop exit') (collector : Option (Collector O)) :
    (access.apply shards operation strategy collector exit world).1.Complete strategy collector stop
      exit' last := by
  unfold apply
  rw [hdispatches.admitted]
  simp only [hdispatches.order]
  cases access with
  | sequential ordering => exact Sequential.visit_immediate hruns htakes collector []
  | parallel access =>
    exact Parallel.dispatch_immediate hruns htakes hdelay collector access.permits_pos _

end ScatterGather
