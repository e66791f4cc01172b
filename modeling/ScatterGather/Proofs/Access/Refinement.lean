import ScatterGather.Cluster.State
import ScatterGather.Exit.Concatenate
import ScatterGather.Proofs.Access.InTurn
import ScatterGather.Proofs.Access.Recording
import ScatterGather.Proofs.Access.Reporting

/-!
# Concurrent dispatch in shard order refines sequential dispatch

Both ways of dispatch hand the exit strategy the results of the shards in turn. They part only where
an operation fails: sequential dispatch has not started the shards behind, while concurrent dispatch
may hear of a failure before the results in front of it are in. So a concurrent call either reports
failed operations, or it ends as the sequential one does.
-/

namespace ScatterGather

variable {ω σ T O : Type}

/-- A call that reports failed operations: the exit strategy was only fed, without a stop or an
error, and was not compiled. -/
structure Outcome.Reports (call : Outcome ω σ O) (name : String)
    (outcome : Shard → Except Mishap (Option T)) (dispatched : List Shard)
    (strategy : ExitStrategy σ T O) (initial : σ) (received : List (Shard × Option T)) : Prop where
  failures : ∃ failures completed, failures ≠ []
    ∧ call.result = .error (.shard (.operationFailure name failures completed))
    ∧ ∀ failure ∈ failures, ∃ shard ∈ dispatched, ∃ mishap,
      outcome shard = .error mishap ∧ failure = ⟨shard.physicalId, mishap.source⟩
  fed : strategy.addAll received initial = (.ok false, call.exit)

theorem ExitStrategy.addAll_recorded (strategy : ExitStrategy σ T O)
    {fed : List (Shard × Option T)} {exit : σ} {added : List (Shard × Option T)}
    {recording : Recording σ T}
    (h : (strategy.recorded none).addAll fed ⟨exit, added⟩ = (.ok false, recording)) :
    strategy.addAll fed exit = (.ok false, recording.state)
      ∧ recording.added = fed.reverse ++ added := by
  induction fed generalizing exit added with
  | nil =>
    obtain rfl : ⟨exit, added⟩ = recording := congrArg Prod.snd h
    exact ⟨rfl, rfl⟩
  | cons head fed ih =>
    obtain ⟨shard, result⟩ := head
    have hadd := strategy.recorded_refines.add ⟨exit, added⟩ result (some shard)
    have hkept : ((strategy.recorded none).add ⟨exit, added⟩ result (some shard)).2.added
        = (shard, result) :: added := rfl
    rw [addAll] at h ⊢
    generalize (strategy.recorded none).add ⟨exit, added⟩ result (some shard) = step
      at h hadd hkept
    obtain ⟨answer, state, added'⟩ := step
    rw [show strategy.add exit result (some shard) = (answer, state) from hadd]
    cases answer with
    | error e => cases h
    | ok stop =>
      cases stop with
      | true => cases h
      | false =>
        obtain ⟨hstate, hadded⟩ := ih h
        refine ⟨hstate, ?_⟩
        rw [hadded, show added' = (shard, result) :: added from hkept, List.reverse_cons,
          List.append_assoc]
        rfl

namespace Parallel.Flight

variable {operation : Operation ω T} {strategy : ExitStrategy σ T O} {dispatched : Nat}
variable {shards : List Shard} {outcome : Shard → Except Mishap (Option T)} {initial : σ}

/-- A flight at rest without verdict and failures has fed the results of all shards. -/
theorem InTurn.fed_all {flight : Flight ω σ T} (h : InTurn shards outcome strategy initial flight)
    (haccount : Accounted shards outcome flight) (hrest : flight.AtRest)
    (hopen : flight.verdict = none) (hnone : flight.merger.failures = []) :
    flight.merger.next = shards.length := by
  obtain ⟨-, hpositions⟩ := haccount.all_completed hrest hopen hnone
  have hkept := (h.kept hopen hnone).symm.trans hpositions
  obtain ⟨fed, hlength, hfed, -, -⟩ := h.fed
  have hle : flight.merger.next ≤ shards.length := by
    have hcount := congrArg List.length hfed
    rw [List.length_map, hlength, List.length_take] at hcount
    omega
  by_contra hne
  have hlt : flight.merger.next < shards.length := by omega
  -- The next position is recorded and not fed, so its result waits, which it must not.
  have hmem : flight.merger.next ∈ List.range flight.merger.next
      ++ flight.merger.pending.map (·.1) :=
    hkept.mem_iff.mpr (List.mem_range.mpr hlt)
  rcases List.mem_append.mp hmem with hmem | hmem
  · exact absurd (List.mem_range.mp hmem) (Nat.lt_irrefl _)
  · obtain ⟨x, hx, heq⟩ := List.mem_map.mp hmem
    exact h.awaited hopen x hx heq

variable [Journaled ω]

/-- Whatever the schedule was, a flight at rest either reports failed operations, or ends as the
sequential visit of the shards does. -/
theorem InTurn.conclude
    (determined : ∀ shard world, (operation.run shard world).1 = outcome shard)
    {flight : Flight ω σ T} (h : InTurn shards outcome strategy initial flight)
    (haccount : Accounted shards outcome flight) (hrest : flight.AtRest)
    (collector : Option (Collector O)) (world : ω) :
    (∃ fed, (flight.conclude operation strategy collector).Reports operation.name outcome shards
        strategy initial fed) ∨
      (flight.conclude operation strategy collector).Agrees
        (Sequential.visit operation strategy collector shards [] initial world) := by
  obtain ⟨fed, hlength, hfed, hok, hadd⟩ := h.fed
  have hshards : fed.map (·.1) ++ shards.drop flight.merger.next = shards := by
    rw [hfed, List.take_append_drop]
  obtain ⟨completed, world', hvisit⟩ := Sequential.visit_addAll determined strategy collector hok
    (shards.drop flight.merger.next) [] initial world
  rw [hshards, hadd] at hvisit
  unfold Flight.conclude
  match hverdict : flight.verdict with
  | some (.error e) =>
    rw [hverdict] at hvisit
    exact .inr ((Outcome.Agrees.failed ..).trans hvisit.symm)
  | some (.ok ()) =>
    rw [hverdict] at hvisit
    exact .inr ((Outcome.Agrees.compiled ..).trans hvisit.symm)
  | none =>
    rw [hverdict] at hvisit hadd
    by_cases hnone : flight.merger.failures = []
    case pos =>
      have hall := h.fed_all haccount hrest hverdict hnone
      rw [hall, List.drop_length] at hvisit
      simp only [Merger.error?, hnone, List.isEmpty_nil, if_true]
      exact .inr ((Outcome.Agrees.compiled ..).trans hvisit.symm)
    case neg =>
      refine .inl ⟨fed, ⟨flight.merger.failures.map (·.2), flight.merger.completed.map (·.2), by
        simpa using hnone, ?_, ?_⟩, ?_⟩
      · simp [Merger.error?, hnone, Outcome.failed]
      · intro failure hfailure
        obtain ⟨x, hx, rfl⟩ := List.mem_map.mp hfailure
        obtain ⟨shard, mishap, hshard, hmishap, hx⟩ := haccount.failed x hx
        exact ⟨shard, List.mem_of_getElem? hshard, mishap, hmishap, hx⟩
      · simp only [Merger.error?, List.isEmpty_eq_false_iff.mpr hnone]
        exact hadd

end Parallel.Flight

variable [Journaled ω]

/-- A schedule that leaves nothing to do either reports failed operations, or ends as the sequential
call does. -/
theorem ParallelAccess.Schedules.refines [Machine] {operation : Operation ω T}
    {outcome : Shard → Except Mishap (Option T)}
    (determined : ∀ shard world, (operation.run shard world).1 = outcome shard)
    {strategy : ExitStrategy σ T O} (collector : Option (Collector O)) {ordering : ShardOrdering}
    {concurrency : Nat} {shards ordered : List Shard} {exit : σ} {world : ω}
    {flight : Parallel.Flight ω σ T} (hshards : shards ≠ [])
    (h : (ParallelAccess.mk ordering concurrency .shardOrder).Schedules operation strategy shards
      exit world ordered flight) (hrest : flight.AtRest) :
    let concurrent := flight.conclude operation strategy collector
    (∃ fed, concurrent.Reports operation.name outcome ordered strategy exit fed) ∨
      concurrent.Agrees ((AccessStrategy.sequential ordering).apply shards operation strategy
        collector exit world).1 := by
  have hserial : ((AccessStrategy.sequential ordering).apply shards operation strategy collector
      exit world).1 = Sequential.visit operation strategy collector ordered [] exit world := by
    simp only [AccessStrategy.apply, AccessStrategy.refusal?, List.isEmpty_eq_false_iff.mpr hshards,
      Bool.false_eq_true, if_false, AccessStrategy.ordering,
      show (ordering.order shards).1 = .ok ordered from h.order]
    rfl
  have hstart : Parallel.Flight.Accounted ordered outcome
      (.start .shardOrder ordered exit world : Parallel.Flight ω σ T) :=
    .start_of .shardOrder ordered exit world
  have hturn : Parallel.Flight.InTurn ordered outcome strategy exit
      (.start .shardOrder ordered exit world : Parallel.Flight ω σ T) :=
    .start_of strategy ordered exit world
  rw [hserial]
  exact (hturn.reaches determined hstart h.reaches).conclude determined
    (hstart.reaches determined h.reaches) hrest collector world

theorem AccessStrategy.apply_refines [Machine] {operation : Operation ω T}
    {outcome : Shard → Except Mishap (Option T)}
    (determined : ∀ shard world, (operation.run shard world).1 = outcome shard)
    (strategy : ExitStrategy σ T O) (collector : Option (Collector O)) (ordering : ShardOrdering)
    {concurrency : Nat}
    (admitted : (ParallelAccess.mk ordering concurrency .shardOrder).permits ≤ maxPermits)
    (shards : List Shard) (exit : σ) (world : ω) :
    let access := ParallelAccess.mk ordering concurrency .shardOrder
    let concurrent := ((parallel access).apply shards operation strategy collector exit world).1
    let serial := ((sequential ordering).apply shards operation strategy collector exit world).1
    (∃ ordered, (ordering.order shards).1 = .ok ordered
        ∧ ∃ fed, concurrent.Reports operation.name outcome ordered strategy exit fed) ∨
      concurrent.Agrees serial := by
  intro access
  cases shards with
  | nil => exact .inr (.refl _)
  | cons first rest =>
    cases hordered : (ordering.order (first :: rest)).1 with
    | error e =>
      simp only [apply, refusal?, List.isEmpty_cons, Bool.false_eq_true, if_false, access,
        if_neg (Nat.not_lt.mpr admitted), AccessStrategy.ordering, hordered]
      exact .inr (.refl _)
    | ok ordered =>
      have hrefusal : (parallel access).refusal? (first :: rest) = none := by
        simp [refusal?, access, Nat.not_lt.mpr admitted]
      obtain ⟨flight, hschedules, hrest, hcall⟩ :=
        apply_schedules operation strategy collector hrefusal hordered exit world
      rw [hcall]
      exact (hschedules.refines determined collector (List.cons_ne_nil _ _) hrest).imp_left
        fun hreports => ⟨ordered, rfl, hreports⟩

omit [Journaled ω] in
/-- What a call of a recorded strategy reports, it reports of the strategy and what it received. -/
theorem Outcome.Reports.unrecord {outcome : Shard → Except Mishap (Option T)} {name : String}
    {ordered : List Shard} {strategy : ExitStrategy σ T O} {exit : σ}
    {call : Outcome ω (ExitStrategy.Recording σ T) O} {fed : List (Shard × Option T)}
    (h : call.Reports name outcome ordered (strategy.recorded none) ⟨exit, []⟩ fed) :
    (call.view ExitStrategy.Recording.state).Reports name outcome ordered strategy exit
      call.exit.added.reverse := by
  obtain ⟨hadd, hadded⟩ := strategy.addAll_recorded h.fed
  refine ⟨h.failures, ?_⟩
  rw [hadded, List.append_nil, List.reverse_reverse]
  exact hadd

omit [Journaled ω] in
theorem Outcome.Reports.result {call : Outcome ω σ O} {name : String}
    {outcome : Shard → Except Mishap (Option T)} {ordered : List Shard}
    {strategy : ExitStrategy σ T O} {exit : σ} {received : List (Shard × Option T)}
    (h : call.Reports name outcome ordered strategy exit received) :
    (∃ name failures completed,
      call.result = .error (.shard (.operationFailure name failures completed)))
    ∧ ∃ shard ∈ ordered, ∃ mishap, outcome shard = .error mishap := by
  obtain ⟨failures, completed, hne, hresult, hfailures⟩ := h.failures
  obtain ⟨failure, hmem⟩ := List.exists_mem_of_ne_nil failures hne
  obtain ⟨shard, hshard, mishap, hmishap, -⟩ := hfailures failure hmem
  exact ⟨⟨name, failures, completed, hresult⟩, shard, hshard, mishap, hmishap⟩

omit [Journaled ω] in
/-- A report names a shard whose operation failed, so there is none where all succeed. -/
theorem Outcome.Reports.not_all_ok {call : Outcome ω σ O} {name : String}
    {outcome : Shard → Except Mishap (Option T)} {ordered : List Shard}
    {strategy : ExitStrategy σ T O} {exit : σ} {received : List (Shard × Option T)}
    (h : call.Reports name outcome ordered strategy exit received) :
    ¬ ∀ shard ∈ ordered, ∃ result, outcome shard = .ok result := by
  intro hall
  obtain ⟨-, shard, hshard, mishap, hmishap⟩ := h.result
  obtain ⟨result, hresult⟩ := hall shard hshard
  rw [hresult] at hmishap
  cases hmishap

/-- A concurrent call in shard order, with any delays and any bound that is admitted, either reports
failed operations, which sequential dispatch can only miss by ending in front of them, or it returns
what sequential dispatch returns and feeds the exit strategy the same results in the same order. So
does every schedule of the call that leaves nothing to do, whoever decides what happens next. -/
theorem AccessStrategy.parallel_refines_sequential [Machine] {operation : Operation ω T}
    {outcome : Shard → Except Mishap (Option T)}
    (determined : ∀ shard world, (operation.run shard world).1 = outcome shard)
    (strategy : ExitStrategy σ T O) (collector : Option (Collector O)) (ordering : ShardOrdering)
    {concurrency : Nat}
    (admitted : (ParallelAccess.mk ordering concurrency .shardOrder).permits ≤ maxPermits)
    (shards : List Shard) (exit : σ) (world : ω) :
    let access := ParallelAccess.mk ordering concurrency .shardOrder
    let parallel := AccessStrategy.parallel access
    let sequential := AccessStrategy.sequential ordering
    let concurrent := (parallel.apply shards operation strategy collector exit world).1
    let serial := (sequential.apply shards operation strategy collector exit world).1
    let received := parallel.received shards operation strategy collector exit world
    ((∃ ordered, (ordering.order shards).1 = .ok ordered
        ∧ concurrent.Reports operation.name outcome ordered strategy exit received) ∨
      (concurrent.result = serial.result ∧ concurrent.exit = serial.exit
        ∧ received = sequential.received shards operation strategy collector exit world))
    ∧ ((∃ name failures completed,
          serial.result = .error (.shard (.operationFailure name failures completed))) →
        ∃ name failures completed,
          concurrent.result = .error (.shard (.operationFailure name failures completed)))
    ∧ (∀ ordered, (ordering.order shards).1 = .ok ordered →
        (∀ shard ∈ ordered, ∃ result, outcome shard = .ok result) →
        concurrent.result = serial.result)
    ∧ ∀ ordered flight, shards ≠ [] →
        access.Schedules operation (strategy.recorded none) shards ⟨exit, []⟩ world ordered flight →
        flight.AtRest →
        let recorded := flight.conclude operation (strategy.recorded none) collector
        let concurrent := recorded.view ExitStrategy.Recording.state
        let received := recorded.exit.added.reverse
        (concurrent.Reports operation.name outcome ordered strategy exit received ∨
          (concurrent.result = serial.result ∧ concurrent.exit = serial.exit
            ∧ received = sequential.received shards operation strategy collector exit world))
        ∧ ((∃ name failures completed,
              serial.result = .error (.shard (.operationFailure name failures completed))) →
            ∃ name failures completed,
              concurrent.result = .error (.shard (.operationFailure name failures completed)))
        ∧ ((∀ shard ∈ ordered, ∃ result, outcome shard = .ok result) →
            concurrent.result = serial.result) := by
  intro access parallel sequential concurrent serial received
  have hconcurrent := parallel.apply_recorded shards operation strategy collector exit world []
  have hserial := sequential.apply_recorded shards operation strategy collector exit world []
  have hrefines : (∃ ordered, (ordering.order shards).1 = .ok ordered
        ∧ concurrent.Reports operation.name outcome ordered strategy exit received) ∨
      (concurrent.result = serial.result ∧ concurrent.exit = serial.exit
        ∧ received = sequential.received shards operation strategy collector exit world) := by
    rw [show concurrent = _ from hconcurrent, show serial = _ from hserial]
    rcases apply_refines determined (strategy.recorded none) collector ordering admitted shards
      ⟨exit, []⟩ world with ⟨ordered, hordered, hreports⟩ | hagrees
    · obtain ⟨fed, hreports⟩ := hreports
      exact .inl ⟨ordered, hordered, hreports.unrecord⟩
    · exact .inr ⟨hagrees.result, congrArg ExitStrategy.Recording.state hagrees.exit,
        congrArg (fun recording => recording.added.reverse) hagrees.exit⟩
  refine ⟨hrefines, ?_, ?_, ?_⟩
  · rintro hserial
    rcases hrefines with ⟨ordered, -, hreports⟩ | ⟨hresult, -⟩
    · exact hreports.result.1
    · rwa [hresult]
  · intro ordered hordered hall
    rcases hrefines with ⟨ordered', hordered', hreports⟩ | ⟨hresult, -⟩
    · obtain rfl : ordered = ordered' := Except.ok.inj (hordered.symm.trans hordered')
      exact absurd hall hreports.not_all_ok
    · exact hresult
  · intro ordered flight hshards hschedules hrest recorded concurrent received
    rw [show serial = _ from hserial]
    rcases hschedules.refines determined collector hshards hrest with ⟨fed, hreports⟩ | hagrees
    · have hreports : concurrent.Reports operation.name outcome ordered strategy exit received :=
        hreports.unrecord
      exact ⟨.inl hreports, fun _ => hreports.result.1, fun hall => absurd hall hreports.not_all_ok⟩
    · have hresult : concurrent.result = _ := hagrees.result
      refine ⟨.inr ⟨hresult, congrArg ExitStrategy.Recording.state hagrees.exit,
        congrArg (fun recording => recording.added.reverse) hagrees.exit⟩, fun hfailed => ?_,
        fun _ => hresult⟩
      rw [hresult]
      exact hfailed

/-- Three shards of which the last one answers first: their rows come in dispatch order. -/
theorem AccessStrategy.parallel_rows_in_order :
    let shard := fun handle => Shard.mk handle (.ofNat handle) ∅ 0
    let operation : Operation Cluster (List Nat) :=
      ⟨"rows", fun shard => 3 - shard.handle, fun shard world => (.ok (some [shard.handle]), world)⟩
    (ParallelAccess.mk .input 2 .shardOrder).permits ≤ maxPermits ∧
      ((parallel ⟨.input, 2, .shardOrder⟩).apply [shard 0, shard 1, shard 2] operation
        Concatenate.strategy none [] (.ofBackends 0)).1.result = .ok [0, 1, 2] := by
  intro shard operation
  have hadmitted : (ParallelAccess.mk .input 2 .shardOrder).permits ≤ maxPermits := by decide
  have hdetermined : ∀ shard world,
      (operation.run shard world).1 = .ok (some [shard.handle]) := fun _ _ => rfl
  obtain ⟨-, -, hsame, -⟩ := parallel_refines_sequential hdetermined Concatenate.strategy none .input
    hadmitted [shard 0, shard 1, shard 2] [] (.ofBackends 0)
  refine ⟨hadmitted, (hsame [shard 0, shard 1, shard 2] rfl fun shard _ => ⟨_, rfl⟩).trans ?_⟩
  rfl

end ScatterGather
