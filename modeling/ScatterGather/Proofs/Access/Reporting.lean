import ScatterGather.Access.Strategy
import ScatterGather.Cluster.State
import ScatterGather.Exit.Concatenate
import ScatterGather.Proofs.Access.InTurn
import ScatterGather.Proofs.Access.Ordering
import ScatterGather.Proofs.Access.Race

/-!
# What a failed call accounts for

A concurrent call that reports failed operations returns only when all that it started has ended.
Its report divides the started positions among failed and completed ones, each in dispatch order:
what waited for its turn and was never fed counts as completed, and nothing that was started is
missing. Once the merger has heard of a failure it feeds no result any more, so such a call cannot
end in any other way. All this holds of every schedule.
-/

namespace ScatterGather

variable {ω σ T O : Type}

/-! ## Reports -/

/-- A report of failed operations accounts for all that was started: each started operation has
ended, once, and its position is either among the failed ones or among the completed ones, according
to what it gave; both are reported in dispatch order. -/
structure Accounts (shards : List Shard) (outcome : Shard → Except Mishap (Option T))
    (trace : List Mark) (failures : List ShardFailure) (completed : List ShardId) : Prop where
  once : (startedAt trace).Nodup
  ended : (endedAt trace).Perm (startedAt trace)
  divided : ∃ failedAt completedAt : List Nat, (failedAt ++ completedAt).Perm (startedAt trace)
    ∧ failedAt.Pairwise (· < ·) ∧ completedAt.Pairwise (· < ·)
    ∧ List.Forall₂ (fun position failure => ∃ shard mishap, shards[position]? = some shard
        ∧ outcome shard = .error mishap ∧ failure = ⟨shard.physicalId, mishap.source⟩)
      failedAt failures
    ∧ List.Forall₂ (fun position id => ∃ shard result, shards[position]? = some shard
        ∧ outcome shard = .ok result ∧ id = shard.physicalId)
      completedAt completed
  failed : failures ≠ []

/-- The error of a call is one that its exit strategy, or the collector behind it, gave. -/
def Outcome.RaisedBy (call : Outcome ω σ O) (strategy : ExitStrategy σ T O)
    (collector : Option (Collector O)) (e : ShardError) : Prop :=
  (∃ exit result shard, strategy.add exit result (some shard) = (.error e, call.exit)) ∨
    ∃ exit, strategy.compileWith collector exit = (.error e, call.exit)

theorem Outcome.compiled_raised {strategy : ExitStrategy σ T O} {collector : Option (Collector O)}
    {exit : σ} {world : ω} {trace : List Mark} {e : ShardError}
    (h : (Outcome.compiled strategy collector exit world trace).result = .error (.shard e)) :
    (Outcome.compiled strategy collector exit world trace).RaisedBy strategy collector e := by
  refine .inr ⟨exit, ?_⟩
  unfold Outcome.compiled at h ⊢
  generalize strategy.compileWith collector exit = result at h ⊢
  obtain ⟨answer, exit'⟩ := result
  cases answer with
  | ok compiled => cases h
  | error raised =>
    cases h
    rfl

/-! ## Answers of the exit strategy -/

namespace Merger

variable [Journaled ω] {strategy : ExitStrategy σ T O}

/-- An answer that is not a plain one is the answer to the last result that was fed. -/
theorem drain_answer (name : String) (pending : List (Nat × Shard × Option T)) (next : Nat)
    (exit : σ) (world : ω) :
    let drained := drain strategy name pending next exit world
    drained.1 = .ok false ∨ ∃ exit' result shard,
      strategy.add exit' result (some shard) = (drained.1, drained.2.2.2.1) := by
  induction pending generalizing next exit world with
  | nil => exact .inl rfl
  | cons head rest ih =>
    obtain ⟨position, shard, result⟩ := head
    rw [drain]
    split
    case isFalse => exact .inl rfl
    case isTrue =>
      obtain ⟨world', hfeed⟩ := feed_eq strategy name shard result exit world
      rw [hfeed]
      cases hadd : strategy.add exit result (some shard) with
      | mk answer exit' =>
        rcases answer with e | stops
        · exact .inr ⟨exit, result, shard, hadd⟩
        · cases stops with
          | false => exact ih (next + 1) exit' world'
          | true => exact .inr ⟨exit, result, shard, hadd⟩

theorem accept_answer (strategy : ExitStrategy σ T O) (name : String) (merger : Merger T)
    (position : Nat) (shard : Shard) (result : Option T) (exit : σ) (world : ω) :
    let accepted := merger.accept strategy name position shard result exit world
    accepted.1 = .ok false ∨ ∃ exit' result' shard',
      strategy.add exit' result' (some shard') = (accepted.1, accepted.2.2.1) := by
  unfold accept
  dsimp only
  split
  · exact .inl rfl
  · split
    · obtain ⟨world', hfeed⟩ := feed_eq strategy name shard result exit world
      rw [hfeed]
      exact .inr ⟨exit, result, shard, rfl⟩
    · exact drain_answer name _ merger.next exit world

end Merger

namespace Parallel.Flight

variable {operation : Operation ω T} {strategy : ExitStrategy σ T O} {dispatched : Nat}
variable {shards : List Shard} {outcome : Shard → Except Mishap (Option T)}

/-- The call is over: the exit strategy has ended it, or nothing is left to do. -/
def Over (flight : Flight ω σ T) : Prop :=
  flight.verdict ≠ none ∨ flight.AtRest

/-- A call that the exit strategy has failed is left with what the failing addition left. -/
def Raised (strategy : ExitStrategy σ T O) (flight : Flight ω σ T) : Prop :=
  ∀ e, flight.verdict = some (.error e) → ∃ exit result shard,
    strategy.add exit result (some shard) = (.error e, flight.exit)

/-- Besides what the trace shows, the merger keeps its records in dispatch order. -/
structure Recorded (shards : List Shard) (flight : Flight ω σ T) : Prop
    extends Traced shards flight where
  failed : flight.merger.failures.Pairwise fun a b => a.1 < b.1
  completed : flight.merger.completed.Pairwise fun a b => a.1 < b.1
  /-- After a failure the exit strategy is fed no more, so it cannot end the call. -/
  undecided : flight.merger.failures ≠ [] → flight.verdict = none

theorem Recorded.start_of (order : MergeOrder) (shards : List Shard) (exit : σ) (world : ω) :
    Recorded shards (start order shards exit world : Flight ω σ T) where
  toTraced := .start_of order shards exit world
  failed := .nil
  completed := .nil
  undecided := fun h => absurd rfl h

theorem conclude_trace (flight : Flight ω σ T) (operation : Operation ω T)
    (strategy : ExitStrategy σ T O) (collector : Option (Collector O)) :
    (flight.conclude operation strategy collector).trace = flight.trace := by
  unfold conclude Outcome.failed Outcome.compiled
  split
  · rfl
  · rfl
  · split <;> rfl

variable [Journaled ω]

/-! ## One step -/

theorem Raised.take {flight : Flight ω σ T} (h : Raised strategy flight) (name : String)
    (arrival : Arrival T) : Raised strategy (flight.take strategy name dispatched arrival) := by
  by_cases hopen : flight.verdict = none
  case neg =>
    rw [take_of_verdict strategy name dispatched hopen]
    exact h
  case pos =>
    intro e he
    cases hout : arrival.outcome with
    | error mishap =>
      obtain ⟨-, -, hverdict, -⟩ := take_of_error strategy name dispatched hopen hout
      rw [hverdict] at he
      cases he
    | ok result =>
      obtain ⟨-, hexit, hverdict, -⟩ := take_of_ok strategy name dispatched hopen hout
      have hanswer := flight.merger.accept_answer strategy name arrival.position arrival.shard
        result flight.exit flight.world
      rw [hverdict] at he
      rw [hexit]
      generalize flight.merger.accept strategy name arrival.position arrival.shard result
        flight.exit flight.world = accepted at hanswer he ⊢
      obtain ⟨answer, merger, exit, world⟩ := accepted
      match answer with
      | .ok false => cases he
      | .ok true => cases he
      | .error raised =>
        cases he
        exact hanswer.resolve_left nofun

omit [Journaled ω] in
/-- The position of an outcome that is taken is not recorded yet. -/
theorem Accounted.unrecorded {flight : Flight ω σ T} (h : Accounted shards outcome flight)
    (hopen : flight.verdict = none) {arrival : Arrival T} (harrived : arrival ∈ flight.arrived) :
    (∀ x ∈ flight.merger.completed, x.1 ≠ arrival.position)
      ∧ ∀ x ∈ flight.merger.failures, x.1 ≠ arrival.position := by
  have hnodup := h.nodup hopen
  simp only [Flight.positions, List.nodup_append] at hnodup
  have hplace : arrival.position ∈ flight.arrived.map (·.position) := List.mem_map_of_mem harrived
  refine ⟨fun x hx heq => ?_, fun x hx heq => ?_⟩
  · exact hnodup.2.2 _ (List.mem_map_of_mem hx) _ (by simp [hplace]) heq
  · exact hnodup.2.1.2.2 _ (List.mem_map_of_mem hx) _ (by simp [hplace]) heq

theorem Recorded.take {flight : Flight ω σ T} (h : Recorded shards flight)
    (haccount : Accounted shards outcome flight) {arrival : Arrival T} {rest : List (Arrival T)}
    (arrived : flight.arrived.Perm (arrival :: rest)) :
    Recorded shards
      (take strategy operation.name dispatched { flight with arrived := rest } arrival) := by
  have htake : Step operation strategy dispatched flight _ := .take arrived
  suffices hmerger : _ ∧ _ ∧ _ from ⟨h.toTraced.step htake, hmerger.1, hmerger.2.1, hmerger.2.2⟩
  by_cases hopen : flight.verdict = none
  case neg =>
    rw [take_of_verdict strategy operation.name dispatched (by exact hopen)]
    exact ⟨h.failed, h.completed, h.undecided⟩
  case pos =>
    obtain ⟨hcompletedNew, hfailedNew⟩ :=
      haccount.unrecorded hopen (arrived.mem_iff.mpr List.mem_cons_self)
    have hopen' : ({ flight with arrived := rest } : Flight ω σ T).verdict = none := hopen
    cases hout : arrival.outcome with
    | error mishap =>
      obtain ⟨hmerger, -, hverdict, -⟩ :=
        take_of_error strategy operation.name dispatched hopen' hout
      rw [hmerger, hverdict]
      exact ⟨pairwise_insertAt h.failed hfailedNew, h.completed, fun _ => rfl⟩
    | ok result =>
      obtain ⟨hmerger, -, hverdict, -⟩ :=
        take_of_ok strategy operation.name dispatched hopen' hout
      obtain ⟨hcompleted, hfailures, -⟩ := flight.merger.accept_records strategy operation.name
        arrival.position arrival.shard result flight.exit flight.world
      dsimp only at hmerger hverdict
      rw [hmerger, hverdict, hcompleted, hfailures]
      refine ⟨h.failed, pairwise_insertAt h.completed hcompletedNew, fun hfailed => ?_⟩
      rw [Merger.accept_of_failures operation.name hfailed]
      rfl

theorem Recorded.step {flight flight' : Flight ω σ T} (h : Recorded shards flight)
    (haccount : Accounted shards outcome flight)
    (hstep : Step operation strategy dispatched flight flight') :
    Recorded shards flight' := by
  have htraced : Traced shards flight' := h.toTraced.step hstep
  cases hstep with
  | start | pass | finish | cancel => exact ⟨htraced, h.failed, h.completed, h.undecided⟩
  | take arrived => exact h.take haccount arrived

theorem Raised.step {flight flight' : Flight ω σ T} (h : Raised strategy flight)
    (hstep : Step operation strategy dispatched flight flight') :
    Raised strategy flight' := by
  cases hstep with
  | start | pass | finish | cancel => exact h
  | @take arrival rest arrived =>
    have hbefore : Raised strategy { flight with arrived := rest } := h
    exact hbefore.take operation.name arrival

/-- What the merger has heard of failures is never forgotten. -/
theorem failures_step {flight flight' : Flight ω σ T} (h : flight.merger.failures ≠ [])
    (hstep : Step operation strategy dispatched flight flight') :
    flight'.merger.failures ≠ [] := by
  cases hstep with
  | start | pass | finish | cancel => exact h
  | @take arrival rest arrived =>
    by_cases hopen : flight.verdict = none
    case neg =>
      rw [take_of_verdict strategy operation.name dispatched (by exact hopen)]
      exact h
    case pos =>
      have hopen' : ({ flight with arrived := rest } : Flight ω σ T).verdict = none := hopen
      cases hout : arrival.outcome with
      | error mishap =>
        obtain ⟨hmerger, -⟩ := take_of_error strategy operation.name dispatched hopen' hout
        rw [hmerger]
        exact insertAt_ne_nil _ _ _
      | ok result =>
        obtain ⟨hmerger, -⟩ := take_of_ok strategy operation.name dispatched hopen' hout
        obtain ⟨-, hfailures, -⟩ := flight.merger.accept_records strategy operation.name
          arrival.position arrival.shard result flight.exit flight.world
        rw [hmerger, hfailures]
        exact h

/-! ## Whole schedules -/

theorem Recorded.reaches
    (determined : ∀ shard world, (operation.run shard world).1 = outcome shard)
    {flight flight' : Flight ω σ T} (h : Recorded shards flight)
    (haccount : Accounted shards outcome flight)
    (hreaches : Reaches operation strategy dispatched flight flight') :
    Recorded shards flight' := by
  induction hreaches with
  | refl => exact h
  | tail hreaches hstep ih => exact ih.step (haccount.reaches determined hreaches) hstep

theorem Raised.reaches {flight flight' : Flight ω σ T} (h : Raised strategy flight)
    (hreaches : Reaches operation strategy dispatched flight flight') :
    Raised strategy flight' := by
  induction hreaches with
  | refl => exact h
  | tail _ hstep ih => exact ih.step hstep

theorem failures_reaches {flight flight' : Flight ω σ T} (h : flight.merger.failures ≠ [])
    (hreaches : Reaches operation strategy dispatched flight flight') :
    flight'.merger.failures ≠ [] := by
  induction hreaches with
  | refl => exact h
  | tail _ hstep ih => exact failures_step ih hstep

/-- On the way from one flight to another the merger took the outcome of a failed operation, before
the exit strategy had ended the call. -/
def HeardFailure (operation : Operation ω T) (strategy : ExitStrategy σ T O)
    (dispatched : Nat) (flight flight' : Flight ω σ T) : Prop :=
  ∃ before arrival rest mishap, Reaches operation strategy dispatched flight before
    ∧ before.verdict = none ∧ before.arrived.Perm (arrival :: rest)
    ∧ arrival.outcome = .error mishap
    ∧ Reaches operation strategy dispatched
      (take strategy operation.name dispatched { before with arrived := rest } arrival) flight'

theorem HeardFailure.failures {flight flight' : Flight ω σ T}
    (h : HeardFailure operation strategy dispatched flight flight') :
    flight'.merger.failures ≠ [] := by
  obtain ⟨before, arrival, rest, mishap, -, hopen, -, hout, hreaches⟩ := h
  have hopen' : ({ before with arrived := rest } : Flight ω σ T).verdict = none := hopen
  obtain ⟨hmerger, -⟩ := take_of_error strategy operation.name dispatched hopen' hout
  refine failures_reaches ?_ hreaches
  rw [hmerger]
  exact insertAt_ne_nil _ _ _

omit [Journaled ω] in
/-- At rest, what the merger has recorded are the started positions. -/
theorem Recorded.accounts {flight : Flight ω σ T} (h : Recorded shards flight)
    (haccount : Accounted shards outcome flight) (hrest : flight.AtRest)
    (hopen : flight.verdict = none) (hfailed : flight.merger.failures ≠ []) :
    Accounts shards outcome flight.trace (flight.merger.failures.map (·.2))
      (flight.merger.completed.map (·.2)) where
  once := h.nodup
  ended := by simpa [hrest.running] using h.ended
  divided := by
    refine ⟨flight.merger.failures.map (·.1), flight.merger.completed.map (·.1), ?_,
      List.pairwise_map.mpr h.failed, List.pairwise_map.mpr h.completed, ?_, ?_⟩
    · have hpositions := haccount.positions hopen
      replace hpositions := hpositions.trans h.started.symm
      simp only [Flight.positions, hrest.arrived, hrest.running, List.map_nil, List.nil_append,
        ← List.append_assoc, List.perm_append_right_iff] at hpositions
      exact List.perm_append_comm.trans hpositions
    · rw [List.forall₂_map_left_iff, List.forall₂_map_right_iff, List.forall₂_same]
      exact haccount.failed
    · rw [List.forall₂_map_left_iff, List.forall₂_map_right_iff, List.forall₂_same]
      exact haccount.completed
  failed := by simpa using hfailed

/-- Whatever the schedule, a call that is over with a report of failed operations accounts for all
that it started, unless the exit strategy itself gave that error. -/
theorem conclude_accounts
    (determined : ∀ shard world, (operation.run shard world).1 = outcome shard)
    {order : MergeOrder} {exit : σ} {world : ω} {flight : Flight ω σ T}
    (hreaches : Reaches operation strategy dispatched (start order shards exit world) flight)
    (hover : flight.Over) (collector : Option (Collector O)) {name : String}
    {failures : List ShardFailure} {completed : List ShardId}
    (hresult : (flight.conclude operation strategy collector).result
      = .error (.shard (.operationFailure name failures completed))) :
    (flight.conclude operation strategy collector).RaisedBy strategy collector
        (.operationFailure name failures completed) ∨
      flight.AtRest ∧ Accounts shards outcome flight.trace failures completed := by
  have hstart : Accounted shards outcome (start order shards exit world : Flight ω σ T) :=
    .start_of order shards exit world
  have haccount := hstart.reaches determined hreaches
  have hrecorded := (Recorded.start_of order shards exit world).reaches determined hstart hreaches
  have hunraised : Raised strategy (start order shards exit world : Flight ω σ T) := nofun
  have hraised : Raised strategy flight := hunraised.reaches hreaches
  unfold Flight.conclude at hresult ⊢
  match hverdict : flight.verdict with
  | some (.error e) =>
    rw [hverdict] at hresult
    cases hresult
    exact .inl (.inl (hraised _ hverdict))
  | some (.ok ()) =>
    rw [hverdict] at hresult
    exact .inl (Outcome.compiled_raised hresult)
  | none =>
    rw [hverdict] at hresult
    by_cases hfailed : flight.merger.failures = []
    case pos =>
      simp only [Merger.error?, hfailed, List.isEmpty_nil, if_true] at hresult ⊢
      exact .inl (Outcome.compiled_raised hresult)
    case neg =>
      have hrest : flight.AtRest := hover.resolve_left fun h => h hverdict
      simp only [Merger.error?, List.isEmpty_eq_false_iff.mpr hfailed] at hresult
      cases hresult
      exact .inr ⟨hrest, hrecorded.accounts haccount hrest hverdict hfailed⟩

/-- A call whose merger has heard of a failure reports failed operations. -/
theorem HeardFailure.conclude
    (determined : ∀ shard world, (operation.run shard world).1 = outcome shard)
    {order : MergeOrder} {exit : σ} {world : ω} {flight : Flight ω σ T}
    (hreaches : Reaches operation strategy dispatched (start order shards exit world) flight)
    (h : HeardFailure operation strategy dispatched (start order shards exit world) flight)
    (collector : Option (Collector O)) :
    ∃ failures completed, (flight.conclude operation strategy collector).result
      = .error (.shard (.operationFailure operation.name failures completed)) := by
  have hstart : Accounted shards outcome (start order shards exit world : Flight ω σ T) :=
    .start_of order shards exit world
  have hrecorded := (Recorded.start_of order shards exit world).reaches determined hstart hreaches
  have hfailed := h.failures
  refine ⟨flight.merger.failures.map (·.2), flight.merger.completed.map (·.2), ?_⟩
  unfold Flight.conclude
  rw [hrecorded.undecided hfailed]
  simp only [Merger.error?, List.isEmpty_eq_false_iff.mpr hfailed]
  rfl

end Parallel.Flight

theorem ParallelAccess.permits_pos (access : ParallelAccess) : 0 < access.permits := by
  unfold permits
  split <;> omega

variable [Journaled ω]

/-- Some schedule of a concurrent call leads to `flight`, with the shards in the order `ordered`. -/
structure ParallelAccess.Schedules (access : ParallelAccess) (operation : Operation ω T)
    (strategy : ExitStrategy σ T O) (shards : List Shard) (exit : σ) (world : ω)
    (ordered : List Shard) (flight : Parallel.Flight ω σ T) : Prop where
  order : (access.ordering.order shards).1 = .ok ordered
  reaches : Parallel.Flight.Reaches operation strategy ordered.length
    (.start access.mergeOrder ordered exit world) flight

namespace AccessStrategy

/-- A concurrent call that is dispatched ends as some schedule of it does at which nothing is left to
do. -/
theorem apply_schedules (operation : Operation ω T) (strategy : ExitStrategy σ T O)
    (collector : Option (Collector O)) {access : ParallelAccess} {shards ordered : List Shard}
    (admitted : (parallel access).refusal? shards = none)
    (hordered : (access.ordering.order shards).1 = .ok ordered) (exit : σ) (world : ω) :
    ∃ flight, access.Schedules operation strategy shards exit world ordered flight ∧ flight.AtRest
      ∧ ((parallel access).apply shards operation strategy collector exit world).1
        = flight.conclude operation strategy collector := by
  refine ⟨_, ⟨hordered, Parallel.Flight.settle_reaches ..⟩,
    Parallel.Flight.settle_rests access.permits_pos ordered.length _ ?_, ?_⟩
  · simp [Parallel.Flight.start]
  · simp only [apply, admitted, AccessStrategy.ordering, hordered]
    rfl

/-- A concurrent call is refused before anything starts, or it ends as some schedule of it does at
which nothing is left to do. -/
theorem apply_parallel_eq (operation : Operation ω T) (strategy : ExitStrategy σ T O)
    (collector : Option (Collector O)) (access : ParallelAccess) (shards : List Shard) (exit : σ)
    (world : ω) :
    let call := ((parallel access).apply shards operation strategy collector exit world).1
    (∃ e, call = ⟨.error e, exit, world, []⟩
      ∧ ∀ name failures completed, e ≠ .shard (.operationFailure name failures completed)) ∨
    ∃ ordered flight,
      access.Schedules operation strategy shards exit world ordered flight ∧ flight.AtRest
        ∧ call = flight.conclude operation strategy collector := by
  unfold apply
  cases hrefusal : (parallel access).refusal? shards with
  | some refused =>
    refine .inl ⟨refused, rfl, ?_⟩
    unfold refusal? at hrefusal
    split at hrefusal
    · cases hrefusal
      exact nofun
    · dsimp only at hrefusal
      split at hrefusal
      · cases hrefusal
        exact nofun
      · cases hrefusal
  | none =>
    dsimp only
    generalize hordered : (parallel access).ordering.order shards = result
    obtain ⟨answer, ordering⟩ := result
    match answer with
    | .error e =>
      obtain ⟨message, rfl⟩ := ShardOrdering.order_error (congrArg Prod.fst hordered)
      exact .inl ⟨_, rfl, nofun⟩
    | .ok ordered =>
      obtain ⟨flight, hschedules, hrest, hcall⟩ := apply_schedules operation strategy collector
        hrefusal (congrArg Prod.fst hordered) exit world
      refine .inr ⟨ordered, flight, hschedules, hrest, ?_⟩
      rw [← hcall, apply, hrefusal, hordered]

theorem apply_parallel_cases (operation : Operation ω T) (strategy : ExitStrategy σ T O)
    (collector : Option (Collector O)) (access : ParallelAccess) (shards : List Shard) (exit : σ)
    (world : ω) :
    let call := ((parallel access).apply shards operation strategy collector exit world).1
    (∃ e, call.result = .error e
      ∧ ∀ name failures completed, e ≠ .shard (.operationFailure name failures completed)) ∨
    ∃ ordered flight,
      access.Schedules operation strategy shards exit world ordered flight ∧ flight.AtRest
        ∧ call = flight.conclude operation strategy collector :=
  (apply_parallel_eq operation strategy collector access shards exit world).imp_left
    fun ⟨e, hcall, hother⟩ => ⟨e, congrArg Outcome.result hcall, hother⟩

/-- A concurrent call that returns a report of failed operations accounts for all that it started,
unless the exit strategy itself gave that error. The call, if it is not refused, takes one of its
schedules to the end, and every schedule that is over does so too; none of them in which the merger
heard of a failure, before the exit strategy ended the call, ends in any other way. -/
theorem parallel_accounts {operation : Operation ω T}
    {outcome : Shard → Except Mishap (Option T)}
    (determined : ∀ shard world, (operation.run shard world).1 = outcome shard)
    (strategy : ExitStrategy σ T O) (collector : Option (Collector O)) (access : ParallelAccess)
    (shards : List Shard) (exit : σ) (world : ω) :
    let call := ((parallel access).apply shards operation strategy collector exit world).1
    (∀ name failures completed,
      call.result = .error (.shard (.operationFailure name failures completed)) →
      call.RaisedBy strategy collector (.operationFailure name failures completed) ∨
        ∃ ordered, (access.ordering.order shards).1 = .ok ordered
          ∧ Accounts ordered outcome call.trace failures completed)
    ∧ (∀ result, call.result = .ok result → ∃ ordered flight,
        access.Schedules operation strategy shards exit world ordered flight ∧ flight.AtRest
          ∧ call = flight.conclude operation strategy collector)
    ∧ ∀ ordered flight, access.Schedules operation strategy shards exit world ordered flight →
        flight.Over →
        let concluded := flight.conclude operation strategy collector
        (∀ name failures completed,
          concluded.result = .error (.shard (.operationFailure name failures completed)) →
          concluded.RaisedBy strategy collector (.operationFailure name failures completed) ∨
            flight.running = [] ∧ Accounts ordered outcome concluded.trace failures completed)
        ∧ (Parallel.Flight.HeardFailure operation strategy ordered.length
            (.start access.mergeOrder ordered exit world) flight →
          ∃ failures completed, concluded.result
            = .error (.shard (.operationFailure operation.name failures completed))) := by
  intro call
  have hcases := apply_parallel_cases operation strategy collector access shards exit world
  refine ⟨fun name failures completed hresult => ?_, fun result hresult => ?_,
    fun ordered flight hschedules hover => ⟨fun name failures completed hresult => ?_,
      fun hheard => hheard.conclude determined hschedules.reaches collector⟩⟩
  · rcases hcases with ⟨e, he, hother⟩ | ⟨ordered, flight, hschedules, hrest, hcall⟩
    · exact absurd (Except.error.inj (he.symm.trans hresult)) (hother name failures completed)
    · rw [show call = _ from hcall] at hresult ⊢
      rcases Parallel.Flight.conclude_accounts determined hschedules.reaches (.inr hrest) collector
        hresult with hraised | ⟨-, haccounts⟩
      · exact .inl hraised
      · refine .inr ⟨ordered, hschedules.order, ?_⟩
        rwa [flight.conclude_trace operation strategy collector]
  · exact hcases.resolve_left fun ⟨e, he, _⟩ => nomatch he.symm.trans hresult
  · rw [flight.conclude_trace operation strategy collector]
    exact (Parallel.Flight.conclude_accounts determined hschedules.reaches hover collector
      hresult).imp_right fun ⟨hrest, haccounts⟩ => ⟨hrest.running, haccounts⟩

/-- Five operations, two at a time and one handle twice: the second one panics while the first one
still runs. The first one and the one that took the free permit end, and complete; the last two are
never started. -/
theorem parallel_accounts_panic :
    let shard := fun handle => Shard.mk handle (.ofNat handle) ∅ 0
    let outcome : Shard → Except Mishap (Option (List Nat)) := fun shard =>
      if shard.handle = 1 then .error (.panicked none) else .ok (some [shard.handle])
    let operation : Operation Cluster (List Nat) :=
      ⟨"rows", fun shard => 9 - 4 * shard.handle, fun shard world => (outcome shard, world)⟩
    let ordered := [shard 0, shard 1, shard 0, shard 2, shard 2]
    let call := ((parallel ⟨.input, 2, .shardOrder⟩).apply ordered operation Concatenate.strategy
      none [] (.ofBackends 0)).1
    let failures := [⟨.ofNat 1, "operation panicked: unknown panic"⟩]
    (∀ shard world, (operation.run shard world).1 = outcome shard)
      ∧ call.result = .error (.shard (.operationFailure "rows" failures [.ofNat 0, .ofNat 0]))
      ∧ Accounts ordered outcome call.trace failures [.ofNat 0, .ofNat 0] := by
  intro shard outcome operation ordered call failures
  have hdetermined : ∀ shard world, (operation.run shard world).1 = outcome shard := fun _ _ => rfl
  obtain ⟨haccounts, -, -⟩ := parallel_accounts hdetermined Concatenate.strategy none
    ⟨.input, 2, .shardOrder⟩ ordered [] (.ofBackends 0)
  have hresult : call.result
      = .error (.shard (.operationFailure "rows" failures [.ofNat 0, .ofNat 0])) := by
    decide +kernel
  refine ⟨hdetermined, hresult, ?_⟩
  rcases haccounts _ _ _ hresult with
    (⟨_, _, _, hadd⟩ | ⟨_, hcompile⟩) | ⟨ordered', horder, haccounts⟩
  · cases congrArg Prod.fst hadd
  · cases congrArg Prod.fst hcompile
  · obtain rfl : ordered = ordered' := Except.ok.inj horder
    exact haccounts

end AccessStrategy

end ScatterGather
