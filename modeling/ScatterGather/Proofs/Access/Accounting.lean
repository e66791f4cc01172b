import Mathlib.Data.List.Perm.Basic
import Mathlib.Data.List.Count
import ScatterGather.Proofs.Access.Schedule

/-!
# Where every shard of a concurrent call is

Until the exit strategy ends the call, each position of the dispatch order is in exactly one place:
in the queue, running, sent to the merger, or recorded by it as completed or failed (`Accounted`).
Every step of every schedule keeps this, since a step only moves one position from one place to the
next. What is recorded is true to the operations: a completed shard is one whose operation gave a
result, a failed one is recorded with the reason its operation gave.
-/

namespace ScatterGather

/-! ## Inserting by position -/

theorem insertAt_perm {α : Type} (position : Nat) (x : α) (xs : List (Nat × α)) :
    (insertAt position x xs).Perm ((position, x) :: xs) := by
  induction xs with
  | nil => exact .refl _
  | cons head rest ih =>
    obtain ⟨p, y⟩ := head
    rw [insertAt]
    split
    · exact (ih.cons _).trans (.swap ..)
    · exact .refl _

theorem mem_insertAt {α : Type} {position : Nat} {x : α} {xs : List (Nat × α)} {e : Nat × α} :
    e ∈ insertAt position x xs ↔ e = (position, x) ∨ e ∈ xs := by
  rw [(insertAt_perm position x xs).mem_iff, List.mem_cons]

theorem insertAt_ne_nil {α : Type} (position : Nat) (x : α) (xs : List (Nat × α)) :
    insertAt position x xs ≠ [] := by
  intro h
  have hmem : (position, x) ∈ insertAt position x xs := mem_insertAt.mpr (.inl rfl)
  rw [h] at hmem
  cases hmem

variable {ω σ T O : Type} [Journaled ω]

namespace Merger

/-- A result is recorded whether or not it is fed, and nothing else that is recorded changes. -/
theorem accept_records (strategy : ExitStrategy σ T O) (name : String) (merger : Merger T)
    (position : Nat) (shard : Shard) (result : Option T) (exit : σ) (world : ω) :
    let after := (merger.accept strategy name position shard result exit world).2.1
    after.completed = insertAt position shard.physicalId merger.completed
      ∧ after.failures = merger.failures ∧ after.order = merger.order := by
  unfold accept
  dsimp only
  split
  · exact ⟨rfl, rfl, rfl⟩
  · split
    · exact ⟨rfl, rfl, rfl⟩
    · exact ⟨rfl, rfl, rfl⟩

end Merger

namespace Parallel

/-- What an answer of the exit strategy means for the call: it goes on, or it is over. -/
def verdictOf : Except ShardError Bool → Option (Except ShardError Unit)
  | .ok false => none
  | .ok true => some (.ok ())
  | .error e => some (.error e)

theorem verdictOf_eq_none {answer : Except ShardError Bool} (h : verdictOf answer = none) :
    answer = .ok false := by
  match answer, h with
  | .ok false, _ => rfl

namespace Flight

/-! ## What the merger does with an outcome -/

theorem take_of_verdict (strategy : ExitStrategy σ T O) (name : String) (dispatched : Nat)
    {flight : Flight ω σ T} (h : flight.verdict ≠ none) (arrival : Arrival T) :
    flight.take strategy name dispatched arrival = flight := by
  unfold take read
  rw [if_pos (Option.isSome_iff_ne_none.mpr h)]

theorem take_of_error (strategy : ExitStrategy σ T O) (name : String) (dispatched : Nat)
    {flight : Flight ω σ T} (h : flight.verdict = none) {arrival : Arrival T} {mishap : Mishap}
    (herror : arrival.outcome = .error mishap) :
    let after := flight.take strategy name dispatched arrival
    after.merger = flight.merger.fail arrival.position ⟨arrival.shard.physicalId, mishap.source⟩
      ∧ after.exit = flight.exit ∧ after.verdict = none ∧ after.arrived = flight.arrived := by
  unfold take read cancel
  rw [if_neg (by simp [h]), herror]
  exact ⟨rfl, rfl, h, rfl⟩

theorem take_of_ok (strategy : ExitStrategy σ T O) (name : String) (dispatched : Nat)
    {flight : Flight ω σ T} (h : flight.verdict = none) {arrival : Arrival T} {result : Option T}
    (hok : arrival.outcome = .ok result) :
    let after := flight.take strategy name dispatched arrival
    let accepted := flight.merger.accept strategy name arrival.position arrival.shard result
      flight.exit flight.world
    after.merger = accepted.2.1 ∧ after.exit = accepted.2.2.1
      ∧ after.verdict = verdictOf accepted.1 ∧ after.arrived = flight.arrived := by
  dsimp only
  unfold take read cancel
  rw [if_neg (by simp [h]), hok]
  dsimp only
  generalize flight.merger.accept strategy name arrival.position arrival.shard result flight.exit
    flight.world = accepted
  obtain ⟨answer, merger, exit, world⟩ := accepted
  match answer with
  | .ok false => exact ⟨rfl, rfl, h, rfl⟩
  | .ok true => exact ⟨rfl, rfl, rfl, rfl⟩
  | .error e => exact ⟨rfl, rfl, rfl, rfl⟩

/-! ## The account -/

/-- The positions of a flight, by where they are. -/
def positions (flight : Flight ω σ T) : List Nat :=
  flight.merger.completed.map (·.1) ++ (flight.merger.failures.map (·.1)
    ++ (flight.arrived.map (·.position) ++ (flight.running.map (·.position)
      ++ flight.queue.map (·.1))))

/-- Every position is in one place, with the shard and the outcome that belong to it. -/
structure Accounted (shards : List Shard) (outcome : Shard → Except Mishap (Option T))
    (flight : Flight ω σ T) : Prop where
  queued : ∀ x ∈ flight.queue, shards[x.1]? = some x.2
  running : ∀ x ∈ flight.running, shards[x.position]? = some x.shard
  arrived : ∀ x ∈ flight.arrived,
    shards[x.position]? = some x.shard ∧ x.outcome = outcome x.shard
  completed : ∀ x ∈ flight.merger.completed, ∃ shard result,
    shards[x.1]? = some shard ∧ outcome shard = .ok result ∧ x.2 = shard.physicalId
  failed : ∀ x ∈ flight.merger.failures, ∃ shard mishap,
    shards[x.1]? = some shard ∧ outcome shard = .error mishap
      ∧ x.2 = ⟨shard.physicalId, mishap.source⟩
  positions : flight.verdict = none → flight.positions.Perm (List.range shards.length)
  /-- Only a failure or a verdict cancels a call. -/
  cancelled : flight.cancelled = true → flight.verdict ≠ none ∨ flight.merger.failures ≠ []

/-- The operations that run are at different positions, so ending one takes one position away. -/
theorem filter_running_perm {running : List Ongoing} (nodup : (running.map (·.position)).Nodup)
    {next : Ongoing} (mem : next ∈ running) :
    (running.map (·.position)).Perm (next.position ::
      (running.filter fun running => running.position != next.position).map (·.position)) := by
  have hmem : next.position ∈ running.map (·.position) := List.mem_map_of_mem mem
  have hfilter : (running.filter fun running => running.position != next.position).map (·.position)
      = (running.map (·.position)).erase next.position := by
    rw [nodup.erase_eq_filter, List.filter_map]
    rfl
  rw [hfilter]
  exact List.perm_cons_erase hmem

section

variable {operation : Operation ω T} {strategy : ExitStrategy σ T O} {dispatched : Nat}
variable {shards : List Shard} {outcome : Shard → Except Mishap (Option T)}

omit [Journaled ω] in
theorem Accounted.start_of (order : MergeOrder) (shards : List Shard) (exit : σ) (world : ω) :
    Accounted shards outcome (start order shards exit world : Flight ω σ T) where
  queued := by
    intro x hx
    obtain ⟨position, hposition, rfl⟩ := List.mem_mapIdx.mp hx
    exact List.getElem?_eq_getElem hposition
  running := by intro x hx; cases hx
  arrived := by intro x hx; cases hx
  completed := by intro x hx; cases hx
  failed := by intro x hx; cases hx
  positions := by
    intro _
    have hqueue : (shards.mapIdx fun position shard => (position, shard)).map (·.1)
        = List.range shards.length := by
      apply List.ext_getElem <;> simp
    simpa [Flight.positions, start, Merger.start] using List.Perm.of_eq hqueue
  cancelled := by intro h; cases h

omit [Journaled ω] in
theorem Accounted.nodup {flight : Flight ω σ T} (h : Accounted shards outcome flight)
    (hopen : flight.verdict = none) : flight.positions.Nodup :=
  (h.positions hopen).nodup_iff.mpr List.nodup_range

omit [Journaled ω] in
theorem Accounted.of_arrived {flight : Flight ω σ T} (h : Accounted shards outcome flight)
    {arrival : Arrival T} {rest : List (Arrival T)}
    (arrived : flight.arrived.Perm (arrival :: rest)) :
    (shards[arrival.position]? = some arrival.shard ∧ arrival.outcome = outcome arrival.shard)
      ∧ ∀ x ∈ rest, shards[x.position]? = some x.shard ∧ x.outcome = outcome x.shard :=
  List.forall_mem_cons.mp fun x hx => h.arrived x (arrived.mem_iff.mpr hx)

omit [Journaled ω] in
theorem Accounted.of_queue {flight : Flight ω σ T} (h : Accounted shards outcome flight)
    {first : Nat × Shard} {rest : List (Nat × Shard)} (queue : flight.queue.Perm (first :: rest)) :
    shards[first.1]? = some first.2 ∧ ∀ x ∈ rest, shards[x.1]? = some x.2 :=
  List.forall_mem_cons.mp fun x hx => h.queued x (queue.mem_iff.mpr hx)

/-- A failure that is taken moves on to the failures. -/
theorem Accounted.fail {flight : Flight ω σ T} (h : Accounted shards outcome flight)
    (hopen : flight.verdict = none) {arrival : Arrival T} {rest : List (Arrival T)}
    (arrived : flight.arrived.Perm (arrival :: rest)) {mishap : Mishap}
    (hout : arrival.outcome = .error mishap) :
    Accounted shards outcome
      (take strategy operation.name dispatched { flight with arrived := rest } arrival) := by
  obtain ⟨⟨hshard, houtcome⟩, hrest⟩ := h.of_arrived arrived
  have hopen' : ({ flight with arrived := rest } : Flight ω σ T).verdict = none := hopen
  obtain ⟨hmerger, -, hverdict, harrived⟩ :=
    take_of_error strategy operation.name dispatched hopen' hout
  refine ⟨by simpa using h.queued, by simpa using h.running, ?_, ?_, ?_, fun _ => ?_,
    fun _ => .inr ?_⟩
  · rwa [harrived]
  · rw [hmerger]
    exact h.completed
  · rw [hmerger]
    intro x hx
    rcases mem_insertAt.mp hx with rfl | hx
    · exact ⟨arrival.shard, mishap, hshard, houtcome.symm.trans hout, rfl⟩
    · exact h.failed x hx
  · -- The position is counted among the failures now, and not among the arrivals any more.
    refine List.Perm.trans (List.perm_iff_count.mpr fun p => ?_) (h.positions hopen)
    have hcount := ((insertAt_perm arrival.position
      (⟨arrival.shard.physicalId, mishap.source⟩ : ShardFailure)
      flight.merger.failures).map (·.1)).count_eq p
    have harrivals := (arrived.map (·.position)).count_eq p
    simp only [Flight.positions, hmerger, harrived, take_queue, take_running, Merger.fail,
      List.map_cons, List.count_append, List.count_cons] at hcount harrivals ⊢
    omega
  · rw [hmerger]
    exact insertAt_ne_nil _ _ _

/-- A result that is taken moves on to the completed shards, whether or not it is its turn. -/
theorem Accounted.accept {flight : Flight ω σ T} (h : Accounted shards outcome flight)
    (hopen : flight.verdict = none) {arrival : Arrival T} {rest : List (Arrival T)}
    (arrived : flight.arrived.Perm (arrival :: rest)) {result : Option T}
    (hout : arrival.outcome = .ok result) :
    Accounted shards outcome
      (take strategy operation.name dispatched { flight with arrived := rest } arrival) := by
  obtain ⟨⟨hshard, houtcome⟩, hrest⟩ := h.of_arrived arrived
  have hopen' : ({ flight with arrived := rest } : Flight ω σ T).verdict = none := hopen
  obtain ⟨hmerger, -, hverdict, harrived⟩ :=
    take_of_ok strategy operation.name dispatched hopen' hout
  obtain ⟨hcompleted, hfailures, -⟩ := flight.merger.accept_records strategy operation.name
    arrival.position arrival.shard result flight.exit flight.world
  refine ⟨by simpa using h.queued, by simpa using h.running, ?_, ?_, ?_, fun _ => ?_, fun hc => ?_⟩
  · rwa [harrived]
  · rw [hmerger, hcompleted]
    intro x hx
    rcases mem_insertAt.mp hx with rfl | hx
    · exact ⟨arrival.shard, result, hshard, houtcome.symm.trans hout, rfl⟩
    · exact h.completed x hx
  · rw [hmerger, hfailures]
    exact h.failed
  · refine List.Perm.trans (List.perm_iff_count.mpr fun p => ?_) (h.positions hopen)
    have hcount := ((insertAt_perm arrival.position arrival.shard.physicalId
      flight.merger.completed).map (·.1)).count_eq p
    have harrivals := (arrived.map (·.position)).count_eq p
    simp only [Flight.positions, hmerger, hcompleted, hfailures, harrived, take_queue,
      take_running, List.map_cons, List.count_append, List.count_cons] at hcount harrivals ⊢
    omega
  · rw [hmerger, hfailures]
    exact .inr ((h.cancelled hc).resolve_left fun hverdict => hverdict hopen)

/-- What the merger takes moves on to what it has recorded. -/
theorem Accounted.take {flight : Flight ω σ T} (h : Accounted shards outcome flight)
    {arrival : Arrival T} {rest : List (Arrival T)}
    (arrived : flight.arrived.Perm (arrival :: rest)) :
    Accounted shards outcome
      (take strategy operation.name dispatched { flight with arrived := rest } arrival) := by
  by_cases hopen : flight.verdict = none
  case neg =>
    rw [take_of_verdict strategy operation.name dispatched (by exact hopen)]
    exact ⟨h.queued, h.running, (h.of_arrived arrived).2, h.completed, h.failed,
      fun h => absurd h hopen, h.cancelled⟩
  case pos =>
    cases hout : arrival.outcome with
    | error mishap => exact h.fail hopen arrived hout
    | ok result => exact h.accept hopen arrived hout

/-- A step moves one position to the next place, and what it records is what the operation gave. -/
theorem Accounted.step (determined : ∀ shard world, (operation.run shard world).1 = outcome shard)
    {flight flight' : Flight ω σ T} (h : Accounted shards outcome flight)
    (hstep : Step operation strategy dispatched flight flight') :
    Accounted shards outcome flight' := by
  cases hstep with
  | @start position shard rest queue endsAt =>
    obtain ⟨hshard, hrest⟩ := h.of_queue queue
    refine ⟨hrest, ?_, h.arrived, h.completed, h.failed, fun hopen => ?_, h.cancelled⟩
    · intro x hx
      rcases List.mem_append.mp hx with hx | hx
      · exact h.running x hx
      · obtain rfl := List.mem_singleton.mp hx
        exact hshard
    · refine List.Perm.trans (List.perm_iff_count.mpr fun p => ?_) (h.positions hopen)
      have hcount := (queue.map (·.1)).count_eq p
      simp only [Flight.positions, List.map_append, List.map_cons, List.map_nil,
        List.count_append, List.count_cons, List.count_nil] at hcount ⊢
      omega
  | @pass position shard rest queue =>
    obtain ⟨hshard, hrest⟩ := h.of_queue queue
    refine ⟨hrest, h.running, ?_, h.completed, h.failed, fun hopen => ?_, h.cancelled⟩
    · intro x hx
      rcases List.mem_append.mp hx with hx | hx
      · exact h.arrived x hx
      · obtain rfl := List.mem_singleton.mp hx
        exact ⟨hshard, determined _ _⟩
    · refine List.Perm.trans (List.perm_iff_count.mpr fun p => ?_) (h.positions hopen)
      have hcount := (queue.map (·.1)).count_eq p
      simp only [Flight.positions, Flight.finish, List.map_append, List.map_cons,
        List.map_nil, List.count_append, List.count_cons, List.count_nil] at hcount ⊢
      omega
  | @finish next mem now =>
    refine ⟨h.queued, fun x hx => h.running x (List.mem_filter.mp hx).1, ?_, h.completed, h.failed,
      fun hopen => ?_, h.cancelled⟩
    · intro x hx
      rcases List.mem_append.mp hx with hx | hx
      · exact h.arrived x hx
      · obtain rfl := List.mem_singleton.mp hx
        exact ⟨h.running next mem, determined _ _⟩
    · have hnodup : (flight.running.map (·.position)).Nodup := by
        have hall := h.nodup hopen
        simp only [Flight.positions, List.nodup_append] at hall
        exact hall.2.1.2.1.2.1.1
      refine List.Perm.trans (List.perm_iff_count.mpr fun p => ?_) (h.positions hopen)
      have hcount := (filter_running_perm hnodup mem).count_eq p
      simp only [Flight.positions, Flight.finish, List.map_append, List.map_cons, List.map_nil,
        List.count_append, List.count_cons, List.count_nil] at hcount ⊢
      omega
  | take arrived => exact h.take arrived
  | cancel why =>
    exact ⟨h.queued, h.running, h.arrived, h.completed, h.failed, h.positions, fun _ => why⟩

theorem Accounted.reaches
    (determined : ∀ shard world, (operation.run shard world).1 = outcome shard)
    {flight flight' : Flight ω σ T} (h : Accounted shards outcome flight)
    (hreaches : Reaches operation strategy dispatched flight flight') :
    Accounted shards outcome flight' := by
  induction hreaches with
  | refl => exact h
  | tail _ hstep ih => exact ih.step determined hstep

omit [Journaled ω] in
/-- When nothing is left to do and nothing ended the call, every shard has completed. -/
theorem Accounted.all_completed {flight : Flight ω σ T} (h : Accounted shards outcome flight)
    (hrest : flight.AtRest) (hopen : flight.verdict = none) (hnone : flight.merger.failures = []) :
    flight.queue = []
      ∧ (flight.merger.completed.map (·.1)).Perm (List.range shards.length) := by
  have hqueue : flight.queue = [] := by
    rcases hrest.queue with hqueue | hcancelled
    · exact hqueue
    · rcases h.cancelled hcancelled with hverdict | hfailed
      · exact absurd hopen hverdict
      · exact absurd hnone hfailed
  have hpositions := h.positions hopen
  simp only [Flight.positions, hnone, hrest.arrived, hrest.running, hqueue, List.map_nil,
    List.append_nil] at hpositions
  exact ⟨hqueue, hpositions⟩

end

end Flight

end Parallel

end ScatterGather
