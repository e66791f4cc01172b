import ScatterGather.Proofs.Access.Reporting

/-!
# What a call may come to

A call is refused, or its shards are put in order and dispatched: visited one after the other, or
concurrently, in which case every schedule that leaves nothing to do is one way for the call to end
(`MayReturn`). Whichever way it takes, and whatever its operation does, a call starts each shard at
most once.
-/

namespace ScatterGather

variable {ω σ T O : Type}

/-! ## Starts and ends of shards -/

/-- The shard whose operation starts. -/
def Mark.startedOn? : Mark → Option ShardId
  | .started _ shard => some shard
  | .ended .. | .cancelled => none

/-- The shards whose operations were started, in that order. -/
def startedOn (trace : List Mark) : List ShardId :=
  trace.filterMap Mark.startedOn?

/-- What is started at a position is the shard that stands there. -/
theorem startedOn_eq {shards : List Shard} {trace : List Mark}
    (h : ∀ mark ∈ trace, mark.Fits shards) :
    startedOn trace = (startedAt trace).filterMap fun position =>
      (shards[position]?).map (·.physicalId) := by
  induction trace with
  | nil => rfl
  | cons mark rest ih =>
    obtain ⟨hmark, hrest⟩ := List.forall_mem_cons.mp h
    have hih := ih hrest
    cases mark with
    | started position id =>
      obtain ⟨shard, hshard, rfl⟩ := hmark
      rw [startedAt_started, List.filterMap_cons, hshard, ← hih]
      rfl
    | ended position id => exact hih
    | cancelled => exact hih

theorem filterMap_range_getElem? {α β : Type} (xs : List α) (f : α → β) :
    (List.range xs.length).filterMap (fun position => (xs[position]?).map f) = xs.map f := by
  induction xs with
  | nil => rfl
  | cons first rest ih =>
    rw [List.length_cons, List.range_succ_eq_map, List.map_cons, ← ih]
    simp [List.filterMap_map]

/-- A concurrent call starts no shard more often than it was given. -/
theorem Parallel.Flight.Traced.startedOn_subperm {shards : List Shard} {flight : Flight ω σ T}
    (h : Traced shards flight) :
    (startedOn flight.trace).Subperm (shards.map (·.physicalId)) := by
  obtain ⟨some, hperm, hsublist⟩ :=
    ((List.sublist_append_left _ _).subperm.trans h.started.subperm :
      (startedAt flight.trace).Subperm (List.range shards.length))
  rw [startedOn_eq h.fits, ← filterMap_range_getElem?]
  exact ⟨_, hperm.filterMap _, hsublist.filterMap _⟩

/-! ## Sequential dispatch -/

namespace Sequential

/-- The marks of shards that are visited one after the other from a position on. -/
def visited : Nat → List Shard → List Mark
  | _, [] => []
  | position, shard :: rest =>
    .started position shard.physicalId :: .ended position shard.physicalId ::
      visited (position + 1) rest

theorem startedOn_visited (shards : List Shard) (position : Nat) :
    startedOn (visited position shards) = shards.map (·.physicalId) := by
  induction shards generalizing position with
  | nil => rfl
  | cons shard rest ih => exact congrArg (shard.physicalId :: ·) (ih (position + 1))

/-- The first shards are visited, and no other is touched. -/
theorem visit_trace [Journaled ω] (operation : Operation ω T) (strategy : ExitStrategy σ T O)
    (collector : Option (Collector O)) (shards : List Shard) (completed : List ShardId) (exit : σ)
    (world : ω) :
    ∃ count ≤ shards.length, (visit operation strategy collector shards completed exit world).trace
      = visited completed.length (shards.take count) := by
  induction shards generalizing completed exit world with
  | nil => exact ⟨0, Nat.le_refl _, rfl⟩
  | cons shard rest ih =>
    have hfirst : 1 ≤ (shard :: rest).length := by simp
    unfold visit
    generalize operation.run shard world = ran
    obtain ⟨outcome, world'⟩ := ran
    cases outcome with
    | error mishap =>
      cases mishap with
      | failed source => exact ⟨1, hfirst, rfl⟩
      | panicked payload => exact ⟨1, hfirst, rfl⟩
    | ok result =>
      dsimp only
      generalize feed strategy operation.name shard result exit world' = fed
      obtain ⟨answer, exit', world''⟩ := fed
      cases answer with
      | error e => exact ⟨1, hfirst, rfl⟩
      | ok stop =>
        cases stop with
        | true => exact ⟨1, hfirst, rfl⟩
        | false =>
          obtain ⟨count, hcount, htrace⟩ := ih (completed ++ [shard.physicalId]) exit' world''
          refine ⟨count + 1, Nat.succ_le_succ hcount, ?_⟩
          rw [List.length_append, List.length_singleton] at htrace
          rw [List.take_succ_cons, visited, ← htrace]
          rfl

end Sequential

/-! ## Calls -/

namespace AccessStrategy

/-- How many operations of a call may be under way at once. -/
def permits : AccessStrategy → Nat
  | sequential _ => 1
  | parallel access => access.permits

/-- The shards of a call are dispatched, in this order. -/
structure Dispatches (access : AccessStrategy) (shards ordered : List Shard) : Prop where
  admitted : access.refusal? shards = none
  order : (access.ordering.order shards).1 = .ok ordered

theorem Dispatches.perm {access : AccessStrategy} {shards ordered : List Shard}
    (h : access.Dispatches shards ordered) : ordered.Perm shards :=
  ShardOrdering.order_perm h.order

theorem Dispatches.unique {access : AccessStrategy} {shards ordered ordered' : List Shard}
    (h : access.Dispatches shards ordered) (h' : access.Dispatches shards ordered') :
    ordered = ordered' :=
  Except.ok.inj (h.order.symm.trans h'.order)

/-- The shards of a call are dispatched, unless there are none, the call asks for too many permits or
its order of dispatch is a function of the caller that does not rearrange them. -/
theorem exists_dispatches {access : AccessStrategy} {shards : List Shard} (hshards : shards ≠ [])
    (hpermits : access.permits ≤ maxPermits)
    (hordering : ∀ pick, access.ordering = .custom pick → (pick shards).Perm shards) :
    ∃ ordered, access.Dispatches shards ordered := by
  obtain ⟨ordered, hordered⟩ := ShardOrdering.order_ok hordering
  refine ⟨ordered, ?_, hordered⟩
  unfold refusal?
  rw [List.isEmpty_eq_false_iff.mpr hshards]
  cases access with
  | sequential _ => rfl
  | parallel access => simp [Nat.not_lt.mpr (show access.permits ≤ maxPermits from hpermits)]

variable [Journaled ω]

/-- What a call over shards that are already in order may return. -/
inductive Ends (operation : Operation ω T) (strategy : ExitStrategy σ T O)
    (collector : Option (Collector O)) (ordered : List Shard) (exit : σ) (world : ω) :
    AccessStrategy → Outcome ω σ O → Prop where
  | visited (ordering : ShardOrdering) :
      Ends operation strategy collector ordered exit world (sequential ordering)
        (Sequential.visit operation strategy collector ordered [] exit world)
  | settled {access : ParallelAccess} {flight : Parallel.Flight ω σ T}
      (reaches : Parallel.Flight.Reaches operation strategy ordered.length
        (.start access.mergeOrder ordered exit world) flight) (rest : flight.AtRest) :
      Ends operation strategy collector ordered exit world (parallel access)
        (flight.conclude operation strategy collector)

/-- What a call may return, in one schedule or another. -/
inductive MayReturn (access : AccessStrategy) (shards : List Shard) (operation : Operation ω T)
    (strategy : ExitStrategy σ T O) (collector : Option (Collector O)) (exit : σ) (world : ω) :
    Outcome ω σ O → Prop where
  | refused {e : CallError} (why : access.refusal? shards = some e) :
      MayReturn access shards operation strategy collector exit world ⟨.error e, exit, world, []⟩
  | disordered {e : ShardError} (why : (access.ordering.order shards).1 = .error e) :
      MayReturn access shards operation strategy collector exit world (.failed e exit world [])
  | dispatched {ordered : List Shard} {call : Outcome ω σ O}
      (dispatches : access.Dispatches shards ordered)
      (ends : Ends operation strategy collector ordered exit world access call) :
      MayReturn access shards operation strategy collector exit world call

theorem dispatch_ends (operation : Operation ω T) (strategy : ExitStrategy σ T O)
    (collector : Option (Collector O)) (ordered : List Shard) (exit : σ) (world : ω)
    (access : AccessStrategy) (ordering : ShardOrdering) :
    Ends operation strategy collector ordered exit world access
      ((access.withOrdering ordering).dispatch operation strategy collector ordered exit world) := by
  cases access with
  | sequential before => exact .visited before
  | parallel access =>
    refine .settled (Parallel.Flight.settle_reaches ..)
      (Parallel.Flight.settle_rests access.permits_pos _ _ ?_)
    simp [Parallel.Flight.start]

/-- A call returns what it may return, by the schedule that the delays lead to. -/
theorem apply_mayReturn (access : AccessStrategy) (shards : List Shard) (operation : Operation ω T)
    (strategy : ExitStrategy σ T O) (collector : Option (Collector O)) (exit : σ) (world : ω) :
    access.MayReturn shards operation strategy collector exit world
      (access.apply shards operation strategy collector exit world).1 := by
  unfold apply
  cases hrefusal : access.refusal? shards with
  | some e => exact .refused hrefusal
  | none =>
    dsimp only
    cases hordered : (access.ordering.order shards).1 with
    | error e => exact .disordered hordered
    | ok ordered => exact .dispatched ⟨hrefusal, hordered⟩ (dispatch_ends ..)

variable {operation : Operation ω T} {strategy : ExitStrategy σ T O}
variable {collector : Option (Collector O)} {exit : σ} {world : ω} {access : AccessStrategy}
variable {shards ordered : List Shard} {call : Outcome ω σ O}

theorem Ends.startedOn_subperm
    (h : Ends operation strategy collector ordered exit world access call) :
    (startedOn call.trace).Subperm (ordered.map (·.physicalId)) := by
  cases h with
  | visited ordering =>
    obtain ⟨count, -, htrace⟩ :=
      Sequential.visit_trace operation strategy collector ordered [] exit world
    rw [htrace, Sequential.startedOn_visited]
    exact ((List.take_sublist _ _).map _).subperm
  | settled reaches rest =>
    rw [Parallel.Flight.conclude_trace]
    exact ((Parallel.Flight.Traced.start_of ..).reaches reaches).startedOn_subperm

/-- A call fails at once, or its shards are dispatched. -/
theorem MayReturn.dispatches_or
    (h : access.MayReturn shards operation strategy collector exit world call) :
    (∃ e, call = ⟨.error e, exit, world, []⟩ ∧ ∀ ordered, ¬ access.Dispatches shards ordered) ∨
      ∃ ordered, access.Dispatches shards ordered
        ∧ Ends operation strategy collector ordered exit world access call := by
  cases h with
  | @refused e why =>
    refine .inl ⟨e, rfl, ?_⟩
    intro ordered hdispatches
    rw [hdispatches.admitted] at why
    cases why
  | @disordered e why =>
    refine .inl ⟨.shard e, rfl, ?_⟩
    intro ordered hdispatches
    rw [hdispatches.order] at why
    cases why
  | dispatched dispatches ends => exact .inr ⟨_, dispatches, ends⟩

/-- A call starts its operation on the shards that it was given, and on none more often than it was
given. -/
theorem MayReturn.startedOn_subperm
    (h : access.MayReturn shards operation strategy collector exit world call) :
    (startedOn call.trace).Subperm (shards.map (·.physicalId)) := by
  rcases h.dispatches_or with ⟨e, rfl, -⟩ | ⟨ordered, hdispatches, hends⟩
  · exact List.nil_subperm
  · exact hends.startedOn_subperm.trans (hdispatches.perm.map _).subperm

end AccessStrategy

end ScatterGather
