import ScatterGather.Proofs.Access.Accounting

/-!
# What the trace of a concurrent call shows

The starts in a trace are the positions that have left the queue, and what has started but not ended
is what runs. Every step of every schedule keeps this (`Traced`), whatever the operations do, so the
trace alone tells which operations are still to end, and no shard of the order of dispatch is started
twice.
-/

namespace ScatterGather

variable {ω σ T O : Type}

/-! ## Starts and ends -/

/-- The position of an operation that starts. -/
def Mark.startedAt? : Mark → Option Nat
  | .started position _ => some position
  | .ended .. | .cancelled => none

/-- The position of an operation that ends. -/
def Mark.endedAt? : Mark → Option Nat
  | .ended position _ => some position
  | .started .. | .cancelled => none

/-- The positions of the operations that were started, in that order. -/
def startedAt (trace : List Mark) : List Nat :=
  trace.filterMap Mark.startedAt?

/-- The positions of the operations that ended, in that order. -/
def endedAt (trace : List Mark) : List Nat :=
  trace.filterMap Mark.endedAt?

@[simp]
theorem startedAt_append (trace marks : List Mark) :
    startedAt (trace ++ marks) = startedAt trace ++ startedAt marks :=
  List.filterMap_append

@[simp]
theorem endedAt_append (trace marks : List Mark) :
    endedAt (trace ++ marks) = endedAt trace ++ endedAt marks :=
  List.filterMap_append

@[simp]
theorem startedAt_nil : startedAt [] = [] :=
  rfl

@[simp]
theorem endedAt_nil : endedAt [] = [] :=
  rfl

@[simp]
theorem startedAt_started (position : Nat) (shard : ShardId) (trace : List Mark) :
    startedAt (.started position shard :: trace) = position :: startedAt trace :=
  rfl

@[simp]
theorem startedAt_ended (position : Nat) (shard : ShardId) (trace : List Mark) :
    startedAt (.ended position shard :: trace) = startedAt trace :=
  rfl

@[simp]
theorem startedAt_cancelled (trace : List Mark) :
    startedAt (.cancelled :: trace) = startedAt trace :=
  rfl

@[simp]
theorem endedAt_started (position : Nat) (shard : ShardId) (trace : List Mark) :
    endedAt (.started position shard :: trace) = endedAt trace :=
  rfl

@[simp]
theorem endedAt_ended (position : Nat) (shard : ShardId) (trace : List Mark) :
    endedAt (.ended position shard :: trace) = position :: endedAt trace :=
  rfl

@[simp]
theorem endedAt_cancelled (trace : List Mark) :
    endedAt (.cancelled :: trace) = endedAt trace :=
  rfl

/-! ## Marks at their places -/

/-- A mark names the shard that stands at its position. -/
def Mark.Fits (shards : List Shard) : Mark → Prop
  | .started position id | .ended position id =>
    ∃ shard, shards[position]? = some shard ∧ id = shard.physicalId
  | .cancelled => True

theorem fits_concat {shards : List Shard} {marks : List Mark} {last : Mark}
    (h : ∀ mark ∈ marks, mark.Fits shards) (hlast : last.Fits shards) :
    ∀ mark ∈ marks ++ [last], mark.Fits shards := by
  intro other hother
  rcases List.mem_append.mp hother with hbefore | heq
  · exact h other hbefore
  · obtain rfl := List.mem_singleton.mp heq
    exact hlast

namespace Parallel.Flight

variable {operation : Operation ω T} {strategy : ExitStrategy σ T O} {dispatched : Nat}
variable {shards : List Shard}

/-- The trace shows the shards that have left the queue, and those of them that have ended. What
waits, what runs and what is marked is at its place in the order of dispatch. -/
structure Traced (shards : List Shard) (flight : Flight ω σ T) : Prop where
  started : (startedAt flight.trace ++ flight.queue.map (·.1)).Perm (List.range shards.length)
  ended : (endedAt flight.trace ++ flight.running.map (·.position)).Perm (startedAt flight.trace)
  queued : ∀ x ∈ flight.queue, shards[x.1]? = some x.2
  running : ∀ x ∈ flight.running, shards[x.position]? = some x.shard
  fits : ∀ mark ∈ flight.trace, mark.Fits shards

namespace Traced

theorem start_of (order : MergeOrder) (shards : List Shard) (exit : σ) (world : ω) :
    Traced shards (start order shards exit world : Flight ω σ T) where
  started := by
    refine .of_eq ?_
    apply List.ext_getElem <;> simp [start, startedAt]
  ended := .refl _
  queued := by
    intro x hx
    obtain ⟨position, hposition, rfl⟩ := List.mem_mapIdx.mp hx
    exact List.getElem?_eq_getElem hposition
  running := nofun
  fits := nofun

variable {flight flight' : Flight ω σ T}

theorem nodup (h : Traced shards flight) : (startedAt flight.trace).Nodup := by
  have hall := h.started.nodup_iff.mpr List.nodup_range
  exact (List.nodup_append.mp hall).1

theorem running_nodup (h : Traced shards flight) : (flight.running.map (·.position)).Nodup := by
  have hall := h.ended.nodup_iff.mpr h.nodup
  exact (List.nodup_append.mp hall).2.1

/-- What is started first of what waits is at its place, and so is all that still waits. -/
theorem of_queue (h : Traced shards flight) {position : Nat} {shard : Shard}
    {rest : List (Nat × Shard)} (queue : flight.queue.Perm ((position, shard) :: rest)) :
    shards[position]? = some shard ∧ (∀ x ∈ rest, shards[x.1]? = some x.2)
      ∧ ((startedAt flight.trace ++ [position]) ++ rest.map (·.1)).Perm
        (List.range shards.length) := by
  obtain ⟨hshard, hrest⟩ := List.forall_mem_cons.mp fun x hx => h.queued x (queue.mem_iff.mpr hx)
  refine ⟨hshard, hrest, ?_⟩
  rw [List.append_assoc]
  exact ((queue.map (·.1)).symm.append_left _).trans h.started

end Traced

variable [Journaled ω]

theorem Traced.step {flight flight' : Flight ω σ T} (h : Traced shards flight)
    (hstep : Step operation strategy dispatched flight flight') :
    Traced shards flight' := by
  cases hstep with
  | @start position shard rest queue endsAt =>
    obtain ⟨hshard, hrest, hstarted⟩ := h.of_queue queue
    refine ⟨by simpa using hstarted, ?_, hrest, ?_, fits_concat h.fits ⟨shard, hshard, rfl⟩⟩
    · simpa [← List.append_assoc] using h.ended.append_right [position]
    · intro x hx
      rcases List.mem_append.mp hx with hx | hx
      · exact h.running x hx
      · obtain rfl := List.mem_singleton.mp hx
        exact hshard
  | @pass position shard rest queue =>
    obtain ⟨hshard, hrest, hstarted⟩ := h.of_queue queue
    refine ⟨by simpa [Flight.finish] using hstarted, ?_, hrest, h.running,
      fits_concat (fits_concat h.fits ⟨shard, hshard, rfl⟩) ⟨shard, hshard, rfl⟩⟩
    -- The position that starts and ends at once stands in front of those that run.
    have hswapped : ([position] ++ flight.running.map (·.position)).Perm
        (flight.running.map (·.position) ++ [position]) := List.perm_append_comm
    simpa [Flight.finish] using (hswapped.append_left (endedAt flight.trace)).trans
      (by simpa [← List.append_assoc] using h.ended.append_right [position])
  | @finish next mem now =>
    refine ⟨by simpa [Flight.finish] using h.started, ?_, h.queued,
      fun x hx => h.running x (List.mem_filter.mp hx).1,
      fits_concat h.fits ⟨next.shard, h.running next mem, rfl⟩⟩
    simp only [Flight.finish, startedAt_append, startedAt_ended, startedAt_nil, endedAt_append,
      endedAt_ended, endedAt_nil, List.append_nil, List.append_assoc, List.singleton_append]
    exact ((filter_running_perm h.running_nodup mem).symm.append_left _).trans h.ended
  | @take arrival rest arrived =>
    exact ⟨by simpa using h.started, by simpa using h.ended, by simpa using h.queued,
      by simpa using h.running, by simpa using h.fits⟩
  | cancel why =>
    exact ⟨by simpa [cancel] using h.started, by simpa [cancel] using h.ended, h.queued, h.running,
      fits_concat h.fits (show Mark.cancelled.Fits shards from trivial)⟩

theorem Traced.reaches {flight flight' : Flight ω σ T} (h : Traced shards flight)
    (hreaches : Reaches operation strategy dispatched flight flight') :
    Traced shards flight' := by
  induction hreaches with
  | refl => exact h
  | tail _ hstep ih => exact ih.step hstep

end Parallel.Flight

end ScatterGather
