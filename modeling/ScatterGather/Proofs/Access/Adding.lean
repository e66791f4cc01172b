import ScatterGather.Access.Strategy

/-!
# Adding results in turn

What an exit strategy makes of a list of results, up to the first at which it asks to stop or
refuses. Sequential dispatch is this fold and nothing else: while the operations succeed, a visit
hands the exit strategy the results of the shards in turn and ends where the fold ends
(`Sequential.visit_addAll`). Concurrent dispatch is compared with the same fold.
-/

namespace ScatterGather

variable {ω σ T O : Type}

/-- Add results in turn, up to the first that is not answered by a plain `ok false`. -/
def ExitStrategy.addAll (strategy : ExitStrategy σ T O) :
    List (Shard × Option T) → σ → Except ShardError Bool × σ
  | [], exit => (.ok false, exit)
  | (shard, result) :: rest, exit =>
    match strategy.add exit result (some shard) with
    | (.ok false, exit) => addAll strategy rest exit
    | (answer, exit) => (answer, exit)

/-- All results are added in turn, and this is compiled of them. -/
def ExitStrategy.Compiles (strategy : ExitStrategy σ T O) (fed : List (Shard × Option T)) (exit : σ)
    (result : O) : Prop :=
  ∃ last, strategy.addAll fed exit = (.ok false, last) ∧ (strategy.compile last).1 = .ok result

theorem ExitStrategy.addAll_cons {strategy : ExitStrategy σ T O} {shard : Shard} {result : Option T}
    {exit next : σ} (h : strategy.add exit result (some shard) = (.ok false, next))
    (rest : List (Shard × Option T)) :
    strategy.addAll ((shard, result) :: rest) exit = strategy.addAll rest next := by
  simp only [addAll, h]

theorem ExitStrategy.addAll_append (strategy : ExitStrategy σ T O)
    {front : List (Shard × Option T)} {exit exit' : σ}
    (h : strategy.addAll front exit = (.ok false, exit')) (back : List (Shard × Option T)) :
    strategy.addAll (front ++ back) exit = strategy.addAll back exit' := by
  induction front generalizing exit with
  | nil =>
    obtain rfl : exit = exit' := by simpa [addAll] using h
    rfl
  | cons head front ih =>
    obtain ⟨shard, result⟩ := head
    simp only [addAll, List.cons_append] at h ⊢
    split at h
    next next hadd =>
      exact ih h
    next answer next hne hadd =>
      exact absurd (congrArg Prod.fst h) hne

theorem ExitStrategy.addAll_singleton (strategy : ExitStrategy σ T O) (shard : Shard)
    (result : Option T) (exit : σ) :
    strategy.addAll [(shard, result)] exit = strategy.add exit result (some shard) := by
  simp only [addAll]
  split
  next next hadd => exact hadd.symm
  next answer next hne hadd => exact hadd.symm

/-- Two outcomes with the same result, which leave the exit strategy in the same state. -/
structure Outcome.Agrees (a b : Outcome ω σ O) : Prop where
  result : a.result = b.result
  exit : a.exit = b.exit

namespace Outcome.Agrees

theorem refl (a : Outcome ω σ O) : a.Agrees a :=
  ⟨rfl, rfl⟩

theorem symm {a b : Outcome ω σ O} (h : a.Agrees b) : b.Agrees a :=
  ⟨h.result.symm, h.exit.symm⟩

theorem trans {a b c : Outcome ω σ O} (h : a.Agrees b) (h' : b.Agrees c) : a.Agrees c :=
  ⟨h.result.trans h'.result, h.exit.trans h'.exit⟩

theorem after {a b : Outcome ω σ O} (h : a.Agrees b) (marks : List Mark) :
    (a.after marks).Agrees b :=
  ⟨h.result, h.exit⟩

/-- What is compiled depends on the state of the exit strategy alone. -/
theorem compiled (strategy : ExitStrategy σ T O) (collector : Option (Collector O)) (exit : σ)
    (world world' : ω) (trace trace' : List Mark) :
    (Outcome.compiled strategy collector exit world trace).Agrees
      (.compiled strategy collector exit world' trace') :=
  ⟨rfl, rfl⟩

theorem failed (error : ShardError) (exit : σ) (world world' : ω) (trace trace' : List Mark) :
    (Outcome.failed error exit world trace : Outcome ω σ O).Agrees
      (.failed error exit world' trace') :=
  ⟨rfl, rfl⟩

end Outcome.Agrees

variable [Journaled ω]

/-- Feeding a result is adding it; besides that only the journal may grow. -/
theorem feed_eq (strategy : ExitStrategy σ T O) (operation : String) (shard : Shard)
    (result : Option T) (exit : σ) (world : ω) :
    ∃ world', feed strategy operation shard result exit world =
      ((strategy.add exit result (some shard)).1, (strategy.add exit result (some shard)).2,
        world') := by
  simp only [feed]
  split
  next exit' hadd => exact ⟨_, by rw [hadd]⟩
  next answer exit' _ hadd => exact ⟨world, by rw [hadd]⟩

namespace Sequential

variable {operation : Operation ω T} {outcome : Shard → Except Mishap (Option T)}

/-- How a visit goes on after some results were added with this answer. -/
def afterAdding (operation : Operation ω T) (strategy : ExitStrategy σ T O)
    (collector : Option (Collector O)) (rest : List Shard) (completed : List ShardId) (world : ω) :
    Except ShardError Bool × σ → Outcome ω σ O
  | (.ok false, exit) => visit operation strategy collector rest completed exit world
  | (.ok true, exit) => .compiled strategy collector exit world []
  | (.error e, exit) => .failed e exit world []

theorem visit_cons (determined : ∀ shard world, (operation.run shard world).1 = outcome shard)
    (strategy : ExitStrategy σ T O) (collector : Option (Collector O)) {shard : Shard}
    {result : Option T} (succeeds : outcome shard = .ok result) (rest : List Shard)
    (completed : List ShardId) (exit : σ) (world : ω) :
    ∃ world', (visit operation strategy collector (shard :: rest) completed exit world).Agrees
      (afterAdding operation strategy collector rest (completed ++ [shard.physicalId]) world'
        (strategy.add exit result (some shard))) := by
  have hrun : operation.run shard world = (.ok result, (operation.run shard world).2) :=
    Prod.ext (by rw [determined, succeeds]) rfl
  obtain ⟨world', hfeed⟩ :=
    feed_eq strategy operation.name shard result exit (operation.run shard world).2
  refine ⟨world', ?_⟩
  rw [visit, hrun]
  simp only [hfeed]
  obtain ⟨answer, exit'⟩ := strategy.add exit result (some shard)
  match answer with
  | .ok false => exact (Outcome.Agrees.refl _).after _
  | .ok true => exact .compiled ..
  | .error e => exact .failed ..

/-- While the operations succeed, a visit adds their results in turn. -/
theorem visit_addAll (determined : ∀ shard world, (operation.run shard world).1 = outcome shard)
    (strategy : ExitStrategy σ T O) (collector : Option (Collector O))
    {fed : List (Shard × Option T)} (succeed : ∀ x ∈ fed, outcome x.1 = .ok x.2)
    (rest : List Shard) (completed : List ShardId) (exit : σ) (world : ω) :
    ∃ completed' world',
      (visit operation strategy collector (fed.map (·.1) ++ rest) completed exit world).Agrees
        (afterAdding operation strategy collector rest completed' world'
          (strategy.addAll fed exit)) := by
  induction fed generalizing completed exit world with
  | nil => exact ⟨completed, world, .refl _⟩
  | cons head fed ih =>
    obtain ⟨shard, result⟩ := head
    obtain ⟨world', hvisit⟩ := visit_cons determined strategy collector
      (succeed _ List.mem_cons_self) (fed.map (·.1) ++ rest) completed exit world
    rw [List.map_cons, List.cons_append, ExitStrategy.addAll]
    split
    next exit' hadd =>
      rw [hadd] at hvisit
      obtain ⟨completed', world', hrest⟩ := ih
        (fun x hx => succeed x (List.mem_cons_of_mem _ hx)) (completed ++ [shard.physicalId])
        exit' world'
      exact ⟨completed', world', hvisit.trans hrest⟩
    next answer exit' hne hadd =>
      rw [hadd] at hvisit
      -- The fold ends here, and so does the visit, whatever is left to visit.
      refine ⟨completed, world', hvisit.trans ?_⟩
      match answer with
      | .ok false => exact absurd rfl hne
      | .ok true => exact .refl _
      | .error e => exact .refl _

end Sequential

end ScatterGather
