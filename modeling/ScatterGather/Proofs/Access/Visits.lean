import Mathlib.Order.Bounds.Defs
import ScatterGather.Exit.First
import ScatterGather.Proofs.Access.Feeding
import ScatterGather.Proofs.Cluster.Frame

/-!
# How far a sequential call goes

An operation may depend on what the ones before it have done, so what comes of the shards of a call is
told as a course: the visits that follow from each other, each in the state that the one before has left,
as if none of them ended the call (`course`). A call makes these visits up to the first that ends it, and
its last visit decides what it returns. This says nothing of what the visits do, only that the call does
nothing else.
-/

namespace ScatterGather

variable {ω σ T O : Type}

namespace Sequential

/-! ## Visits -/

/-- What a visit comes to: its operation has failed, or its result was added. -/
inductive Finding (T : Type) where
  | failed (mishap : Mishap)
  | added (result : Option T) (answer : Except ShardError Bool)

/-- A visit of a shard, with the states in which it leaves the exit strategy and the world. -/
structure Visit (ω σ T : Type) where
  shard : Shard
  finding : Finding T
  exit : σ
  world : ω

/-- Run the operation on a shard and add its result. -/
def Visit.make (operation : Operation ω T) (strategy : ExitStrategy σ T O) (shard : Shard) (exit : σ)
    (world : ω) : Visit ω σ T :=
  match operation.run shard world with
  | (.error mishap, world) => ⟨shard, .failed mishap, exit, world⟩
  | (.ok result, world) =>
    let added := strategy.add exit result (some shard)
    ⟨shard, .added result added.1, added.2, world⟩

namespace Visit

/-- The operation has failed, or the exit strategy has asked to stop or refused the result. -/
def ends (visit : Visit ω σ T) : Bool :=
  match visit.finding with
  | .added _ (.ok false) => false
  | .added _ _ | .failed _ => true

/-- The result that the exit strategy received, if the operation gave one. -/
def received? (visit : Visit ω σ T) : Option (Shard × Option T) :=
  match visit.finding with
  | .added result _ => some (visit.shard, result)
  | .failed _ => none

/-- The world that a call leaves behind whose last visit this is: a request to stop is reported. -/
def lastWorld [Journaled ω] (visit : Visit ω σ T) (operation : String) : ω :=
  match visit.finding with
  | .added _ (.ok true) =>
    report .debug ("Short-circuiting operation " ++ operation ++ " after execution against shard "
      ++ visit.shard.label) visit.world
  | .added _ _ | .failed _ => visit.world

/-- How a call has ended whose last visit this is, and in which some shards were completed before. -/
structure Concludes [Journaled ω] (last : Visit ω σ T) (operation : String)
    (strategy : ExitStrategy σ T O) (collector : Option (Collector O)) (completed : List ShardId)
    (call : Outcome ω σ O) : Prop where
  failed : ∀ source, last.finding = .failed (.failed source) → call.exit = last.exit
    ∧ call.result = .error (.shard
      (.operationFailure operation [⟨last.shard.physicalId, source⟩] completed))
  panicked : ∀ payload, last.finding = .failed (.panicked payload) → call.exit = last.exit
    ∧ call.result = .error (.panicked payload)
  added : ∀ result answer, last.finding = .added result answer →
    (call.result, call.exit) = strategy.ending collector answer last.exit
  world : call.world = last.lastWorld operation

end Visit

/-- The visits of some shards one after the other. -/
def course (operation : Operation ω T) (strategy : ExitStrategy σ T O) :
    List Shard → σ → ω → List (Visit ω σ T)
  | [], _, _ => []
  | shard :: rest, exit, world =>
    let visit := Visit.make operation strategy shard exit world
    visit :: course operation strategy rest visit.exit visit.world

theorem map_shard_course (operation : Operation ω T) (strategy : ExitStrategy σ T O)
    (shards : List Shard) (exit : σ) (world : ω) :
    (course operation strategy shards exit world).map Visit.shard = shards := by
  induction shards generalizing exit world with
  | nil => rfl
  | cons shard rest ih =>
    have hshard : (Visit.make operation strategy shard exit world).shard = shard := by
      unfold Visit.make
      split <;> rfl
    rw [course, List.map_cons, ih, hshard]

/-- Visits change only what their operations change. -/
theorem course_keeps {α : Type} {part : ω → α} {operation : Operation ω T} {shards : List Shard}
    {count : Nat} (h : ∀ shard ∈ shards.take count, ∀ world,
      part (operation.run shard world).2 = part world)
    (strategy : ExitStrategy σ T O) (exit : σ) (world : ω) :
    ∀ visit ∈ (course operation strategy shards exit world).take count,
      part visit.world = part world := by
  induction shards generalizing count exit world with
  | nil => simp [course]
  | cons shard rest ih =>
    cases count with
    | zero => simp
    | succ count =>
      obtain ⟨hshard, hrest⟩ := List.forall_mem_cons.mp h
      have hfirst : part (Visit.make operation strategy shard exit world).world = part world := by
        have hrun := hshard world
        unfold Visit.make
        generalize operation.run shard world = ran at hrun ⊢
        obtain ⟨outcome, world'⟩ := ran
        cases outcome <;> exact hrun
      refine List.forall_mem_cons.mpr ⟨hfirst, ?_⟩
      intro visit hvisit
      exact (ih hrest _ _ visit hvisit).trans hfirst

/-- How many visits of a course a call makes: up to the first that ends it. -/
def needed (visits : List (Visit ω σ T)) : Nat :=
  min (visits.findIdx Visit.ends + 1) visits.length

theorem needed_cons (visit : Visit ω σ T) (rest : List (Visit ω σ T)) :
    needed (visit :: rest) = if visit.ends then 1 else needed rest + 1 := by
  rw [needed, List.findIdx_cons, List.length_cons, Nat.add_min_add_right]
  cases visit.ends with
  | true => simp
  | false => rfl

/-- The visits that a call makes are as few as lead to its end. -/
theorem isLeast_needed {visits : List (Visit ω σ T)} (h : visits ≠ []) :
    IsLeast {count | 0 < count ∧ (count = visits.length
      ∨ ∃ visit, visits[count - 1]? = some visit ∧ visit.ends = true)} (needed visits) := by
  have hlength : 0 < visits.length := List.length_pos_of_ne_nil h
  refine ⟨⟨by rw [needed]; omega, ?_⟩, ?_⟩
  · by_cases hfound : visits.findIdx Visit.ends < visits.length
    · have hneeded : needed visits - 1 = visits.findIdx Visit.ends := by rw [needed]; omega
      rw [hneeded, List.getElem?_eq_getElem hfound]
      exact .inr ⟨_, rfl, List.findIdx_getElem⟩
    · exact .inl (by rw [needed]; omega)
  · rintro count ⟨hcount, rfl | ⟨visit, hvisit, hends⟩⟩
    · exact Nat.min_le_right _ _
    · obtain ⟨hlt, rfl⟩ := List.getElem?_eq_some_iff.mp hvisit
      have hfirst : visits.findIdx Visit.ends ≤ count - 1 := by
        by_contra hbefore
        rw [List.not_of_lt_findIdx (Nat.lt_of_not_le hbefore)] at hends
        cases hends
      rw [needed]
      omega

theorem Visit.finding_of_goes_on {visit : Visit ω σ T} (h : visit.ends = false) :
    ∃ result, visit.finding = .added result (.ok false) := by
  unfold ends at h
  split at h
  next result hfinding => exact ⟨result, hfinding⟩
  all_goals cases h

theorem Visit.make_recorded (operation : Operation ω T) (strategy : ExitStrategy σ T O)
    (shard : Shard) (exit : σ) (added : List (Shard × Option T)) (world : ω) :
    let visit := Visit.make operation strategy shard exit world
    Visit.make operation (strategy.recorded none) shard ⟨exit, added⟩ world =
      ⟨visit.shard, visit.finding, ⟨visit.exit, visit.received?.toList ++ added⟩, visit.world⟩ := by
  have hadd := strategy.recorded_refines.add ⟨exit, added⟩
  unfold make
  generalize operation.run shard world = ran
  obtain ⟨outcome, world'⟩ := ran
  cases outcome with
  | error mishap => rfl
  | ok result =>
    dsimp only
    rw [hadd]
    rfl

/-! ## Calls -/

variable [Journaled ω]

/-- A visit that ends a call is its last one. -/
theorem visit_of_ends {operation : Operation ω T} {strategy : ExitStrategy σ T O} {shard : Shard}
    {exit : σ} {world : ω} (h : (Visit.make operation strategy shard exit world).ends = true)
    (collector : Option (Collector O)) (rest : List Shard) (completed : List ShardId) :
    let call := visit operation strategy collector (shard :: rest) completed exit world
    call.trace = visited completed.length [shard]
      ∧ (Visit.make operation strategy shard exit world).Concludes operation.name strategy collector
        completed call := by
  unfold visit Visit.make at *
  generalize operation.run shard world = ran at h ⊢
  obtain ⟨outcome, world'⟩ := ran
  cases outcome with
  | error mishap =>
    cases mishap with
    | failed source =>
      refine ⟨rfl, ?_, by rintro _ ⟨⟩, by rintro _ _ ⟨⟩, rfl⟩
      rintro _ ⟨⟩
      exact ⟨rfl, rfl⟩
    | panicked payload =>
      refine ⟨rfl, by rintro _ ⟨⟩, ?_, by rintro _ _ ⟨⟩, rfl⟩
      rintro _ ⟨⟩
      exact ⟨rfl, rfl⟩
  | ok result =>
    unfold feed
    dsimp only at h ⊢
    generalize strategy.add exit result (some shard) = fed at h ⊢
    obtain ⟨answer, exit'⟩ := fed
    cases answer with
    | error e =>
      refine ⟨rfl, by rintro _ ⟨⟩, by rintro _ ⟨⟩, ?_, rfl⟩
      rintro _ _ ⟨⟩
      rfl
    | ok stop =>
      cases stop with
      | true =>
        refine ⟨rfl, by rintro _ ⟨⟩, by rintro _ ⟨⟩, ?_, rfl⟩
        rintro _ _ ⟨⟩
        rfl
      | false => cases h

/-- After any other visit the call goes on. -/
theorem visit_of_goes_on {operation : Operation ω T} {strategy : ExitStrategy σ T O} {shard : Shard}
    {exit : σ} {world : ω} (h : (Visit.make operation strategy shard exit world).ends = false)
    (collector : Option (Collector O)) (rest : List Shard) (completed : List ShardId) :
    let first := Visit.make operation strategy shard exit world
    visit operation strategy collector (shard :: rest) completed exit world
      = (visit operation strategy collector rest (completed ++ [shard.physicalId]) first.exit
          first.world).after (visited completed.length [shard]) := by
  rw [visit]
  unfold Visit.make at *
  generalize operation.run shard world = ran at h ⊢
  obtain ⟨outcome, world'⟩ := ran
  cases outcome with
  | error mishap => cases h
  | ok result =>
    unfold feed
    dsimp only at h ⊢
    generalize strategy.add exit result (some shard) = fed at h ⊢
    obtain ⟨answer, exit'⟩ := fed
    cases answer with
    | error e => cases h
    | ok stop =>
      cases stop with
      | true => cases h
      | false => rfl

theorem Visit.Concludes.after {last : Visit ω σ T} {operation : String}
    {strategy : ExitStrategy σ T O} {collector : Option (Collector O)} {completed : List ShardId}
    {call : Outcome ω σ O} (h : last.Concludes operation strategy collector completed call)
    (marks : List Mark) :
    last.Concludes operation strategy collector completed (call.after marks) :=
  ⟨h.failed, h.panicked, h.added, h.world⟩

theorem Visit.lastWorld_keeps {α : Type} {part : ω → α}
    (h : ∀ world entry, part (record world entry) = part world) (last : Visit ω σ T)
    (operation : String) : part (last.lastWorld operation) = part last.world := by
  unfold lastWorld
  split
  · exact h _ _
  · rfl
  · rfl

/-- A call makes the visits that are needed, and the last of them decides how it ends. -/
theorem visit_concludes (operation : Operation ω T) (strategy : ExitStrategy σ T O)
    (collector : Option (Collector O)) {shards : List Shard} (h : shards ≠ [])
    (completed : List ShardId) (exit : σ) (world : ω) :
    let visits := course operation strategy shards exit world
    let call := visit operation strategy collector shards completed exit world
    call.trace = visited completed.length (shards.take (needed visits))
      ∧ ∃ last, visits[needed visits - 1]? = some last
        ∧ last.Concludes operation.name strategy collector
          (completed ++ (shards.take (needed visits - 1)).map Shard.physicalId) call := by
  induction shards generalizing completed exit world with
  | nil => exact absurd rfl h
  | cons shard rest ih =>
    rw [course]
    dsimp only
    rw [needed_cons]
    by_cases hends : (Visit.make operation strategy shard exit world).ends = true
    · obtain ⟨htrace, hconcludes⟩ := visit_of_ends hends collector rest completed
      rw [if_pos hends]
      exact ⟨htrace, _, rfl, by simpa using hconcludes⟩
    rw [Bool.not_eq_true] at hends
    rw [if_neg (by simp [hends]), visit_of_goes_on hends collector rest completed]
    cases rest with
    | nil =>
      obtain ⟨result, hfinding⟩ := Visit.finding_of_goes_on hends
      refine ⟨rfl, _, rfl, ?_, ?_, ?_, ?_⟩
      · simp [hfinding]
      · simp [hfinding]
      · rintro result' answer hadded
        obtain ⟨-, rfl⟩ := Finding.added.inj (hfinding.symm.trans hadded)
        rfl
      · rw [Visit.lastWorld, hfinding]
        rfl
    | cons next rest =>
      obtain ⟨htrace, last, hlast, hconcludes⟩ := ih (List.cons_ne_nil _ _)
        (completed ++ [shard.physicalId]) (Visit.make operation strategy shard exit world).exit
        (Visit.make operation strategy shard exit world).world
      have hpos : 0 < needed (course operation strategy (next :: rest)
          (Visit.make operation strategy shard exit world).exit
          (Visit.make operation strategy shard exit world).world) :=
        (isLeast_needed (List.cons_ne_nil _ _)).1.1
      generalize needed (course operation strategy (next :: rest) _ _) = count at *
      obtain ⟨count, rfl⟩ := Nat.exists_eq_succ_of_ne_zero (Nat.ne_of_gt hpos)
      refine ⟨?_, last, hlast, ?_⟩
      · rw [List.length_append, List.length_singleton] at htrace
        rw [Outcome.after, htrace]
        rfl
      · rw [List.append_assoc] at hconcludes
        exact hconcludes.after _

/-! ## What the exit strategy received -/

/-- The last visit is the last to add something to a recording. -/
theorem Visit.Concludes.exit_added {strategy : ExitStrategy σ T O}
    {last : Visit ω (ExitStrategy.Recording σ T) T} {operation : String}
    {collector : Option (Collector O)} {completed : List ShardId}
    {call : Outcome ω (ExitStrategy.Recording σ T) O}
    (h : last.Concludes operation (strategy.recorded none) collector completed call) :
    call.exit.added = last.exit.added := by
  match hfinding : last.finding with
  | .failed (.failed source) => rw [(h.failed source hfinding).1]
  | .failed (.panicked payload) => rw [(h.panicked payload hfinding).1]
  | .added result answer =>
    rw [show call.exit = _ from congrArg Prod.snd (h.added result answer hfinding)]
    cases answer with
    | error e => rfl
    | ok stop => cases collector <;> rfl

/-- The exit strategy receives the results of the visits that are made, in this order. -/
theorem visit_received (operation : Operation ω T) (strategy : ExitStrategy σ T O)
    (collector : Option (Collector O)) (shards : List Shard) (completed : List ShardId) (exit : σ)
    (added : List (Shard × Option T)) (world : ω) :
    let visits := course operation strategy shards exit world
    (visit operation (strategy.recorded none) collector shards completed ⟨exit, added⟩
      world).exit.added = ((visits.take (needed visits)).filterMap Visit.received?).reverse
        ++ added := by
  induction shards generalizing completed exit added world with
  | nil => cases collector <;> rfl
  | cons shard rest ih =>
    have hrecorded := Visit.make_recorded operation strategy shard exit added world
    rw [course]
    dsimp only at hrecorded ⊢
    rw [needed_cons]
    by_cases hends : (Visit.make operation strategy shard exit world).ends = true
    · have hends' : (Visit.make operation (strategy.recorded none) shard ⟨exit, added⟩ world).ends
          = true := by
        rw [hrecorded]
        exact hends
      obtain ⟨-, hconcludes⟩ := visit_of_ends hends' collector rest completed
      rw [hconcludes.exit_added, hrecorded, if_pos hends]
      cases hresult : (Visit.make operation strategy shard exit world).received? with
      | none => simp [hresult]
      | some result => simp [hresult]
    · rw [Bool.not_eq_true] at hends
      have hends' : (Visit.make operation (strategy.recorded none) shard ⟨exit, added⟩ world).ends
          = false := by
        rw [hrecorded]
        exact hends
      rw [visit_of_goes_on hends' collector rest completed, hrecorded, if_neg (by simp [hends])]
      dsimp only [Outcome.after]
      rw [ih]
      cases hresult : (Visit.make operation strategy shard exit world).received? with
      | none => simp [hresult]
      | some result => simp [hresult]

end Sequential

/-! ## The call -/

theorem AccessStrategy.apply_sequential [Journaled ω] (operation : Operation ω T)
    (strategy : ExitStrategy σ T O) (collector : Option (Collector O)) {ordering : ShardOrdering}
    {shards ordered : List Shard} (nonempty : shards ≠ [])
    (dispatched : (ordering.order shards).1 = .ok ordered) (exit : σ) (world : ω) :
    ((AccessStrategy.sequential ordering).apply shards operation strategy collector exit world).1
      = Sequential.visit operation strategy collector ordered [] exit world := by
  simp only [apply, refusal?, List.isEmpty_eq_false_iff.mpr nonempty, AccessStrategy.ordering,
    dispatched]
  rfl

/-- A sequential call executes its operation on the shards in dispatch order, up to the first on which it
fails or whose result makes the exit strategy ask to stop or refuse, each once and none behind. The exit
strategy receives the results of just these, and the last of them decides how the call ends: with its
failure and the shards in front of it as completed, with what the exit strategy refused, or with what was
compiled. What the operation leaves alone on the shards that are visited is unchanged, so no other shard
is. -/
theorem AccessStrategy.sequential_executes_prefix [Journaled ω] (operation : Operation ω T)
    (strategy : ExitStrategy σ T O) (collector : Option (Collector O)) {ordering : ShardOrdering}
    {shards ordered : List Shard} (nonempty : shards ≠ [])
    (dispatched : (ordering.order shards).1 = .ok ordered) (exit : σ) (world : ω) :
    let access := AccessStrategy.sequential ordering
    let call := (access.apply shards operation strategy collector exit world).1
    let visits := Sequential.course operation strategy ordered exit world
    ∃ count last,
      IsLeast {count | 0 < count ∧ (count = ordered.length
        ∨ ∃ visit, visits[count - 1]? = some visit ∧ visit.ends = true)} count
      ∧ visits[count - 1]? = some last ∧ ordered[count - 1]? = some last.shard
      ∧ call.trace = Sequential.visited 0 (ordered.take count)
      ∧ access.received shards operation strategy collector exit world
        = (visits.take count).filterMap Sequential.Visit.received?
      ∧ last.Concludes operation.name strategy collector
        ((ordered.take (count - 1)).map Shard.physicalId) call
      ∧ ∀ {α : Type} (part : ω → α), (∀ world entry, part (record world entry) = part world) →
        (∀ shard ∈ ordered.take count, ∀ world, part (operation.run shard world).2 = part world) →
        part call.world = part world := by
  intro access call visits
  have hshards : visits.map Sequential.Visit.shard = ordered :=
    Sequential.map_shard_course operation strategy ordered exit world
  have hordered : ordered ≠ [] := by
    rintro rfl
    exact nonempty (ShardOrdering.order_perm dispatched).symm.eq_nil
  have hlength : visits.length = ordered.length := by rw [← hshards, List.length_map]
  have hvisits : visits ≠ [] := by
    rintro hnone
    rw [hnone] at hlength
    exact hordered (List.length_eq_zero_iff.mp hlength.symm)
  -- The call is dispatched, with and without a recording.
  have happly {τ : Type} (strategy : ExitStrategy τ T O) (exit : τ) :=
    apply_sequential operation strategy collector nonempty dispatched exit world
  have hleast := Sequential.isLeast_needed hvisits
  obtain ⟨htrace, last, hlast, hconcludes⟩ :=
    Sequential.visit_concludes operation strategy collector hordered [] exit world
  rw [← happly] at htrace hconcludes
  refine ⟨_, last, hlength ▸ hleast, hlast, ?_, htrace, ?_, hconcludes, ?_⟩
  · have hshard := congrArg (Option.map Sequential.Visit.shard) hlast
    rw [← List.getElem?_map, hshards] at hshard
    exact hshard
  · rw [received, happly, Sequential.visit_received, List.append_nil, List.reverse_reverse]
  · intro α part hrecord hkeeps
    have hmem : last ∈ visits.take (Sequential.needed visits) := by
      refine List.mem_of_getElem? (i := Sequential.needed visits - 1) ?_
      rw [List.getElem?_take_of_lt (Nat.sub_lt hleast.1.1 Nat.one_pos)]
      exact hlast
    rw [hconcludes.world, last.lastWorld_keeps hrecord,
      Sequential.course_keeps hkeeps strategy exit world last hmem]

/-- The first shard that is visited writes a row, the second finds it there and fails, and the third is
left alone. -/
theorem AccessStrategy.sequential_executes_prefix_occupied :
    let shard := fun number => Shard.mk number (.ofNat number) ∅ number
    let operation : Operation Cluster Nat :=
      ⟨"occupy", fun _ => 0, fun shard world =>
        if (world.backend 1).store.isEmpty then
          (.ok none, (world.callBackend shard.backend fun b => ((), b.seed "taken" .null)).2)
        else (.error (.failed "occupied"), world)⟩
    let shards := [shard 0, shard 1, shard 2]
    let ordered := [shard 1, shard 2, shard 0]
    let world := Cluster.ofBackends 3
    let call := ((sequential (.roundRobin 1)).apply shards operation First.strategy none .none
      world).1
    shards ≠ [] ∧ ((ShardOrdering.roundRobin 1).order shards).1 = .ok ordered
      ∧ call.trace = Sequential.visited 0 [shard 1, shard 2]
      ∧ call.result = .error (.shard (.operationFailure "occupy" [⟨.ofNat 2, "occupied"⟩] [.ofNat 1]))
      ∧ call.world.backend 0 = world.backend 0 := by
  intro shard operation shards ordered world call
  have hshards : shards ≠ [] := List.cons_ne_nil _ _
  have hordered : ((ShardOrdering.roundRobin 1).order shards).1 = .ok ordered := rfl
  obtain ⟨count, last, hleast, hlast, -, htrace, -, hconcludes, hkeeps⟩ :=
    sequential_executes_prefix operation First.strategy none hshards hordered .none world
  have hmost : count ≤ 2 := hleast.2 ⟨by decide, .inr ⟨_, rfl, rfl⟩⟩
  obtain ⟨⟨hpos, hend⟩, -⟩ := hleast
  have hmore : count ≠ 1 := by
    rintro rfl
    rcases hend with hall | ⟨visit, hvisit, hends⟩
    · cases hall
    · cases hvisit
      cases hends
  obtain rfl : count = 2 := by omega
  cases hlast
  refine ⟨hshards, hordered, htrace, (hconcludes.failed "occupied" rfl).2, ?_⟩
  refine hkeeps (fun world => world.backend 0) (fun _ _ => rfl) ?_
  intro visited hvisited world
  have helsewhere : visited.backend ≠ 0 := by
    revert visited
    decide
  dsimp only [operation]
  split
  · rw [Cluster.backend_callBackend, if_neg (fun h => helsewhere h.1)]
  · rfl

end ScatterGather
