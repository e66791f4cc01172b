import Mathlib.Data.List.Forall2
import ScatterGather.Proofs.Access.Dispatch
import ScatterGather.Proofs.Access.Refinement

/-!
# What a call feeds

In either order of merging, the exit strategy is fed the results of different positions of the order
of dispatch, one after the other, until it asks to stop or refuses one (`Feed`). If it does neither
and no operation fails, it has been fed the results of all positions when nothing is left to do. So
what a call returns is what the exit strategy makes of these results, unless an operation failed
(`Ends.feeds`).
-/

namespace ScatterGather

variable {ω σ T O : Type}

/-! ## Adding one result after the other -/

/-- Results were added one after the other, each of them after a plain answer to those before. -/
inductive ExitStrategy.Adds (strategy : ExitStrategy σ T O) (initial : σ) :
    List (Shard × Option T) → Except ShardError Bool → σ → Prop where
  | nil : Adds strategy initial [] (.ok false) initial
  | concat {fed : List (Shard × Option T)} {exit : σ}
      (before : Adds strategy initial fed (.ok false) exit) (shard : Shard) (result : Option T) :
      Adds strategy initial (fed ++ [(shard, result)]) (strategy.add exit result (some shard)).1
        (strategy.add exit result (some shard)).2

/-- A recorded strategy keeps what was added to it. -/
theorem ExitStrategy.Adds.recorded {strategy : ExitStrategy σ T O} {initial : σ}
    {fed : List (Shard × Option T)} {answer : Except ShardError Bool} {recording : Recording σ T}
    (h : (strategy.recorded none).Adds ⟨initial, []⟩ fed answer recording) :
    strategy.Adds initial fed answer recording.state ∧ recording.added = fed.reverse := by
  induction h with
  | nil => exact ⟨.nil, rfl⟩
  | @concat fed recording before shard result ih =>
    obtain ⟨hadds, hadded⟩ := ih
    have hadd := strategy.recorded_refines.add recording result (some shard)
    have hadds := hadds.concat shard result
    rw [hadd] at hadds
    refine ⟨hadds, ?_⟩
    rw [List.reverse_append, ← hadded]
    rfl

/-- How a call ends when what was fed has led to this answer and this state. -/
def ExitStrategy.ending (strategy : ExitStrategy σ T O) (collector : Option (Collector O)) :
    Except ShardError Bool → σ → Except CallError O × σ
  | .error e, exit => (.error (.shard e), exit)
  | .ok _, exit =>
    let (result, exit) := strategy.compileWith collector exit
    (result.mapError .shard, exit)

/-! ## Feeding -/

/-- The results of different positions in the order of dispatch were added one after the other. -/
structure Feed (ordered : List Shard) (outcome : Shard → Except Mishap (Option T))
    (strategy : ExitStrategy σ T O) (initial : σ) (places : List Nat)
    (fed : List (Shard × Option T)) (answer : Except ShardError Bool) (exit : σ) : Prop where
  placed : List.Forall₂
    (fun place x => ordered[place]? = some x.1 ∧ outcome x.1 = .ok x.2) places fed
  once : places.Nodup
  adds : strategy.Adds initial fed answer exit

section

variable {ordered : List Shard} {outcome : Shard → Except Mishap (Option T)}
variable {strategy : ExitStrategy σ T O} {initial exit : σ} {places : List Nat}
variable {fed : List (Shard × Option T)} {answer : Except ShardError Bool}

theorem Feed.nil : Feed ordered outcome strategy initial [] [] (.ok false) initial :=
  ⟨.nil, .nil, .nil⟩

theorem Feed.concat (h : Feed ordered outcome strategy initial places fed (.ok false) exit)
    {place : Nat} (hnew : place ∉ places) {shard : Shard} (hshard : ordered[place]? = some shard)
    {result : Option T} (hresult : outcome shard = .ok result) :
    Feed ordered outcome strategy initial (places ++ [place]) (fed ++ [(shard, result)])
      (strategy.add exit result (some shard)).1 (strategy.add exit result (some shard)).2 where
  placed := List.rel_append h.placed (.cons ⟨hshard, hresult⟩ .nil)
  once := by
    simp only [List.nodup_append, List.nodup_cons, List.mem_singleton]
    refine ⟨h.once, by simp, ?_⟩
    rintro other hother _ rfl rfl
    exact hnew hother
  adds := h.adds.concat shard result

/-- The shards whose results were fed stand at the places in the order of dispatch. -/
theorem Feed.shards_eq (h : Feed ordered outcome strategy initial places fed answer exit) :
    fed.map (·.1) = places.filterMap (ordered[·]?) := by
  have hplaced := h.placed
  clear h
  induction hplaced with
  | nil => rfl
  | cons hhead _ ih => rw [List.map_cons, List.filterMap_cons, hhead.1, ih]

theorem filterMap_getElem?_range {α : Type} (xs : List α) :
    (List.range xs.length).filterMap (xs[·]?) = xs := by
  simpa using filterMap_range_getElem? xs id

/-- Once all places were fed, so were all shards, each as often as it was dispatched. -/
theorem Feed.shards_perm (h : Feed ordered outcome strategy initial places fed answer exit)
    (hall : places.Perm (List.range ordered.length)) : (fed.map (·.1)).Perm ordered := by
  have hshards := hall.filterMap (ordered[·]?)
  rwa [filterMap_getElem?_range, ← h.shards_eq] at hshards

/-- No shard is fed more often than it was dispatched. -/
theorem Feed.shards_subperm (h : Feed ordered outcome strategy initial places fed answer exit) :
    (fed.map (·.1)).Subperm ordered := by
  have hsub : places ⊆ List.range ordered.length := by
    intro place hplace
    obtain ⟨i, hi, rfl⟩ := List.mem_iff_getElem.mp hplace
    have hfed : i < fed.length := h.placed.length_eq ▸ hi
    have hshard := (h.placed.get hi hfed).1
    exact List.mem_range.mpr (List.getElem?_eq_some_iff.mp hshard).1
  obtain ⟨some, hperm, hsublist⟩ := List.subperm_of_subset h.once hsub
  have hshards := hsublist.filterMap (ordered[·]?)
  rw [filterMap_getElem?_range] at hshards
  rw [h.shards_eq]
  exact ⟨_, hperm.filterMap _, hshards⟩

/-- Every result that was fed is the one its operation gave. -/
theorem Feed.results (h : Feed ordered outcome strategy initial places fed answer exit) :
    ∀ x ∈ fed, outcome x.1 = .ok x.2 := by
  intro x hx
  obtain ⟨i, hi, rfl⟩ := List.mem_iff_getElem.mp hx
  have hplace : i < places.length := h.placed.length_eq ▸ hi
  exact (h.placed.get hplace hi).2

/-- The values among some results. -/
def fedValues (fed : List (Shard × Option T)) : List T :=
  fed.filterMap (·.2)

theorem fedValues_concat (fed : List (Shard × Option T)) (shard : Shard) (result : Option T) :
    fedValues (fed ++ [(shard, result)]) = fedValues fed ++ result.toList := by
  cases result with
  | none => simp [fedValues]
  | some value => simp [fedValues]

/-- The values that the operation has on some shards. -/
def contributions (outcome : Shard → Except Mishap (Option T)) (shards : List Shard) : List T :=
  shards.filterMap fun shard => (outcome shard).toOption.join

theorem Feed.values_eq (h : Feed ordered outcome strategy initial places fed answer exit) :
    fedValues fed = contributions outcome (fed.map (·.1)) := by
  have hresults := h.results
  clear h
  induction fed with
  | nil => rfl
  | cons x fed ih =>
    obtain ⟨hx, hfed⟩ := List.forall_mem_cons.mp hresults
    have hih := ih hfed
    simp only [fedValues, contributions, List.map_cons, List.filterMap_cons, hx] at hih ⊢
    rw [hih]
    rfl

/-- Once all places were fed, so were the values of all shards. -/
theorem Feed.values_perm (h : Feed ordered outcome strategy initial places fed answer exit)
    (hall : places.Perm (List.range ordered.length)) :
    (fedValues fed).Perm (contributions outcome ordered) := by
  rw [h.values_eq]
  exact (h.shards_perm hall).filterMap _

/-- No value is fed more often than the shards have it. -/
theorem Feed.values_subperm (h : Feed ordered outcome strategy initial places fed answer exit) :
    (fedValues fed).Subperm (contributions outcome ordered) := by
  obtain ⟨some, hperm, hsublist⟩ := h.shards_subperm
  rw [h.values_eq]
  exact ⟨_, hperm.filterMap _, hsublist.filterMap _⟩

/-- Where results are fed in order, they are those of the first shards. -/
theorem Feed.shards_first (h : Feed ordered outcome strategy initial places fed answer exit)
    (hplaces : places = List.range places.length) : fed.map (·.1) <+: ordered := by
  have hlength : places.length ≤ ordered.length := by
    simpa [h.placed.length_eq] using h.shards_subperm.length_le
  have hrange : List.range places.length <+: List.range ordered.length := by
    have htake : List.range places.length = (List.range ordered.length).take places.length := by
      simp [List.take_range, hlength]
    rw [htake]
    exact List.take_prefix _ _
  have hshards := hrange.filterMap (ordered[·]?)
  rwa [filterMap_getElem?_range, ← hplaces, ← h.shards_eq] at hshards

/-- The result of the next position is fed in turn. -/
theorem Feed.next
    (h : Feed ordered outcome strategy initial (List.range fed.length) fed (.ok false) exit)
    {shard : Shard} (hshard : ordered[fed.length]? = some shard) {result : Option T}
    (hresult : outcome shard = .ok result) :
    Feed ordered outcome strategy initial (List.range (fed ++ [(shard, result)]).length)
      (fed ++ [(shard, result)]) (strategy.add exit result (some shard)).1
      (strategy.add exit result (some shard)).2 := by
  rw [List.length_append, List.length_singleton, List.range_succ]
  exact h.concat (by simp) hshard hresult

/-- The first of the shards behind a place stands at that place. -/
theorem getElem?_of_drop {α : Type} {xs rest : List α} {x : α} {place : Nat}
    (h : xs.drop place = x :: rest) : xs[place]? = some x ∧ xs.drop (place + 1) = rest := by
  constructor
  · have hfirst := congrArg (·[0]?) h
    simpa using hfirst
  · rw [← List.tail_drop, h, List.tail_cons]

/-- Feeding goes on in turn, up to the first result that is not answered plainly. -/
theorem Feed.extend
    (h : Feed ordered outcome strategy initial (List.range fed.length) fed (.ok false) exit)
    {more : List (Shard × Option T)} (hshards : more.map (·.1) <+: ordered.drop fed.length)
    (hresults : ∀ x ∈ more, outcome x.1 = .ok x.2) :
    ∃ all, Feed ordered outcome strategy initial (List.range all.length) all
        (strategy.addAll more exit).1 (strategy.addAll more exit).2
      ∧ ((strategy.addAll more exit).1 = .ok false → all.length = fed.length + more.length) := by
  induction more generalizing fed exit with
  | nil => exact ⟨fed, h, fun _ => rfl⟩
  | cons head more ih =>
    obtain ⟨shard, result⟩ := head
    obtain ⟨rest, hrest⟩ := hshards
    obtain ⟨hshard, hdrop⟩ := getElem?_of_drop hrest.symm
    obtain ⟨hresult, hresults⟩ := List.forall_mem_cons.mp hresults
    have hnext := h.next hshard hresult
    have hlength : (fed ++ [(shard, result)]).length = fed.length + 1 := by simp
    rw [← hlength] at hdrop
    rw [ExitStrategy.addAll]
    dsimp only at hnext
    generalize strategy.add exit result (some shard) = added at hnext
    obtain ⟨answer, exit'⟩ := added
    cases answer with
    | error e => exact ⟨_, hnext, by simp⟩
    | ok stop =>
      cases stop with
      | true => exact ⟨_, hnext, by simp⟩
      | false =>
        obtain ⟨all, hall, hend⟩ := ih hnext ⟨rest, hdrop.symm⟩ hresults
        refine ⟨all, hall, ?_⟩
        intro hgoing
        rw [hend hgoing, hlength, List.length_cons]
        omega

/-- Results that were fed in turn. -/
theorem FedTo.feed {next : Nat} (h : FedTo ordered outcome strategy initial next answer exit) :
    ∃ fed, Feed ordered outcome strategy initial (List.range fed.length) fed answer exit
      ∧ (answer = .ok false → fed.length = next) := by
  obtain ⟨all, rfl, hshards, hresults, hadd⟩ := h
  let none : List (Shard × Option T) := []
  have hstart : Feed ordered outcome strategy initial (List.range none.length) none (.ok false)
      initial := .nil
  have hfirst : all.map (·.1) <+: ordered.drop none.length := by
    rw [hshards]
    exact List.take_prefix _ _
  have hall := hstart.extend hfirst hresults
  rw [hadd] at hall
  simpa [none] using hall

end

/-! ## Feeding in order of completion -/

variable [Journaled ω]

namespace Merger

theorem accept_of_completion {strategy : ExitStrategy σ T O} (name : String) {merger : Merger T}
    (h : merger.failures = []) (horder : merger.order = .completion) (position : Nat)
    (shard : Shard) (result : Option T) (exit : σ) (world : ω) :
    merger.accept strategy name position shard result exit world =
      let fed := feed strategy name shard result exit world
      (fed.1,
        { merger with completed := insertAt position shard.physicalId merger.completed },
        fed.2.1, fed.2.2) := by
  unfold accept
  rw [if_neg (by simp [h])]
  dsimp only
  rw [horder]

end Merger

namespace Parallel.Flight

/-- The results that came in were fed as they came, up to a failure or a verdict. -/
structure OnArrival (ordered : List Shard) (outcome : Shard → Except Mishap (Option T))
    (strategy : ExitStrategy σ T O) (initial : σ) (flight : Flight ω σ T) : Prop where
  order : flight.merger.order = .completion
  fed : ∃ places fed,
    Feed ordered outcome strategy initial places fed (answerOf flight.verdict) flight.exit
      ∧ (flight.verdict = none → flight.merger.failures = [] →
        (flight.merger.completed.map (·.1)).Perm places)

variable {operation : Operation ω T} {strategy : ExitStrategy σ T O} {dispatched : Nat}
variable {ordered : List Shard} {outcome : Shard → Except Mishap (Option T)} {initial : σ}
variable {flight flight' : Flight ω σ T}

omit [Journaled ω] in
theorem OnArrival.start_of (strategy : ExitStrategy σ T O) (ordered : List Shard) (initial : σ)
    (world : ω) :
    OnArrival ordered outcome strategy initial
      (start .completion ordered initial world : Flight ω σ T) where
  order := rfl
  fed := ⟨[], [], .nil, fun _ _ => .refl _⟩

omit [Journaled ω] in
theorem OnArrival.congr (h : OnArrival ordered outcome strategy initial flight)
    (hmerger : flight'.merger = flight.merger) (hverdict : flight'.verdict = flight.verdict)
    (hexit : flight'.exit = flight.exit) : OnArrival ordered outcome strategy initial flight' := by
  constructor
  · rw [hmerger]
    exact h.order
  · rw [hmerger, hverdict, hexit]
    exact h.fed

theorem OnArrival.fail (h : OnArrival ordered outcome strategy initial flight)
    (hopen : flight.verdict = none) {arrival : Arrival T} {mishap : Mishap}
    (herror : arrival.outcome = .error mishap) (name : String) :
    OnArrival ordered outcome strategy initial (flight.take strategy name dispatched arrival) := by
  obtain ⟨hmerger, hexit, hverdict, -⟩ := take_of_error strategy name dispatched hopen herror
  obtain ⟨places, fed, hfeed, -⟩ := h.fed
  constructor
  · rw [hmerger]
    exact h.order
  · refine ⟨places, fed, ?_, ?_⟩
    · rw [hexit, hverdict, ← hopen]
      exact hfeed
    · rw [hmerger]
      intro _ hnone
      exact absurd hnone (insertAt_ne_nil _ _ _)

theorem OnArrival.accept (h : OnArrival ordered outcome strategy initial flight)
    (hopen : flight.verdict = none) {arrival : Arrival T} {result : Option T}
    (hok : arrival.outcome = .ok result) (hshard : ordered[arrival.position]? = some arrival.shard)
    (hresult : outcome arrival.shard = .ok result)
    (hnew : ∀ x ∈ flight.merger.completed, x.1 ≠ arrival.position) (name : String) :
    OnArrival ordered outcome strategy initial (flight.take strategy name dispatched arrival) := by
  obtain ⟨hmerger, hexit, hverdict, -⟩ := take_of_ok strategy name dispatched hopen hok
  obtain ⟨places, fed, hfeed, hplaces⟩ := h.fed
  rw [hopen] at hfeed
  by_cases hnone : flight.merger.failures = []
  case neg =>
    -- After a failure the result completes its shard, and nothing is fed.
    rw [Merger.accept_of_failures name hnone] at hmerger hexit hverdict
    constructor
    · rw [hmerger]
      exact h.order
    · refine ⟨places, fed, ?_, ?_⟩
      · rw [hexit, hverdict]
        exact hfeed
      · rw [hmerger]
        intro _ hnil
        exact absurd hnil hnone
  case pos =>
    have hcompleted := hplaces hopen hnone
    have hfresh : arrival.position ∉ places := by
      rw [← hcompleted.mem_iff]
      intro hmem
      obtain ⟨x, hx, heq⟩ := List.mem_map.mp hmem
      exact hnew x hx heq
    rw [Merger.accept_of_completion name hnone h.order] at hmerger hexit hverdict
    obtain ⟨world', hadd⟩ :=
      feed_eq strategy name arrival.shard result flight.exit flight.world
    rw [hadd] at hmerger hexit hverdict
    constructor
    · rw [hmerger]
      exact h.order
    · refine ⟨places ++ [arrival.position], fed ++ [(arrival.shard, result)], ?_, ?_⟩
      · rw [hexit, hverdict, answerOf_verdictOf]
        exact hfeed.concat hfresh hshard hresult
      · rw [hmerger]
        intro _ _
        have hinsert := (insertAt_perm arrival.position arrival.shard.physicalId
          flight.merger.completed).map (·.1)
        exact hinsert.trans ((hcompleted.cons _).trans (List.perm_append_singleton _ _).symm)

theorem OnArrival.step (h : OnArrival ordered outcome strategy initial flight)
    (haccount : Accounted ordered outcome flight)
    (hstep : Step operation strategy dispatched flight flight') :
    OnArrival ordered outcome strategy initial flight' := by
  cases hstep with
  | start | pass | finish | cancel => exact h.congr rfl rfl rfl
  | @take arrival rest arrived =>
    have hmem : arrival ∈ flight.arrived := arrived.mem_iff.mpr List.mem_cons_self
    have hrest : OnArrival ordered outcome strategy initial { flight with arrived := rest } :=
      h.congr rfl rfl rfl
    obtain ⟨hshard, houtcome⟩ := haccount.arrived arrival hmem
    by_cases hopen : flight.verdict = none
    case neg =>
      rw [take_of_verdict strategy operation.name dispatched (by exact hopen)]
      exact hrest
    case pos =>
      cases hout : arrival.outcome with
      | error mishap => exact hrest.fail hopen hout operation.name
      | ok result =>
        exact hrest.accept hopen hout hshard (houtcome.symm.trans hout)
          (haccount.unrecorded hopen hmem).1 operation.name

theorem OnArrival.reaches
    (determined : ∀ shard world, (operation.run shard world).1 = outcome shard)
    (h : OnArrival ordered outcome strategy initial flight)
    (haccount : Accounted ordered outcome flight)
    (hreaches : Reaches operation strategy dispatched flight flight') :
    OnArrival ordered outcome strategy initial flight' := by
  induction hreaches with
  | refl => exact h
  | tail hreaches hstep ih => exact ih.step (haccount.reaches determined hreaches) hstep

/-- In both orders of merging, different positions were fed; in shard order these are the first ones,
and all of them once nothing is left to do, unless something ended the call. -/
theorem feeds_of_reaches
    (determined : ∀ shard world, (operation.run shard world).1 = outcome shard)
    {order : MergeOrder} {world : ω} (hreaches : Reaches operation strategy dispatched
      (start order ordered initial world) flight) (hrest : flight.AtRest) :
    ∃ places fed,
      Feed ordered outcome strategy initial places fed (answerOf flight.verdict) flight.exit
        ∧ (order = .shardOrder → places = List.range places.length)
        ∧ (flight.verdict = none → flight.merger.failures = [] →
          places.Perm (List.range ordered.length)) := by
  have hstart : Accounted ordered outcome (start order ordered initial world : Flight ω σ T) :=
    .start_of order ordered initial world
  have haccount := hstart.reaches determined hreaches
  cases order with
  | shardOrder =>
    have hturn := (InTurn.start_of strategy ordered initial world).reaches determined hstart hreaches
    obtain ⟨fed, hfeed, hlength⟩ := hturn.fed.feed
    refine ⟨_, fed, hfeed, by simp, ?_⟩
    intro hopen hnone
    rw [hlength (by rw [hopen]; rfl), hturn.fed_all haccount hrest hopen hnone]
  | completion =>
    have harrival :=
      (OnArrival.start_of strategy ordered initial world).reaches determined hstart hreaches
    obtain ⟨places, fed, hfeed, hplaces⟩ := harrival.fed
    refine ⟨places, fed, hfeed, by simp, ?_⟩
    intro hopen hnone
    exact (hplaces hopen hnone).symm.trans (haccount.all_completed hrest hopen hnone).2

end Parallel.Flight

/-! ## How a call ends -/

/-- The call failed, and so did an operation of it. -/
def Outcome.Broken (call : Outcome ω σ O) (ordered : List Shard)
    (outcome : Shard → Except Mishap (Option T)) : Prop :=
  (∃ e, call.result = .error e) ∧ ∃ shard ∈ ordered, ∃ mishap, outcome shard = .error mishap

/-- What was fed decides how the call ends; where the exit strategy neither asked to stop nor refused
a result, all positions were fed, and their operations have ended. -/
structure Outcome.Settled (call : Outcome ω σ O) (ordered : List Shard)
    (strategy : ExitStrategy σ T O) (collector : Option (Collector O)) (places : List Nat)
    (answer : Except ShardError Bool) (exit : σ) : Prop where
  ending : (call.result, call.exit) = strategy.ending collector answer exit
  fed : answer = .ok false → places.Perm (List.range ordered.length)
  ended : answer = .ok false → (endedAt call.trace).Perm (List.range ordered.length)

omit [Journaled ω] in
theorem Outcome.compiled_ending (strategy : ExitStrategy σ T O) (collector : Option (Collector O))
    (stop : Bool) (exit : σ) (world : ω) (trace : List Mark) :
    let call := Outcome.compiled strategy collector exit world trace
    (call.result, call.exit) = strategy.ending collector (.ok stop) exit :=
  rfl

namespace Parallel.Flight

omit [Journaled ω] in
theorem answerOf_some_ne (verdict : Except ShardError Unit) :
    answerOf (some verdict) ≠ .ok false := by
  cases verdict with
  | error e => simp [answerOf]
  | ok u => simp [answerOf]

variable {ordered : List Shard} {outcome : Shard → Except Mishap (Option T)}
variable {flight : Flight ω σ T} {places : List Nat}

omit [Journaled ω] in
/-- A call that the exit strategy ended. -/
theorem conclude_of_verdict (flight : Flight ω σ T) (operation : Operation ω T)
    (strategy : ExitStrategy σ T O) (collector : Option (Collector O))
    {verdict : Except ShardError Unit} (h : flight.verdict = some verdict) :
    (flight.conclude operation strategy collector).Settled ordered strategy collector places
      (answerOf (some verdict)) flight.exit where
  ending := by
    unfold conclude
    rw [h]
    cases verdict with
    | error e => rfl
    | ok u => rfl
  fed := fun hgoing => absurd hgoing (answerOf_some_ne verdict)
  ended := fun hgoing => absurd hgoing (answerOf_some_ne verdict)

omit [Journaled ω] in
/-- A call that nothing ended. -/
theorem Accounted.conclude_settled (h : Accounted ordered outcome flight)
    (htraced : Traced ordered flight) (hrest : flight.AtRest) (hopen : flight.verdict = none)
    (hnone : flight.merger.failures = []) (operation : Operation ω T)
    (strategy : ExitStrategy σ T O) (collector : Option (Collector O))
    (hplaces : places.Perm (List.range ordered.length)) :
    (flight.conclude operation strategy collector).Settled ordered strategy collector places
      (answerOf none) flight.exit where
  ending := by
    unfold conclude
    rw [hopen]
    simp only [Merger.error?, hnone, List.isEmpty_nil, if_true]
    exact Outcome.compiled_ending ..
  fed := fun _ => hplaces
  ended := by
    intro _
    obtain ⟨hqueue, -⟩ := h.all_completed hrest hopen hnone
    have hstarted := htraced.started
    have hended := htraced.ended
    rw [hqueue, List.map_nil, List.append_nil] at hstarted
    rw [hrest.running, List.map_nil, List.append_nil] at hended
    rw [conclude_trace]
    exact hended.trans hstarted

omit [Journaled ω] in
/-- A call in which an operation failed before anything ended it. -/
theorem Accounted.conclude_broken (h : Accounted ordered outcome flight)
    (hopen : flight.verdict = none) (hsome : flight.merger.failures ≠ [])
    (operation : Operation ω T) (strategy : ExitStrategy σ T O)
    (collector : Option (Collector O)) :
    let call := flight.conclude operation strategy collector
    call.exit = flight.exit ∧ call.Broken ordered outcome := by
  obtain ⟨x, hx⟩ := List.exists_mem_of_ne_nil _ hsome
  obtain ⟨shard, mishap, hshard, hmishap, -⟩ := h.failed x hx
  unfold conclude
  rw [hopen]
  simp only [Merger.error?, List.isEmpty_eq_false_iff.mpr hsome]
  exact ⟨rfl, ⟨_, rfl⟩, shard, List.mem_of_getElem? hshard, mishap, hmishap⟩

/-- A concurrent call that has come to rest feeds different positions, and an operation has failed or
what was fed decides how the call ends. -/
theorem conclude_feeds {operation : Operation ω T} {strategy : ExitStrategy σ T O}
    {dispatched : Nat} {order : MergeOrder} {initial : σ} {world : ω}
    (determined : ∀ shard world, (operation.run shard world).1 = outcome shard)
    (hreaches : Reaches operation strategy dispatched (start order ordered initial world)
      flight)
    (hrest : flight.AtRest) (collector : Option (Collector O)) :
    let call := flight.conclude operation strategy collector
    ∃ places fed,
      Feed ordered outcome strategy initial places fed (answerOf flight.verdict) flight.exit
        ∧ (order = .shardOrder → places = List.range places.length)
        ∧ (answerOf flight.verdict = .ok false ∧ call.exit = flight.exit
            ∧ call.Broken ordered outcome ∨
          call.Settled ordered strategy collector places (answerOf flight.verdict)
            flight.exit) := by
  obtain ⟨places, fed, hfeed, horder, hall⟩ := feeds_of_reaches determined hreaches hrest
  have haccount : Accounted ordered outcome flight :=
    (Accounted.start_of order ordered initial world).reaches determined hreaches
  have htraced : Traced ordered flight :=
    (Traced.start_of order ordered initial world).reaches hreaches
  refine ⟨places, fed, hfeed, horder, ?_⟩
  cases hverdict : flight.verdict with
  | some verdict => exact .inr (flight.conclude_of_verdict operation strategy collector hverdict)
  | none =>
    by_cases hnone : flight.merger.failures = []
    · exact .inr (haccount.conclude_settled htraced hrest hverdict hnone operation strategy collector
        (hall hverdict hnone))
    · obtain ⟨hexit, hbroken⟩ :=
        haccount.conclude_broken hverdict hnone operation strategy collector
      exact .inl ⟨rfl, hexit, hbroken⟩

end Parallel.Flight

namespace Sequential

variable {operation : Operation ω T} {outcome : Shard → Except Mishap (Option T)}

/-- Visiting feeds in turn, from where it was left. -/
theorem visit_feeds (determined : ∀ shard world, (operation.run shard world).1 = outcome shard)
    (strategy : ExitStrategy σ T O) (collector : Option (Collector O)) {ordered : List Shard}
    {initial exit : σ} {fed : List (Shard × Option T)}
    (h : Feed ordered outcome strategy initial (List.range fed.length) fed (.ok false) exit)
    {rest : List Shard} (hrest : ordered.drop fed.length = rest) (completed : List ShardId)
    (world : ω) :
    let call := visit operation strategy collector rest completed exit world
    ∃ all answer state,
      Feed ordered outcome strategy initial (List.range all.length) all answer state
        ∧ (answer = .ok false ∧ call.exit = state ∧ call.Broken ordered outcome ∨
          (call.result, call.exit) = strategy.ending collector answer state
            ∧ (answer = .ok false → all.length = fed.length + rest.length
              ∧ endedAt call.trace = List.range' completed.length rest.length)) := by
  induction rest generalizing fed exit completed world with
  | nil =>
    refine ⟨fed, .ok false, exit, h, .inr ⟨rfl, ?_⟩⟩
    simp [visit, Outcome.compiled]
  | cons shard rest ih =>
    obtain ⟨hshard, hdrop⟩ := getElem?_of_drop hrest
    have hrun : operation.run shard world = (outcome shard, (operation.run shard world).2) :=
      Prod.ext (determined shard world) rfl
    unfold visit
    rw [hrun]
    generalize (operation.run shard world).2 = world'
    cases hout : outcome shard with
    | error mishap =>
      have hfailed : ∃ shard ∈ ordered, ∃ mishap, outcome shard = .error mishap :=
        ⟨shard, List.mem_of_getElem? hshard, mishap, hout⟩
      cases mishap with
      | failed source => exact ⟨fed, .ok false, exit, h, .inl ⟨rfl, rfl, ⟨_, rfl⟩, hfailed⟩⟩
      | panicked payload => exact ⟨fed, .ok false, exit, h, .inl ⟨rfl, rfl, ⟨_, rfl⟩, hfailed⟩⟩
    | ok result =>
      have hnext := h.next hshard hout
      have hlength : (fed ++ [(shard, result)]).length = fed.length + 1 := by simp
      rw [← hlength] at hdrop
      obtain ⟨world'', hfeed⟩ := feed_eq strategy operation.name shard result exit world'
      dsimp only
      rw [hfeed]
      generalize strategy.add exit result (some shard) = added at hnext
      obtain ⟨answer, exit'⟩ := added
      cases answer with
      | error e => exact ⟨_, _, _, hnext, .inr ⟨rfl, by simp⟩⟩
      | ok stop =>
        cases stop with
        | true => exact ⟨_, _, _, hnext, .inr ⟨rfl, by simp⟩⟩
        | false =>
          obtain ⟨all, answer, state, hall, hend⟩ :=
            ih hnext hdrop (completed ++ [shard.physicalId]) world''
          refine ⟨all, answer, state, hall, hend.imp_right ?_⟩
          rintro ⟨hending, hcomplete⟩
          refine ⟨hending, ?_⟩
          intro hgoing
          obtain ⟨hfed, hended⟩ := hcomplete hgoing
          refine ⟨?_, ?_⟩
          · rw [hfed, hlength, List.length_cons]
            omega
          · rw [List.length_append, List.length_singleton] at hended
            rw [List.length_cons, List.range'_succ, ← hended]
            rfl

/-- A sequential call feeds the first positions in order, and an operation has failed or what was fed
decides how the call ends. -/
theorem visit_settles (determined : ∀ shard world, (operation.run shard world).1 = outcome shard)
    (strategy : ExitStrategy σ T O) (collector : Option (Collector O)) (ordered : List Shard)
    (initial : σ) (world : ω) :
    let call := visit operation strategy collector ordered [] initial world
    ∃ fed answer state,
      Feed ordered outcome strategy initial (List.range fed.length) fed answer state
        ∧ (answer = .ok false ∧ call.exit = state ∧ call.Broken ordered outcome ∨
          call.Settled ordered strategy collector (List.range fed.length) answer state) := by
  let none : List (Shard × Option T) := []
  have hstart : Feed ordered outcome strategy initial (List.range none.length) none (.ok false)
      initial := .nil
  obtain ⟨fed, answer, state, hfeed, hend⟩ :=
    visit_feeds determined strategy collector hstart rfl [] world
  refine ⟨fed, answer, state, hfeed, hend.imp_right ?_⟩
  rintro ⟨hending, hcomplete⟩
  refine ⟨hending, ?_, ?_⟩
  · intro hgoing
    rw [(hcomplete hgoing).1]
    simp [none]
  · intro hgoing
    have hended := (hcomplete hgoing).2
    rw [show ordered.drop none.length = ordered from rfl] at hended
    rw [hended, List.range_eq_range']
    rfl

end Sequential

namespace AccessStrategy

/-- The results of a call are fed in the order of dispatch. -/
def InOrder : AccessStrategy → Prop
  | sequential _ => True
  | parallel access => access.mergeOrder = .shardOrder

variable {operation : Operation ω T} {outcome : Shard → Except Mishap (Option T)}
variable {strategy : ExitStrategy σ T O} {collector : Option (Collector O)}
variable {ordered : List Shard} {exit : σ} {world : ω} {access : AccessStrategy}
variable {call : Outcome ω σ O}

/-- A call feeds the results of different positions, in order if that is its way. Then an operation
has failed, or what was fed decides how the call ends. -/
theorem Ends.feeds (determined : ∀ shard world, (operation.run shard world).1 = outcome shard)
    (h : Ends operation strategy collector ordered exit world access call) :
    ∃ places fed answer state, Feed ordered outcome strategy exit places fed answer state
      ∧ (access.InOrder → places = List.range places.length)
      ∧ (answer = .ok false ∧ call.exit = state ∧ call.Broken ordered outcome ∨
        call.Settled ordered strategy collector places answer state) := by
  cases h with
  | visited ordering =>
    obtain ⟨fed, answer, state, hfeed, hend⟩ :=
      Sequential.visit_settles determined strategy collector ordered exit world
    exact ⟨_, fed, answer, state, hfeed, by simp, hend⟩
  | settled reaches rest =>
    obtain ⟨places, fed, hfeed, horder, hend⟩ :=
      Parallel.Flight.conclude_feeds determined reaches rest collector
    exact ⟨places, fed, _, _, hfeed, horder, hend⟩

/-- In a dispatched call in which no operation fails, what was fed decides how the call ends. -/
theorem MayReturn.settled (determined : ∀ shard world, (operation.run shard world).1 = outcome shard)
    {shards : List Shard} (hall : ∀ shard ∈ shards, ∃ result, outcome shard = .ok result)
    (hdispatches : access.Dispatches shards ordered)
    (h : access.MayReturn shards operation strategy collector exit world call) :
    ∃ places fed answer state, Feed ordered outcome strategy exit places fed answer state
      ∧ call.Settled ordered strategy collector places answer state := by
  rcases h.dispatches_or with ⟨-, -, hnot⟩ | ⟨ordered', hdispatches', hends⟩
  · exact absurd hdispatches (hnot ordered)
  obtain rfl := hdispatches.unique hdispatches'
  obtain ⟨places, fed, answer, state, hfeed, -, hend⟩ := hends.feeds determined
  refine ⟨places, fed, answer, state, hfeed, ?_⟩
  rcases hend with ⟨-, -, -, shard, hshard, mishap, hmishap⟩ | hsettled
  · obtain ⟨result, hresult⟩ := hall shard (hdispatches.perm.subset hshard)
    rw [hmishap] at hresult
    cases hresult
  · exact hsettled

end AccessStrategy

end ScatterGather
