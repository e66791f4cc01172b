import ScatterGather.Proofs.Access.Accounting
import ScatterGather.Proofs.Access.Adding

/-!
# Feeding in dispatch order

The merger in shard order. Whatever the order of arrival, the exit strategy has been fed exactly the
results of the first `next` positions, in turn, and its state is that of the fold over them
(`InTurn`); a later result waits until all earlier ones are in. The merger looks at nothing but
positions, so the invariant survives any schedule, a stop in the middle of a drained run, and
failures before or behind the position that is next in turn.
-/

namespace ScatterGather

variable {ω σ T O : Type}

/-- The exit strategy was fed the results of the first `next` shards in turn, which left it with
this answer and in this state. -/
def FedTo (shards : List Shard) (outcome : Shard → Except Mishap (Option T))
    (strategy : ExitStrategy σ T O) (initial : σ) (next : Nat) (answer : Except ShardError Bool)
    (exit : σ) : Prop :=
  ∃ fed : List (Shard × Option T), fed.length = next ∧ fed.map (·.1) = shards.take next
    ∧ (∀ x ∈ fed, outcome x.1 = .ok x.2) ∧ strategy.addAll fed initial = (answer, exit)

section

variable {shards : List Shard} {outcome : Shard → Except Mishap (Option T)}
variable {strategy : ExitStrategy σ T O} {initial : σ}

theorem FedTo.zero : FedTo shards outcome strategy initial 0 (.ok false) initial :=
  ⟨[], rfl, rfl, fun _ hx => absurd hx List.not_mem_nil, rfl⟩

theorem FedTo.succ {next : Nat} {exit : σ}
    (h : FedTo shards outcome strategy initial next (.ok false) exit) {shard : Shard}
    (hshard : shards[next]? = some shard) {result : Option T}
    (hresult : outcome shard = .ok result) :
    FedTo shards outcome strategy initial (next + 1) (strategy.add exit result (some shard)).1
      (strategy.add exit result (some shard)).2 := by
  obtain ⟨fed, hlength, hfed, hok, hadd⟩ := h
  refine ⟨fed ++ [(shard, result)], by simp [hlength], ?_, ?_, ?_⟩
  · rw [List.map_append, hfed, List.take_add_one, hshard]
    rfl
  · intro x hx
    rcases List.mem_append.mp hx with hx | hx
    · exact hok x hx
    · obtain rfl := List.mem_singleton.mp hx
      exact hresult
  · rw [strategy.addAll_append hadd, strategy.addAll_singleton]

end

/-! ## Results that wait -/

/-- Results that wait for their turn, by position. -/
structure Waiting (shards : List Shard) (outcome : Shard → Except Mishap (Option T)) (next : Nat)
    (pending : List (Nat × Shard × Option T)) : Prop where
  ascending : pending.Pairwise fun a b => a.1 < b.1
  valid : ∀ x ∈ pending, shards[x.1]? = some x.2.1 ∧ outcome x.2.1 = .ok x.2.2
  later : ∀ x ∈ pending, next ≤ x.1

theorem pairwise_insertAt {α : Type} {position : Nat} {x : α} {xs : List (Nat × α)}
    (h : xs.Pairwise fun a b => a.1 < b.1) (hnew : ∀ y ∈ xs, y.1 ≠ position) :
    (insertAt position x xs).Pairwise fun a b => a.1 < b.1 := by
  induction xs with
  | nil => exact List.pairwise_singleton _ _
  | cons head rest ih =>
    obtain ⟨p, y⟩ := head
    obtain ⟨hhead, hrest⟩ := List.pairwise_cons.mp h
    rw [insertAt]
    split
    case isTrue hlt =>
      refine List.pairwise_cons.mpr ⟨fun e he => ?_,
        ih hrest fun y hy => hnew y (List.mem_cons_of_mem _ hy)⟩
      rcases mem_insertAt.mp he with rfl | he
      · exact hlt
      · exact hhead e he
    case isFalse hle =>
      have hne : p ≠ position := hnew (p, y) List.mem_cons_self
      have hlt : position < p := by omega
      refine List.pairwise_cons.mpr ⟨fun e he => ?_, h⟩
      rcases List.mem_cons.mp he with rfl | he
      · exact hlt
      · exact Nat.lt_trans hlt (hhead e he)

namespace Merger

variable [Journaled ω]
variable {shards : List Shard} {outcome : Shard → Except Mishap (Option T)}
variable {strategy : ExitStrategy σ T O} {initial : σ}

/-- Draining feeds the results that are next in turn; the positions that are fed or wait stay the
same, and none of those that still wait after a plain answer is next. -/
theorem drain_spec (name : String) {pending : List (Nat × Shard × Option T)} {next : Nat} {exit : σ}
    (hfed : FedTo shards outcome strategy initial next (.ok false) exit)
    (hwait : Waiting shards outcome next pending) (world : ω) :
    let drained := drain strategy name pending next exit world
    FedTo shards outcome strategy initial drained.2.2.1 drained.1 drained.2.2.2.1
      ∧ Waiting shards outcome drained.2.2.1 drained.2.1
      ∧ List.range drained.2.2.1 ++ drained.2.1.map (·.1) = List.range next ++ pending.map (·.1)
      ∧ (drained.1 = .ok false → ∀ x ∈ drained.2.1, x.1 ≠ drained.2.2.1) := by
  induction pending generalizing next exit world with
  | nil => exact ⟨hfed, hwait, rfl, fun _ x hx => absurd hx List.not_mem_nil⟩
  | cons head rest ih =>
    obtain ⟨position, shard, result⟩ := head
    obtain ⟨hhead, hrest⟩ := List.pairwise_cons.mp hwait.ascending
    rw [drain]
    split
    case isFalse hne =>
      refine ⟨hfed, hwait, rfl, fun _ x hx => ?_⟩
      rcases List.mem_cons.mp hx with rfl | hx
      · exact hne
      · have hlt : position < x.1 := hhead x hx
        have hle : next ≤ position := hwait.later _ List.mem_cons_self
        dsimp only
        omega
    case isTrue heq =>
      -- The head is next: it is fed, and the others wait for the position after it.
      subst heq
      obtain ⟨hshard, hresult⟩ := hwait.valid _ List.mem_cons_self
      have hfed' := hfed.succ hshard hresult
      have hwait' : Waiting shards outcome (position + 1) rest :=
        ⟨hrest, fun x hx => hwait.valid x (List.mem_cons_of_mem _ hx), fun x hx => hhead x hx⟩
      have hplaces : List.range (position + 1) ++ rest.map (·.1)
          = List.range position ++ ((position, shard, result) :: rest).map (·.1) := by
        rw [List.range_succ, List.append_assoc]
        rfl
      obtain ⟨world', hfeed⟩ := feed_eq strategy name shard result exit world
      rw [hfeed]
      generalize strategy.add exit result (some shard) = added at hfed' ⊢
      obtain ⟨answer, exit'⟩ := added
      match answer with
      | .ok false =>
        obtain ⟨hfed'', hwait'', hplaces', hnext⟩ := ih hfed' hwait' world'
        exact ⟨hfed'', hwait'', hplaces'.trans hplaces, hnext⟩
      | .ok true => exact ⟨hfed', hwait', hplaces, fun h => by cases h⟩
      | .error e => exact ⟨hfed', hwait', hplaces, fun h => by cases h⟩

theorem accept_of_failures (name : String) {merger : Merger T} (h : merger.failures ≠ [])
    (position : Nat) (shard : Shard) (result : Option T) (exit : σ) (world : ω) :
    merger.accept strategy name position shard result exit world =
      (.ok false,
        { merger with completed := insertAt position shard.physicalId merger.completed }, exit,
        world) := by
  unfold accept
  rw [if_pos (by simpa using h)]

theorem accept_of_shardOrder (name : String) {merger : Merger T} (h : merger.failures = [])
    (horder : merger.order = .shardOrder) (position : Nat) (shard : Shard) (result : Option T)
    (exit : σ) (world : ω) :
    merger.accept strategy name position shard result exit world =
      let drained := drain strategy name (insertAt position (shard, result) merger.pending)
        merger.next exit world
      (drained.1,
        { merger with
          completed := insertAt position shard.physicalId merger.completed
          pending := drained.2.1
          next := drained.2.2.1 }, drained.2.2.2.1, drained.2.2.2.2) := by
  unfold accept
  rw [if_neg (by simp [h])]
  dsimp only
  rw [horder]

end Merger

namespace Parallel

/-- The answer that led to a verdict, or the last one while there is none. -/
def answerOf : Option (Except ShardError Unit) → Except ShardError Bool
  | none => .ok false
  | some (.ok ()) => .ok true
  | some (.error e) => .error e

theorem answerOf_verdictOf (answer : Except ShardError Bool) :
    answerOf (verdictOf answer) = answer := by
  match answer with
  | .ok false | .ok true | .error _ => rfl

namespace Flight

/-- The results that came in so far were fed in dispatch order, as far as they could be. -/
structure InTurn (shards : List Shard) (outcome : Shard → Except Mishap (Option T))
    (strategy : ExitStrategy σ T O) (initial : σ) (flight : Flight ω σ T) : Prop where
  order : flight.merger.order = .shardOrder
  fed : FedTo shards outcome strategy initial flight.merger.next (answerOf flight.verdict)
    flight.exit
  waiting : flight.verdict = none → Waiting shards outcome flight.merger.next flight.merger.pending
  awaited : flight.verdict = none → ∀ x ∈ flight.merger.pending, x.1 ≠ flight.merger.next
  kept : flight.verdict = none → flight.merger.failures = [] →
    (flight.merger.completed.map (·.1)).Perm
      (List.range flight.merger.next ++ flight.merger.pending.map (·.1))

section

variable {operation : Operation ω T} {strategy : ExitStrategy σ T O} {dispatched : Nat}
variable {shards : List Shard} {outcome : Shard → Except Mishap (Option T)} {initial : σ}

theorem InTurn.congr {flight flight' : Flight ω σ T}
    (h : InTurn shards outcome strategy initial flight) (hmerger : flight'.merger = flight.merger)
    (hverdict : flight'.verdict = flight.verdict) (hexit : flight'.exit = flight.exit) :
    InTurn shards outcome strategy initial flight' := by
  constructor
  · rw [hmerger]
    exact h.order
  · rw [hmerger, hverdict, hexit]
    exact h.fed
  · rw [hmerger, hverdict]
    exact h.waiting
  · rw [hmerger, hverdict]
    exact h.awaited
  · rw [hmerger, hverdict]
    exact h.kept

theorem InTurn.start_of (strategy : ExitStrategy σ T O) (shards : List Shard) (initial : σ)
    (world : ω) :
    InTurn shards outcome strategy initial
      (start .shardOrder shards initial world : Flight ω σ T) where
  order := rfl
  fed := .zero
  waiting := fun _ => ⟨.nil, fun _ hx => absurd hx List.not_mem_nil,
    fun _ hx => absurd hx List.not_mem_nil⟩
  awaited := fun _ _ hx => absurd hx List.not_mem_nil
  kept := fun _ _ => .refl _

/-- The position of an outcome that was not read is neither fed nor waiting. -/
theorem InTurn.fresh {flight : Flight ω σ T} (h : InTurn shards outcome strategy initial flight)
    (haccount : Accounted shards outcome flight) (hopen : flight.verdict = none)
    (hnone : flight.merger.failures = []) {arrival : Arrival T}
    (harrived : arrival ∈ flight.arrived) :
    flight.merger.next ≤ arrival.position
      ∧ ∀ x ∈ flight.merger.pending, x.1 ≠ arrival.position := by
  have hnodup := haccount.nodup hopen
  simp only [Flight.positions, List.nodup_append] at hnodup
  have hnew : arrival.position ∉ flight.merger.completed.map (·.1) := by
    intro hmem
    have hplace : arrival.position ∈ flight.arrived.map (·.position) := List.mem_map_of_mem harrived
    exact hnodup.2.2 _ hmem _ (by simp [hplace]) rfl
  rw [(h.kept hopen hnone).mem_iff, List.mem_append, List.mem_range] at hnew
  refine ⟨by omega, fun x hx heq => hnew (.inr ?_)⟩
  rw [← heq]
  exact List.mem_map_of_mem hx

variable [Journaled ω]

theorem InTurn.fail {flight : Flight ω σ T} (h : InTurn shards outcome strategy initial flight)
    (hopen : flight.verdict = none) {arrival : Arrival T} {mishap : Mishap}
    (herror : arrival.outcome = .error mishap) (name : String) :
    InTurn shards outcome strategy initial
      (flight.take strategy name dispatched arrival) := by
  obtain ⟨hmerger, hexit, hverdict, -⟩ := take_of_error strategy name dispatched hopen herror
  have hfed := h.fed
  rw [hopen] at hfed
  constructor
  · rw [hmerger]
    exact h.order
  · rw [hmerger, hverdict, hexit]
    exact hfed
  · rw [hmerger]
    exact fun _ => h.waiting hopen
  · rw [hmerger]
    exact fun _ => h.awaited hopen
  · rw [hmerger]
    exact fun _ hnil => absurd hnil (insertAt_ne_nil _ _ _)

theorem InTurn.accept {flight : Flight ω σ T} (h : InTurn shards outcome strategy initial flight)
    (hopen : flight.verdict = none) {arrival : Arrival T} {result : Option T}
    (hok : arrival.outcome = .ok result) (hshard : shards[arrival.position]? = some arrival.shard)
    (hresult : outcome arrival.shard = .ok result)
    (hfresh : flight.merger.failures = [] → flight.merger.next ≤ arrival.position
      ∧ ∀ x ∈ flight.merger.pending, x.1 ≠ arrival.position) (name : String) :
    InTurn shards outcome strategy initial (flight.take strategy name dispatched arrival) := by
  obtain ⟨hmerger, hexit, hverdict, -⟩ := take_of_ok strategy name dispatched hopen hok
  have hfed := h.fed
  rw [hopen] at hfed
  by_cases hnone : flight.merger.failures = []
  case neg =>
    -- After a failure the result completes its shard, and nothing is fed.
    rw [Merger.accept_of_failures name hnone] at hmerger hexit hverdict
    constructor
    · rw [hmerger]
      exact h.order
    · rw [hmerger, hverdict, hexit]
      exact hfed
    · rw [hmerger]
      exact fun _ => h.waiting hopen
    · rw [hmerger]
      exact fun _ => h.awaited hopen
    · rw [hmerger]
      exact fun _ hnil => absurd hnil hnone
  case pos =>
    -- The result waits for its turn, and then all are fed whose turn has come.
    obtain ⟨hnext, hnew⟩ := hfresh hnone
    have hwait := h.waiting hopen
    have hwait' : Waiting shards outcome flight.merger.next
        (insertAt arrival.position (arrival.shard, result) flight.merger.pending) := by
      refine ⟨pairwise_insertAt hwait.ascending hnew, fun x hx => ?_, fun x hx => ?_⟩
      · rcases mem_insertAt.mp hx with rfl | hx
        · exact ⟨hshard, hresult⟩
        · exact hwait.valid x hx
      · rcases mem_insertAt.mp hx with rfl | hx
        · exact hnext
        · exact hwait.later x hx
    rw [Merger.accept_of_shardOrder name hnone h.order] at hmerger hexit hverdict
    obtain ⟨hfed', hwaits, hplaces, hawaited⟩ :=
      Merger.drain_spec name hfed hwait' flight.world
    constructor
    · rw [hmerger]
      exact h.order
    · rw [hmerger, hverdict, hexit, answerOf_verdictOf]
      exact hfed'
    · rw [hmerger]
      exact fun _ => hwaits
    · rw [hmerger, hverdict]
      exact fun hgo => hawaited (verdictOf_eq_none hgo)
    · rw [hmerger]
      intro _ _
      have hinsert := (insertAt_perm arrival.position arrival.shard.physicalId
        flight.merger.completed).map (·.1)
      have hpending := (insertAt_perm arrival.position (arrival.shard, result)
        flight.merger.pending).map (·.1)
      dsimp only
      rw [hplaces]
      refine hinsert.trans (((h.kept hopen hnone).cons arrival.position).trans ?_)
      exact List.perm_middle.symm.trans (hpending.symm.append_left _)

theorem InTurn.step {flight flight' : Flight ω σ T}
    (h : InTurn shards outcome strategy initial flight)
    (haccount : Accounted shards outcome flight)
    (hstep : Step operation strategy dispatched flight flight') :
    InTurn shards outcome strategy initial flight' := by
  cases hstep with
  | start | pass | finish | cancel => exact h.congr rfl rfl rfl
  | @take arrival rest arrived =>
    have hmem : arrival ∈ flight.arrived := arrived.mem_iff.mpr List.mem_cons_self
    have hrest : InTurn shards outcome strategy initial { flight with arrived := rest } :=
      h.congr rfl rfl rfl
    obtain ⟨hshard, houtcome⟩ := haccount.arrived arrival hmem
    by_cases hopen : flight.verdict = none
    case neg =>
      rw [take_of_verdict strategy operation.name dispatched (by exact hopen)]
      exact hrest
    case pos =>
      cases hout : arrival.outcome with
      | error mishap => exact hrest.fail hopen hout operation.name
      | ok result =>
        exact hrest.accept hopen hout hshard (houtcome.symm.trans hout)
          (fun hnone => h.fresh haccount hopen hnone hmem) operation.name

theorem InTurn.reaches
    (determined : ∀ shard world, (operation.run shard world).1 = outcome shard)
    {flight flight' : Flight ω σ T} (h : InTurn shards outcome strategy initial flight)
    (haccount : Accounted shards outcome flight)
    (hreaches : Reaches operation strategy dispatched flight flight') :
    InTurn shards outcome strategy initial flight' := by
  induction hreaches with
  | refl => exact h
  | tail hreaches hstep ih => exact ih.step (haccount.reaches determined hreaches) hstep

end

end Flight

end Parallel

end ScatterGather
