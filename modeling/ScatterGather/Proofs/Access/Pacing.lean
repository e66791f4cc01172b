import ScatterGather.Proofs.Access.Reporting

/-!
# How a concurrent call starts its operations

Whichever branch the runtime lets go on, never more operations are under way than there are permits,
counted at every moment of the trace (`KeepsPace`). What has started ends, in every continuation of
every race, also when the call itself is over (`Inevitably`). A failure that the merger takes, a
request to stop and a refused result are the only things for which a call is cancelled; from then on
only branches start their operation that have looked before. Where one thread runs the branches,
operations are started in dispatch order, and none once the merger has taken such an outcome. None of
this depends on what the operations do or how long they take.
-/

namespace ScatterGather

variable {ω σ T O : Type}

/-! ## Traces that keep the pace -/

/-- Whatever has ended was started, and no more operations are under way than there are permits. -/
def Balanced (permits : Nat) (marks : List Mark) : Prop :=
  (endedAt marks).Subperm (startedAt marks)
    ∧ (startedAt marks).length ≤ (endedAt marks).length + permits

/-- Each shard in the order of dispatch is started at most once, and at every moment the operations
that were started and have not ended have a permit each. -/
structure KeepsPace (permits : Nat) (shards : List Shard) (trace : List Mark) : Prop where
  once : (startedAt trace).Nodup
  fits : ∀ mark ∈ trace, mark.Fits shards
  balanced : ∀ marks, marks <+: trace → Balanced permits marks

/-- A moment more. -/
theorem balanced_concat {permits : Nat} {marks : List Mark} {last : Mark}
    (h : ∀ earlier, earlier <+: marks → Balanced permits earlier)
    (hlast : Balanced permits (marks ++ [last])) :
    ∀ earlier, earlier <+: marks ++ [last] → Balanced permits earlier := by
  intro earlier hearlier
  rcases List.prefix_concat_iff.mp hearlier with rfl | hbefore
  · exact hlast
  · exact h earlier hbefore

namespace Parallel

/-- What runs makes the difference between what was started and what has ended. -/
theorem Flight.Traced.balanced {shards : List Shard} {permits : Nat} {flight : Flight ω σ T}
    (h : Traced shards flight) (room : flight.running.length ≤ permits) :
    Balanced permits flight.trace := by
  refine ⟨(List.sublist_append_left _ _).subperm.trans h.ended.subperm, ?_⟩
  have hlength := h.ended.length_eq
  simp only [List.length_append, List.length_map] at hlength
  omega

namespace Race

variable {operation : Operation ω T} {strategy : ExitStrategy σ T O} {permits dispatched : Nat}
variable {shards : List Shard} {race race' : Race ω σ T}

/-- A race that has kept the pace so far. -/
structure Paced (permits : Nat) (shards : List Shard) (race : Race ω σ T) : Prop
    extends Kept permits race where
  traced : race.flight.Traced shards
  balanced : ∀ marks, marks <+: race.flight.trace → Balanced permits marks

theorem Paced.start_of (permits : Nat) (order : MergeOrder) (shards : List Shard) (exit : σ)
    (world : ω) :
    Paced permits shards (Flight.start order shards exit world : Flight ω σ T).race where
  toKept := .start_of permits order shards exit world
  traced := .start_of order shards exit world
  balanced := by
    intro marks hmarks
    obtain rfl := List.prefix_nil.mp hmarks
    exact ⟨List.nil_subperm, Nat.zero_le _⟩

theorem Paced.keepsPace (h : Paced permits shards race) :
    KeepsPace permits shards race.flight.trace :=
  ⟨h.traced.nodup, h.traced.fits, h.balanced⟩

theorem Kept.running_le (h : Kept permits race) : race.flight.running.length ≤ permits := by
  have hheld := h.held
  unfold Race.held at hheld
  omega

variable [Journaled ω]

theorem Paced.step (h : Paced permits shards race)
    (hstep : Step operation strategy permits dispatched race race') :
    Paced permits shards race' := by
  have hkept := h.toKept.step hstep
  have htraced := h.traced.reaches (hstep.flight h.toKept)
  have hlast := htraced.balanced hkept.running_le
  refine ⟨hkept, htraced, ?_⟩
  cases hstep with
  | acquire | leave | withdraw | clear | release => exact h.balanced
  | start | finish | cancel => exact balanced_concat h.balanced hlast
  | take => simpa using h.balanced
  | @pass position shard rest queue cleared queued =>
    -- Between its start and its end the operation takes a permit, like one that takes time.
    have hstart : Step operation strategy permits dispatched race _ := .start cleared queued 0
    have hbetween := (h.traced.reaches (hstart.flight h.toKept)).balanced
      (h.toKept.step hstart).running_le
    exact balanced_concat (balanced_concat h.balanced hbetween) hlast

theorem Paced.reaches (h : Paced permits shards race)
    (hreaches : Reaches operation strategy permits dispatched race race') :
    Paced permits shards race' := by
  induction hreaches with
  | refl => exact h
  | tail _ hstep ih => exact ih.step hstep

/-! ## What has started ends -/

/-- Every race comes to a point of this kind, however it goes on. -/
inductive Inevitably (operation : Operation ω T) (strategy : ExitStrategy σ T O)
    (permits dispatched : Nat) (P : Race ω σ T → Prop) : Race ω σ T → Prop
  | now {race : Race ω σ T} (here : P race) :
      Inevitably operation strategy permits dispatched P race
  | later {race : Race ω σ T}
      (goes : ∃ next, Step operation strategy permits dispatched race next)
      (all : ∀ next, Step operation strategy permits dispatched race next →
        Inevitably operation strategy permits dispatched P next) :
      Inevitably operation strategy permits dispatched P race

/-- How many steps are left at most: a branch takes a permit, looks, starts, ends and gives the
permit back, and the merger takes its outcome and may cancel the call for it. -/
def remaining (race : Race ω σ T) : Nat :=
  7 * race.waiting.length + 6 * race.admitted.length + 5 * race.cleared.length
    + 4 * race.flight.running.length + race.spent + 2 * race.flight.arrived.length
    + if race.due then 1 else 0

theorem remaining_step (hstep : Step operation strategy permits dispatched race race') :
    race'.remaining < race.remaining := by
  unfold remaining
  cases hstep with
  | @acquire x rest waiting room =>
    have hlength := waiting.length_eq
    simp only [List.length_append, List.length_cons, List.length_nil] at hlength ⊢
    omega
  | @leave x rest waiting cancelled =>
    have hlength := waiting.length_eq
    simp only [List.length_cons] at hlength ⊢
    omega
  | @withdraw x rest admitted cancelled =>
    have hlength := admitted.length_eq
    simp only [List.length_cons] at hlength ⊢
    omega
  | @clear x rest admitted going =>
    have hlength := admitted.length_eq
    simp only [List.length_append, List.length_cons, List.length_nil] at hlength ⊢
    omega
  | @start position shard rest queue cleared queued endsAt =>
    have hlength := cleared.length_eq
    simp only [List.length_append, List.length_cons, List.length_nil] at hlength ⊢
    omega
  | @pass position shard rest queue cleared queued =>
    have hlength := cleared.length_eq
    simp only [Flight.finish, List.length_append, List.length_cons, List.length_nil] at hlength ⊢
    omega
  | @finish next mem now =>
    have hlt : (race.flight.running.filter fun running =>
        running.position != next.position).length < race.flight.running.length :=
      List.length_filter_lt_length_iff_exists.mpr ⟨next, mem, by simp⟩
    simp only [Flight.finish, List.length_append, List.length_cons, List.length_nil]
    omega
  | @release spent held => simp [held]
  | @take arrival rest calm arrived due why =>
    have hlength := arrived.length_eq
    simp only [Flight.take_running, Flight.take_arrived, calm, List.length_cons] at hlength ⊢
    split <;> omega
  | @cancel due => simp [due, Flight.cancel]

/-- Unless nothing is left to do, something can be done. -/
theorem Kept.exists_step (h : Kept permits race) (hpermits : 0 < permits) (hrest : ¬ race.AtRest) :
    ∃ next, Step operation strategy permits dispatched race next := by
  by_contra hnone
  have hstuck {next : Race ω σ T} (hstep : Step operation strategy permits dispatched race next) :
      False := hnone ⟨next, hstep⟩
  have hdue : race.due = false := Bool.eq_false_iff.mpr fun hdue => hstuck (.cancel hdue)
  have harrived : race.flight.arrived = [] := by
    refine List.eq_nil_iff_forall_not_mem.mpr fun arrival hmem => ?_
    classical
    obtain ⟨before, after, hsplit⟩ := List.append_of_mem hmem
    have hperm : race.flight.arrived.Perm (arrival :: (before ++ after)) := by
      rw [hsplit]
      exact List.perm_middle
    exact hstuck (.take hdue hperm (decide (race.flight.Interrupts strategy operation.name arrival))
      decide_eq_true_iff)
  have hrunning : race.flight.running = [] :=
    List.eq_nil_iff_forall_not_mem.mpr fun next hmem => hstuck (.finish hmem race.flight.now)
  have hspent : race.spent = 0 := by
    by_contra hspent
    obtain ⟨spent, hheld⟩ := Nat.exists_eq_succ_of_ne_zero hspent
    exact hstuck (.release hheld)
  have hcleared : race.cleared = [] := by
    cases hcleared : race.cleared with
    | nil => rfl
    | cons x rest =>
      have hmem : x ∈ race.flight.queue := h.queued.subset (by simp [entering, hcleared])
      exact (hstuck (.start (.of_eq hcleared) (List.perm_cons_erase hmem) 0)).elim
  have hadmitted : race.admitted = [] := by
    cases hadmitted : race.admitted with
    | nil => rfl
    | cons x rest =>
      cases hcancelled : race.flight.cancelled with
      | true => exact (hstuck (.withdraw (.of_eq hadmitted) hcancelled)).elim
      | false => exact (hstuck (.clear (.of_eq hadmitted) hcancelled)).elim
  have hwaiting : race.waiting = [] := by
    cases hwaiting : race.waiting with
    | nil => rfl
    | cons x rest =>
      have hroom : race.held < permits := by
        simpa [Race.held, hadmitted, hcleared, hrunning, hspent] using hpermits
      exact (hstuck (.acquire (.of_eq hwaiting) hroom)).elim
  exact hrest ⟨hwaiting, hadmitted, hcleared, hrunning, hspent, harrived, hdue⟩

/-- Every race comes to the point where nothing is left to do, and all that was started has ended by
then. -/
theorem Paced.inevitably (hpermits : 0 < permits) (h : Paced permits shards race) :
    Inevitably operation strategy permits dispatched (fun last => last.AtRest
      ∧ (endedAt last.flight.trace).Perm (startedAt last.flight.trace)) race := by
  -- On what remains to be done, which every step makes less.
  induction hremaining : race.remaining using Nat.strongRecOn generalizing race with
  | ind remaining ih =>
    subst hremaining
    by_cases hrest : race.AtRest
    · refine .now ⟨hrest, ?_⟩
      simpa [hrest.running] using h.traced.ended
    · exact .later (h.exists_step hpermits hrest) fun next hstep =>
        ih _ (remaining_step hstep) (h.step hstep) rfl

/-! ## What a call is cancelled for -/

/-- On the way from one point of a race to another the merger took an outcome that interrupts the
call. -/
def Interrupted (operation : Operation ω T) (strategy : ExitStrategy σ T O)
    (permits dispatched : Nat) (race race' : Race ω σ T) : Prop :=
  ∃ (before : Race ω σ T) (arrival : Arrival T) (rest : List (Arrival T)),
    Reaches operation strategy permits dispatched race before
      ∧ before.due = false ∧ before.flight.arrived.Perm (arrival :: rest)
      ∧ before.flight.Interrupts strategy operation.name arrival
      ∧ Reaches operation strategy permits dispatched
        { before with
          due := true
          flight := .take strategy operation.name dispatched { before.flight with arrived := rest }
            arrival } race'

theorem Interrupted.tail (h : Interrupted operation strategy permits dispatched race race')
    {race'' : Race ω σ T} (hreaches : Reaches operation strategy permits dispatched race' race'') :
    Interrupted operation strategy permits dispatched race race'' := by
  obtain ⟨before, arrival, rest, hbefore, hcalm, harrived, hwhy, hafter⟩ := h
  exact ⟨before, arrival, rest, hbefore, hcalm, harrived, hwhy, hafter.trans hreaches⟩

/-- The call is cancelled, or it will be. -/
def Stopped (race : Race ω σ T) : Prop :=
  race.due = true ∨ race.flight.cancelled = true

theorem Stopped.step (h : race.Stopped)
    (hstep : Step operation strategy permits dispatched race race') : race'.Stopped := by
  cases hstep with
  | cancel due => exact .inr rfl
  | take calm arrived due why =>
    rcases h with hdue | hcancelled
    · rw [calm] at hdue
      cases hdue
    · exact .inr (by simpa using hcancelled)
  | acquire | leave | withdraw | clear | start | pass | finish | release => exact h

theorem Stopped.reaches (h : race.Stopped)
    (hreaches : Reaches operation strategy permits dispatched race race') : race'.Stopped := by
  induction hreaches with
  | refl => exact h
  | tail _ hstep ih => exact ih.step hstep

/-- A call is cancelled for what interrupts it, and for nothing else. -/
theorem stopped_iff (hgoing : ¬ race.Stopped)
    (hreaches : Reaches operation strategy permits dispatched race race') :
    race'.Stopped ↔ Interrupted operation strategy permits dispatched race race' := by
  refine ⟨fun hstopped => ?_, fun ⟨_, _, _, _, _, _, _, hafter⟩ => Stopped.reaches (.inl rfl) hafter⟩
  induction hreaches with
  | refl => exact absurd hstopped hgoing
  | @tail before after hbefore hstep ih =>
    by_cases hearlier : before.Stopped
    case pos => exact (ih hearlier).tail (.single hstep)
    case neg =>
      cases hstep with
      | cancel due => exact absurd (.inl due) hearlier
      | @take arrival rest calm arrived due why =>
        rcases hstopped with hdue | hcancelled
        · obtain rfl : due = true := hdue
          exact ⟨before, arrival, rest, hbefore, calm, arrived, why.mp rfl, .refl⟩
        · exact absurd (.inr hcancelled) hearlier
      | acquire | leave | withdraw | clear | start | pass | finish | release =>
        exact absurd hstopped hearlier

/-- Once the call is cancelled, only branches start their operation that have looked before. -/
theorem cancelled_step (h : race.flight.cancelled = true)
    (hstep : Step operation strategy permits dispatched race race') :
    race'.flight.cancelled = true ∧ ∃ late,
      startedAt race'.flight.trace = startedAt race.flight.trace ++ late
        ∧ (late ++ race'.cleared.map (·.1)).Perm (race.cleared.map (·.1)) := by
  cases hstep with
  | clear admitted going =>
    rw [h] at going
    cases going
  | @start position shard rest queue cleared queued endsAt =>
    exact ⟨h, [position], by simp, by simpa using (cleared.map (·.1)).symm⟩
  | @pass position shard rest queue cleared queued =>
    exact ⟨h, [position], by simp [Flight.finish], by simpa using (cleared.map (·.1)).symm⟩
  | finish mem now => exact ⟨h, [], by simp [Flight.finish], .refl _⟩
  | take => exact ⟨by simpa using h, [], by simp, .refl _⟩
  | cancel due => exact ⟨rfl, [], by simp [Flight.cancel], .refl _⟩
  | acquire | leave | withdraw | release => exact ⟨h, [], by simp, .refl _⟩

theorem cancelled_reaches (h : race.flight.cancelled = true)
    (hreaches : Reaches operation strategy permits dispatched race race') :
    race'.flight.cancelled = true ∧ ∃ late,
      startedAt race'.flight.trace = startedAt race.flight.trace ++ late
        ∧ (late ++ race'.cleared.map (·.1)).Perm (race.cleared.map (·.1)) := by
  induction hreaches with
  | refl => exact ⟨h, [], by simp, .refl _⟩
  | tail _ hstep ih =>
    obtain ⟨hbefore, late, hstarted, hperm⟩ := ih
    obtain ⟨hcancelled, later, hstarted', hperm'⟩ := cancelled_step hbefore hstep
    refine ⟨hcancelled, late ++ later, ?_, ?_⟩
    · rw [hstarted', hstarted, List.append_assoc]
    · rw [List.append_assoc]
      exact (hperm'.append_left late).trans hperm

omit [Journaled ω] in
/-- A call that is not interrupted starts all its shards. -/
theorem Paced.started_all (h : Paced permits shards race) (hrest : race.AtRest)
    (hgoing : ¬ race.Stopped) :
    (startedAt race.flight.trace).Perm (List.range shards.length) := by
  have hqueue : race.flight.queue = [] :=
    (h.toKept.flight_atRest hrest).queue.resolve_right fun hcancelled => hgoing (.inr hcancelled)
  simpa [hqueue] using h.traced.started

/-! ## One thread -/

/-- A race in which branches have gone on in the order of dispatch. At most one of them has got its
permit and has not started yet, and while there is one, the call is not stopped. -/
structure Orderly (shards : List Shard) (race : Race ω σ T) : Prop where
  order : startedAt race.flight.trace <+: List.range shards.length
  next : race.flight.cancelled = false → startedAt race.flight.trace
    ++ (race.cleared ++ race.admitted ++ race.waiting).map (·.1) = List.range shards.length
  going : race.cleared ≠ [] → race.admitted = [] ∧ ¬ race.Stopped

omit [Journaled ω] in
theorem Orderly.start_of (order : MergeOrder) (shards : List Shard) (exit : σ) (world : ω) :
    Orderly shards (Flight.start order shards exit world : Flight ω σ T).race where
  order := List.nil_prefix
  next := by
    intro _
    apply List.ext_getElem <;> simp [Flight.race, Flight.start, startedAt]
  going := fun h => absurd rfl h

omit [Journaled ω] in
/-- The branch that starts next is the first in the order of dispatch that has not started. -/
theorem Orderly.of_cleared (h : Orderly shards race) {x : Nat × Shard}
    (cleared : race.cleared.Perm [x]) :
    startedAt race.flight.trace ++ x.1 :: race.waiting.map (·.1) = List.range shards.length
      ∧ race.admitted = [] ∧ ¬ race.Stopped := by
  have hcleared : race.cleared = [x] := List.perm_singleton.mp cleared
  obtain ⟨hadmitted, hgoing⟩ := h.going (by simp [hcleared])
  have hnext := h.next (Bool.eq_false_iff.mpr fun hcancelled => hgoing (.inr hcancelled))
  exact ⟨by simpa [hcleared, hadmitted] using hnext, hadmitted, hgoing⟩

theorem Orderly.step (h : Orderly shards race)
    (hstep : Step operation strategy permits dispatched race race')
    (hcooperates : race.Cooperative race') : Orderly shards race' := by
  -- Nothing else happens while a branch is between its permit and its operation.
  have hadmitted (hsame : race'.admitted = race.admitted) : race.admitted = [] :=
    by_contra fun hne => hne (hsame ▸ hcooperates.admitted hne)
  have hcleared (hsame : race'.cleared = race.cleared) : race.cleared = [] :=
    by_contra fun hne => hne (hsame ▸ hcooperates.cleared hne)
  cases hstep with
  | @acquire x rest waiting room =>
    have hnone : race.admitted = [] :=
      by_contra fun hne => absurd (hcooperates.admitted hne) (by simp)
    have hfirst : race.waiting = x :: rest := hcooperates.fair x rfl
    refine ⟨h.order, fun hgoing => ?_, fun hne => absurd (hcleared rfl) hne⟩
    simpa [hnone, hfirst, hcleared rfl] using h.next hgoing
  | leave waiting cancelled | withdraw admitted cancelled =>
    refine ⟨h.order, fun hgoing => ?_, fun hne => absurd (hcleared rfl) hne⟩
    rw [show race.flight.cancelled = false from hgoing] at cancelled
    cases cancelled
  | @clear x rest admitted going =>
    have hnone : race.cleared = [] :=
      by_contra fun hne => absurd (hcooperates.cleared hne) (by simp)
    obtain rfl : rest = [] := hcooperates.admitted fun hempty => by simp [hempty] at admitted
    have honly : race.admitted = [x] := List.perm_singleton.mp admitted
    refine ⟨h.order, fun _ => by simpa [hnone, honly] using h.next going, fun _ => ⟨rfl, ?_⟩⟩
    rintro (hdue | hcancelled)
    · exact absurd (hcooperates.due hdue) (by simpa using hdue)
    · rw [show race.flight.cancelled = true from hcancelled] at going
      cases going
  | @start position shard rest queue cleared queued endsAt =>
    obtain rfl : rest = [] := hcooperates.cleared fun hempty => by simp [hempty] at cleared
    obtain ⟨hnext, hnone, -⟩ := h.of_cleared cleared
    exact ⟨⟨_, by simpa using hnext⟩, fun _ => by simpa [hnone] using hnext,
      fun hne => absurd rfl hne⟩
  | @pass position shard rest queue cleared queued =>
    obtain rfl : rest = [] := hcooperates.cleared fun hempty => by simp [hempty] at cleared
    obtain ⟨hnext, hnone, -⟩ := h.of_cleared cleared
    exact ⟨⟨_, by simpa [Flight.finish] using hnext⟩,
      fun _ => by simpa [hnone, Flight.finish] using hnext, fun hne => absurd rfl hne⟩
  | finish mem now =>
    exact ⟨by simpa [Flight.finish] using h.order, by simpa [Flight.finish] using h.next,
      fun hne => absurd (hcleared rfl) hne⟩
  | release held => exact ⟨h.order, h.next, fun hne => absurd (hcleared rfl) hne⟩
  | take calm arrived due why =>
    exact ⟨by simpa using h.order, by simpa using h.next, fun hne => absurd (hcleared rfl) hne⟩
  | cancel due =>
    exact ⟨by simpa [Flight.cancel] using h.order, by simp [Flight.cancel],
      fun hne => absurd (hcleared rfl) hne⟩

theorem Orderly.takes (h : Orderly shards race)
    (htakes : Takes operation strategy permits dispatched race race') : Orderly shards race' := by
  induction htakes with
  | refl => exact h
  | tail _ hstep ih => exact ih.step hstep.1 hstep.2

/-- Once the call is stopped, one thread starts nothing. -/
theorem Orderly.stopped_step (h : Orderly shards race) (hstopped : race.Stopped)
    (hstep : Step operation strategy permits dispatched race race')
    (hcooperates : race.Cooperative race') :
    startedAt race'.flight.trace = startedAt race.flight.trace := by
  cases hstep with
  | @start position shard rest queue cleared queued endsAt =>
    obtain rfl : rest = [] := hcooperates.cleared fun hempty => by simp [hempty] at cleared
    exact absurd hstopped (h.of_cleared cleared).2.2
  | @pass position shard rest queue cleared queued =>
    obtain rfl : rest = [] := hcooperates.cleared fun hempty => by simp [hempty] at cleared
    exact absurd hstopped (h.of_cleared cleared).2.2
  | acquire | leave | withdraw | clear | release => rfl
  | finish => simp [Flight.finish]
  | take => simp
  | cancel => simp [Flight.cancel]

theorem Orderly.stopped_takes (h : Orderly shards race) (hstopped : race.Stopped)
    (htakes : Takes operation strategy permits dispatched race race') :
    startedAt race'.flight.trace = startedAt race.flight.trace := by
  induction htakes with
  | refl => rfl
  | tail htakes hstep ih =>
    rw [(h.takes htakes).stopped_step (hstopped.reaches (Takes.reaches htakes)) hstep.1 hstep.2, ih]

/-! ## From the beginning of a call -/

/-- What a race keeps to from the beginning of a call, whichever branch goes on. Its flight takes one
of the schedules of the call. It keeps the pace, and all that is started ends. The call is cancelled
for what interrupts it, and then only those branches start their operation that have looked before
and have a permit; a call that is not interrupted starts all its shards. -/
structure Disciplined (operation : Operation ω T) (strategy : ExitStrategy σ T O)
    (permits : Nat) (shards : List Shard) (start race : Race ω σ T) : Prop where
  schedule : Flight.Reaches operation strategy shards.length start.flight race.flight
  rests : race.AtRest → race.flight.AtRest
  paced : KeepsPace permits shards race.flight.trace
  ends : Inevitably operation strategy permits shards.length (fun last => last.AtRest
    ∧ (endedAt last.flight.trace).Perm (startedAt last.flight.trace)) race
  stopped : race.Stopped ↔ Interrupted operation strategy permits shards.length start race
  cancelled : race.AtRest → race.Stopped → race.flight.cancelled = true
  late : race.flight.cancelled = true →
    race.cleared.length + race.flight.running.length ≤ permits
      ∧ ∀ later, Reaches operation strategy permits shards.length race later →
        ∃ late, startedAt later.flight.trace = startedAt race.flight.trace ++ late
          ∧ late.Subperm (race.cleared.map (·.1))
  complete : race.AtRest → ¬ Interrupted operation strategy permits shards.length start race →
    (startedAt race.flight.trace).Perm (List.range shards.length)

theorem disciplined (hpermits : 0 < permits) (order : MergeOrder) (exit : σ) (world : ω)
    (hreaches : Reaches operation strategy permits shards.length
      (Flight.start order shards exit world).race race) :
    Disciplined operation strategy permits shards (Flight.start order shards exit world).race
      race := by
  have hgoing : ¬ (Flight.start order shards exit world : Flight ω σ T).race.Stopped := by
    simp [Stopped, Flight.race, Flight.start]
  have hpaced := (Paced.start_of permits order shards exit world).reaches hreaches
  have hstopped := stopped_iff hgoing hreaches
  refine ⟨Reaches.flight hreaches (.start_of permits order shards exit world),
    hpaced.toKept.flight_atRest, hpaced.keepsPace, hpaced.inevitably hpermits, hstopped, ?_, ?_, ?_⟩
  · intro hrest hstopped
    exact hstopped.resolve_left fun hdue => by simp [hrest.due] at hdue
  · intro hcancelled
    refine ⟨?_, fun later hlater => ?_⟩
    · have hheld := hpaced.held
      unfold Race.held at hheld
      omega
    · obtain ⟨-, late, hstarted, hperm⟩ := cancelled_reaches hcancelled hlater
      exact ⟨late, hstarted, (List.sublist_append_left _ _).subperm.trans hperm.subperm⟩
  · intro hrest hnot
    exact hpaced.started_all hrest (mt hstopped.mp hnot)

end Race

end Parallel

namespace AccessStrategy

open Parallel (Race)

variable [Journaled ω]

/-- A concurrent call is refused with nothing started, or one thread takes it to its end. -/
theorem apply_takes (operation : Operation ω T) (strategy : ExitStrategy σ T O)
    (collector : Option (Collector O)) (access : ParallelAccess) (shards : List Shard) (exit : σ)
    (world : ω) :
    let call := ((parallel access).apply shards operation strategy collector exit world).1
    (∃ e, call = ⟨.error e, exit, world, []⟩ ∧ ((parallel access).refusal? shards = some e
        ∨ ∃ why, (access.ordering.order shards).1 = .error why ∧ e = .shard why)) ∨
      (parallel access).refusal? shards = none ∧ ∃ ordered race,
        (access.ordering.order shards).1 = .ok ordered
          ∧ Race.Takes operation strategy access.permits ordered.length
            (Parallel.Flight.start access.mergeOrder ordered exit world).race race
          ∧ race.AtRest ∧ call = race.flight.conclude operation strategy collector := by
  unfold apply
  cases hrefusal : (parallel access).refusal? shards with
  | some e => exact .inl ⟨e, rfl, .inl rfl⟩
  | none =>
    dsimp only
    cases hordered : ((parallel access).ordering.order shards).1 with
    | error why => exact .inl ⟨_, rfl, .inr ⟨why, hordered, rfl⟩⟩
    | ok ordered =>
      let start : Parallel.Flight ω σ T := .start access.mergeOrder ordered exit world
      obtain ⟨race, htakes, hrest, hflight⟩ : ∃ race : Race ω σ T,
          Race.Takes operation strategy access.permits ordered.length
            (start.settle operation strategy access.permits ordered.length ordered.length).race race
          ∧ race.AtRest ∧ race.flight
            = start.settle operation strategy access.permits ordered.length ordered.length :=
        Race.rest_takes (Parallel.Flight.settle_rests access.permits_pos ordered.length start (by
          simp [start, Parallel.Flight.start]))
      refine .inr ⟨rfl, ordered, race, hordered, (Race.settle_takes _ _).trans htakes, hrest, ?_⟩
      rw [hflight]
      rfl

/-- How a concurrent call starts its operations. It is refused with nothing started, or one thread
takes it to its end. Whatever the runtime, and whoever goes on next, every race of the branches and
the merger is disciplined. Where one thread runs them, what has started at any moment is a first part
of the shards in dispatch order, and once the merger has taken the outcome of a failed operation, or
one with which the exit strategy asks to stop or which it refuses, nothing is started. -/
theorem parallel_start_discipline (operation : Operation ω T) (strategy : ExitStrategy σ T O)
    (collector : Option (Collector O)) (access : ParallelAccess) (shards : List Shard) (exit : σ)
    (world : ω) :
    let call := ((parallel access).apply shards operation strategy collector exit world).1
    ((∃ e, call = ⟨.error e, exit, world, []⟩ ∧ ((parallel access).refusal? shards = some e
        ∨ ∃ why, (access.ordering.order shards).1 = .error why ∧ e = .shard why)) ∨
      (parallel access).refusal? shards = none ∧ ∃ ordered race,
        (access.ordering.order shards).1 = .ok ordered
          ∧ Race.Takes operation strategy access.permits ordered.length
            (Parallel.Flight.start access.mergeOrder ordered exit world).race race
          ∧ race.AtRest ∧ call = race.flight.conclude operation strategy collector)
    ∧ ∀ ordered, (access.ordering.order shards).1 = .ok ordered →
      let start : Race ω σ T := (Parallel.Flight.start access.mergeOrder ordered exit world).race
      (∀ race, Race.Reaches operation strategy access.permits ordered.length start race →
        Race.Disciplined operation strategy access.permits ordered start race)
      ∧ ∀ race, Race.Takes operation strategy access.permits ordered.length start race →
        startedAt race.flight.trace <+: List.range ordered.length
        ∧ (Race.Interrupted operation strategy access.permits ordered.length start race →
          ∀ later, Race.Takes operation strategy access.permits ordered.length race later →
            startedAt later.flight.trace = startedAt race.flight.trace) := by
  intro call
  refine ⟨apply_takes operation strategy collector access shards exit world, ?_⟩
  intro ordered _ start
  have hdisciplined (race : Race ω σ T)
      (hreaches : Race.Reaches operation strategy access.permits ordered.length start race) :=
    Race.disciplined access.permits_pos access.mergeOrder exit world hreaches
  refine ⟨hdisciplined, fun race htakes => ?_⟩
  have horderly := (Race.Orderly.start_of access.mergeOrder ordered exit world).takes htakes
  refine ⟨horderly.order, fun hinterrupted later hlater => ?_⟩
  exact horderly.stopped_takes
    ((hdisciplined race (Race.Takes.reaches htakes)).stopped.mpr hinterrupted) hlater

/-- Four operations, two at a time: the second one fails, and before the merger takes that, the third
one has got its permit. The fourth is never started, and the others end. -/
theorem parallel_start_discipline_failure :
    let shard := fun handle => Shard.mk handle (.ofNat handle) ∅ 0
    let operation : Operation Cluster (List Nat) :=
      ⟨"rows", fun shard => 9 - 4 * shard.handle, fun shard world =>
        (if shard.handle = 1 then .error (.failed "gone") else .ok (some [shard.handle]), world)⟩
    let ordered := [shard 0, shard 1, shard 2, shard 3]
    let call := ((parallel ⟨.input, 2, .shardOrder⟩).apply ordered operation Concatenate.strategy
      none [] (.ofBackends 0)).1
    call.trace = [.started 0 (.ofNat 0), .started 1 (.ofNat 1), .ended 1 (.ofNat 1),
        .started 2 (.ofNat 2), .cancelled, .ended 2 (.ofNat 2), .ended 0 (.ofNat 0)]
      ∧ (ShardOrdering.input.order ordered).1 = .ok ordered
      ∧ KeepsPace 2 ordered call.trace ∧ startedAt call.trace <+: List.range 4 := by
  intro shard operation ordered call
  have htrace : call.trace = [.started 0 (.ofNat 0), .started 1 (.ofNat 1), .ended 1 (.ofNat 1),
      .started 2 (.ofNat 2), .cancelled, .ended 2 (.ofNat 2), .ended 0 (.ofNat 0)] := by
    decide +kernel
  obtain ⟨hcall, hraces⟩ := parallel_start_discipline operation Concatenate.strategy none
    ⟨.input, 2, .shardOrder⟩ ordered [] (.ofBackends 0)
  refine ⟨htrace, rfl, ?_⟩
  rcases hcall with ⟨e, hrefused, -⟩ | ⟨-, ordered', race, horder, htakes, -, hconclude⟩
  · cases htrace.symm.trans (congrArg Outcome.trace hrefused)
  · obtain rfl : ordered = ordered' := Except.ok.inj horder
    obtain ⟨hall, hone⟩ := hraces ordered rfl
    have hsame : call.trace = race.flight.trace :=
      (congrArg Outcome.trace hconclude).trans (race.flight.conclude_trace operation _ none)
    rw [hsame]
    exact ⟨(hall race (Race.Takes.reaches htakes)).paced, (hone race htakes).1⟩

/-- Two operations, one at a time, the first of which fails. A call whose order of dispatch is no
rearrangement starts neither. On several threads the branch of the second shard may be the first to
ask for the permit; and where it is not, it may still get the permit, look and start between the
moment when the merger takes the failure and the one when it cancels the call. -/
theorem parallel_starts_on_threads :
    let shard := fun handle => Shard.mk handle (.ofNat handle) ∅ 0
    let operation : Operation Cluster (List Nat) := ⟨"rows", fun _ => 0, fun shard world =>
      (if shard.handle = 0 then .error (.failed "gone") else .ok (some [shard.handle]), world)⟩
    let shards := [shard 0, shard 1]
    let start : Race Cluster (List Nat) (List Nat) :=
      (Parallel.Flight.start .shardOrder shards [] (.ofBackends 0)).race
    ((parallel ⟨.custom fun _ => [shard 0], 1, .shardOrder⟩).apply shards operation
        Concatenate.strategy none [] (.ofBackends 0)).1.trace = []
      ∧ (∃ race, Race.Reaches operation Concatenate.strategy 1 2 start race
        ∧ startedAt race.flight.trace = [1] ∧ ¬ [1] <+: List.range shards.length)
      ∧ ∃ race later, Race.Reaches operation Concatenate.strategy 1 2 start race
        ∧ Race.Interrupted operation Concatenate.strategy 1 2 start race
        ∧ Race.Reaches operation Concatenate.strategy 1 2 race later
        ∧ startedAt race.flight.trace = [0] ∧ startedAt later.flight.trace = [0, 1] := by
  intro shard operation shards start
  refine ⟨by decide +kernel, ?_, ?_⟩
  · have hacquire : Race.Step operation Concatenate.strategy 1 2 start
        ⟨start.flight, [(0, shard 0)], [(1, shard 1)], [], 0, false⟩ :=
      .acquire (.swap ..) (Nat.zero_lt_one)
    have hclear : Race.Step operation Concatenate.strategy 1 2
        ⟨start.flight, [(0, shard 0)], [(1, shard 1)], [], 0, false⟩
        ⟨start.flight, [(0, shard 0)], [], [(1, shard 1)], 0, false⟩ :=
      .clear (.refl _) rfl
    have hstart : Race.Step operation Concatenate.strategy 1 2
        ⟨start.flight, [(0, shard 0)], [], [(1, shard 1)], 0, false⟩ _ :=
      .start (.refl _) (.swap ..) 0
    exact ⟨_, ((Relation.ReflTransGen.single hacquire).tail hclear).tail hstart, rfl, by decide⟩
  · let failed : Parallel.Flight Cluster (List Nat) (List Nat) :=
      { start.flight with
        queue := [(1, shard 1)]
        arrived := [⟨0, shard 0, .error (.failed "gone")⟩]
        trace := [.started 0 (.ofNat 0), .ended 0 (.ofNat 0)] }
    have hfails : Race.Reaches operation Concatenate.strategy 1 2 start
        ⟨failed, [(1, shard 1)], [], [], 0, false⟩ := by
      have hacquire : Race.Step operation Concatenate.strategy 1 2 start
          ⟨start.flight, [(1, shard 1)], [(0, shard 0)], [], 0, false⟩ :=
        .acquire (.refl _) Nat.zero_lt_one
      have hclear : Race.Step operation Concatenate.strategy 1 2
          ⟨start.flight, [(1, shard 1)], [(0, shard 0)], [], 0, false⟩
          ⟨start.flight, [(1, shard 1)], [], [(0, shard 0)], 0, false⟩ :=
        .clear (.refl _) rfl
      have hpass : Race.Step operation Concatenate.strategy 1 2
          ⟨start.flight, [(1, shard 1)], [], [(0, shard 0)], 0, false⟩
          ⟨failed, [(1, shard 1)], [], [], 1, false⟩ :=
        .pass (.refl _) (.refl _)
      exact ((Relation.ReflTransGen.single hacquire).tail hclear).tail hpass |>.tail (.release rfl)
    have hinterrupts : failed.Interrupts Concatenate.strategy operation.name
        ⟨0, shard 0, .error (.failed "gone")⟩ := ⟨rfl, .inl ⟨_, rfl⟩⟩
    let taken := Parallel.Flight.take Concatenate.strategy operation.name 2
      { failed with arrived := [] } ⟨0, shard 0, .error (.failed "gone")⟩
    have htake : Race.Step operation Concatenate.strategy 1 2
        ⟨failed, [(1, shard 1)], [], [], 0, false⟩ ⟨taken, [(1, shard 1)], [], [], 0, true⟩ :=
      .take rfl (.refl _) true (iff_of_true rfl hinterrupts)
    have hacquire : Race.Step operation Concatenate.strategy 1 2
        ⟨taken, [(1, shard 1)], [], [], 0, true⟩ ⟨taken, [], [(1, shard 1)], [], 0, true⟩ :=
      .acquire (.refl _) Nat.zero_lt_one
    have hclear : Race.Step operation Concatenate.strategy 1 2
        ⟨taken, [], [(1, shard 1)], [], 0, true⟩ ⟨taken, [], [], [(1, shard 1)], 0, true⟩ :=
      .clear (.refl _) rfl
    have hstart : Race.Step operation Concatenate.strategy 1 2
        ⟨taken, [], [], [(1, shard 1)], 0, true⟩ _ :=
      .start (.refl _) (.refl _) 0
    exact ⟨_, _, hfails.tail htake, ⟨_, _, _, hfails, rfl, .refl _, hinterrupts, .refl⟩,
      ((Relation.ReflTransGen.single hacquire).tail hclear).tail hstart, rfl, rfl⟩

end AccessStrategy

end ScatterGather
