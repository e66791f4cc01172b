import Mathlib.Data.List.Perm.Subperm
import ScatterGather.Proofs.Access.Tracing

/-!
# Branches that race

A concurrent call has a branch for each shard. A branch waits for a permit, looks whether the call
is cancelled, runs its operation, sends the outcome and gives the permit back; meanwhile the merger
takes outcomes, and cancels the call for some of them. Each of these is a step of its own here
(`Race.Step`), and whoever can take a step may be next, as on a runtime with several threads. What a
runtime with one thread does not let happen is stated apart (`Race.Cooperative`).

A race leads its flight along one of the schedules of the call (`Race.Reaches.flight`), so what holds
of all schedules holds of all races. The machine in virtual time runs a cooperative race
(`Race.settle_takes`).
-/

namespace ScatterGather.Parallel

variable {ω σ T O : Type}

/-- A concurrent call whose branches are on their way. The queue of the flight has the branches that
have not started their operation, also those that have left without. -/
structure Race (ω σ T : Type) where
  flight : Flight ω σ T
  /-- Branches without a permit. -/
  waiting : List (Nat × Shard)
  /-- Branches that have got a permit, and have not looked yet whether the call is cancelled. -/
  admitted : List (Nat × Shard)
  /-- Branches that have looked and go on to their operation. -/
  cleared : List (Nat × Shard)
  /-- How many branches are done with their operation, and have not given the permit back. -/
  spent : Nat
  /-- The merger has taken an outcome for which it goes on to cancel the call. -/
  due : Bool

/-- The call at a moment when no branch is between its permit and its operation. -/
def Flight.race (flight : Flight ω σ T) : Race ω σ T :=
  ⟨flight, flight.queue, [], [], 0, false⟩

/-- The exit strategy asks to stop or refuses a result, or the operation failed: the outcomes for
which the merger cancels the call. -/
def Flight.Interrupts [Journaled ω] (strategy : ExitStrategy σ T O) (name : String)
    (flight : Flight ω σ T) (arrival : Arrival T) : Prop :=
  flight.verdict = none ∧ ((∃ mishap, arrival.outcome = .error mishap) ∨
    ∃ result, arrival.outcome = .ok result ∧ (flight.merger.accept strategy name arrival.position
      arrival.shard result flight.exit flight.world).1 ≠ .ok false)

/-- Reading an outcome is taking it, and cancelling the call if it interrupts it. -/
theorem Flight.read_of_interrupts [Journaled ω] {strategy : ExitStrategy σ T O} {name : String}
    {flight : Flight ω σ T} {arrival : Arrival T} (h : flight.Interrupts strategy name arrival)
    (dispatched : Nat) :
    flight.read strategy name dispatched arrival
      = (flight.take strategy name dispatched arrival).cancel := by
  obtain ⟨hopen, hwhy⟩ := h
  unfold take read
  rw [if_neg (by simp [hopen])]
  rcases hwhy with ⟨mishap, hout⟩ | ⟨result, hout, hanswer⟩
  · rw [hout]
    rfl
  · rw [hout]
    dsimp only
    generalize flight.merger.accept strategy name arrival.position arrival.shard result flight.exit
      flight.world = accepted at hanswer
    obtain ⟨answer, merger, exit, world⟩ := accepted
    match answer with
    | .ok false => exact absurd rfl hanswer
    | .ok true => rfl
    | .error e => rfl

theorem Flight.read_of_not_interrupts [Journaled ω] {strategy : ExitStrategy σ T O} {name : String}
    {flight : Flight ω σ T} {arrival : Arrival T} (h : ¬ flight.Interrupts strategy name arrival)
    (dispatched : Nat) :
    flight.read strategy name dispatched arrival
      = flight.take strategy name dispatched arrival := by
  by_cases hopen : flight.verdict = none
  case neg =>
    unfold take read
    rw [if_pos (Option.isSome_iff_ne_none.mpr hopen)]
  case pos =>
    unfold take read
    rw [if_neg (by simp [hopen])]
    cases hout : arrival.outcome with
    | error mishap => exact absurd ⟨hopen, .inl ⟨mishap, hout⟩⟩ h
    | ok result =>
      have hanswer : ¬ (flight.merger.accept strategy name arrival.position arrival.shard result
          flight.exit flight.world).1 ≠ .ok false :=
        fun hanswer => h ⟨hopen, .inr ⟨result, hout, hanswer⟩⟩
      dsimp only
      generalize flight.merger.accept strategy name arrival.position arrival.shard result
        flight.exit flight.world = accepted at hanswer
      obtain ⟨answer, merger, exit, world⟩ := accepted
      obtain rfl : answer = .ok false := not_not.mp hanswer
      rfl

/-- An outcome that interrupts the call leaves a reason to cancel it. -/
theorem Flight.Interrupts.reason [Journaled ω] {strategy : ExitStrategy σ T O} {name : String}
    {flight : Flight ω σ T} {arrival : Arrival T} (h : flight.Interrupts strategy name arrival)
    (dispatched : Nat) (rest : List (Arrival T)) :
    let after := Flight.take strategy name dispatched { flight with arrived := rest } arrival
    after.verdict ≠ none ∨ after.merger.failures ≠ [] := by
  obtain ⟨hopen, ⟨mishap, hout⟩ | ⟨result, hout, hanswer⟩⟩ := h
  · obtain ⟨hmerger, -⟩ := take_of_error strategy name dispatched
      (show ({ flight with arrived := rest } : Flight ω σ T).verdict = none from hopen) hout
    refine .inr ?_
    rw [hmerger]
    exact insertAt_ne_nil _ _ _
  · obtain ⟨-, -, hverdict, -⟩ := take_of_ok strategy name dispatched
      (show ({ flight with arrived := rest } : Flight ω σ T).verdict = none from hopen) hout
    refine .inl ?_
    rw [hverdict]
    exact fun hnone => hanswer (verdictOf_eq_none hnone)

namespace Race

/-- The branches that have not started their operation and have not left. -/
def entering (race : Race ω σ T) : List (Nat × Shard) :=
  race.waiting ++ race.admitted ++ race.cleared

/-- How many permits are taken. -/
def held (race : Race ω σ T) : Nat :=
  race.admitted.length + race.cleared.length + race.flight.running.length + race.spent

/-- No branch and no merger goes on. -/
structure AtRest (race : Race ω σ T) : Prop where
  waiting : race.waiting = []
  admitted : race.admitted = []
  cleared : race.cleared = []
  running : race.flight.running = []
  spent : race.spent = 0
  arrived : race.flight.arrived = []
  due : race.due = false

variable [Journaled ω]

/-- One step of a branch or of the merger. -/
inductive Step (operation : Operation ω T) (strategy : ExitStrategy σ T O)
    (permits dispatched : Nat) : Race ω σ T → Race ω σ T → Prop where
  /-- A branch gets a permit, even if the call is cancelled by now. -/
  | acquire {race : Race ω σ T} {x : Nat × Shard} {rest : List (Nat × Shard)}
      (waiting : race.waiting.Perm (x :: rest)) (room : race.held < permits) :
      Step operation strategy permits dispatched race
        { race with waiting := rest, admitted := race.admitted ++ [x] }
  /-- A branch without a permit leaves, since the call is cancelled. -/
  | leave {race : Race ω σ T} {x : Nat × Shard} {rest : List (Nat × Shard)}
      (waiting : race.waiting.Perm (x :: rest)) (cancelled : race.flight.cancelled = true) :
      Step operation strategy permits dispatched race { race with waiting := rest }
  /-- A branch with a permit sees that the call is cancelled, and leaves. -/
  | withdraw {race : Race ω σ T} {x : Nat × Shard} {rest : List (Nat × Shard)}
      (admitted : race.admitted.Perm (x :: rest)) (cancelled : race.flight.cancelled = true) :
      Step operation strategy permits dispatched race { race with admitted := rest }
  /-- A branch with a permit sees that the call is not cancelled. -/
  | clear {race : Race ω σ T} {x : Nat × Shard} {rest : List (Nat × Shard)}
      (admitted : race.admitted.Perm (x :: rest)) (going : race.flight.cancelled = false) :
      Step operation strategy permits dispatched race
        { race with admitted := rest, cleared := race.cleared ++ [x] }
  /-- A branch starts its operation. -/
  | start {race : Race ω σ T} {position : Nat} {shard : Shard} {rest queue : List (Nat × Shard)}
      (cleared : race.cleared.Perm ((position, shard) :: rest))
      (queued : race.flight.queue.Perm ((position, shard) :: queue)) (endsAt : Nat) :
      Step operation strategy permits dispatched race
        { race with
          cleared := rest
          flight := { race.flight with
            queue := queue
            running := race.flight.running ++ [⟨endsAt, position, shard⟩]
            trace := race.flight.trace ++ [.started position shard.physicalId] } }
  /-- A branch starts its operation, which is over at once. -/
  | pass {race : Race ω σ T} {position : Nat} {shard : Shard} {rest queue : List (Nat × Shard)}
      (cleared : race.cleared.Perm ((position, shard) :: rest))
      (queued : race.flight.queue.Perm ((position, shard) :: queue)) :
      Step operation strategy permits dispatched race
        { race with
          cleared := rest
          spent := race.spent + 1
          flight := .finish operation
            { race.flight with
              queue := queue
              trace := race.flight.trace ++ [.started position shard.physicalId] }
            position shard }
  /-- An operation ends, and its outcome is on its way to the merger. -/
  | finish {race : Race ω σ T} {next : Ongoing} (mem : next ∈ race.flight.running) (now : Nat) :
      Step operation strategy permits dispatched race
        { race with
          spent := race.spent + 1
          flight := .finish operation
            { race.flight with
              now := now
              running := race.flight.running.filter fun running =>
                running.position != next.position }
            next.position next.shard }
  /-- A branch gives its permit back. -/
  | release {race : Race ω σ T} {spent : Nat} (held : race.spent = spent + 1) :
      Step operation strategy permits dispatched race { race with spent := spent }
  /-- The merger takes an outcome. -/
  | take {race : Race ω σ T} {arrival : Arrival T} {rest : List (Arrival T)} (calm : race.due = false)
      (arrived : race.flight.arrived.Perm (arrival :: rest)) (due : Bool)
      (why : due = true ↔ race.flight.Interrupts strategy operation.name arrival) :
      Step operation strategy permits dispatched race
        { race with
          due := due
          flight := .take strategy operation.name dispatched { race.flight with arrived := rest }
            arrival }
  /-- The merger cancels the call. -/
  | cancel {race : Race ω σ T} (due : race.due = true) :
      Step operation strategy permits dispatched race
        { race with due := false, flight := race.flight.cancel }

/-- The races that some steps lead to. -/
abbrev Reaches (operation : Operation ω T) (strategy : ExitStrategy σ T O)
    (permits dispatched : Nat) : Race ω σ T → Race ω σ T → Prop :=
  Relation.ReflTransGen (Step operation strategy permits dispatched)

/-- What one thread ensures that runs the tasks of a call. They are polled for the first time in the
order in which they were spawned and the semaphore is fair, so permits go to the first branch that
waits. And nothing else happens in a poll: not between a permit and the start of the operation or
the return of the branch, and not between an outcome and the cancellation that it is the reason
for. -/
structure Cooperative (race race' : Race ω σ T) : Prop where
  fair : ∀ x, race'.admitted = race.admitted ++ [x] → race.waiting = x :: race'.waiting
  admitted : race.admitted ≠ [] → race'.admitted = []
  cleared : race.cleared ≠ [] → race'.cleared = []
  due : race.due = true → race'.due = false

/-- The races that cooperative steps lead to. -/
abbrev Takes (operation : Operation ω T) (strategy : ExitStrategy σ T O)
    (permits dispatched : Nat) : Race ω σ T → Race ω σ T → Prop :=
  Relation.ReflTransGen fun race race' =>
    Step operation strategy permits dispatched race race' ∧ Cooperative race race'

variable {operation : Operation ω T} {strategy : ExitStrategy σ T O} {permits dispatched : Nat}
variable {shards : List Shard} {race race' : Race ω σ T}

omit [Journaled ω] in
theorem Cooperative.acquire (flight : Flight ω σ T) (x : Nat × Shard) (rest : List (Nat × Shard)) :
    Cooperative (⟨flight, x :: rest, [], [], 0, false⟩ : Race ω σ T)
      ⟨flight, rest, [x], [], 0, false⟩ := by
  constructor
  all_goals simp

omit [Journaled ω] in
/-- A step that leaves no branch with a permit that has not looked. -/
theorem Cooperative.of_looked (hadmitted : race'.admitted = [])
    (hcleared : race.cleared = [] ∨ race'.cleared = []) (hdue : race.due = false ∨ race'.due = false) :
    Cooperative race race' where
  fair := by simp [hadmitted]
  admitted := fun _ => hadmitted
  cleared := hcleared.resolve_left
  due := fun h => hdue.resolve_left (by simp [h])

theorem Takes.reaches (h : Takes operation strategy permits dispatched race race') :
    Reaches operation strategy permits dispatched race race' :=
  (Relation.ReflTransGen.mono fun _ _ => And.left) _ _ h

/-! ## Branches and permits -/

/-- A branch that is on its way goes on to start its operation or leaves, and others stay. -/
theorem Step.entering (h : Step operation strategy permits dispatched race race') :
    race'.entering.Perm race.entering ∧ race'.flight.queue = race.flight.queue ∨
      ∃ x, race.entering.Perm (x :: race'.entering) ∧
        (race.flight.queue.Perm (x :: race'.flight.queue) ∨
          race.flight.cancelled = true ∧ race'.flight.queue = race.flight.queue) := by
  cases h with
  | @acquire x rest waiting room =>
    refine .inl ⟨List.perm_iff_count.mpr fun y => ?_, rfl⟩
    have hcount := waiting.count_eq y
    simp only [Race.entering, List.count_append, List.count_cons, List.count_nil] at hcount ⊢
    omega
  | @leave x rest waiting cancelled =>
    refine .inr ⟨x, ?_, .inr ⟨cancelled, rfl⟩⟩
    exact (waiting.append_right _).append_right _
  | @withdraw x rest admitted cancelled =>
    refine .inr ⟨x, List.perm_iff_count.mpr fun y => ?_, .inr ⟨cancelled, rfl⟩⟩
    have hcount := admitted.count_eq y
    simp only [Race.entering, List.count_append, List.count_cons] at hcount ⊢
    omega
  | @clear x rest admitted going =>
    refine .inl ⟨List.perm_iff_count.mpr fun y => ?_, rfl⟩
    have hcount := admitted.count_eq y
    simp only [Race.entering, List.count_append, List.count_cons, List.count_nil] at hcount ⊢
    omega
  | @start position shard rest queue cleared queued endsAt =>
    exact .inr ⟨_, (cleared.append_left _).trans List.perm_middle, .inl queued⟩
  | @pass position shard rest queue cleared queued =>
    exact .inr ⟨_, (cleared.append_left _).trans List.perm_middle, .inl queued⟩
  | finish | release | cancel => exact .inl ⟨.refl _, rfl⟩
  | take => exact .inl ⟨.refl _, by simp⟩

/-- Permits are taken only while there are some. -/
theorem Step.held (h : Step operation strategy permits dispatched race race')
    (hheld : race.held ≤ permits) : race'.held ≤ permits := by
  cases h with
  | @acquire x rest waiting room =>
    simp only [Race.held, List.length_append, List.length_singleton] at room ⊢
    omega
  | leave | cancel => exact hheld
  | @withdraw x rest admitted cancelled =>
    have hlength := admitted.length_eq
    simp only [Race.held, List.length_cons] at hlength hheld ⊢
    omega
  | @clear x rest admitted going =>
    have hlength := admitted.length_eq
    simp only [Race.held, List.length_append, List.length_cons, List.length_nil]
      at hlength hheld ⊢
    omega
  | @start position shard rest queue cleared queued endsAt =>
    have hlength := cleared.length_eq
    simp only [Race.held, List.length_append, List.length_cons, List.length_nil]
      at hlength hheld ⊢
    omega
  | @pass position shard rest queue cleared queued =>
    have hlength := cleared.length_eq
    simp only [Race.held, Flight.finish, List.length_cons] at hlength hheld ⊢
    omega
  | @finish next mem now =>
    have hlt : (race.flight.running.filter fun running =>
        running.position != next.position).length < race.flight.running.length :=
      List.length_filter_lt_length_iff_exists.mpr ⟨next, mem, by simp⟩
    simp only [Race.held, Flight.finish] at hheld ⊢
    omega
  | @release spent held =>
    simp only [Race.held] at hheld ⊢
    omega
  | take => simpa [Race.held] using hheld

/-- Branches that have not left wait in the queue, and none has left while the call goes on; and the
merger cancels the call only for a reason. -/
structure Kept (permits : Nat) (race : Race ω σ T) : Prop where
  held : race.held ≤ permits
  queued : race.entering.Subperm race.flight.queue
  staying : race.flight.cancelled = false → race.flight.queue.Perm race.entering
  due : race.due = true → race.flight.verdict ≠ none ∨ race.flight.merger.failures ≠ []

omit [Journaled ω] in
theorem Kept.start_of (permits : Nat) (order : MergeOrder) (shards : List Shard) (exit : σ)
    (world : ω) : Kept permits (Flight.start order shards exit world : Flight ω σ T).race := by
  have hentering : (Flight.start order shards exit world : Flight ω σ T).race.entering
      = (Flight.start order shards exit world : Flight ω σ T).queue := by
    simp [Race.entering, Flight.race]
  exact ⟨Nat.zero_le _, hentering ▸ .refl _, fun _ => hentering ▸ .refl _, nofun⟩

theorem Kept.step (h : Kept permits race)
    (hstep : Step operation strategy permits dispatched race race') : Kept permits race' where
  held := hstep.held h.held
  queued := by
    rcases hstep.entering with ⟨hperm, hqueue⟩ | ⟨x, hperm, hqueue | ⟨-, hqueue⟩⟩
    · rw [hqueue]
      exact hperm.subperm.trans h.queued
    · exact (List.subperm_cons x).mp (hperm.symm.subperm.trans (h.queued.trans hqueue.subperm))
    · rw [hqueue]
      exact ((List.sublist_cons_self x _).subperm.trans hperm.symm.subperm).trans h.queued
  staying := by
    intro hgoing
    have hbefore : race.flight.cancelled = false := by
      cases hstep with
      | cancel due => cases hgoing
      | take calm arrived due why => simpa using hgoing
      | acquire | leave | withdraw | clear | start | pass | finish | release => exact hgoing
    have hperm' := h.staying hbefore
    rcases hstep.entering with ⟨hperm, hqueue⟩ | ⟨x, hperm, hqueue | ⟨hcancelled, -⟩⟩
    · rw [hqueue]
      exact hperm'.trans hperm.symm
    · exact (hqueue.symm.trans (hperm'.trans hperm)).cons_inv
    · rw [hbefore] at hcancelled
      cases hcancelled
  due := by
    cases hstep with
    | cancel due => exact nofun
    | take calm arrived due why => exact fun hdue => (why.mp hdue).reason dispatched _
    | acquire | leave | withdraw | clear | start | pass | finish | release => exact h.due

theorem Kept.reaches (h : Kept permits race)
    (hreaches : Reaches operation strategy permits dispatched race race') : Kept permits race' := by
  induction hreaches with
  | refl => exact h
  | tail _ hstep ih => exact ih.step hstep

/-! ## Races and schedules -/

/-- A step of a branch or of the merger is one of the call, unless the flight does not show it. -/
theorem Step.flight (h : Step operation strategy permits dispatched race race')
    (hkept : Kept permits race) :
    Flight.Reaches operation strategy dispatched race.flight race'.flight := by
  cases h with
  | acquire | leave | withdraw | clear | release => exact .refl
  | start cleared queued endsAt => exact .single (.start queued endsAt)
  | pass cleared queued => exact .single (.pass queued)
  | finish mem now => exact .single (.finish mem now)
  | take calm arrived due why => exact .single (.take arrived)
  | cancel due => exact .single (.cancel (hkept.due due))

/-- Races take their flights along schedules. -/
theorem Reaches.flight (h : Reaches operation strategy permits dispatched race race')
    (hkept : Kept permits race) :
    Flight.Reaches operation strategy dispatched race.flight race'.flight := by
  induction h with
  | refl => exact .refl
  | tail hreaches hstep ih => exact ih.trans (hstep.flight (hkept.reaches hreaches))

omit [Journaled ω] in
/-- At rest, all shards have been started or the call is cancelled. -/
theorem Kept.flight_atRest (h : Kept permits race) (hrest : race.AtRest) : race.flight.AtRest where
  running := hrest.running
  arrived := hrest.arrived
  queue := by
    cases hcancelled : race.flight.cancelled with
    | true => exact .inr rfl
    | false =>
      have hqueue := h.staying hcancelled
      simp only [Race.entering, hrest.waiting, hrest.admitted, hrest.cleared, List.append_nil]
        at hqueue
      exact .inl hqueue.eq_nil

/-! ## The machine in virtual time -/

/-- Launching takes the given queue in place of the flight's own, so it starts from a flight that
has this queue. Each branch that it starts goes from its permit to its operation at once. -/
theorem launch_takes (flight : Flight ω σ T) (queue : List (Nat × Shard)) :
    Takes operation strategy permits dispatched { flight with queue := queue }.race
      (flight.launch operation permits queue).race := by
  induction queue generalizing flight with
  | nil => exact .refl
  | cons head rest ih =>
    obtain ⟨position, shard⟩ := head
    rw [Flight.launch]
    split
    case isTrue => exact .refl
    case isFalse hgo =>
      have hgoing : flight.cancelled = false := by simpa using fun h => hgo (.inl h)
      have hroom : flight.running.length < permits := Nat.lt_of_not_le fun h => hgo (.inr h)
      let before : Flight ω σ T := { flight with queue := (position, shard) :: rest }
      have hacquire : Step operation strategy permits dispatched before.race
          ⟨before, rest, [(position, shard)], [], 0, false⟩ :=
        .acquire (.refl _) (by simpa [Race.held, Flight.race, before] using hroom)
      have hclear : Step operation strategy permits dispatched
          ⟨before, rest, [(position, shard)], [], 0, false⟩
          ⟨before, rest, [], [(position, shard)], 0, false⟩ :=
        .clear (.refl _) hgoing
      refine .head ⟨hacquire, .acquire ..⟩
        (.head ⟨hclear, .of_looked rfl (.inl rfl) (.inl rfl)⟩ ?_)
      split
      case isTrue =>
        let after : Flight ω σ T := .finish operation
          { before with
            queue := rest
            trace := flight.trace ++ [.started position shard.physicalId] } position shard
        have hpass : Step operation strategy permits dispatched
            ⟨before, rest, [], [(position, shard)], 0, false⟩ ⟨after, rest, [], [], 1, false⟩ :=
          .pass (.refl _) (.refl _)
        have hrelease : Step operation strategy permits dispatched
            ⟨after, rest, [], [], 1, false⟩ ⟨after, rest, [], [], 0, false⟩ :=
          .release rfl
        refine .head ⟨hpass, .of_looked rfl (.inr rfl) (.inl rfl)⟩
          (.head ⟨hrelease, .of_looked rfl (.inl rfl) (.inl rfl)⟩ ?_)
        exact ih (.finish operation { flight with
          trace := flight.trace ++ [.started position shard.physicalId] } position shard)
      case isFalse =>
        have hstart : Step operation strategy permits dispatched
            ⟨before, rest, [], [(position, shard)], 0, false⟩ _ :=
          .start (.refl _) (.refl _) (flight.now + operation.delay shard)
        refine .head ⟨hstart, .of_looked rfl (.inr rfl) (.inl rfl)⟩ ?_
        exact ih { flight with
          running := flight.running ++ [⟨flight.now + operation.delay shard, position, shard⟩]
          trace := flight.trace ++ [.started position shard.physicalId] }

theorem read_takes (flight : Flight ω σ T) {arrival : Arrival T} {rest : List (Arrival T)}
    (arrived : flight.arrived = arrival :: rest) :
    Takes operation strategy permits dispatched flight.race
      (Flight.read strategy operation.name dispatched { flight with arrived := rest }
        arrival).race := by
  let taken : Flight ω σ T :=
    .take strategy operation.name dispatched { flight with arrived := rest } arrival
  have htake (due : Bool) (why : due = true ↔ flight.Interrupts strategy operation.name arrival) :
      Step operation strategy permits dispatched flight.race
        ⟨taken, flight.queue, [], [], 0, due⟩ :=
    .take rfl (arrived ▸ .refl _) due why
  have hqueue : taken.queue = flight.queue := by simp [taken]
  have hcooperates (due : Bool) :
      Cooperative flight.race ⟨taken, flight.queue, [], [], 0, due⟩ :=
    .of_looked rfl (.inl rfl) (.inl rfl)
  by_cases hwhy : flight.Interrupts strategy operation.name arrival
  case pos =>
    have hcancel : Step operation strategy permits dispatched
        ⟨taken, flight.queue, [], [], 0, true⟩ ⟨taken.cancel, flight.queue, [], [], 0, false⟩ :=
      .cancel rfl
    rw [Flight.read_of_interrupts (by exact hwhy),
      show Flight.race _ = ⟨taken.cancel, taken.queue, [], [], 0, false⟩ from rfl, hqueue]
    exact .head ⟨htake true (by simpa using hwhy), hcooperates true⟩
      (.single ⟨hcancel, .of_looked rfl (.inl rfl) (.inr rfl)⟩)
  case neg =>
    rw [Flight.read_of_not_interrupts (by exact hwhy),
      show Flight.race _ = ⟨taken, taken.queue, [], [], 0, false⟩ from rfl, hqueue]
    exact .single ⟨htake false (by simpa using hwhy), hcooperates false⟩

/-- The fold reads a flight without arrivals, the steps take one arrival after the other off the
list. -/
theorem foldl_read_takes (flight : Flight ω σ T) (arrived : List (Arrival T)) :
    Takes operation strategy permits dispatched { flight with arrived := arrived }.race
      ({ arrived.foldl (fun flight arrival =>
          flight.read strategy operation.name dispatched arrival) flight with
        arrived := [] } : Flight ω σ T).race := by
  induction arrived generalizing flight with
  | nil => exact .refl
  | cons arrival rest ih =>
    have hread : Takes operation strategy permits dispatched
        { flight with arrived := arrival :: rest }.race
        (Flight.read strategy operation.name dispatched { flight with arrived := rest }
          arrival).race :=
      read_takes _ rfl
    rw [Flight.read_arrived strategy dispatched flight] at hread
    exact hread.trans (ih _)

theorem readAll_takes (flight : Flight ω σ T) :
    Takes operation strategy permits dispatched flight.race
      (flight.readAll strategy operation.name dispatched).race := by
  have harrived : (flight.readAll strategy operation.name dispatched).arrived = [] :=
    (Flight.foldl_read_frame strategy dispatched { flight with arrived := [] } operation.name
      flight.arrived).2.2.2 rfl
  have hreads : Takes operation strategy permits dispatched flight.race
      { flight.readAll strategy operation.name dispatched with arrived := [] }.race :=
    foldl_read_takes { flight with arrived := [] } flight.arrived
  rw [← harrived] at hreads
  exact hreads

theorem round_takes (flight : Flight ω σ T) :
    Takes operation strategy permits dispatched flight.race
      (flight.round operation strategy permits dispatched).race :=
  (launch_takes flight flight.queue).trans (readAll_takes _)

/-- An operation ends, and the permit is given back before anything else happens. -/
theorem finish_takes (flight : Flight ω σ T) {next : Ongoing} (mem : next ∈ flight.running)
    (now : Nat) :
    Takes operation strategy permits dispatched flight.race
      (Flight.finish operation
        { flight with
          now := now
          running := flight.running.filter fun running => running.position != next.position }
        next.position next.shard).race := by
  have hfinish : Step operation strategy permits dispatched flight.race _ := .finish mem now
  refine .head ⟨hfinish, .of_looked rfl (.inl rfl) (.inl rfl)⟩ (.single ⟨.release rfl, ?_⟩)
  exact .of_looked rfl (.inl rfl) (.inl rfl)

theorem settle_takes (rounds : Nat) (flight : Flight ω σ T) :
    Takes operation strategy permits dispatched flight.race
      (flight.settle operation strategy permits dispatched rounds).race := by
  induction rounds generalizing flight with
  | zero =>
    rw [Flight.settle_zero]
    exact round_takes flight
  | succ rounds ih =>
    rw [Flight.settle_succ]
    split
    case h_1 => exact round_takes flight
    case h_2 next hnext =>
      exact (round_takes flight).trans
        ((finish_takes _ (Flight.earliest?_mem hnext) next.endsAt).trans (ih _))

/-- When nothing is left to do, the branches that still wait leave one after the other. -/
theorem rest_takes {flight : Flight ω σ T} (h : flight.AtRest) :
    ∃ race : Race ω σ T, Takes operation strategy permits dispatched flight.race race
      ∧ race.AtRest ∧ race.flight = flight := by
  refine ⟨⟨flight, [], [], [], 0, false⟩, ?_,
    ⟨rfl, rfl, rfl, h.running, rfl, h.arrived, rfl⟩, rfl⟩
  have hleave (waiting : List (Nat × Shard)) (hwhy : waiting = [] ∨ flight.cancelled = true) :
      Takes operation strategy permits dispatched ⟨flight, waiting, [], [], 0, false⟩
        ⟨flight, [], [], [], 0, false⟩ := by
    induction waiting with
    | nil => exact .refl
    | cons x rest ih =>
      have hcancelled := hwhy.resolve_left (List.cons_ne_nil x rest)
      have hstep : Step operation strategy permits dispatched
          ⟨flight, x :: rest, [], [], 0, false⟩ ⟨flight, rest, [], [], 0, false⟩ :=
        .leave (.refl _) hcancelled
      exact .head ⟨hstep, .of_looked rfl (.inl rfl) (.inl rfl)⟩ (ih (.inr hcancelled))
  exact hleave flight.queue h.queue

end Race

/-- The machine in virtual time takes one of the schedules of the call. -/
theorem Flight.settle_reaches [Journaled ω] {operation : Operation ω T}
    {strategy : ExitStrategy σ T O} {permits dispatched : Nat} (order : MergeOrder)
    (shards : List Shard) (exit : σ) (world : ω) (rounds : Nat) :
    Reaches operation strategy dispatched (start order shards exit world)
      ((start order shards exit world : Flight ω σ T).settle operation strategy permits dispatched
        rounds) :=
  (Race.settle_takes rounds _).reaches.flight (.start_of permits order shards exit world)

end ScatterGather.Parallel
