import ScatterGather.Exit.First
import ScatterGather.Proofs.Access.Feeding

/-!
# Looking for the first result

The strategy has seen nothing but nulls, or it has just been fed the value that it keeps, with the
shard that the value came from. A call that finds nothing has fed it every result, so that answer is
one about all shards; where results are fed in order, the winner is the first shard that has a value.
-/

namespace ScatterGather

variable {ω T : Type}

namespace First

/-- Results without a value. -/
def nulls (shards : List Shard) : List (Shard × Option T) :=
  shards.map fun shard => (shard, Option.none)

@[simp]
theorem map_fst_nulls (shards : List Shard) :
    (nulls shards : List (Shard × Option T)).map (·.1) = shards := by
  simp [nulls, Function.comp_def]

theorem ending_recorded (stop : Bool) (recording : ExitStrategy.Recording (First T) T) :
    (First.strategy.recorded Option.none).ending Option.none (.ok stop) recording
      = (.ok recording.state.result, recording) :=
  rfl

/-- What was added so far is without a value and the strategy has kept nothing, or the last result
is the one that it has kept. -/
theorem adds_cases {fed : List (Shard × Option T)} {answer : Except ShardError Bool}
    {found : First T} (h : First.strategy.Adds .none fed answer found) :
    (answer = .ok false ∧ found = .none ∧ ∃ shards, fed = nulls shards) ∨
      answer = .ok true ∧ ∃ before shard value, fed = nulls before ++ [(shard, some value)]
        ∧ found = ⟨some value, some shard⟩ := by
  induction h with
  | nil => exact .inl ⟨rfl, rfl, [], rfl⟩
  | @concat fed found before shard result ih =>
    rcases ih with ⟨-, rfl, shards, rfl⟩ | ⟨hstop, -⟩
    · cases result with
      | none => exact .inl ⟨rfl, rfl, shards ++ [shard], by simp [nulls]⟩
      | some value => exact .inr ⟨rfl, shards, shard, value, rfl, rfl⟩
    · cases hstop

/-! ## Calls -/

/-- A lookup over these shards has found nothing: all of them were run to their end, and a null of
each was fed. -/
structure FoundNothing (ordered : List Shard) (outcome : Shard → Except Mishap (Option T))
    (call : Outcome ω (ExitStrategy.Recording (First T) T) (Option T)) : Prop where
  result : call.result = .ok Option.none
  winner : call.exit.state.winner? = Option.none
  ended : (endedAt call.trace).Perm (List.range ordered.length)
  answered : ∀ shard ∈ ordered, outcome shard = .ok Option.none
  received : call.exit.added.reverse.Perm (nulls ordered)

/-- A lookup over these shards has found the value of one of them, after nulls. -/
structure FoundValue (ordered : List Shard) (outcome : Shard → Except Mishap (Option T))
    (call : Outcome ω (ExitStrategy.Recording (First T) T) (Option T)) (before : List Shard)
    (shard : Shard) (value : T) : Prop where
  result : call.result = .ok (some value)
  winner : call.exit.state.winner? = some shard
  mem : shard ∈ ordered
  answered : outcome shard = .ok (some value)
  overlooked : ∀ other ∈ before, outcome other = .ok Option.none
  received : call.exit.added.reverse = nulls before ++ [(shard, some value)]

variable [Journaled ω]
variable {operation : Operation ω T} {outcome : Shard → Except Mishap (Option T)}
variable {ordered : List Shard} {world : ω} {access : AccessStrategy}
variable {call : Outcome ω (ExitStrategy.Recording (First T) T) (Option T)}

/-- A lookup that was dispatched is broken off by a failed operation, finds nothing, or finds the
value of a shard; in order, no shard in front of that one has a value. -/
theorem lookup_cases (determined : ∀ shard world, (operation.run shard world).1 = outcome shard)
    (h : AccessStrategy.Ends operation (First.strategy.recorded Option.none) Option.none ordered
      ⟨.none, []⟩ world access call) :
    call.Broken ordered outcome ∨ FoundNothing ordered outcome call ∨
      ∃ before shard value, FoundValue ordered outcome call before shard value
        ∧ (access.InOrder → before ++ [shard] <+: ordered) := by
  obtain ⟨places, fed, answer, recording, hfeed, horder, hend⟩ := h.feeds determined
  obtain ⟨hadds, hadded⟩ := hfeed.adds.recorded
  rcases hend with ⟨-, -, hbroken⟩ | hsettled
  · exact .inl hbroken
  · have hending := hsettled.ending
    obtain ⟨found, added⟩ := recording
    have hadded : added = fed.reverse := hadded
    rcases adds_cases hadds with
      ⟨rfl, rfl, shards, rfl⟩ | ⟨rfl, before, shard, value, rfl, rfl⟩
    · rw [ending_recorded] at hending
      obtain ⟨hresult, hexit⟩ := Prod.mk.inj hending
      have hshards : shards.Perm ordered := by
        simpa using hfeed.shards_perm (hsettled.fed rfl)
      refine .inr (.inl ⟨hresult, ?_, hsettled.ended rfl, ?_, ?_⟩)
      · rw [hexit]
        rfl
      · intro shard hshard
        refine hfeed.results (shard, Option.none) ?_
        simpa [nulls] using hshards.mem_iff.mpr hshard
      · rw [hexit, hadded, List.reverse_reverse]
        exact hshards.map _
    · rw [ending_recorded] at hending
      obtain ⟨hresult, hexit⟩ := Prod.mk.inj hending
      refine .inr (.inr ⟨before, shard, value, ⟨hresult, ?_, ?_, ?_, ?_, ?_⟩, ?_⟩)
      · rw [hexit]
        rfl
      · apply hfeed.shards_subperm.subset
        simp
      · exact hfeed.results (shard, some value) (by simp)
      · intro other hother
        refine hfeed.results (other, Option.none) ?_
        simpa [nulls] using hother
      · rw [hexit, hadded, List.reverse_reverse]
      · intro hinOrder
        simpa using hfeed.shards_first (horder hinOrder)

end First

/-- A lookup that returns nothing has run every shard to its end and was fed a null by each; one that
returns a value names a shard that has this value, and it was fed nulls before and nothing after. If
results are fed in order, no shard dispatched before the winner has a value. A lookup in which no
operation fails does return. This holds in every schedule, and so for the call itself, which
recording does not change. -/
theorem AccessStrategy.first_found [Journaled ω] {operation : Operation ω T}
    {outcome : Shard → Except Mishap (Option T)}
    (determined : ∀ shard world, (operation.run shard world).1 = outcome shard)
    (access : AccessStrategy) (shards : List Shard) (world : ω) :
    let recorded := (First.strategy (T := T)).recorded none
    let lookup := (access.apply shards operation recorded none ⟨.none, []⟩ world).1
    (access.apply shards operation First.strategy none .none world).1
        = lookup.view ExitStrategy.Recording.state
      ∧ access.MayReturn shards operation recorded none ⟨.none, []⟩ world lookup
      ∧ ∀ call, access.MayReturn shards operation recorded none ⟨.none, []⟩ world call →
        let received := call.exit.added.reverse
        let winner := call.exit.state.winner?
        (call.result = .ok none → winner = none ∧ ∃ ordered, access.Dispatches shards ordered
          ∧ (endedAt call.trace).Perm (List.range ordered.length)
          ∧ (∀ shard ∈ ordered, outcome shard = .ok none)
          ∧ received.Perm (First.nulls ordered))
        ∧ (∀ value, call.result = .ok (some value) →
          ∃ (ordered before : List Shard) (shard : Shard),
            access.Dispatches shards ordered ∧ winner = some shard ∧ shard ∈ ordered
              ∧ outcome shard = .ok (some value)
              ∧ received = First.nulls before ++ [(shard, some value)]
              ∧ (access.InOrder → ∃ place : Nat, ordered[place]? = some shard
                ∧ ∀ earlier < place, ∀ other, ordered[earlier]? = some other →
                  outcome other = .ok none))
        ∧ ∀ ordered, access.Dispatches shards ordered →
          (∀ shard ∈ ordered, ∃ result, outcome shard = .ok result) →
          ∃ found, call.result = .ok found := by
  intro recorded lookup
  refine ⟨access.apply_recorded shards operation First.strategy none .none world [],
    access.apply_mayReturn .., ?_⟩
  intro call hcall received winner
  rcases hcall.dispatches_or with ⟨e, rfl, hnot⟩ | ⟨ordered, hdispatches, hends⟩
  · refine ⟨by simp, by simp, ?_⟩
    intro ordered hdispatches
    exact absurd hdispatches (hnot ordered)
  rcases First.lookup_cases determined hends with
    ⟨⟨e, hfailed⟩, hmishap⟩ | hnothing | ⟨before, shard, value, hvalue, horder⟩
  · refine ⟨by simp [hfailed], by simp [hfailed], ?_⟩
    intro ordered' hdispatches' hall
    obtain rfl := hdispatches.unique hdispatches'
    obtain ⟨shard, hshard, mishap, hmishap⟩ := hmishap
    obtain ⟨result, hresult⟩ := hall shard hshard
    rw [hmishap] at hresult
    cases hresult
  · refine ⟨?_, by simp [hnothing.result], fun _ _ _ => ⟨_, hnothing.result⟩⟩
    intro _
    exact ⟨hnothing.winner, ordered, hdispatches, hnothing.ended, hnothing.answered,
      hnothing.received⟩
  · refine ⟨by simp [hvalue.result], ?_, fun _ _ _ => ⟨_, hvalue.result⟩⟩
    intro value' hresult
    obtain rfl : value = value' := by simpa [hvalue.result] using hresult
    refine ⟨ordered, before, shard, hdispatches, hvalue.winner, hvalue.mem, hvalue.answered,
      hvalue.received, ?_⟩
    intro hinOrder
    obtain ⟨rest, rfl⟩ := horder hinOrder
    refine ⟨before.length, by simp, ?_⟩
    intro earlier hearlier other hother
    rw [List.append_assoc, List.getElem?_append_left hearlier] at hother
    exact hvalue.overlooked other (List.mem_of_getElem? hother)

/-- Three shards at once, results fed in order of completion: the last shard's value arrives behind
the null of the second and ahead of the value of the first. -/
theorem AccessStrategy.first_found_overtaking :
    let shard := fun handle => Shard.mk handle (.ofNat handle) ∅ 0
    let outcome : Shard → Except Mishap (Option Nat) := fun shard =>
      .ok (if shard.handle = 1 then none else some (10 * shard.handle))
    let operation : Operation Cluster Nat :=
      ⟨"lookup", fun shard => if shard.handle = 0 then 5 else shard.handle, fun shard world =>
        (outcome shard, world)⟩
    let lookup := ((parallel ⟨.input, 3, .completion⟩).apply [shard 0, shard 1, shard 2] operation
      (First.strategy.recorded none) none ⟨.none, []⟩ (.ofBackends 0)).1
    (∀ shard world, (operation.run shard world).1 = outcome shard)
      ∧ lookup.result = .ok (some 20)
      ∧ ∃ before winner, lookup.exit.state.winner? = some winner
        ∧ outcome winner = .ok (some 20)
        ∧ lookup.exit.added.reverse = First.nulls before ++ [(winner, some 20)] := by
  intro shard outcome operation lookup
  have hdetermined : ∀ shard world, (operation.run shard world).1 = outcome shard := by
    intro shard world
    rfl
  have hresult : lookup.result = .ok (some 20) := by decide +kernel
  obtain ⟨-, hmay, hall⟩ := first_found hdetermined (parallel ⟨.input, 3, .completion⟩)
    [shard 0, shard 1, shard 2] (.ofBackends 0)
  obtain ⟨-, hfound, -⟩ := hall lookup hmay
  obtain ⟨ordered, before, winner, -, hwinner, -, hvalue, hreceived, -⟩ := hfound 20 hresult
  exact ⟨hdetermined, hresult, before, winner, hwinner, hvalue, hreceived⟩

end ScatterGather
