import ScatterGather.Proofs.Access.Adding
import ScatterGather.Proofs.Binary.Order
import ScatterGather.Proofs.Exit.Aggregate

/-!
# Extremes of floating-point numbers

A running extreme is replaced by a value that beats it. A NaN neither beats nor is beaten: if it is the
first value it stays, and otherwise it is passed over. So the least and the greatest of some numbers do
not depend on their order, and where NaNs are among them all that matters is whether one of these comes
first.
-/

namespace ScatterGather

variable {f : Format}

/-- Two results are equal as numbers: both are absent, both are NaNs, or they have one value. -/
def Binary.SameNumber : Option (Binary f) → Option (Binary f) → Prop
  | none, none => True
  | some x, some y => x.isNaN = true ∧ y.isNaN = true ∨ x.equals y = true
  | _, _ => False

namespace Tally

/-- The tally with one more value, where no sum is asked for. -/
def withoutSum {α : Type} [Aggregable α] (tally : Tally α) (value : α) : Tally α :=
  tally.withValue value tally.sum

/-! ## Running extremes -/

/-- Numbers are beaten by those of a lower rank, which only numbers of one value share. -/
structure Ranks (beats : Binary f → Binary f → Bool) (rank : Binary f → Int) : Prop where
  beats_iff : ∀ x y, beats x y = true ↔ x.isNaN = false ∧ y.isNaN = false ∧ rank x < rank y
  units_eq : ∀ {x y}, rank x = rank y → x.units = y.units

theorem ranks_lt : Ranks (f := f) Aggregable.lt Binary.units where
  beats_iff := by
    intro x y
    change Binary.lt x y = true ↔ _
    simp [Binary.lt, and_assoc]
  units_eq := id

theorem ranks_gt : Ranks (f := f) (fun x y => Aggregable.lt y x) fun x => -x.units where
  beats_iff := by
    intro x y
    change Binary.lt y x = true ↔ _
    simp [Binary.lt, and_assoc, and_left_comm]
  units_eq := Int.neg_inj.mp

variable {beats : Binary f → Binary f → Bool} {rank : Binary f → Int}

/-- A NaN that comes first stays. -/
theorem foldl_extreme_nan (h : Ranks beats rank) {first : Binary f} (hnan : first.isNaN = true)
    (values : List (Binary f)) : values.foldl (extreme beats) (some first) = some first := by
  induction values with
  | nil => rfl
  | cons value values ih =>
    have hnot : beats value first = false := by
      rw [Bool.eq_false_iff, Ne, h.beats_iff, hnan]
      simp
    rw [List.foldl_cons, extreme, hnot]
    exact ih

/-- Of some values one of the lowest rank is left. Those that are no numbers neither beat nor are
beaten; behind a number they are passed over. -/
theorem foldl_extreme_best {α : Type} {beats : α → α → Bool} {rank : α → Int} {IsNumber : α → Prop}
    (h : ∀ x y, beats x y = true ↔ IsNumber x ∧ IsNumber y ∧ rank x < rank y) {first : α}
    (hnumber : IsNumber first) (values : List α) :
    ∃ best ∈ first :: values, values.foldl (extreme beats) (some first) = some best
      ∧ IsNumber best ∧ ∀ value ∈ first :: values, IsNumber value → rank best ≤ rank value := by
  induction values generalizing first with
  | nil => exact ⟨first, List.mem_cons_self, rfl, hnumber, by simp⟩
  | cons value values ih =>
    rw [List.foldl_cons, extreme]
    cases hbeats : beats value first with
    | true =>
      obtain ⟨hvalue, -, hlt⟩ := (h value first).mp hbeats
      obtain ⟨best, hmem, hfold, hbest, hleast⟩ := ih hvalue
      refine ⟨best, List.mem_cons_of_mem _ hmem, hfold, hbest,
        List.forall_mem_cons.mpr ⟨fun _ => ?_, hleast⟩⟩
      exact Int.le_trans (hleast value List.mem_cons_self hvalue) hlt.le
    | false =>
      obtain ⟨best, hmem, hfold, hbest, hleast⟩ := ih hnumber
      obtain ⟨hfirst, hrest⟩ := List.forall_mem_cons.mp hleast
      have hmem : best ∈ first :: value :: values := by
        rcases List.mem_cons.mp hmem with rfl | hmem
        · exact List.mem_cons_self
        · exact List.mem_cons_of_mem _ (List.mem_cons_of_mem _ hmem)
      refine ⟨best, hmem, hfold, hbest, List.forall_mem_cons.mpr
        ⟨hfirst, List.forall_mem_cons.mpr ⟨fun hvalue => ?_, hrest⟩⟩⟩
      have hnot : ¬ rank value < rank first := fun hlt => by
        rw [(h value first).mpr ⟨hvalue, hnumber, hlt⟩] at hbeats
        cases hbeats
      exact Int.le_trans (hfirst hnumber) (Int.not_lt.mp hnot)

/-- Two orders of the same values have the same extreme, as a number, if and only if a NaN comes first
in both of them or in neither. -/
theorem sameNumber_extremes (h : Ranks beats rank) {values values' : List (Binary f)}
    (hperm : values.Perm values') :
    Binary.SameNumber (values.foldl (extreme beats) none) (values'.foldl (extreme beats) none) ↔
      values.head?.any Binary.isNaN = values'.head?.any Binary.isNaN := by
  cases values with
  | nil =>
    obtain rfl := hperm.nil_eq
    exact iff_of_true trivial rfl
  | cons first values =>
    cases values' with
    | nil => exact absurd hperm.eq_nil (List.cons_ne_nil _ _)
    | cons first' values' =>
      simp only [List.foldl_cons, List.head?_cons, Option.any_some]
      have hstart (x : Binary f) : extreme beats none x = some x := rfl
      rw [hstart, hstart]
      cases hnan : first.isNaN with
      | true =>
        rw [foldl_extreme_nan h hnan]
        cases hnan' : first'.isNaN with
        | true =>
          rw [foldl_extreme_nan h hnan']
          exact iff_of_true (.inl ⟨hnan, hnan'⟩) rfl
        | false =>
          obtain ⟨best, -, hfold, hbest, -⟩ := foldl_extreme_best h.beats_iff hnan' values'
          rw [hfold]
          simp [Binary.SameNumber, Binary.equals, hnan, hbest]
      | false =>
        obtain ⟨best, hmem, hfold, hbest, hleast⟩ := foldl_extreme_best h.beats_iff hnan values
        rw [hfold]
        cases hnan' : first'.isNaN with
        | true =>
          rw [foldl_extreme_nan h hnan']
          simp [Binary.SameNumber, Binary.equals, hnan', hbest]
        | false =>
          obtain ⟨best', hmem', hfold', hbest', hleast'⟩ := foldl_extreme_best h.beats_iff hnan' values'
          rw [hfold']
          have hle := hleast best' (hperm.mem_iff.mpr hmem') hbest'
          have hle' := hleast' best (hperm.mem_iff.mp hmem) hbest
          have hunits := h.units_eq (Int.le_antisymm hle hle')
          exact iff_of_true (.inr (Binary.equals_iff.mpr ⟨hbest, hbest', hunits⟩)) rfl

end Tally

namespace AggregateFunction

variable {α : Type} [Aggregable α]

/-- All results are taken but by a sum, and their values are tallied in turn. -/
theorem addAll_eq {fn : AggregateFunction} (hfn : fn ≠ .sum) (fed : List (Shard × Option α))
    (tally : Tally α) :
    fn.strategy.addAll fed tally = (.ok false, (fedValues fed).foldl Tally.withoutSum tally) := by
  induction fed generalizing tally with
  | nil => rfl
  | cons head fed ih =>
    obtain ⟨shard, result⟩ := head
    cases result with
    | none =>
      have hadded : fn.strategy.add tally none (some shard) = (.ok false, tally) := rfl
      rw [ExitStrategy.addAll_cons hadded]
      exact ih tally
    | some value =>
      have hadded : fn.strategy.add tally (some value) (some shard)
          = (.ok false, tally.withoutSum value) := by
        cases fn with
        | sum => exact absurd rfl hfn
        | count | min | max | avg => rfl
      rw [ExitStrategy.addAll_cons hadded]
      exact ih (tally.withoutSum value)

/-- The extremes run over the values. -/
theorem addAll_extremes {fn : AggregateFunction} (hfn : fn ≠ .sum) (fed : List (Shard × Option α))
    (tally : Tally α) : ∃ last, fn.strategy.addAll fed tally = (.ok false, last)
      ∧ last.min = (fedValues fed).foldl (Tally.extreme Aggregable.lt) tally.min
      ∧ last.max = (fedValues fed).foldl (Tally.extreme fun a b => Aggregable.lt b a) tally.max := by
  refine ⟨_, addAll_eq hfn fed tally, ?_⟩
  generalize fedValues fed = values
  induction values generalizing tally with
  | nil => exact ⟨rfl, rfl⟩
  | cons value values ih => exact ih (tally.withoutSum value)

/-- All results of two orders are added, and the extremes compiled of them are equal as numbers if and
only if a NaN is the first value of both orders or of neither. -/
theorem extremes_agree_iff {fn : AggregateFunction} (hfn : fn = .min ∨ fn = .max)
    {fed fed' : List (Shard × Option (Binary f))} (hperm : (fed.map (·.2)).Perm (fed'.map (·.2))) :
    ∃ best best', fn.strategy.Compiles fed .empty best ∧ fn.strategy.Compiles fed' .empty best'
      ∧ (Binary.SameNumber best best' ↔ (fedValues fed).head?.any Binary.isNaN
        = (fedValues fed').head?.any Binary.isNaN) := by
  have hvalues : (fedValues fed).Perm (fedValues fed') := by
    have hfilter := hperm.filterMap id
    rwa [List.filterMap_map, List.filterMap_map] at hfilter
  have hsum : fn ≠ .sum := by
    rintro rfl
    simp at hfn
  obtain ⟨tally, hadds, hmin, hmax⟩ := addAll_extremes hsum fed .empty
  obtain ⟨tally', hadds', hmin', hmax'⟩ := addAll_extremes hsum fed' .empty
  rcases hfn with rfl | rfl
  · refine ⟨_, _, ⟨tally, hadds, rfl⟩, ⟨tally', hadds', rfl⟩, ?_⟩
    rw [hmin, hmin']
    exact Tally.sameNumber_extremes Tally.ranks_lt hvalues
  · refine ⟨_, _, ⟨tally, hadds, rfl⟩, ⟨tally', hadds', rfl⟩, ?_⟩
    rw [hmax, hmax']
    exact Tally.sameNumber_extremes Tally.ranks_gt hvalues

/-- Of one, a NaN and minus zero the least is one number in both orders that start with a number, and
another in the order that starts with the NaN. -/
theorem extremes_agree_iff_nan :
    let shard := Shard.mk 0 (.ofNat 0) ∅ 0
    let one : Binary .double := ⟨0x3ff0000000000000#64⟩
    let zero : Binary .double := ⟨0x8000000000000000#64⟩
    let forth := [(shard, some one), (shard, some .nan), (shard, none), (shard, some zero)]
    let back := [(shard, none), (shard, some zero), (shard, some .nan), (shard, some one)]
    let first := [(shard, some .nan), (shard, some zero), (shard, none), (shard, some one)]
    let least := AggregateFunction.min.strategy (α := Binary .double)
    (forth.map (·.2)).Perm (back.map (·.2)) ∧ (forth.map (·.2)).Perm (first.map (·.2))
      ∧ (∃ best best', least.Compiles forth .empty best ∧ least.Compiles back .empty best'
        ∧ Binary.SameNumber best best')
      ∧ ∃ best best', least.Compiles forth .empty best ∧ least.Compiles first .empty best'
        ∧ ¬ Binary.SameNumber best best' := by
  intro shard one zero forth back first least
  have hback : (forth.map (·.2)).Perm (back.map (·.2)) := by decide +kernel
  have hfirst : (forth.map (·.2)).Perm (first.map (·.2)) := by decide +kernel
  obtain ⟨best, best', hforth, hcompiles, hagree⟩ := extremes_agree_iff (.inl rfl) hback
  obtain ⟨worst, worst', hforth', hcompiles', hdiffer⟩ := extremes_agree_iff (.inl rfl) hfirst
  refine ⟨hback, hfirst, ⟨best, best', hforth, hcompiles, hagree.mpr (by decide +kernel)⟩,
    worst, worst', hforth', hcompiles', ?_⟩
  rw [hdiffer]
  decide +kernel

end AggregateFunction

end ScatterGather
