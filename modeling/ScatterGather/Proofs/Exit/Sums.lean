import Mathlib.Data.List.Infix
import ScatterGather.Proofs.Access.Adding
import ScatterGather.Proofs.Exit.Aggregate

/-!
# Sums of integers

A sum is kept in the result type and checked at each addition. So it is exact as long as no partial sum
leaves the range, and the first value that takes it out of the range is refused, before it is known what
is still to come: values of the other sign may bring the whole sum back. Where no number is negative
this cannot happen, and then the sum of all decides.
-/

namespace ScatterGather

variable {σ T O : Type} {r : IntRange}

/-- Results that were taken one after the other were added in turn. -/
theorem ExitStrategy.Takes.addAll_eq {strategy : ExitStrategy σ T O} {fed : List (Shard × Option T)}
    {exit last : σ} {stop : Bool} (h : strategy.Takes fed exit stop last) :
    strategy.addAll fed exit = (.ok stop, last) := by
  induction h with
  | nil exit => rfl
  | stop taken => rw [ExitStrategy.addAll_singleton, taken]
  | more taken _ ih => rw [ExitStrategy.addAll_cons taken, ih]

instance (start : Int) (values : List (Bounded r)) : Decidable (Tally.FitsInTurn start values) :=
  decidable_of_iff (∀ front ∈ values.inits, r.Contains (start + Tally.total front)) <| by
    simp only [List.mem_inits, Tally.FitsInTurn]

namespace AggregateFunction

/-- The first value that takes the sum out of the range is refused. -/
theorem sum_overflows (fed : List (Shard × Option (Bounded r))) (tally : Tally (Bounded r))
    (h : ¬ Tally.FitsInTurn tally.sum.val (fedValues fed)) :
    ∃ front shard value back last, fed = front ++ (shard, some value) :: back
      ∧ sum.strategy.addAll front tally = (.ok false, last)
      ∧ sum.strategy.add last (some value) (some shard) = (.error Tally.sumOverflow, last)
      ∧ ¬ r.Contains (tally.sum.val + Tally.total (fedValues front) + value.val) := by
  induction fed generalizing tally with
  | nil => exact absurd (Tally.fitsInTurn_nil tally.sum.contains) h
  | cons head fed ih =>
    obtain ⟨shard, result⟩ := head
    cases result with
    | none =>
      obtain ⟨front, shard', value, back, last, rfl, hadds, hrefused, hout⟩ := ih tally h
      exact ⟨(shard, none) :: front, shard', value, back, last, rfl, hadds, hrefused, hout⟩
    | some value =>
      rcases tally.add_sum_cases value with ⟨sum, hadd, hsum⟩ | ⟨herror, hout⟩
      · have hnext : (tally.withValue value sum).sum.val = tally.sum.val + value.val := hsum
        have hadded : AggregateFunction.sum.strategy.add tally (some value) (some shard)
            = (.ok false, tally.withValue value sum) := by simp [strategy, hadd]
        have hlater : ¬ Tally.FitsInTurn (tally.withValue value sum).sum.val (fedValues fed) := by
          rw [hnext]
          exact fun hrest => h (Tally.fitsInTurn_cons.mpr ⟨tally.sum.contains, hrest⟩)
        obtain ⟨front, shard', value', back, last, rfl, hadds, hrefused, hout⟩ := ih _ hlater
        refine ⟨(shard, some value) :: front, shard', value', back, last, rfl, ?_, hrefused, ?_⟩
        · rw [ExitStrategy.addAll_cons hadded, hadds]
        · rw [hnext, Int.add_assoc _ value.val] at hout
          exact hout
      · refine ⟨[], shard, value, fed, tally, rfl, rfl, by simp [strategy, herror], ?_⟩
        have hnone : fedValues ([] : List (Shard × Option (Bounded r))) = [] := rfl
        rwa [hnone, Tally.total_nil, Int.add_zero]

/-- A sum is exact if no value takes the sum of those up to it out of the range; then the sum of all is
compiled. Otherwise the values are taken up to the first that does, which is answered by an overflow. The
range holds the sum of all in the first case, and where no number is negative in no other. -/
theorem sum_exact_in_turn (fed : List (Shard × Option (Bounded r))) :
    (Tally.FitsInTurn 0 (fedValues fed) →
      ∃ total, sum.strategy.Compiles fed .empty (some total)
        ∧ total.val = Tally.total (fedValues fed))
    ∧ (¬ Tally.FitsInTurn 0 (fedValues fed) →
      ∃ front shard value back tally, fed = front ++ (shard, some value) :: back
        ∧ sum.strategy.addAll front .empty = (.ok false, tally)
        ∧ sum.strategy.add tally (some value) (some shard) = (.error Tally.sumOverflow, tally)
        ∧ ¬ r.Contains (Tally.total (fedValues front) + value.val))
    ∧ (Tally.FitsInTurn 0 (fedValues fed) → r.Contains (Tally.total (fedValues fed)))
    ∧ (r.lo = 0 → r.Contains (Tally.total (fedValues fed)) → Tally.FitsInTurn 0 (fedValues fed)) := by
  have hzero : ((Tally.empty : Tally (Bounded r)).sum).val = 0 := rfl
  refine ⟨fun hfits => ?_, fun hout => ?_, fun hfits => ?_, fun hlo hall => ?_⟩
  · obtain ⟨tally, htakes, hsum⟩ := sum_takes_in_turn fed .empty hfits
    rw [hzero, Int.zero_add] at hsum
    exact ⟨tally.sum, ⟨tally, htakes.addAll_eq, rfl⟩, hsum⟩
  · obtain ⟨front, shard, value, back, tally, hfed, hadds, hrefused, hbeyond⟩ :=
      sum_overflows fed .empty hout
    rw [hzero, Int.zero_add] at hbeyond
    exact ⟨front, shard, value, back, tally, hfed, hadds, hrefused, hbeyond⟩
  · have hall := hfits _ List.prefix_rfl
    rwa [Int.zero_add] at hall
  · refine Tally.fitsInTurn_of_total hlo le_rfl ?_
    rw [Int.zero_add]
    exact hall.2

/-- The greatest word, one and minus one come to the greatest word again, but one is refused. -/
theorem sum_overflows_on_the_way :
    let shard := Shard.mk 0 (.ofNat 0) ∅ 0
    let most : Bounded .signed32 := ⟨Int32.maxValue.toInt, by decide, by decide⟩
    let fed : List (Shard × Option (Bounded .signed32)) :=
      [(shard, some most), (shard, some ⟨1, by decide, by decide⟩),
        (shard, some ⟨-1, by decide, by decide⟩)]
    IntRange.signed32.Contains (Tally.total (fedValues fed))
      ∧ (sum.strategy.addAll fed .empty).1 = .error Tally.sumOverflow := by
  decide +kernel

/-- With minus one in front of one all three are taken; in the other order one is refused. -/
theorem sum_exact_in_turn_signed :
    let shard := Shard.mk 0 (.ofNat 0) ∅ 0
    let most : Bounded .signed32 := ⟨Int32.maxValue.toInt, by decide, by decide⟩
    let one : Bounded .signed32 := ⟨1, by decide, by decide⟩
    let less : Bounded .signed32 := ⟨-1, by decide, by decide⟩
    let fits := [(shard, some most), (shard, none), (shard, some less), (shard, some one)]
    let leaves := [(shard, some most), (shard, some one), (shard, some less)]
    Tally.FitsInTurn 0 (fedValues fits) ∧ ¬ Tally.FitsInTurn 0 (fedValues leaves)
      ∧ (∃ total, sum.strategy.Compiles fits .empty (some total) ∧ total.val = most.val)
      ∧ ∃ front origin value back tally, leaves = front ++ (origin, some value) :: back
        ∧ sum.strategy.addAll front .empty = (.ok false, tally)
        ∧ sum.strategy.add tally (some value) (some origin) = (.error Tally.sumOverflow, tally) := by
  intro shard most one less fits leaves
  have hfits : Tally.FitsInTurn 0 (fedValues fits) := by decide +kernel
  have hleaves : ¬ Tally.FitsInTurn 0 (fedValues leaves) := by decide +kernel
  obtain ⟨hexact, -⟩ := sum_exact_in_turn fits
  obtain ⟨-, hoverflow, -⟩ := sum_exact_in_turn leaves
  obtain ⟨total, hcompiles, htotal⟩ := hexact hfits
  obtain ⟨front, origin, value, back, tally, hsplit, hadds, hrefused, -⟩ := hoverflow hleaves
  exact ⟨hfits, hleaves, ⟨total, hcompiles, htotal.trans (by decide +kernel)⟩,
    front, origin, value, back, tally, hsplit, hadds, hrefused⟩

end AggregateFunction

end ScatterGather
