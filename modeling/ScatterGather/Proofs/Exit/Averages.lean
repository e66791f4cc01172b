import ScatterGather.Proofs.Binary.Precision
import ScatterGather.Proofs.Exit.Extremes

/-!
# Averages of integers

An average is formed in double precision and brought back. Where everything is exact it lies between the
least and the greatest of the integers. In general it lies between the averages of as many copies of
these, which are as precise as the roundings allow: the average of a single integer beyond the bits of a
significand may already be less than this integer.
-/

namespace ScatterGather

/-- The ranges of machine words. -/
def IntRange.words : List IntRange :=
  [.signed32, .signed64, .unsigned32, .unsigned64]

variable {r : IntRange}

theorem IntRange.bounds_of_mem_words (h : r ∈ words) : -2 ^ 64 ≤ r.lo ∧ r.hi ≤ 2 ^ 64 := by
  simp only [words, List.mem_cons, List.not_mem_nil, or_false] at h
  rcases h with rfl | rfl | rfl | rfl <;> decide

theorem Bounded.natAbs_le (h : r ∈ IntRange.words) (value : Bounded r) :
    value.val.natAbs ≤ 2 ^ 64 := by
  have hbounds := IntRange.bounds_of_mem_words h
  have hvalue := value.contains
  rw [IntRange.Contains] at hvalue
  omega

/-- A number is brought back to the nearest integer of the range towards zero. -/
theorem Bounded.val_ofDouble (x : Double) :
    (Aggregable.ofDouble x : Bounded r).val = x.truncate r.lo r.hi := by
  have hmem : r.lo ≤ x.truncate r.lo r.hi ∧ x.truncate r.lo r.hi ≤ r.hi := by
    have hlo := r.lo_nonpos
    have hhi := r.hi_nonneg
    unfold Binary.truncate
    split <;> omega
  change ((Bounded.ofInt? (x.truncate r.lo r.hi)).getD .zero : Bounded r).val = _
  rw [Bounded.ofInt?, dif_pos hmem]
  rfl

namespace Tally

/-! ## The sum in double precision -/

/-- The integers are rounded and summed up in turn, and they are counted. -/
theorem foldl_withoutSum (hr : r ∈ IntRange.words) (values : List (Bounded r))
    (tally : Tally (Bounded r)) (h : tally.doubleSum.isNaN = false) :
    let last := values.foldl withoutSum tally
    last.doubleSum.isNaN = false
      ∧ last.doubleSum.units
        = (values.map fun value => Format.double.whole value.val).foldl Format.double.plus
          tally.doubleSum.units
      ∧ last.count = tally.count + values.length := by
  induction values generalizing tally with
  | nil => exact ⟨h, rfl, rfl⟩
  | cons value values ih =>
    have hsize := value.natAbs_le hr
    obtain ⟨hnumber, hunits⟩ := Binary.units_ofInt (f := .double) value.val
    have hfinite : ¬ Format.double.IsTop (Binary.ofInt value.val : Double).units := by
      rw [hunits]
      exact Format.whole_finite (by omega)
    obtain ⟨hsum, hsumUnits⟩ := Binary.units_add h hnumber hfinite
    obtain ⟨hlast, hlastUnits, hcount⟩ := ih (tally.withoutSum value) hsum
    have hstart : (tally.withoutSum value).doubleSum.units
        = Format.double.plus tally.doubleSum.units (Format.double.whole value.val) := by
      rw [hunits] at hsumUnits
      exact hsumUnits
    have hone : (tally.withoutSum value).count = tally.count + 1 := rfl
    rw [hstart] at hlastUnits
    rw [hone] at hcount
    exact ⟨hlast, hlastUnits, by rw [List.foldl_cons, hcount, List.length_cons]; omega⟩

end Tally

namespace AggregateFunction

/-! ## Extremes -/

/-- Of integers one of the lowest rank is left. -/
theorem foldl_extreme_eq {beats : Bounded r → Bounded r → Bool} {rank : Bounded r → Int}
    (h : ∀ a b, beats a b = decide (rank a < rank b)) {values : List (Bounded r)} (hne : values ≠ []) :
    ∃ best, values.foldl (Tally.extreme beats) none = some best
      ∧ ∀ value ∈ values, rank best ≤ rank value := by
  obtain ⟨first, values, rfl⟩ := List.exists_cons_of_ne_nil hne
  have hbeats (a b : Bounded r) : beats a b = true ↔ True ∧ True ∧ rank a < rank b := by simp [h]
  obtain ⟨best, -, hfold, -, hbest⟩ := Tally.foldl_extreme_best hbeats trivial values
  exact ⟨best, hfold, fun value hvalue => hbest value hvalue trivial⟩

theorem min_compiles {fed : List (Shard × Option (Bounded r))} (hvalues : fedValues fed ≠ []) :
    ∃ least, min.strategy.Compiles fed .empty (some least)
      ∧ ∀ value ∈ fedValues fed, least.val ≤ value.val := by
  have hbeats (a b : Bounded r) : Aggregable.lt a b = decide (a.val < b.val) := rfl
  obtain ⟨least, hfold, hleast⟩ := foldl_extreme_eq hbeats hvalues
  have hfn : min ≠ .sum := by simp
  obtain ⟨last, hadds, hmin, -⟩ := addAll_extremes hfn fed (.empty : Tally (Bounded r))
  exact ⟨least, ⟨last, hadds, congrArg Except.ok (hmin.trans hfold)⟩, hleast⟩

theorem max_compiles {fed : List (Shard × Option (Bounded r))} (hvalues : fedValues fed ≠ []) :
    ∃ greatest, max.strategy.Compiles fed .empty (some greatest)
      ∧ ∀ value ∈ fedValues fed, value.val ≤ greatest.val := by
  have hbeats (a b : Bounded r) : Aggregable.lt b a = decide (-a.val < -b.val) :=
    decide_eq_decide.mpr Int.neg_lt_neg_iff.symm
  obtain ⟨greatest, hfold, hgreatest⟩ := foldl_extreme_eq hbeats hvalues
  have hfn : max ≠ .sum := by simp
  obtain ⟨last, hadds, -, hmax⟩ := addAll_extremes hfn fed (.empty : Tally (Bounded r))
  exact ⟨greatest, ⟨last, hadds, congrArg Except.ok (hmax.trans hfold)⟩,
    fun value hvalue => Int.neg_le_neg_iff.mp (hgreatest value hvalue)⟩

/-! ## Averages -/

/-- An average is brought back from the quotient of the rounded sum and the rounded number. -/
theorem truncate_div_ofInt {x : Double} (hx : x.isNaN = false) {n : Nat} (hn : 0 < n) :
    (x.div (Binary.ofInt n)).truncate r.lo r.hi =
      if Format.double.IsTop (Format.double.whole n) then 0
      else Format.double.truncated r.lo r.hi
        (Format.double.per x.units (Format.double.whole n).natAbs) := by
  obtain ⟨hnumber, hunits⟩ := Binary.units_ofInt (f := .double) n
  have hwhole : (Binary.ofInt n : Double).units = Format.double.whole n := hunits
  split
  case isTrue htop =>
    rw [← hwhole, Binary.isTop_units] at htop
    exact Binary.truncate_div_infinite hx htop r.lo_nonpos r.hi_nonneg
  case isFalse hfinite =>
    have hpos : 0 < Format.double.whole n := by
      have hone : Format.double.whole 1 = 1 * Format.double.one :=
        Format.whole_exact (e := 0) (by decide) (by simp) (by simp)
      calc 0 < 1 * (Format.double.one : Int) := by
            rw [Int.one_mul]
            exact Int.natCast_pos.mpr Format.double.one_pos
        _ = Format.double.whole 1 := hone.symm
        _ ≤ Format.double.whole n := Format.double.whole_mono (by omega)
    rw [← hwhole] at hfinite hpos ⊢
    obtain ⟨hquotient, hquotientUnits⟩ := Binary.units_div hx hnumber hfinite hpos
    rw [Binary.truncate_eq hquotient, hquotientUnits]
    rfl

/-- What the average of some integers is. -/
theorem average_compiles (hr : r ∈ IntRange.words) {fed : List (Shard × Option (Bounded r))}
    (hvalues : fedValues fed ≠ []) :
    ∃ average, avg.strategy.Compiles fed .empty (some average)
      ∧ average.val = Format.double.average r.lo r.hi ((fedValues fed).map Bounded.val) := by
  obtain ⟨hzero, hzeroUnits⟩ :
      (Binary.zero : Double).isNaN = false ∧ (Binary.zero : Double).units = 0 := by
    decide
  obtain ⟨hsum, hsumUnits, hcount⟩ := Tally.foldl_withoutSum hr (fedValues fed) .empty hzero
  have hfn : avg ≠ .sum := by simp
  have hadds := addAll_eq hfn fed (.empty : Tally (Bounded r))
  have hlength : 0 < (fedValues fed).length := List.length_pos_iff.mpr hvalues
  have hempty : (Tally.empty : Tally (Bounded r)).count = 0 := rfl
  rw [hempty, Nat.zero_add] at hcount
  generalize (fedValues fed).foldl Tally.withoutSum .empty = last at hsum hsumUnits hcount hadds
  refine ⟨Aggregable.ofDouble (last.doubleSum.div (Binary.ofInt last.count)), ⟨last, hadds, ?_⟩, ?_⟩
  · simp [strategy, Tally.compile, hcount, hlength.ne']
  · have htotal : last.doubleSum.units = Format.double.total
        (((fedValues fed).map Bounded.val).map Format.double.whole) := by
      rw [hsumUnits, Format.total, List.map_map, ← hzeroUnits]
      rfl
    rw [Bounded.val_ofDouble, hcount, truncate_div_ofInt hsum hlength, htotal]
    simp only [Format.average, List.length_map]

/-- The same results, with one value in place of all. -/
def levelled (fed : List (Shard × Option (Bounded r))) (value : Bounded r) :
    List (Shard × Option (Bounded r)) :=
  fed.map fun result => (result.1, result.2.map fun _ => value)

theorem fedValues_levelled (fed : List (Shard × Option (Bounded r))) (value : Bounded r) :
    fedValues (levelled fed value) = List.replicate (fedValues fed).length value := by
  rw [fedValues, levelled, List.filterMap_map, ← List.map_const', fedValues, List.map_filterMap]
  rfl

/-- What the average of equal integers is. -/
theorem levelled_compiles (hr : r ∈ IntRange.words) {fed : List (Shard × Option (Bounded r))}
    (hvalues : fedValues fed ≠ []) (value : Bounded r) :
    ∃ average, avg.strategy.Compiles (levelled fed value) .empty (some average)
      ∧ average.val
        = Format.double.average r.lo r.hi (List.replicate (fedValues fed).length value.val) := by
  have hlevelled : fedValues (levelled fed value) ≠ [] := by
    rw [fedValues_levelled]
    simpa using hvalues
  have hcompiles := average_compiles hr hlevelled
  rwa [fedValues_levelled, List.map_replicate] at hcompiles

/-- Whether the sum of `n` copies of an integer takes no more bits than a significand has, zeros at its
end apart. Then all sums on the way are exact in double precision. -/
def AddsExactly (n : Nat) (value : Int) : Prop :=
  ∃ e, 2 ^ e ∣ value.natAbs ∧ n * value.natAbs ≤ 2 ^ (53 + e)

/-- The least, the average and the greatest of some integers are all compiled. The average lies between
those of the same results with the least or the greatest value in place of all. It is not less than the
least value if as many copies of this as there are values add up exactly, and not greater than the
greatest value if as many copies of that do; so the average of equal values is this value then. In
general it is less or greater by less than one and so many parts of a significand as there are values,
and three. -/
theorem average_between (hr : r ∈ IntRange.words) {fed : List (Shard × Option (Bounded r))}
    (hvalues : fedValues fed ≠ []) :
    ∃ least average greatest, min.strategy.Compiles fed .empty (some least)
      ∧ avg.strategy.Compiles fed .empty (some average)
      ∧ max.strategy.Compiles fed .empty (some greatest)
      ∧ (∃ low high, avg.strategy.Compiles (levelled fed least) .empty (some low)
        ∧ avg.strategy.Compiles (levelled fed greatest) .empty (some high)
        ∧ low.val ≤ average.val ∧ average.val ≤ high.val)
      ∧ let n := (fedValues fed).length
        (AddsExactly n least.val → least.val ≤ average.val)
        ∧ (AddsExactly n greatest.val → average.val ≤ greatest.val)
        ∧ (AddsExactly n least.val → least = greatest → average = least)
        ∧ 2 ^ 52 * (least.val - average.val) < (n + 3) * |least.val| + 2 ^ 52
        ∧ 2 ^ 52 * (average.val - greatest.val) < (n + 3) * |greatest.val| + 2 ^ 52 := by
  obtain ⟨least, hmin, hleast⟩ := min_compiles hvalues
  obtain ⟨greatest, hmax, hgreatest⟩ := max_compiles hvalues
  obtain ⟨average, havg, haverage⟩ := average_compiles hr hvalues
  obtain ⟨low, hlow, hlowVal⟩ := levelled_compiles hr hvalues least
  obtain ⟨high, hhigh, hhighVal⟩ := levelled_compiles hr hvalues greatest
  have hn : 0 < (fedValues fed).length := List.length_pos_iff.mpr hvalues
  obtain ⟨hlo, hhi⟩ := IntRange.bounds_of_mem_words hr
  have hexact (value : Bounded r) (h : AddsExactly (fedValues fed).length value.val) :
      Format.double.average r.lo r.hi (List.replicate (fedValues fed).length value.val)
        = value.val := by
    obtain ⟨e, hzeros, hle⟩ := h
    exact Format.average_exact value.lo_le value.le_hi r.lo_nonpos r.hi_nonneg (value.natAbs_le hr) hn
      hzeros hle
  have hclose (value : Bounded r) := Format.average_close value.lo_le value.le_hi r.lo_nonpos
    r.hi_nonneg hlo hhi hn
  have hlowLe : low.val ≤ average.val := by
    rw [hlowVal, haverage, ← List.length_map (f := Bounded.val)]
    exact Format.double.average_replicate_le (List.forall_mem_map.mpr hleast) r.lo r.hi
  have hleHigh : average.val ≤ high.val := by
    rw [hhighVal, haverage, ← List.length_map (f := Bounded.val)]
    exact Format.double.le_average_replicate (List.forall_mem_map.mpr hgreatest) r.lo r.hi
  refine ⟨least, average, greatest, hmin, havg, hmax, ⟨low, high, hlow, hhigh, hlowLe, hleHigh⟩,
    fun h => ?_, fun h => ?_, fun h heq => ?_, ?_, ?_⟩
  · rwa [hlowVal, hexact least h] at hlowLe
  · rwa [hhighVal, hexact greatest h] at hleHigh
  · rw [hlowVal, hexact least h] at hlowLe
    rw [hhighVal, ← heq, hexact least h] at hleHigh
    exact Bounded.ext_val (Int.le_antisymm hleHigh hlowLe)
  · have hprecise := hclose least
    have habs := neg_le_abs (low.val - least.val)
    rw [← hlowVal] at hprecise
    omega
  · have hprecise := hclose greatest
    have habs := le_abs_self (high.val - greatest.val)
    rw [← hhighVal] at hprecise
    omega

/-- Two copies of a signed word of 32 bits always add up exactly. -/
theorem average_between_signed :
    let shard := Shard.mk 0 (.ofNat 0) ∅ 0
    let seven : Bounded .signed32 := ⟨7, by decide, by decide⟩
    let less : Bounded .signed32 := ⟨-2, by decide, by decide⟩
    let fed := [(shard, some seven), (shard, none), (shard, some less)]
    IntRange.signed32 ∈ IntRange.words ∧ fedValues fed ≠ []
      ∧ ∃ least average greatest, min.strategy.Compiles fed .empty (some least)
        ∧ avg.strategy.Compiles fed .empty (some average)
        ∧ max.strategy.Compiles fed .empty (some greatest)
        ∧ least.val ≤ average.val ∧ average.val ≤ greatest.val := by
  intro shard seven less fed
  have hword : IntRange.signed32 ∈ IntRange.words := by simp [IntRange.words]
  have hvalues : fedValues fed ≠ [] := List.cons_ne_nil seven [less]
  obtain ⟨least, average, greatest, hmin, havg, hmax, -, hlow, hhigh, -⟩ := average_between hword hvalues
  have hadds (value : Bounded .signed32) : AddsExactly 2 value.val := by
    have hbounds : IntRange.signed32.lo = -2 ^ 31 ∧ IntRange.signed32.hi = 2 ^ 31 - 1 := by decide
    have hvalue := value.contains
    rw [IntRange.Contains] at hvalue
    exact ⟨0, one_dvd _, by omega⟩
  exact ⟨hword, hvalues, least, average, greatest, hmin, havg, hmax, hlow (hadds least),
    hhigh (hadds greatest)⟩

/-- The average of a single integer of one bit more than a significand is less than this integer. -/
theorem average_below_least :
    let shard := Shard.mk 0 (.ofNat 0) ∅ 0
    let value : Bounded .signed64 := ⟨2 ^ 53 + 1, by decide, by decide⟩
    let fed := [(shard, some value)]
    ∃ least average : Bounded .signed64, min.strategy.Compiles fed .empty (some least)
      ∧ avg.strategy.Compiles fed .empty (some average) ∧ average.val < least.val := by
  intro shard value fed
  have hword : IntRange.signed64 ∈ IntRange.words := by simp [IntRange.words]
  have hvalues : fedValues fed ≠ [] := List.cons_ne_nil value []
  obtain ⟨average, havg, haverage⟩ := average_compiles hword hvalues
  have hrounded : Format.double.average IntRange.signed64.lo IntRange.signed64.hi [2 ^ 53 + 1]
      = 2 ^ 53 := by
    decide +kernel
  refine ⟨value, average, ⟨_, rfl, rfl⟩, havg, ?_⟩
  calc average.val = 2 ^ 53 := haverage.trans hrounded
    _ < value.val := by decide

end AggregateFunction

end ScatterGather
