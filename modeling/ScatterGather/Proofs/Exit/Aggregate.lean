import Mathlib.Algebra.Order.BigOperators.Group.List
import Mathlib.Algebra.Order.Ring.Int
import ScatterGather.Exit.Aggregate
import ScatterGather.Proofs.Access.Immediate

/-!
# Aggregates that do not depend on the order

Counts and extremes take every value, and come to the same for the same values in any order. A
checked sum may be cut short, at a different value in each order. Where no number is negative the
partial sums only grow, though: if one of them leaves the range, so does the sum of all, and whether
that fits does not depend on the order either. So a concurrent call returns what visiting the shards
as given returns, an overflow included.
-/

namespace ScatterGather

variable {ω : Type} {r : IntRange}

/-- The range holds an integer. -/
def IntRange.Contains (r : IntRange) (n : Int) : Prop :=
  r.lo ≤ n ∧ n ≤ r.hi

instance (r : IntRange) (n : Int) : Decidable (r.Contains n) :=
  inferInstanceAs (Decidable (_ ∧ _))

theorem Bounded.contains (value : Bounded r) : r.Contains value.val :=
  ⟨value.lo_le, value.le_hi⟩

theorem Bounded.ext_val {a b : Bounded r} (h : a.val = b.val) : a = b := by
  cases a
  cases b
  cases h
  rfl

namespace Tally

/-! ## Values in any order -/

/-- The sum of some numbers, whether or not it fits. -/
def total (values : List (Bounded r)) : Int :=
  (values.map Bounded.val).sum

@[simp]
theorem total_nil : total ([] : List (Bounded r)) = 0 :=
  rfl

theorem total_cons (value : Bounded r) (values : List (Bounded r)) :
    total (value :: values) = value.val + total values := by
  simp [total]

theorem total_concat (values : List (Bounded r)) (value : Bounded r) :
    total (values ++ [value]) = total values + value.val := by
  simp [total]

theorem total_perm {values values' : List (Bounded r)} (h : values.Perm values') :
    total values = total values' :=
  (h.map Bounded.val).sum_eq

/-- Some of the numbers do not come to more than all of them, if none is negative. -/
theorem total_le_of_subperm (hlo : r.lo = 0) {some all : List (Bounded r)}
    (h : some.Subperm all) : total some ≤ total all := by
  obtain ⟨front, hperm, hsublist⟩ := h
  rw [← total_perm hperm]
  apply (hsublist.map Bounded.val).sum_le_sum
  intro n hn
  obtain ⟨value, -, rfl⟩ := List.mem_map.mp hn
  exact hlo ▸ value.lo_le

/-- From `start` on, no value takes the sum of those up to it out of the range. -/
def FitsInTurn (start : Int) (values : List (Bounded r)) : Prop :=
  ∀ front, front <+: values → r.Contains (start + total front)

theorem FitsInTurn.contains {start : Int} {values : List (Bounded r)} (h : FitsInTurn start values) :
    r.Contains start := by
  have hnone := h [] List.nil_prefix
  rwa [total_nil, Int.add_zero] at hnone

theorem fitsInTurn_nil {start : Int} (h : r.Contains start) :
    FitsInTurn start ([] : List (Bounded r)) := by
  intro front hfront
  rwa [List.prefix_nil.mp hfront, total_nil, Int.add_zero]

theorem fitsInTurn_cons {start : Int} {value : Bounded r} {values : List (Bounded r)} :
    FitsInTurn start (value :: values) ↔
      r.Contains start ∧ FitsInTurn (start + value.val) values := by
  constructor
  · intro h
    refine ⟨h.contains, fun front hfront => ?_⟩
    rw [Int.add_assoc, ← total_cons]
    exact h (value :: front) (List.cons_prefix_cons.mpr ⟨rfl, hfront⟩)
  · rintro ⟨hstart, h⟩ front hfront
    cases front with
    | nil => rwa [total_nil, Int.add_zero]
    | cons first front =>
      obtain ⟨rfl, hrest⟩ := List.cons_prefix_cons.mp hfront
      rw [total_cons, ← Int.add_assoc]
      exact h front hrest

/-- Where no number is negative, partial sums fit if the sum of all does. -/
theorem fitsInTurn_of_total (hlo : r.lo = 0) {start : Int} (hstart : 0 ≤ start)
    {values : List (Bounded r)} (hfits : start + total values ≤ r.hi) : FitsInTurn start values := by
  intro front hfront
  have hnonneg := total_le_of_subperm hlo (List.nil_subperm (l := front))
  have hle := total_le_of_subperm hlo hfront.sublist.subperm
  rw [total_nil] at hnonneg
  exact ⟨by omega, by omega⟩

/-- It does not matter in which order two values contend, if only equal ones are on a par. -/
theorem extreme_comm {α : Type} {beats : α → α → Bool} (key : α → Int)
    (hbeats : ∀ a b, beats a b = decide (key a < key b)) (hkey : ∀ a b, key a = key b → a = b)
    (best : Option α) (a b : α) :
    extreme beats (extreme beats best a) b = extreme beats (extreme beats best b) a := by
  cases best with
  | none =>
    simp only [extreme, hbeats, decide_eq_true_eq]
    split
    · rw [if_neg (by omega)]
    · split
      · rfl
      · exact congrArg some (hkey a b (by omega))
  | some best =>
    by_cases ha : key a < key best
    · by_cases hb : key b < key best
      · simp only [extreme, hbeats, decide_eq_true_eq, if_pos ha, if_pos hb]
        split
        · rw [if_neg (by omega)]
        · split
          · rfl
          · exact congrArg some (hkey a b (by omega))
      · simp only [extreme, hbeats, decide_eq_true_eq, if_pos ha, if_neg hb]
        rw [if_neg (by omega)]
    · by_cases hb : key b < key best
      · simp only [extreme, hbeats, decide_eq_true_eq, if_neg ha, if_pos hb]
        rw [if_neg (by omega)]
      · simp only [extreme, hbeats, decide_eq_true_eq, if_neg ha, if_neg hb]

/-- The least of some numbers, as it is kept. -/
def least (values : List (Bounded r)) : Option (Bounded r) :=
  values.foldl (extreme Aggregable.lt) none

/-- The greatest of some numbers, as it is kept. -/
def greatest (values : List (Bounded r)) : Option (Bounded r) :=
  values.foldl (extreme fun a b => Aggregable.lt b a) none

theorem least_perm {values values' : List (Bounded r)} (h : values.Perm values') :
    least values = least values' := by
  refine h.foldl_eq' ?_ none
  intro a _ b _ best
  exact extreme_comm (·.val) (fun _ _ => rfl) (fun _ _ => Bounded.ext_val) best a b

theorem greatest_perm {values values' : List (Bounded r)} (h : values.Perm values') :
    greatest values = greatest values' := by
  refine h.foldl_eq' ?_ none
  intro a _ b _ best
  refine extreme_comm (-·.val) ?_ ?_ best a b
  · intro a b
    exact decide_eq_decide.mpr (by omega)
  · intro a b hsame
    exact Bounded.ext_val (by omega)

/-! ## What was tallied -/

/-- A tally of some values. The sum is kept only where it is asked for. -/
structure Holds (fn : AggregateFunction) (values : List (Bounded r)) (tally : Tally (Bounded r)) :
    Prop where
  sum : fn = .sum → tally.sum.val = total values
  count : tally.count = values.length
  min : tally.min = least values
  max : tally.max = greatest values

theorem Holds.empty (fn : AggregateFunction) : Holds fn [] (.empty : Tally (Bounded r)) :=
  ⟨fun _ => rfl, rfl, rfl, rfl⟩

/-- The order of the values is forgotten. -/
theorem Holds.perm {fn : AggregateFunction} {values values' : List (Bounded r)}
    {tally : Tally (Bounded r)} (h : Holds fn values tally) (hperm : values.Perm values') :
    Holds fn values' tally where
  sum := by
    intro hfn
    rw [← total_perm hperm]
    exact h.sum hfn
  count := by rw [h.count, hperm.length_eq]
  min := by rw [h.min, least_perm hperm]
  max := by rw [h.max, greatest_perm hperm]

theorem Holds.withValue {fn : AggregateFunction} {values : List (Bounded r)}
    {tally : Tally (Bounded r)} (h : Holds fn values tally) {value sum : Bounded r}
    (hsum : fn = .sum → sum.val = tally.sum.val + value.val) :
    Holds fn (values ++ [value]) (tally.withValue value sum) where
  sum := by
    intro hfn
    rw [total_concat, ← h.sum hfn]
    exact hsum hfn
  count := by simp [Tally.withValue, h.count]
  min := by simp [Tally.withValue, least, h.min]
  max := by simp [Tally.withValue, greatest, h.max]

theorem ofInt?_eq_some {n : Int} {value : Bounded r} (h : Bounded.ofInt? n = some value) :
    value.val = n := by
  unfold Bounded.ofInt? at h
  split at h
  · obtain rfl := Option.some.inj h
    rfl
  · cases h

/-- A sum fits, or nothing of the value is kept. -/
theorem add_sum_cases (tally : Tally (Bounded r)) (value : Bounded r) :
    (∃ sum : Bounded r, tally.add .sum value = .ok (tally.withValue value sum)
      ∧ sum.val = tally.sum.val + value.val) ∨
      tally.add .sum value = .error sumOverflow ∧ ¬ r.Contains (tally.sum.val + value.val) := by
  unfold Tally.add
  simp only
  cases hadd : Aggregable.add? tally.sum value with
  | some sum => exact .inl ⟨sum, rfl, ofInt?_eq_some hadd⟩
  | none =>
    refine .inr ⟨rfl, fun ⟨hlow, hhigh⟩ => ?_⟩
    have hadd : Bounded.ofInt? (tally.sum.val + value.val) = (none : Option (Bounded r)) := hadd
    rw [Bounded.ofInt?, dif_pos ⟨hlow, hhigh⟩] at hadd
    cases hadd

/-- Where no number is negative, a sum that does not fit is too great. -/
theorem add_cases (hlo : r.lo = 0) (tally : Tally (Bounded r)) (value : Bounded r) :
    (∃ sum : Bounded r, tally.add .sum value = .ok (tally.withValue value sum)
      ∧ sum.val = tally.sum.val + value.val) ∨
      tally.add .sum value = .error sumOverflow ∧ r.hi < tally.sum.val + value.val := by
  have hsum := tally.sum.lo_le
  have hvalue := value.lo_le
  refine (tally.add_sum_cases value).imp_right fun ⟨herror, hout⟩ => ⟨herror, ?_⟩
  rw [IntRange.Contains] at hout
  omega

end Tally

namespace AggregateFunction

/-- The function comes to the same for the same numbers of a range in any order. -/
def OrderFree (r : IntRange) : AggregateFunction → Prop
  | count | min | max => True
  | sum => r.lo = 0
  | avg => False

/-- All values are tallied, unless the sum of those so far is too great. -/
theorem adds_cases {fn : AggregateFunction} (hfn : fn.OrderFree r)
    {fed : List (Shard × Option (Bounded r))} {answer : Except ShardError Bool}
    {tally : Tally (Bounded r)} (h : fn.strategy.Adds .empty fed answer tally) :
    (answer = .ok false ∧ tally.Holds fn (fedValues fed)) ∨
      fn = .sum ∧ answer = .error Tally.sumOverflow ∧ r.hi < Tally.total (fedValues fed) := by
  induction h with
  | nil => exact .inl ⟨rfl, .empty fn⟩
  | @concat fed tally before shard result ih =>
    rcases ih with ⟨-, hholds⟩ | ⟨-, herror, -⟩
    case inr => cases herror
    rw [fedValues_concat]
    cases result with
    | none =>
      rw [Option.toList_none, List.append_nil]
      exact .inl ⟨rfl, hholds⟩
    | some value =>
      simp only [Option.toList_some, strategy]
      cases fn with
      | sum =>
        rcases tally.add_cases hfn value with ⟨sum, hadd, hsum⟩ | ⟨hadd, hover⟩
        · rw [hadd]
          exact .inl ⟨rfl, hholds.withValue fun _ => hsum⟩
        · rw [hadd, Tally.total_concat, ← hholds.sum rfl]
          exact .inr ⟨rfl, rfl, hover⟩
      | count | min | max => exact .inl ⟨rfl, hholds.withValue (by simp)⟩
      | avg => exact hfn.elim

/-- Tallies of the same values compile alike. -/
theorem compile_eq {fn : AggregateFunction} (hfn : fn.OrderFree r) {values : List (Bounded r)}
    {tally tally' : Tally (Bounded r)} (h : tally.Holds fn values) (h' : tally'.Holds fn values) :
    tally.compile fn = tally'.compile fn := by
  cases fn with
  | sum =>
    have hsum : tally.sum = tally'.sum := by
      apply Bounded.ext_val
      rw [h.sum rfl, h'.sum rfl]
    simp only [Tally.compile, hsum]
  | count => simp only [Tally.compile, h.count, h'.count]
  | min => simp only [Tally.compile, h.min, h'.min]
  | max => simp only [Tally.compile, h.max, h'.max]
  | avg => exact hfn.elim

/-! ## Calls -/

/-- What the values of a call come to: the compiled tally of all of them, or an overflow, if their
sum is too great. -/
inductive ComesTo (fn : AggregateFunction) (collector : Option (Collector (Option (Bounded r))))
    (values : List (Bounded r)) : Except CallError (Option (Bounded r)) → Prop where
  | compiled {tally : Tally (Bounded r)} (holds : tally.Holds fn values) :
      ComesTo fn collector values (fn.strategy.ending collector (.ok false) tally).1
  | overflow (hsum : fn = .sum) (exceeds : r.hi < Tally.total values) :
      ComesTo fn collector values (.error (.shard Tally.sumOverflow))

section

variable {fn : AggregateFunction} {collector : Option (Collector (Option (Bounded r)))}

theorem ComesTo.perm {values values' : List (Bounded r)}
    {result : Except CallError (Option (Bounded r))} (h : ComesTo fn collector values result)
    (hperm : values.Perm values') : ComesTo fn collector values' result := by
  cases h with
  | compiled holds => exact .compiled (holds.perm hperm)
  | overflow hsum exceeds => exact .overflow hsum (Tally.total_perm hperm ▸ exceeds)

/-- Values come to one result. -/
theorem ComesTo.unique {values : List (Bounded r)} (hfn : fn.OrderFree r)
    {result result' : Except CallError (Option (Bounded r))} (h : ComesTo fn collector values result)
    (h' : ComesTo fn collector values result') : result = result' := by
  have hfits {tally : Tally (Bounded r)} (hsum : fn = .sum) (holds : tally.Holds fn values) :
      Tally.total values ≤ r.hi := by
    rw [← holds.sum hsum]
    exact tally.sum.le_hi
  cases h with
  | @compiled tally holds =>
    cases h' with
    | @compiled tally' holds' =>
      have hcompile := compile_eq hfn holds holds'
      cases collector with
      | none => simp [ExitStrategy.ending, ExitStrategy.compileWith, strategy, hcompile]
      | some collector => simp [ExitStrategy.ending, ExitStrategy.compileWith, strategy, hcompile]
    | overflow hsum exceeds => exact absurd (hfits hsum holds) (Int.not_le.mpr exceeds)
  | overflow hsum exceeds =>
    cases h' with
    | @compiled tally' holds' => exact absurd (hfits hsum holds') (Int.not_le.mpr exceeds)
    | overflow => rfl

variable {outcome : Shard → Except Mishap (Option (Bounded r))} {ordered : List Shard}
variable {places : List Nat} {fed : List (Shard × Option (Bounded r))}
variable {answer : Except ShardError Bool} {initial tally : Tally (Bounded r)}

/-- A settled call was fed all values, or some of them were too much already. -/
theorem settled_comesTo {call : Outcome ω (Tally (Bounded r)) (Option (Bounded r))}
    (hfn : fn.OrderFree r)
    (hfeed : Feed ordered outcome fn.strategy .empty places fed answer tally)
    (hsettled : call.Settled ordered fn.strategy collector places answer tally) :
    ComesTo fn collector (contributions outcome ordered) call.result := by
  have hresult := congrArg Prod.fst hsettled.ending
  simp only at hresult
  rw [hresult]
  rcases adds_cases hfn hfeed.adds with ⟨rfl, hholds⟩ | ⟨hsum, rfl, hover⟩
  · exact .compiled (hholds.perm (hfeed.values_perm (hsettled.fed rfl)))
  · refine .overflow hsum (Int.lt_of_lt_of_le hover ?_)
    subst hsum
    exact Tally.total_le_of_subperm hfn hfeed.values_subperm

variable [Journaled ω] {operation : Operation ω (Bounded r)} {world : ω} {access : AccessStrategy}
variable {call : Outcome ω (Tally (Bounded r)) (Option (Bounded r))}

/-- A call in which no operation fails returns what the values come to. -/
theorem mayReturn_comesTo (hfn : fn.OrderFree r)
    (determined : ∀ shard world, (operation.run shard world).1 = outcome shard)
    {shards : List Shard} (hall : ∀ shard ∈ shards, ∃ result, outcome shard = .ok result)
    (hdispatches : access.Dispatches shards ordered)
    (h : access.MayReturn shards operation fn.strategy collector .empty world call) :
    ComesTo fn collector (contributions outcome shards) call.result := by
  obtain ⟨places, fed, answer, state, hfeed, hsettled⟩ := h.settled determined hall hdispatches
  exact (settled_comesTo hfn hfeed hsettled).perm (hdispatches.perm.filterMap _)

end

/-- A sum takes all values, if none of them takes it out of the range. -/
theorem sum_takes_in_turn (fed : List (Shard × Option (Bounded r))) (tally : Tally (Bounded r))
    (hfits : Tally.FitsInTurn tally.sum.val (fedValues fed)) :
    ∃ tally', sum.strategy.Takes fed tally false tally'
      ∧ tally'.sum.val = tally.sum.val + Tally.total (fedValues fed) := by
  induction fed generalizing tally with
  | nil => exact ⟨tally, .nil tally, (Int.add_zero _).symm⟩
  | cons head fed ih =>
    obtain ⟨shard, result⟩ := head
    cases result with
    | none =>
      obtain ⟨tally', htakes, hsum⟩ := ih tally hfits
      exact ⟨tally', .more rfl htakes, hsum⟩
    | some value =>
      have hvalues : fedValues ((shard, some value) :: fed) = value :: fedValues fed := rfl
      rw [hvalues] at hfits ⊢
      obtain ⟨-, hrest⟩ := Tally.fitsInTurn_cons.mp hfits
      rcases tally.add_sum_cases value with ⟨sum, hadd, hsum⟩ | ⟨-, hout⟩
      · have hnext : (tally.withValue value sum).sum.val = tally.sum.val + value.val := hsum
        obtain ⟨tally', htakes, hsum'⟩ := ih (tally.withValue value sum) (hnext ▸ hrest)
        refine ⟨tally', .more (by simp [strategy, hadd]) htakes, ?_⟩
        rw [hsum', hnext, Int.add_assoc, ← Tally.total_cons]
      · exact absurd hrest.contains hout

/-- A sum takes all values, if none is negative and they fit together. -/
theorem sum_takes (hlo : r.lo = 0) (fed : List (Shard × Option (Bounded r)))
    (tally : Tally (Bounded r)) (hfits : tally.sum.val + Tally.total (fedValues fed) ≤ r.hi) :
    ∃ tally', sum.strategy.Takes fed tally false tally'
      ∧ tally'.sum.val = tally.sum.val + Tally.total (fedValues fed) :=
  sum_takes_in_turn fed tally (Tally.fitsInTurn_of_total hlo (hlo ▸ tally.sum.lo_le) hfits)

end AggregateFunction

/-- Counts and extremes of integers, and sums of integers none of which is negative, are the same
however the shards are dispatched: a concurrent call in which no operation fails returns what
visiting the shards as given returns, an overflow included. It does so in every schedule, and so
whatever the delays are. -/
theorem AccessStrategy.aggregates_agree [Journaled ω] {fn : AggregateFunction}
    (order_free : fn.OrderFree r) {operation : Operation ω (Bounded r)}
    {outcome : Shard → Except Mishap (Option (Bounded r))}
    (determined : ∀ shard world, (operation.run shard world).1 = outcome shard)
    {shards : List Shard} (nonempty : shards ≠ [])
    (succeeds : ∀ shard ∈ shards, ∃ result, outcome shard = .ok result)
    {access : ParallelAccess} (admitted : access.permits ≤ maxPermits)
    (rearranges : ∀ pick, access.ordering = .custom pick → (pick shards).Perm shards)
    (collector : Option (Collector (Option (Bounded r)))) (world world' : ω) :
    let visited := ((sequential .input).apply shards operation fn.strategy collector .empty world').1
    ((parallel access).apply shards operation fn.strategy collector .empty world).1.result
        = visited.result
      ∧ ∀ call, (parallel access).MayReturn shards operation fn.strategy collector .empty world call →
        call.result = visited.result := by
  intro visited
  have hnonempty : shards.isEmpty = false := List.isEmpty_eq_false_iff.mpr nonempty
  have hvisits : (sequential .input).Dispatches shards shards := by
    refine ⟨?_, rfl⟩
    simp [refusal?, hnonempty]
  obtain ⟨ordered, horder⟩ := ShardOrdering.order_ok rearranges
  have hdispatches : (parallel access).Dispatches shards ordered := by
    refine ⟨?_, horder⟩
    simp [refusal?, hnonempty, Nat.not_lt.mpr admitted]
  have hvisited := AggregateFunction.mayReturn_comesTo order_free determined succeeds hvisits
    (apply_mayReturn (sequential .input) shards operation fn.strategy collector .empty world')
  have hagree : ∀ call,
      (parallel access).MayReturn shards operation fn.strategy collector .empty world call →
        call.result = visited.result := by
    intro call hcall
    have hcomes :=
      AggregateFunction.mayReturn_comesTo order_free determined succeeds hdispatches hcall
    exact hcomes.unique order_free hvisited
  exact ⟨hagree _ (apply_mayReturn ..), hagree⟩

/-- A sum that overflows at the second shard as given, and at the first one in order of completion. -/
theorem AccessStrategy.aggregates_agree_overflow :
    let shard := fun handle => Shard.mk handle (.ofNat handle) ∅ 0
    let shards := [shard 1, shard 2, shard 0]
    let most : Bounded .unsigned32 := ⟨UInt32.size - 1, by decide, by decide⟩
    let outcome : Shard → Except Mishap (Option (Bounded .unsigned32)) := fun shard =>
      .ok (if shard.handle = 0 then none else some most)
    let operation : Operation Cluster (Bounded .unsigned32) :=
      ⟨"sum", fun shard => 9 - 4 * shard.handle, fun shard world => (outcome shard, world)⟩
    let access : ParallelAccess := ⟨.custom List.reverse, 3, .completion⟩
    let sum := fun (access : AccessStrategy) =>
      (access.apply shards operation AggregateFunction.sum.strategy none .empty (.ofBackends 0)).1
    AggregateFunction.sum.OrderFree .unsigned32 ∧ shards ≠ []
      ∧ access.permits ≤ maxPermits
      ∧ (sum (sequential .input)).result = .error (.shard Tally.sumOverflow)
      ∧ (sum (parallel access)).result = (sum (sequential .input)).result := by
  intro shard shards most outcome operation access sum
  have hdetermined : ∀ shard world, (operation.run shard world).1 = outcome shard := by
    intro shard world
    rfl
  have hsucceeds : ∀ shard ∈ shards, ∃ result, outcome shard = .ok result := by
    intro shard _
    exact ⟨_, rfl⟩
  have hrearranges : ∀ pick, access.ordering = .custom pick → (pick shards).Perm shards := by
    intro pick hpick
    obtain rfl := ShardOrdering.custom.inj hpick
    exact List.reverse_perm shards
  have horder_free : AggregateFunction.sum.OrderFree .unsigned32 := rfl
  have hadmitted : access.permits ≤ maxPermits := by decide
  have hnonempty : shards ≠ [] := by simp [shards]
  have hvisited : (sum (sequential .input)).result = .error (.shard Tally.sumOverflow) := by
    decide +kernel
  obtain ⟨hagree, -⟩ := aggregates_agree horder_free hdetermined hnonempty hsucceeds hadmitted
    hrearranges none (.ofBackends 0) (.ofBackends 0)
  exact ⟨horder_free, hnonempty, hadmitted, hvisited, hagree⟩

end ScatterGather
