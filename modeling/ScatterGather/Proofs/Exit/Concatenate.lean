import ScatterGather.Exit.Concatenate
import ScatterGather.Proofs.Access.Immediate
import ScatterGather.Proofs.Collect.Sorting

/-!
# Rows of all shards, sorted

Concatenation refuses no list and asks for no end, so a call in which no operation fails has the rows
of all shards, each once, in an order that depends on the schedule. A collector that sorts by criteria
under which no two of the rows are on a par undoes that: there is one ascending arrangement of them,
and every call returns the slice of it.
-/

namespace ScatterGather

variable {ω E O : Type}

namespace Concatenate

/-- The lists are appended as they are fed. -/
theorem adds_eq {fed : List (Shard × Option (List E))} {answer : Except ShardError Bool}
    {rows : List E} (h : strategy.Adds [] fed answer rows) :
    answer = .ok false ∧ rows = (fedValues fed).flatten := by
  induction h with
  | nil => exact ⟨rfl, rfl⟩
  | @concat fed rows before shard result ih =>
    obtain ⟨-, rfl⟩ := ih
    refine ⟨rfl, ?_⟩
    rw [fedValues_concat, List.flatten_append]
    cases result with
    | none => rfl
    | some list => simp [strategy]

/-- All lists are taken. -/
theorem takes (fed : List (Shard × Option (List E))) (rows : List E) :
    strategy.Takes fed rows false (rows ++ (fedValues fed).flatten) := by
  induction fed generalizing rows with
  | nil =>
    rw [show fedValues ([] : List (Shard × Option (List E))) = [] from rfl, List.flatten_nil,
      List.append_nil]
    exact .nil rows
  | cons head fed ih =>
    obtain ⟨shard, result⟩ := head
    have hrows : rows ++ (fedValues ((shard, result) :: fed)).flatten
        = (rows ++ result.getD []) ++ (fedValues fed).flatten := by
      cases result with
      | none => simp [fedValues]
      | some list => simp [fedValues]
    rw [hrows]
    exact .more rfl (ih _)

variable [Journaled ω] {operation : Operation ω (List E)}
variable {outcome : Shard → Except Mishap (Option (List E))} {access : AccessStrategy}

/-- A call in which no operation fails hands the rows of all shards to its collector, in some
order. -/
theorem mayReturn_rows (determined : ∀ shard world, (operation.run shard world).1 = outcome shard)
    {shards ordered : List Shard} (hall : ∀ shard ∈ shards, ∃ result, outcome shard = .ok result)
    (hdispatches : access.Dispatches shards ordered) {collector : Collector (List E)} {world : ω}
    {call : Outcome ω (List E) (List E)}
    (h : access.MayReturn shards operation strategy (some collector) [] world call) :
    ∃ rows : List E, rows.Perm (contributions outcome shards).flatten
      ∧ call.result = (collector rows).mapError .shard := by
  obtain ⟨places, fed, answer, rows, hfeed, hsettled⟩ := h.settled determined hall hdispatches
  obtain ⟨rfl, rfl⟩ := adds_eq hfeed.adds
  have hvalues := hfeed.values_perm (hsettled.fed rfl)
  have hshards := hvalues.trans (hdispatches.perm.filterMap _)
  exact ⟨_, hshards.flatten, congrArg Prod.fst hsettled.ending⟩

end Concatenate

/-- Rows of which no two are on a par under the criteria come out the same however the shards are
dispatched. -/
theorem AccessStrategy.sorted_rows_agree [Journaled ω] {collector : RowCollector E}
    (criteria : collector.orders ≠ []) (registered : collector.Registered)
    (keeps_all : collector.distinctOn = [])
    {outcome : Shard → Except Mishap (Option (List E))} {shards : List Shard} (nonempty : shards ≠ [])
    (succeeds : ∀ shard ∈ shards, ∃ result, outcome shard = .ok result)
    (apart : (contributions outcome shards).flatten.Pairwise
      fun a b => collector.compareRows a b ≠ .eq) :
    ∃ sorted : List E, sorted.Perm (contributions outcome shards).flatten
      ∧ sorted.Pairwise (fun a b => collector.compareRows a b = .lt)
      ∧ ∀ (operation : Operation ω (List E)) (access : AccessStrategy) (world : ω),
        (∀ shard world, (operation.run shard world).1 = outcome shard) →
        access.permits ≤ maxPermits →
        (∀ pick, access.ordering = .custom pick → (pick shards).Perm shards) →
        let slice := (sorted.drop (collector.firstResult.getD 0)).take
          (collector.maxResults.getD sorted.length)
        (access.apply shards operation Concatenate.strategy (some collector.apply) [] world).1.result
            = .ok slice
          ∧ ∀ call, access.MayReturn shards operation Concatenate.strategy (some collector.apply) []
              world call → call.result = .ok slice := by
  let rows := (contributions outcome shards).flatten
  let sorted := Ordered.sortBy collector.compareRows rows
  have hcmp : Std.TransCmp collector.compareRows := inferInstance
  have hperm : sorted.Perm rows := Ordered.sortBy_perm rows
  have hsorted : Ordered.Sorted collector.compareRows sorted := Ordered.sorted_sortBy hcmp rows
  have happart : sorted.Pairwise fun a b => collector.compareRows a b ≠ .eq :=
    (hperm.pairwise_iff (Ordered.ne_symm hcmp)).mpr apart
  refine ⟨sorted, hperm, hsorted.strict happart, ?_⟩
  intro operation access world determined admitted rearranges slice
  obtain ⟨ordered, hdispatches⟩ :=
    AccessStrategy.exists_dispatches nonempty admitted rearranges
  have hagree : ∀ call, access.MayReturn shards operation Concatenate.strategy
      (some collector.apply) [] world call → call.result = .ok slice := by
    intro call hcall
    obtain ⟨rows', hrows, hresult⟩ :=
      Concatenate.mayReturn_rows determined succeeds hdispatches hcall
    have harranged : Ordered.sortBy collector.compareRows rows' = sorted := by
      refine Eq.symm (hsorted.unique hcmp ?_ (Ordered.sorted_sortBy hcmp rows') happart)
      exact hperm.trans (hrows.symm.trans (Ordered.sortBy_perm rows').symm)
    rw [hresult, RowCollector.apply_sorts registered criteria keeps_all, harranged,
      RowCollector.slice_eq]
    rfl
  exact ⟨hagree _ (access.apply_mayReturn ..), hagree⟩

/-- An integer between floats and a row without the key: three shards, dispatched from the last to the
first, and results fed as they come in. -/
theorem AccessStrategy.sorted_rows_agree_mixed :
    let shard := fun handle => Shard.mk handle (.ofNat handle) ∅ 0
    let shards := [shard 0, shard 1, shard 2]
    let row := fun score : Option Json =>
      Json.ofMembers (score.toList.map fun score => ("score", score))
    let half := Json.float (Binary.ofDecimal false 25 (-1))
    let outcome : Shard → Except Mishap (Option (List Json)) := fun shard =>
      .ok (if shard.handle = 0 then some [row (some half), row (some (.string "a"))]
        else if shard.handle = 1 then none
        else some [row none, row (some (.bool true)), row (some (.int 3))])
    let operation : Operation Cluster (List Json) :=
      ⟨"scan", fun shard => 5 - shard.handle, fun shard world => (outcome shard, world)⟩
    let collector : RowCollector Json :=
      ⟨.ofPaths ["score"], [], [⟨"score", .descending⟩], some 1, some 2⟩
    let access := parallel ⟨.custom List.reverse, 2, .completion⟩
    let scan := access.apply shards operation Concatenate.strategy (some collector.apply) []
      (.ofBackends 0)
    collector.orders ≠ [] ∧ collector.Registered ∧ shards ≠ [] ∧ access.permits ≤ maxPermits
      ∧ scan.1.result = .ok [row (some (.int 3)), row (some half)]
      ∧ ∃ sorted : List Json, sorted.Perm (contributions outcome shards).flatten
        ∧ scan.1.result = .ok ((sorted.drop 1).take 2) := by
  intro shard shards row half outcome operation collector access scan
  have hcriteria : collector.orders ≠ [] := by simp [collector]
  have hregistered : collector.Registered := by
    intro order horder
    obtain rfl := List.mem_singleton.mp horder
    exact ⟨_, rfl⟩
  have hnonempty : shards ≠ [] := by simp [shards]
  have hsucceeds : ∀ shard ∈ shards, ∃ result, outcome shard = .ok result := by
    intro shard _
    exact ⟨_, rfl⟩
  have hapart : (contributions outcome shards).flatten.Pairwise
      fun a b => collector.compareRows a b ≠ .eq := by
    decide +kernel
  have hdetermined : ∀ shard world, (operation.run shard world).1 = outcome shard := by
    intro shard world
    rfl
  have hadmitted : access.permits ≤ maxPermits := by decide
  have hrearranges : ∀ pick, access.ordering = .custom pick → (pick shards).Perm shards := by
    intro pick hpick
    obtain rfl := ShardOrdering.custom.inj hpick
    exact List.reverse_perm shards
  have hresult : scan.1.result = .ok [row (some (.int 3)), row (some half)] := by decide +kernel
  obtain ⟨sorted, hperm, -, hagree⟩ :=
    @sorted_rows_agree Cluster Json _ collector hcriteria hregistered rfl outcome shards hnonempty
      hsucceeds hapart
  obtain ⟨hslice, -⟩ := hagree operation access (.ofBackends 0) hdetermined hadmitted hrearranges
  exact ⟨hcriteria, hregistered, hnonempty, hadmitted, hresult, sorted, hperm, hslice⟩

end ScatterGather
