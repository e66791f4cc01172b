import ScatterGather.Proofs.Demo.Items
import ScatterGather.Proofs.Exit.Aggregate
import ScatterGather.Proofs.Exit.Concatenate
import ScatterGather.Proofs.Session.Healthy
import ScatterGather.Proofs.Session.Routing

/-!
# The calls of the demonstration

What the calls of the demonstration answer in a session that nothing disturbs, whatever the access
strategy. A call that puts an item writes its row through the one handle that serves the target of the
item. Calls on all shards find the rows that were committed: the count is the number of all items, and
the top list has the items with the greatest scores.
-/

namespace ScatterGather

/-! ## Strategies -/

/-- An order of dispatch that is not a function of a caller does not become one. -/
theorem ShardOrdering.order_unpicked {ordering : ShardOrdering}
    (h : ∀ pick, ordering ≠ .custom pick) (shards : List Shard) :
    ∀ pick, (ordering.order shards).2 ≠ .custom pick := by
  intro pick hpick
  cases ordering with
  | input => cases hpick
  | roundRobin next =>
    simp only [order] at hpick
    split at hpick <;> cases hpick
  | random draw calls => cases hpick
  | custom picked => exact h picked rfl

namespace AccessStrategy

/-- The strategy can dispatch any shards there are: it asks for no more permits than can be had, and
no function of a caller arranges the shards. -/
structure Admitted (access : AccessStrategy) : Prop where
  permits : access.permits ≤ maxPermits
  unpicked : ∀ pick, access.ordering ≠ .custom pick

namespace Admitted

variable {access : AccessStrategy}

theorem dispatches (h : access.Admitted) {shards : List Shard} (hshards : shards ≠ []) :
    ∃ ordered, access.Dispatches shards ordered :=
  exists_dispatches hshards h.permits fun pick hpick => absurd hpick (h.unpicked pick)

theorem withOrdering (h : access.Admitted) {ordering : ShardOrdering}
    (hordering : ∀ pick, ordering ≠ .custom pick) : (access.withOrdering ordering).Admitted := by
  cases access with
  | sequential _ => exact ⟨h.permits, hordering⟩
  | parallel _ => exact ⟨h.permits, hordering⟩

/-- A call leaves behind a strategy for which the same holds. -/
theorem apply {ω σ T O : Type} [Journaled ω] (h : access.Admitted) (shards : List Shard)
    (operation : Operation ω T) (strategy : ExitStrategy σ T O) (collector : Option (Collector O))
    (exit : σ) (world : ω) :
    (access.apply shards operation strategy collector exit world).2.Admitted := by
  have hadvanced := ShardOrdering.order_unpicked h.unpicked shards
  unfold AccessStrategy.apply
  split
  · exact h
  · simp only
    split
    · exact h.withOrdering hadvanced
    · exact h.withOrdering hadvanced

end Admitted

end AccessStrategy

theorem Config.strategy_admitted [Machine] {config : Config} (h : config.strategy.permits ≤ maxPermits) :
    config.strategy.Admitted := by
  refine ⟨h, ?_⟩
  unfold Config.strategy
  cases config.accessStrategy <;> cases config.shardOrdering <;> intro pick hpick <;> cases hpick

namespace Demo

open Cluster

variable {b : Cluster} {number : Nat} {session : Session} {tx : Nat} {shard : Shard}
variable {stage : Stage} {ids : List ShardId} {items : List Nat}

/-- What is reported changes nothing else. -/
theorem quiet_of_logged {w w' : Cluster} (h : Logged w w') :
    Within [] w w' ∧ SameStores w w' ∧ w'.handed = w.handed := by
  induction h with
  | refl => exact ⟨.refl [] w, .refl w, rfl⟩
  | report before level text ih =>
    obtain ⟨hwithin, hstores, hhanded⟩ := ih
    exact ⟨hwithin.report level text, hstores, hhanded⟩

/-- A request without delay answers what the exit strategy makes of the results on the shards in the
order of dispatch. -/
theorem execute_immediate {σ T O : Type} {targets : List Shard} {wanted : Option (List ShardId)}
    {name : String} {action : Action} {read? : Json → Option T} {strategy : ExitStrategy σ T O}
    {fed : List (Shard × Option T)} {exit exit' : σ} {stop : Bool} {last : Cluster}
    (hadmitted : stage.strategy.Admitted) (hfound : stage.cluster.session number = session)
    (hopen : session.closed = false) (htargets : session.targets wanted = .ok targets)
    (hdispatches : stage.strategy.Dispatches targets (fed.map (·.1)))
    (hruns : ((Request.immediate name action).operation read?).Runs fed stage.cluster last)
    (htakes : strategy.Takes fed exit stop exit') (collector : Option (Collector O)) :
    ∃ later, stage.execute number wanted (.immediate name action) read? strategy collector exit
        = ((strategy.ending collector (.ok stop) exit').1, later)
      ∧ Logged last later.cluster ∧ later.strategy.Admitted := by
  have hcall := AccessStrategy.apply_immediate hdispatches (fun _ => rfl) hruns htakes collector
  have hlater := hadmitted.apply targets ((Request.immediate name action).operation read?) strategy
    collector exit stage.cluster
  unfold Stage.execute Cluster.execute
  simp only [hfound, hopen, htargets, Bool.false_eq_true, if_false]
  rw [← hcall.ending]
  exact ⟨_, rfl, hcall.logged, hlater⟩

/-! ## Putting items -/

/-- The rows of these items were written in a transaction that can commit, each through the handle
that serves its target. -/
structure Filling (b : Cluster) (number : Nat) (session : Session) (tx : Nat) (ids : List ShardId)
    (items : List Nat) (stage : Stage) : Prop where
  admitted : stage.strategy.Admitted
  healthy : Healthy stage.cluster number
  written : ∃ rows, Writing b stage.cluster number session tx rows ∧
    ∀ shard ∈ session.shards, Row.through shard rows =
      (items.filter fun n => shard.serves (itemTarget ids n)).map
        fun n => (itemKey n, some (itemRow n))

/-- The targets of items are served, by one handle each. -/
structure Serving (session : Session) (ids : List ShardId) (items : List Nat) : Prop where
  unclosed : session.closed = false
  parted : Session.Parted session.shards
  served : ∀ n ∈ items, ∃ shard ∈ session.shards, shard.serves (itemTarget ids n) = true

theorem Filling.putItem {n : Nat} (h : Filling b number session tx ids items stage)
    (hserving : Serving session ids [n]) :
    ∃ answer later, Demo.putItem number ids stage n = (.ok answer, later)
      ∧ Filling b number session tx ids (items ++ [n]) later := by
  obtain ⟨shard, hshard, hserves⟩ := hserving.served n (List.mem_singleton_self n)
  obtain ⟨rows, hwriting, hthrough⟩ := h.written
  obtain ⟨ordered, hdispatches⟩ := h.admitted.dispatches (List.cons_ne_nil shard [])
  rw [List.perm_singleton.mp hdispatches.perm] at hdispatches
  -- The write is accepted and answers with the id of the shard, which is the first result.
  have hmoves : Moves number .transaction stage.cluster
      (stage.cluster.write shard (itemKey n) (some (itemRow n))).2 :=
    h.healthy.write_moves (hwriting.found.symm ▸ hshard)
      (show ¬ SessionCall.transaction.Closes from id) _ _
  have hhealthy := h.healthy.moves hmoves nofun
  have haccepted := h.healthy.write_ok hwriting.toHookless hshard (itemKey n) (some (itemRow n))
  rcases hwriting.write hshard (itemKey n) (some (itemRow n)) with
    ⟨e, w', hwrite, -⟩ | ⟨w', hwrite, hwritten⟩
  · rw [hwrite] at haccepted
    cases haccepted
  rw [hwrite] at hhealthy
  let own := Action.idValue shard.physicalId
  have hruns : ((Request.immediate "put" (.put (itemKey n) (some (itemRow n)))).operation
      some).Runs [(shard, some own)] stage.cluster w' := by
    refine .cons ?_ (.nil w')
    simp only [Request.operation, Request.immediate, Action.run, Option.getD_some, hwrite]
    rfl
  have htakes : First.strategy.Takes [(shard, some own)] First.none true ⟨some own, some shard⟩ :=
    .stop rfl
  have htargets : session.targets (some [itemTarget ids n]) = .ok [shard] :=
    Session.shardsFor_single hserving.parted hshard hserves
  obtain ⟨later, hexecute, hlogged, hadmitted⟩ := execute_immediate h.admitted hwriting.found
    hserving.unclosed htargets (show stage.strategy.Dispatches [shard]
      ([(shard, some own)].map (·.1)) from hdispatches) hruns htakes none
  obtain ⟨hwithin, hstores, hhanded⟩ := quiet_of_logged hlogged
  refine ⟨_, later, hexecute, hadmitted, hhealthy.quiet hwithin hhanded, _,
    hwritten.quietly hwithin hstores, ?_⟩
  intro other hother
  rw [Row.through_append, List.filter_append, List.map_append, hthrough other hother]
  by_cases heq : other = shard
  · subst heq
    simp [Row.through_self, hserves]
  · have hunserved : other.serves (itemTarget ids n) = false :=
      Bool.eq_false_iff.mpr fun hserves' =>
        heq (Session.eq_of_serves hserving.parted hother hshard hserves' hserves)
    simp [Row.through_ne (Ne.symm heq), hunserved]

theorem Filling.putItems (h : Filling b number session tx ids items stage) {more : List Nat}
    (hserving : Serving session ids more) :
    ∃ later, Demo.putItems number ids more stage = (.ok (), later)
      ∧ Filling b number session tx ids (items ++ more) later := by
  induction more generalizing items stage with
  | nil => exact ⟨stage, rfl, (List.append_nil items).symm ▸ h⟩
  | cons n rest ih =>
    obtain ⟨hn, hrest⟩ := List.forall_mem_cons.mp hserving.served
    obtain ⟨answer, next, hput, hfilling⟩ := h.putItem ⟨hserving.unclosed, hserving.parted, by
      simpa using hn⟩
    obtain ⟨later, hputs, hfilled⟩ := ih hfilling ⟨hserving.unclosed, hserving.parted, hrest⟩
    refine ⟨later, ?_, ?_⟩
    · rw [Demo.putItems, hput]
      exact hputs
    · rwa [List.append_assoc] at hfilled

/-! ## Reading items -/

/-- An operation that leaves what there is to read as it is can be run on some shards in turn. -/
theorem runs_of_reading {T : Type} {w : Cluster} {operation : Operation Cluster T}
    {outcome : Shard → Option T}
    (hrun : ∀ shard ∈ session.shards, ∀ w, Reading b w number session →
      ∃ w', operation.run shard w = (.ok (outcome shard), w') ∧ Reading b w' number session)
    {ordered : List Shard} (hordered : ∀ shard ∈ ordered, shard ∈ session.shards)
    (h : Reading b w number session) :
    ∃ last, operation.Runs (ordered.map fun shard => (shard, outcome shard)) w last
      ∧ Reading b last number session := by
  induction ordered generalizing w with
  | nil => exact ⟨w, .nil w, h⟩
  | cons shard rest ih =>
    obtain ⟨hshard, hrest⟩ := List.forall_mem_cons.mp hordered
    obtain ⟨w', hran, hreading⟩ := hrun shard hshard w h
    obtain ⟨last, hruns, hlast⟩ := ih hrest hreading
    exact ⟨last, .cons hran hruns, hlast⟩

/-- A stage at which all stores are as they are in the state `b`, and can be read. -/
structure Readable (b : Cluster) (number : Nat) (session : Session) (stage : Stage) : Prop where
  admitted : stage.strategy.Admitted
  reading : Reading b stage.cluster number session
  unclosed : session.closed = false
  nonempty : session.shards ≠ []

/-- A request on all shards that only reads: the exit strategy takes the results in some order. -/
theorem Readable.execute {σ T O : Type} {name : String} {action : Action} {read? : Json → Option T}
    {outcome : Shard → Option T} (h : Readable b number session stage)
    (hrun : ∀ shard ∈ session.shards, ∀ w, Reading b w number session →
      ∃ w', ((Request.immediate name action).operation read?).run shard w = (.ok (outcome shard), w')
        ∧ Reading b w' number session)
    (strategy : ExitStrategy σ T O) (collector : Option (Collector O)) (exit : σ) :
    ∃ ordered : List Shard, ordered.Perm session.shards ∧ ∀ {stop : Bool} {exit' : σ},
      strategy.Takes (ordered.map fun shard => (shard, outcome shard)) exit stop exit' →
      ∃ later, stage.execute number none (.immediate name action) read? strategy collector exit
          = ((strategy.ending collector (.ok stop) exit').1, later)
        ∧ Readable b number session later := by
  obtain ⟨ordered, hdispatches⟩ := h.admitted.dispatches h.nonempty
  refine ⟨ordered, hdispatches.perm, ?_⟩
  intro stop exit' htakes
  obtain ⟨last, hruns, hlast⟩ := runs_of_reading hrun
    (fun shard hshard => hdispatches.perm.subset hshard) h.reading
  have hshards : (ordered.map fun shard => (shard, outcome shard)).map (·.1) = ordered := by
    simp [Function.comp_def]
  have htargets : session.targets none = .ok session.shards := rfl
  obtain ⟨later, hexecute, hlogged, hadmitted⟩ := execute_immediate h.admitted h.reading.found
    h.unclosed htargets (hshards.symm ▸ hdispatches) hruns htakes collector
  obtain ⟨hwithin, hstores, hhanded⟩ := quiet_of_logged hlogged
  exact ⟨later, hexecute, hadmitted, hlast.quietly hwithin hstores hhanded, h.unclosed, h.nonempty⟩

/-- The stores behind the handles have these items each. -/
structure Stocked (b : Cluster) (session : Session) (stock : Shard → List Nat) : Prop where
  stocks : ∀ shard ∈ session.shards, Stocks (b.backend shard.backend).store (stock shard)
  distinct : ∀ shard ∈ session.shards, (stock shard).Nodup

variable {stock : Shard → List Nat}

theorem Stocked.length_le (h : Stocked b session stock)
    (hitems : (session.shards.flatMap stock).Perm items) (hshard : shard ∈ session.shards) :
    (stock shard).length ≤ items.length := by
  refine (List.subperm_of_subset (h.distinct shard hshard) ?_).length_le
  intro n hn
  exact hitems.mem_iff.mp (List.mem_flatMap.mpr ⟨shard, hshard, hn⟩)

/-- The counts of some shards come to the number of their items. -/
theorem total_counts {outcome : Shard → Option (Bounded .unsigned64)} {ordered : List Shard}
    (h : ∀ shard ∈ ordered, ∃ count, outcome shard = some count
      ∧ count.val = (stock shard).length) :
    Tally.total (fedValues (ordered.map fun shard => (shard, outcome shard)))
      = (ordered.flatMap stock).length := by
  induction ordered with
  | nil => rfl
  | cons shard rest ih =>
    obtain ⟨⟨count, hcount, hval⟩, hrest⟩ := List.forall_mem_cons.mp h
    have htotal : Tally.total (fedValues ((shard :: rest).map fun shard => (shard, outcome shard)))
        = count.val + Tally.total (fedValues (rest.map fun shard => (shard, outcome shard))) := by
      simp [fedValues, Tally.total, hcount]
    rw [htotal, ih hrest, hval, List.flatMap_cons, List.length_append, Nat.cast_add]

/-- All items are counted, each once. -/
theorem Readable.countItems (h : Readable b number session stage)
    (hstocked : Stocked b session stock) (hitems : (session.shards.flatMap stock).Perm items)
    (hfits : items.length < UInt64.size) :
    ∃ count later, Demo.countItems number stage = (.ok (some count), later)
      ∧ count.val = items.length ∧ Readable b number session later := by
  let outcome : Shard → Option (Bounded .unsigned64) := fun shard =>
    Bounded.ofInt? (stock shard).length
  have houtcome : ∀ shard ∈ session.shards, ∃ count, outcome shard = some count
      ∧ count.val = (stock shard).length := by
    intro shard hshard
    have hrange : IntRange.unsigned64.lo ≤ ((stock shard).length : Int)
        ∧ ((stock shard).length : Int) ≤ IntRange.unsigned64.hi := by
      have hle := hstocked.length_le hitems hshard
      simp only [IntRange.unsigned64]
      omega
    exact ⟨_, dif_pos hrange, rfl⟩
  have hrun : ∀ shard ∈ session.shards, ∀ w, Reading b w number session →
      ∃ w', ((Request.immediate "count" (.count itemStart)).operation Bounded.ofJson?).run shard w
        = (.ok (outcome shard), w') ∧ Reading b w' number session := by
    intro shard hshard w hreading
    obtain ⟨w', hscan, hreading'⟩ := hreading.scan hshard itemStart
    have hlength : ((b.backend shard.backend).store.scan itemStart).length
        = (stock shard).length := by
      have hperm := (hstocked.stocks shard hshard).scan_perm (hstocked.distinct shard hshard)
      simpa using hperm.length_eq
    obtain ⟨count, hcount, -⟩ := houtcome shard hshard
    refine ⟨w', ?_, hreading'⟩
    have hread : Bounded.ofJson? (.int (stock shard).length) = some count := hcount
    simp only [Request.operation, Request.immediate, Action.run, hscan, hcount]
    simp only [Action.answer, Except.map, Except.mapError, hlength, Request.result, hread]
  obtain ⟨ordered, hperm, hexecute⟩ := h.execute hrun AggregateFunction.sum.strategy none .empty
  have htotal : Tally.total (fedValues (ordered.map fun shard => (shard, outcome shard)))
      = items.length := by
    rw [total_counts fun shard hshard => houtcome shard (hperm.subset hshard)]
    exact congrArg Nat.cast ((hperm.flatMap_right stock).trans hitems).length_eq
  have hempty : (Tally.empty : Tally (Bounded .unsigned64)).sum.val = 0 := rfl
  obtain ⟨tally, htakes, hsum⟩ := AggregateFunction.sum_takes rfl
    (ordered.map fun shard => (shard, outcome shard)) .empty (by
      rw [hempty, htotal]
      simp only [IntRange.unsigned64]
      omega)
  obtain ⟨later, hcall, hreadable⟩ := hexecute htakes
  refine ⟨tally.sum, later, hcall, ?_, hreadable⟩
  rw [hsum, hempty, htotal, Int.zero_add]

/-- The rows of a shard as an answer: null if there are none. -/
def scanned (b : Cluster) (shard : Shard) : Option (List Json) :=
  let rows := (b.backend shard.backend).store.scan itemStart
  if rows.isEmpty then none else some (rows.map (·.2))

theorem flatten_scanned (b : Cluster) (ordered : List Shard) :
    (fedValues (ordered.map fun shard => (shard, scanned b shard))).flatten
      = ordered.flatMap fun shard =>
        ((b.backend shard.backend).store.scan itemStart).map (·.2) := by
  induction ordered with
  | nil => rfl
  | cons shard rest ih =>
    have hvalues : (fedValues ((shard :: rest).map fun shard => (shard, scanned b shard)))
        = (scanned b shard).toList ++ fedValues (rest.map fun shard => (shard, scanned b shard)) := by
      cases hscanned : scanned b shard <;> simp [fedValues, hscanned]
    rw [hvalues, List.flatten_append, ih, List.flatMap_cons]
    congr 1
    unfold scanned
    simp only
    split
    case isTrue hnone => simp [List.isEmpty_iff.mp hnone]
    case isFalse => simp

/-- The top list has the items with the greatest scores. -/
theorem Readable.topItems (h : Readable b number session stage)
    (hstocked : Stocked b session stock) (hitems : (session.shards.flatMap stock).Perm items) :
    ∃ (order : List Nat) (later : Stage),
      Demo.topItems number stage = (.ok ((order.take 5).map itemRow), later)
      ∧ order.Perm items ∧ order.Pairwise (fun a b => itemScore b ≤ itemScore a)
      ∧ Readable b number session later := by
  have hrun : ∀ shard ∈ session.shards, ∀ w, Reading b w number session →
      ∃ w', ((Request.immediate "scan" (.scan itemStart)).operation Plan.items?).run shard w
        = (.ok (scanned b shard), w') ∧ Reading b w' number session := by
    intro shard hshard w hreading
    obtain ⟨w', hscan, hreading'⟩ := hreading.scan hshard itemStart
    refine ⟨w', ?_, hreading'⟩
    simp only [Request.operation, Request.immediate, Action.run, hscan]
    simp only [Action.answer, Except.map, Except.mapError, scanned]
    split <;> rfl
  obtain ⟨ordered, hperm, hexecute⟩ := h.execute hrun Concatenate.strategy (some topFive.apply) []
  obtain ⟨later, hcall, hreadable⟩ := hexecute (Concatenate.takes _ [])
  have hrows : ([] ++ (fedValues (ordered.map fun shard => (shard, scanned b shard))).flatten).Perm
      (items.map itemRow) := by
    rw [List.nil_append, flatten_scanned]
    have hstores : (ordered.flatMap fun shard =>
        ((b.backend shard.backend).store.scan itemStart).map (·.2)).Perm
          (ordered.flatMap fun shard => (stock shard).map itemRow) := by
      refine List.Perm.flatMap_left ordered ?_
      intro shard hshard
      have hshard : shard ∈ session.shards := hperm.subset hshard
      exact (hstocked.stocks shard hshard).scan_perm (hstocked.distinct shard hshard)
    refine hstores.trans ?_
    rw [← List.map_flatMap]
    exact ((hperm.flatMap_right stock).trans hitems).map itemRow
  obtain ⟨order, horder, hsorted, htop⟩ := topFive_items hrows
  refine ⟨order, later, hcall.trans ?_, horder, hsorted, hreadable⟩
  simp only [ExitStrategy.ending, ExitStrategy.compileWith, Concatenate.strategy, Except.bind, htop]
  rfl

end Demo

end ScatterGather
