import ScatterGather.Proofs.Demo.Calls

/-!
# What a run does with its keys

A run over empty backends puts each item on the backend that hosts the target of the item, and on no
other, counts all of them and lists those with the greatest scores. This holds for every strategy that
can be admitted and for all shards that a factory can be built from.
-/

namespace ScatterGather.Demo

open Cluster

variable {w : Cluster} {number keys : Nat} {session : Session} {stage : Stage} {ids : List ShardId}
variable {b : Cluster} {routed : FactorySettings} {factory : SessionFactory}

/-! ## Items of a session -/

/-- The items, of so many, whose targets a handle serves. -/
def stockOf (ids : List ShardId) (keys : Nat) (shard : Shard) : List Nat :=
  (List.range keys).filter fun n => shard.serves (itemTarget ids n)

/-- The handles of a session part the items among themselves. -/
theorem Serving.stocks_perm (h : Serving session ids (List.range keys)) :
    (session.shards.flatMap (stockOf ids keys)).Perm (List.range keys) := by
  have hdistinct : (session.shards.flatMap (stockOf ids keys)).Nodup := by
    refine List.nodup_flatMap.mpr ⟨fun shard _ => List.nodup_range.filter _, ?_⟩
    refine h.parted.imp ?_
    intro shard other hdisjoint n hn hn'
    exact hdisjoint (Session.serves_iff.mp (List.mem_filter.mp hn).2)
      (Session.serves_iff.mp (List.mem_filter.mp hn').2)
  refine (List.perm_ext_iff_of_nodup hdistinct List.nodup_range).mpr ?_
  intro n
  rw [List.mem_flatMap]
  constructor
  · rintro ⟨shard, -, hn⟩
    exact (List.mem_filter.mp hn).1
  · intro hn
    obtain ⟨shard, hshard, hserves⟩ := h.served n hn
    exact ⟨shard, hshard, List.mem_filter.mpr ⟨hn, hserves⟩⟩

/-- The virtual ids of a session are those that are served, in ascending order. -/
theorem virtualIds_spec (h : session.Routes routed) :
    (virtualIds session).Pairwise (fun a b => compare a b = .lt)
      ∧ ∀ id, id ∈ virtualIds session ↔ id ∈ routed.virtualIds := by
  have hperm : (virtualIds session).Perm
      (session.shards.flatMap fun shard => shard.served.toList) := Ordered.sortBy_perm _
  have hdistinct : (session.shards.flatMap fun shard => shard.served.toList).Nodup :=
    List.nodup_flatMap.mpr ⟨fun shard _ => Ordered.Map.nodup_keys shard.served, h.disjoint⟩
  constructor
  · have hsorted : Ordered.Sorted compare (virtualIds session) :=
      Ordered.sorted_sortBy inferInstance _
    refine hsorted.strict ((hperm.nodup_iff.mpr hdistinct).imp ?_)
    intro a b hne heq
    exact hne (Std.LawfulEqCmp.eq_of_compare heq)
  · intro id
    rw [hperm.mem_iff, List.mem_flatMap, h.together]

theorem itemTarget_mem (h : ids ≠ []) (n : Nat) : itemTarget ids n ∈ ids := by
  have hlt : n % ids.length < ids.length := Nat.mod_lt _ (List.length_pos_iff.mpr h)
  rw [itemTarget, List.getD_eq_getElem?_getD, List.getElem?_eq_getElem hlt]
  exact List.getElem_mem hlt

theorem virtualIds_ne_nil (h : session.Routes routed) (hnonempty : session.shards ≠ []) :
    virtualIds session ≠ [] := by
  obtain ⟨shard, hshard⟩ := List.exists_mem_of_ne_nil _ hnonempty
  obtain ⟨id, hid⟩ := List.exists_mem_of_ne_nil _ (h.nonempty shard hshard)
  refine List.ne_nil_of_mem (((virtualIds_spec h).2 id).mpr ?_)
  exact (h.together id).mp ⟨shard, hshard, hid⟩

theorem serving_of_routes (h : session.Routes routed) (hunclosed : session.closed = false)
    (hnonempty : session.shards ≠ []) (items : List Nat) :
    Serving session (virtualIds session) items := by
  refine ⟨hunclosed, h.disjoint, ?_⟩
  intro n _
  have htarget := itemTarget_mem (virtualIds_ne_nil h hnonempty) n
  obtain ⟨shard, hshard, hserved⟩ := (h.together _).mpr (((virtualIds_spec h).2 _).mp htarget)
  exact ⟨shard, hshard, Session.serves_iff.mpr hserved⟩

/-! ## Steps of a run -/

theorem sayEach_same {α : Type} (stage : Stage) (level : Level) (text : α → String) (xs : List α) :
    (stage.sayEach level text xs).cluster = stage.cluster
      ∧ (stage.sayEach level text xs).strategy = stage.strategy := by
  induction xs generalizing stage with
  | nil => exact ⟨rfl, rfl⟩
  | cons x rest ih => exact ih (stage.say level (text x))

theorem onCluster_ok {α : Type} {call : Cluster → Except ShardError α × Cluster} {answer : α}
    (h : call stage.cluster = (.ok answer, w)) :
    stage.onCluster call = (.ok answer, { stage with cluster := w }) := by
  rw [Stage.onCluster, h]
  rfl

/-- A session over empty stores that was opened and not used yet. -/
structure Fresh (w : Cluster) (number : Nat) (session : Session) : Prop
    extends Hookless w number session where
  healthy : Healthy w number
  unclosed : session.closed = false
  unbegun : session.current = none
  unconnected : ∀ shard ∈ session.shards, w.connection? shard = none
  blank : ∀ i, (w.backend i).store = ∅

theorem fresh_of_open {count : Nat} (hbuild : SessionFactory.build routed = .ok factory)
    (hplaces : (routed.shards.map (·.2)).Nodup) (hbackends : ∀ place ∈ routed.shards, place.2 < count)
    (hopen : (ofBackends count).openSession factory = (.ok number, w)) :
    Fresh w number (w.session number) := by
  have hlength : (ofBackends count).backends.length = count := by
    simp [ofBackends]
  have hfaultless := faultless_ofBackends count
  have hhookless := openSession_hookless hbuild hplaces hfaultless.noRollbackFault
    (fun place hplace => hlength.symm ▸ hbackends place hplace) hopen
  have htidy : Tidy w number := by
    refine openSession_tidy rfl rfl ?_ hopen
    intro physical hphysical
    obtain ⟨-, -, hfactory⟩ := SessionFactory.build_spec hbuild
    have hmem : physical.backend ∈ routed.shards.map (·.2) :=
      hfactory ▸ List.mem_map_of_mem hphysical
    obtain ⟨place, hplace, heq⟩ := List.mem_map.mp hmem
    rw [hlength, ← heq]
    exact hbackends place hplace
  obtain ⟨shards, w₁, hadded, rfl, rfl, hfound⟩ := openSession_spec hopen
  rw [hfound] at hhookless ⊢
  have hbackend : ∀ i, w₁.backend i = (ofBackends count).backend i := by
    intro i
    rw [backend, hadded.backends, backend]
  have hunconnected : ∀ shard ∈ shards, w₁.connection? shard = none := fun shard hshard =>
    hadded.unconnected hshard
  refine ⟨hhookless, ⟨htidy, ?_, ?_⟩, rfl, rfl, hunconnected, ?_⟩
  · intro i call
    change (w₁.backend i).faults.isArmed call = false
    rw [hbackend]
    exact hfaultless i call
  · intro shard hshard ref href
    rw [hfound] at hshard
    cases (hunconnected shard hshard).symm.trans href
  · intro i
    change (w₁.backend i).store = ∅
    rw [hbackend, backend_ofBackends]
    rfl

theorem Fresh.begins (h : Fresh w number session) :
    ∃ tx b current, w.beginTransaction number = (.ok tx, b)
      ∧ Writing b b number { session with current := current } tx [] ∧ Healthy b number
      ∧ ∀ i, (b.backend i).store = ∅ := by
  have hfound := h.found
  have hok := beginTransaction_ok (by rw [hfound]; exact h.unclosed)
    (by rw [hfound]; exact h.unbegun) (by rw [hfound]; exact h.unconnected)
  have hstores := (w.beginTransaction_work number).sameStores rfl
  have hhealthy : Healthy (w.beginTransaction number).2 number :=
    h.healthy.moves (h.healthy.beginTransaction_moves .transaction).1 nofun
  have hnew : (w.transaction w.transactions.length).status ≠ .active := by
    simp [transaction, Transaction.fresh]
  generalize hbegin : w.beginTransaction number = begun at hok hstores hhealthy
  obtain ⟨answer, b⟩ := begun
  obtain rfl : answer = .ok w.transactions.length := hok
  obtain ⟨current, hwriting⟩ := h.toHookless.begins hbegin hnew
  exact ⟨_, b, current, rfl, hwriting, hhealthy, fun i => (hstores i).trans (h.blank i)⟩

/-- All items are written and committed. -/
theorem Fresh.write (h : Fresh stage.cluster number session) (hadmitted : stage.strategy.Admitted)
    (hnonempty : session.shards ≠ []) (hserving : Serving session ids (List.range keys)) :
    ∃ current later, Demo.write number ids keys stage = (.ok (), later)
      ∧ Readable later.cluster number { session with current := current } later
      ∧ Stocked later.cluster session (stockOf ids keys)
      ∧ ∀ i, (∀ shard ∈ session.shards, shard.backend ≠ i) →
        (later.cluster.backend i).store = ∅ := by
  obtain ⟨tx, b, current, hbegin, hwriting, hhealthy, hblank⟩ := h.begins
  let session' : Session := { session with current := current }
  let begun : Stage := { stage with cluster := b }
  have hfilling : Filling b number session' tx ids [] begun :=
    ⟨hadmitted, hhealthy, [], hwriting, fun _ _ => rfl⟩
  have hserving' : Serving session' ids (List.range keys) :=
    ⟨hserving.unclosed, hserving.parted, hserving.served⟩
  obtain ⟨filled, hputs, hfilled⟩ := hfilling.putItems hserving'
  obtain ⟨rows, hwritten, hthrough⟩ := hfilled.written
  obtain ⟨w', hcommit, hreading, hstored, helse⟩ := hwritten.commits hfilled.healthy
  let committed : Stage := { filled with cluster := w' }
  have hwrite : ∃ text, Demo.write number ids keys stage = (.ok (), committed.say .info text) := by
    have hbegun : stage.onCluster (fun w => w.beginTransaction number) = (.ok tx, begun) :=
      onCluster_ok hbegin
    have hcommitted : filled.onCluster (fun w => w.commit tx) = (.ok (), committed) :=
      onCluster_ok hcommit
    simp only [Demo.write, hbegun, hputs, hcommitted]
    exact ⟨_, rfl⟩
  obtain ⟨text, hwrite⟩ := hwrite
  refine ⟨current, _, hwrite, ⟨hfilled.admitted, hreading, h.unclosed, hnonempty⟩,
    ⟨?_, fun shard _ => List.nodup_range.filter _⟩, ?_⟩
  · intro shard hshard
    have hstore : (w'.backend shard.backend).store = _ := hstored shard hshard
    have hrows : Row.through shard rows = _ := hthrough shard hshard
    change Stocks (w'.backend shard.backend).store (stockOf ids keys shard)
    rw [hstore, storeWith, hblank, hrows, List.nil_append]
    exact stocks_overlay _
  · intro i hi
    exact (helse i hi).trans (hblank i)

/-- What was found about some items: all of them are counted, and the listed ones are such that none
is left out that has a greater score. -/
structure Findings.About (findings : Findings) (items : List Nat) : Prop where
  count : findings.count.map (·.val) = some (items.length : Int)
  top : ∃ top : List Nat, findings.top = top.map itemRow ∧ top.Subperm items
    ∧ top.length = min 5 items.length ∧ top.Pairwise (fun a b => itemScore b ≤ itemScore a)
    ∧ ∀ n ∈ items, n ∉ top → ∀ m ∈ top, itemScore n ≤ itemScore m

/-- The first five of an arrangement by descending score. -/
theorem Findings.about_of_order {findings : Findings} {items order : List Nat}
    (hcount : findings.count.map (·.val) = some (items.length : Int))
    (htop : findings.top = (order.take 5).map itemRow) (horder : order.Perm items)
    (hsorted : order.Pairwise fun a b => itemScore b ≤ itemScore a) : findings.About items := by
  refine ⟨hcount, order.take 5, htop, ?_, ?_, hsorted.sublist (List.take_sublist 5 order), ?_⟩
  · exact (List.take_sublist 5 order).subperm.trans horder.subperm
  · rw [List.length_take, horder.length_eq]
  · rw [← List.take_append_drop 5 order] at hsorted horder
    intro n hn hout m hm
    have hrest : n ∈ order.drop 5 :=
      (List.mem_append.mp (horder.mem_iff.mpr hn)).resolve_left hout
    exact (List.pairwise_append.mp hsorted).2.2 m hm n hrest

theorem Readable.said {b : Cluster} {later : Stage} (h : Readable b number session stage)
    (hcluster : later.cluster = stage.cluster) (hstrategy : later.strategy = stage.strategy) :
    Readable b number session later where
  admitted := hstrategy ▸ h.admitted
  reading := hcluster ▸ h.reading
  unclosed := h.unclosed
  nonempty := h.nonempty

theorem Readable.query {stock : Shard → List Nat} {items : List Nat}
    (h : Readable b number session stage) (hstocked : Stocked b session stock)
    (hitems : (session.shards.flatMap stock).Perm items) (hfits : items.length < UInt64.size) :
    ∃ findings later, Demo.query number stage = (.ok findings, later) ∧ findings.About items
      ∧ Readable b number session later := by
  obtain ⟨count, counted, hcount, hval, hcounted⟩ := h.countItems hstocked hitems hfits
  let told := counted.say .info ("row count over all shards: " ++ inspectCount (some count))
  have htold : Readable b number session told := hcounted.said rfl rfl
  obtain ⟨order, listed, htop, horder, hsorted, hlisted⟩ := htold.topItems hstocked hitems
  obtain ⟨hcluster, hstrategy⟩ := sayEach_same listed .info (fun row => "top: " ++ row.render)
    ((order.take 5).map itemRow)
  have hquery : Demo.query number stage = (.ok ⟨some count, (order.take 5).map itemRow⟩,
      listed.sayEach .info (fun row => "top: " ++ row.render) ((order.take 5).map itemRow)) := by
    simp only [Demo.query, hcount]
    rw [htop]
  refine ⟨_, _, hquery, Findings.about_of_order ?_ rfl horder hsorted,
    hlisted.said hcluster hstrategy⟩
  exact congrArg some hval

/-- A session over empty stores takes all items, and finds them. -/
theorem Fresh.inSession (factory : SessionFactory) (h : Fresh stage.cluster number session)
    (hadmitted : stage.strategy.Admitted) (hnonempty : session.shards ≠ [])
    (hroutes : session.Routes routed) (hfits : keys < UInt64.size) :
    ∃ findings later, Demo.inSession factory number keys stage = (.ok findings, later)
      ∧ findings.About (List.range keys)
      ∧ (∀ shard ∈ session.shards, Stocks (later.cluster.backend shard.backend).store
        (stockOf (virtualIds session) keys shard))
      ∧ ∀ i, (∀ shard ∈ session.shards, shard.backend ≠ i) →
        (later.cluster.backend i).store = ∅ := by
  have hserving := serving_of_routes hroutes h.unclosed hnonempty (List.range keys)
  let told := stage.say .info (Text.ofNat factory.physicalIds.length
    ++ " physical shard(s) serving " ++ Text.ofNat (virtualIds session).length
    ++ " virtual shard(s) with " ++ stage.strategy.inspect)
  have htold : Fresh told.cluster number session := h
  obtain ⟨current, written, hwrite, hreadable, hstocked, helse⟩ :=
    htold.write hadmitted hnonempty hserving
  let session' : Session := { session with current := current }
  have hstocked' : Stocked written.cluster session' (stockOf (virtualIds session) keys) :=
    ⟨hstocked.stocks, hstocked.distinct⟩
  obtain ⟨findings, queried, hquery, habout, hqueried⟩ :=
    hreadable.query hstocked' hserving.stocks_perm (by simpa using hfits)
  have hcluster : (tellSizes queried).cluster = queried.cluster := (sayEach_same ..).1
  have hopen : (queried.cluster.session number).closed = false := by
    rw [hqueried.reading.found]
    exact h.unclosed
  have hclosed := hqueried.reading.healthy.closeSession_ok hopen
  have hstores := (queried.cluster.closeSession_work number).sameStores rfl
  let closed : Stage := { tellSizes queried with cluster := (queried.cluster.closeSession number).2 }
  have hclose : (tellSizes queried).onCluster (fun w => w.closeSession number) = (.ok (), closed) := by
    refine onCluster_ok (Prod.ext ?_ ?_)
    · rw [hcluster]
      exact hclosed
    · rw [hcluster]
  have hsame : SameStores written.cluster closed.cluster := hqueried.reading.stores.trans hstores
  refine ⟨findings, closed, ?_, habout, ?_, ?_⟩
  · have hfound : stage.cluster.session number = session := h.found
    unfold Demo.inSession
    simp only [hfound]
    rw [hwrite]
    simp only [hquery, hclose]
    rfl
  · intro shard hshard
    rw [hsame]
    exact hstocked.stocks shard hshard
  · intro i hi
    rw [hsame]
    exact helse i hi

theorem mem_stockOf {shard : Shard} {n : Nat} :
    n ∈ stockOf ids keys shard ↔ n < keys ∧ shard.serves (itemTarget ids n) = true := by
  simp [stockOf]

/-! ## The whole run -/

section

variable [Machine]

/-- What the factory of a run is built from: a shard with an id of its own for each backend. -/
def Settings.routing (settings : Settings) : FactorySettings :=
  .ofConfig settings.config
    ((List.range settings.shards).map fun number => (ShardId.ofNat number, number))

/-- A backend hosts an id: it is that of the shard which the id goes to. -/
def Settings.Hosts (settings : Settings) (i : Nat) (id : ShardId) : Prop :=
  i < settings.shards ∧ settings.routing.home? id = some (.ofNat i)

/-- Each of the items is on the backend that hosts its target, and on no other, and the backends have
no other keys. -/
structure Settings.Places (settings : Settings) (ids : List ShardId) (w : Cluster) : Prop where
  placed : ∀ n < settings.keys, ∃ i, settings.Hosts i (itemTarget ids n) ∧
    ∀ j, (w.backend j).store.get? (itemKey n) = if j = i then some (itemRow n) else none
  known : ∀ j key row, (w.backend j).store.get? key = some row → ∃ n < settings.keys, key = itemKey n

/-- The handles of a run are for different backends. -/
theorem backends_of_routes {settings : Settings} (h : session.Routes settings.routing) :
    session.shards.map (·.backend) = List.range settings.shards := by
  have hpairs := congrArg (List.map Prod.snd) h.handles
  simpa [Settings.routing, FactorySettings.ofConfig, Function.comp_def] using hpairs

/-- A handle of a run is for the backend that hosts what it serves. -/
theorem hosts_of_serves {settings : Settings} {shard : Shard} {id : ShardId}
    (h : session.Routes settings.routing) (hshard : shard ∈ session.shards)
    (hserves : shard.serves id = true) : settings.Hosts shard.backend id := by
  have hmem : (shard.physicalId, shard.backend) ∈ settings.routing.shards :=
    h.handles ▸ List.mem_map_of_mem hshard
  obtain ⟨i, hi, hplace⟩ := List.mem_map.mp hmem
  obtain ⟨hid, rfl⟩ := Prod.mk.inj hplace
  refine ⟨List.mem_range.mp hi, ?_⟩
  rw [(h.serves shard hshard id).mp hserves, hid]

theorem places_of_stocks {settings : Settings} (hroutes : session.Routes settings.routing)
    (hserving : Serving session ids (List.range settings.keys))
    (hstocks : ∀ shard ∈ session.shards,
      Stocks (w.backend shard.backend).store (stockOf ids settings.keys shard))
    (helse : ∀ i, (∀ shard ∈ session.shards, shard.backend ≠ i) → (w.backend i).store = ∅) :
    settings.Places ids w := by
  have hbackends : (session.shards.map (·.backend)).Nodup :=
    backends_of_routes hroutes ▸ List.nodup_range
  constructor
  · intro n hn
    obtain ⟨shard, hshard, hserves⟩ := hserving.served n (List.mem_range.mpr hn)
    refine ⟨shard.backend, hosts_of_serves hroutes hshard hserves, ?_⟩
    intro j
    by_cases hj : ∃ other ∈ session.shards, other.backend = j
    · obtain ⟨other, hother, rfl⟩ := hj
      rw [(hstocks other hother).get?_itemKey]
      by_cases hserves' : other.serves (itemTarget ids n) = true
      · obtain rfl := Session.eq_of_serves hserving.parted hshard hother hserves hserves'
        rw [if_pos (mem_stockOf.mpr ⟨hn, hserves⟩), if_pos rfl]
      · rw [if_neg fun hmem => hserves' (mem_stockOf.mp hmem).2, if_neg]
        intro heq
        exact hserves' (List.inj_on_of_nodup_map hbackends hother hshard heq ▸ hserves)
    · rw [helse j fun other hother heq => hj ⟨other, hother, heq⟩, if_neg]
      · rfl
      · rintro rfl
        exact hj ⟨shard, hshard, rfl⟩
  · intro j key row hrow
    by_cases hj : ∃ other ∈ session.shards, other.backend = j
    · obtain ⟨other, hother, rfl⟩ := hj
      obtain ⟨n, hn, hkey, -⟩ := (hstocks other hother key row).mp hrow
      exact ⟨n, (mem_stockOf.mp hn).1, hkey⟩
    · rw [helse j fun other hother heq => hj ⟨other, hother, heq⟩] at hrow
      cases hrow

/-- How a run ends that conserves its keys: without an error, with each item in its place, where the
served ids are taken in turn in ascending order, with all items counted and the greatest listed. -/
structure Settings.Conserves (settings : Settings) (outcome : Outcome) : Prop where
  found : ∃ findings, outcome.result = .ok findings ∧ findings.About (List.range settings.keys)
  placed : ∃ ids : List ShardId, ids ≠ [] ∧ ids.Pairwise (fun a b => compare a b = .lt)
    ∧ (∀ id, id ∈ ids ↔ id ∈ settings.routing.virtualIds) ∧ settings.Places ids outcome.cluster

/-- A run whose calls go through this access strategy. -/
def runThrough (access : AccessStrategy) (settings : Settings) : Outcome :=
  let start : Stage := ⟨.ofBackends settings.shards, .default, []⟩
  match SessionFactory.build { settings.routing with strategy := access } with
  | .error e => start.finish (.error (.shard e))
  | .ok factory =>
    match { start with strategy := factory.strategy }.onCluster fun w => w.openSession factory with
    | (.error e, stage) => stage.finish (.error e)
    | (.ok session, stage) =>
      let (result, stage) := inSession factory session settings.keys stage
      stage.finish result

theorem run_eq (settings : Settings) :
    run settings = runThrough settings.config.strategy settings :=
  rfl

theorem runThrough_conserves {settings : Settings} {access : AccessStrategy}
    (hbuild : SessionFactory.build settings.routing = .ok factory) (hadmitted : access.Admitted)
    (hfits : settings.keys < UInt64.size) : settings.Conserves (runThrough access settings) := by
  obtain ⟨hregistered, hdistinct, hknown, shards, hplaced, rfl⟩ :=
    SessionFactory.build_eq_ok.mp hbuild
  let factory : SessionFactory := ⟨shards, access, settings.routing.timeout⟩
  have hbuilt : SessionFactory.build { settings.routing with strategy := access } = .ok factory :=
    SessionFactory.build_eq_ok.mpr ⟨hregistered, hdistinct, hknown, shards, hplaced, rfl⟩
  obtain ⟨number, w, hopen, hparts⟩ := openSession_ok hbuilt (ofBackends settings.shards)
  have hroutes : (w.session number).Routes settings.routing :=
    Session.routes_of_parts hbuild hparts
  have hplaces : settings.routing.shards.map (·.2) = List.range settings.shards := by
    simp [Settings.routing, FactorySettings.ofConfig, Function.comp_def]
  have hfresh : Fresh w number (w.session number) := by
    refine fresh_of_open hbuilt (hplaces ▸ List.nodup_range) ?_ hopen
    intro place hplace
    exact List.mem_range.mp (hplaces ▸ List.mem_map_of_mem hplace)
  have hnonempty : (w.session number).shards ≠ [] := by
    intro hnone
    have hhandles := hroutes.handles
    rw [hnone] at hhandles
    exact hregistered hhandles.symm
  let opened : Stage := ⟨w, access, []⟩
  have hopened : Fresh opened.cluster number (w.session number) := hfresh
  obtain ⟨findings, closed, hsession, habout, hstocks, helse⟩ :=
    hopened.inSession factory hadmitted hnonempty hroutes hfits
  have hrun : runThrough access settings = closed.finish (.ok findings) := by
    have hanswer : Stage.onCluster ⟨.ofBackends settings.shards, factory.strategy, []⟩
        (fun w => w.openSession factory) = (.ok number, opened) := onCluster_ok hopen
    simp only [runThrough, hbuilt, hanswer, hsession]
  have hserving := serving_of_routes hroutes hfresh.unclosed hnonempty (List.range settings.keys)
  obtain ⟨hascending, hmem⟩ := virtualIds_spec hroutes
  rw [hrun]
  exact ⟨⟨findings, rfl, habout⟩, _, virtualIds_ne_nil hroutes hnonempty, hascending, hmem,
    places_of_stocks hroutes hserving hstocks helse⟩

/-- A run conserves its keys if a factory can be built from its shards and its strategy asks for no
more permits than can be had. So it does with any other strategy in which no function of a caller
arranges the shards, whatever is drawn at random. -/
theorem run_conserves {settings : Settings}
    (hbuild : SessionFactory.build settings.routing = .ok factory)
    (hkeys : settings.keys * 37 < UInt64.size) :
    (settings.config.strategy.permits ≤ maxPermits → settings.Conserves (run settings))
      ∧ ∀ access : AccessStrategy, access.permits ≤ maxPermits →
        (∀ pick, access.ordering ≠ .custom pick) →
        settings.Conserves (runThrough access settings) := by
  have hfits : settings.keys < UInt64.size :=
    Nat.lt_of_le_of_lt (Nat.le_mul_of_pos_right _ (by decide)) hkeys
  constructor
  · intro hpermits
    rw [run_eq]
    exact runThrough_conserves hbuild (Config.strategy_admitted hpermits) hfits
  · intro access hpermits hunpicked
    exact runThrough_conserves hbuild ⟨hpermits, hunpicked⟩ hfits

end

/-- Two shards, of which the first hosts two of three virtual ids, visited at once. -/
theorem run_conserves_two_shards :
    let settings : Settings := ⟨2, 7, ⟨.parallel, .roundRobin, 2, .completion, some 30,
      some (.ofList [(.ofNat 4, .ofNat 0), (.ofNat 5, .ofNat 1), (.ofNat 9, .ofNat 0)])⟩⟩
    settings.config.strategy.permits ≤ maxPermits ∧ settings.keys * 37 < UInt64.size
      ∧ settings.Conserves (run settings) := by
  intro settings
  let factory : SessionFactory := ⟨[⟨.ofNat 0, .ofList [.ofNat 4, .ofNat 9], 0⟩,
    ⟨.ofNat 1, .ofList [.ofNat 5], 1⟩], settings.config.strategy, some 30⟩
  have hbuild : SessionFactory.build settings.routing = .ok factory := by
    rfl
  have hpermits : settings.config.strategy.permits ≤ maxPermits := by
    decide
  have hkeys : settings.keys * 37 < UInt64.size := by
    decide
  exact ⟨hpermits, hkeys, (run_conserves hbuild hkeys).1 hpermits⟩

end ScatterGather.Demo
