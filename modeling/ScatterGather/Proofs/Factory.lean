import ScatterGather.Factory
import ScatterGather.Proofs.Ordered

/-!
# What a built factory promises

The shards of a factory are those of its settings, in order, each with the backend it was registered
with, and no id occurs twice. Each serves the virtual ids that the map sends to it: the inverse of
the map has these, and as a shard takes its ids out of it, those of the other shards stay. So a
factory can be built just if there is a shard for every virtual id and a virtual id for every shard.
-/

namespace ScatterGather

/-! ## The inverse of a map -/

namespace VirtualMap

/-- The ids that are hosted by a shard. -/
def hostedBy (hosted : Ordered.Map ShardId IdSet) (physicalId : ShardId) : IdSet :=
  (hosted.get? physicalId).getD ∅

/-- No shard is listed without an id. -/
def Busy (hosted : Ordered.Map ShardId IdSet) : Prop :=
  ∀ physicalId served, hosted.get? physicalId = some served → served.toList ≠ []

/-- Enter one more pair. -/
def host (hosted : Ordered.Map ShardId IdSet) (pair : ShardId × ShardId) :
    Ordered.Map ShardId IdSet :=
  hosted.insert pair.2 ((hostedBy hosted pair.2).add pair.1)

theorem inverse_eq (m : VirtualMap) : m.inverse = m.toList.foldl host ∅ :=
  rfl

theorem mem_hostedBy_host {hosted : Ordered.Map ShardId IdSet} {pair : ShardId × ShardId}
    {physicalId virtualId : ShardId} :
    virtualId ∈ (hostedBy (host hosted pair) physicalId).toList ↔
      (virtualId, physicalId) = pair ∨ virtualId ∈ (hostedBy hosted physicalId).toList := by
  obtain ⟨v, p⟩ := pair
  by_cases h : physicalId = p
  · subst h
    simp [host, hostedBy, Ordered.Map.get?_insert_self]
  · simp [host, hostedBy, Ordered.Map.get?_insert_ne _ h, h]

theorem Busy.host {hosted : Ordered.Map ShardId IdSet} (h : Busy hosted)
    (pair : ShardId × ShardId) : Busy (host hosted pair) := by
  intro physicalId served hserved
  by_cases heq : physicalId = pair.2
  · subst heq
    rw [VirtualMap.host, Ordered.Map.get?_insert_self] at hserved
    obtain rfl := Option.some.inj hserved
    intro hnil
    have hmem : pair.1 ∈ ((hostedBy hosted pair.2).add pair.1).toList := by simp
    simp [hnil] at hmem
  · rw [VirtualMap.host, Ordered.Map.get?_insert_ne _ heq] at hserved
    exact h physicalId served hserved

theorem foldl_host (pairs : List (ShardId × ShardId)) {hosted : Ordered.Map ShardId IdSet}
    (h : Busy hosted) :
    Busy (pairs.foldl host hosted)
      ∧ ∀ physicalId virtualId, virtualId ∈ (hostedBy (pairs.foldl host hosted) physicalId).toList ↔
        (virtualId, physicalId) ∈ pairs ∨ virtualId ∈ (hostedBy hosted physicalId).toList := by
  induction pairs generalizing hosted with
  | nil => simpa using h
  | cons pair rest ih =>
    obtain ⟨hbusy, hmem⟩ := ih (h.host pair)
    refine ⟨hbusy, ?_⟩
    intro physicalId virtualId
    rw [List.foldl_cons, hmem, mem_hostedBy_host, List.mem_cons]
    simp only [or_left_comm, or_assoc]

theorem mem_toList {m : VirtualMap} {virtualId physicalId : ShardId} :
    (virtualId, physicalId) ∈ m.toList ↔ m.physicalOf? virtualId = some physicalId :=
  Ordered.Map.mem_entries

/-- The inverse lists, for each physical shard, the virtual ones that the map sends to it, and no
shard without one. -/
theorem inverse_spec (m : VirtualMap) : Busy m.inverse
    ∧ ∀ physicalId virtualId, virtualId ∈ (hostedBy m.inverse physicalId).toList ↔
      m.physicalOf? virtualId = some physicalId := by
  have hnone : Busy ∅ := by
    intro physicalId served hserved
    cases hserved
  obtain ⟨hbusy, hmem⟩ := foldl_host m.toList hnone
  refine ⟨hbusy, ?_⟩
  intro physicalId virtualId
  rw [inverse_eq, hmem, mem_toList]
  simp [hostedBy, Ordered.Map.get?_empty]

theorem get?_inverse_eq_none {m : VirtualMap} {physicalId : ShardId} :
    m.inverse.get? physicalId = none ↔ ∀ virtualId, m.physicalOf? virtualId ≠ some physicalId := by
  obtain ⟨hbusy, hmem⟩ := m.inverse_spec
  constructor
  · intro hnone virtualId hvirtual
    rw [← hmem, hostedBy, hnone] at hvirtual
    simp at hvirtual
  · intro hidle
    cases hserved : m.inverse.get? physicalId with
    | none => rfl
    | some served =>
      obtain ⟨virtualId, hvirtual⟩ := List.exists_mem_of_ne_nil _ (hbusy _ _ hserved)
      refine absurd ((hmem physicalId virtualId).mp ?_) (hidle virtualId)
      simpa [hostedBy, hserved] using hvirtual

end VirtualMap

/-! ## What a factory can be built from -/

namespace FactorySettings

/-- The physical shard that a virtual id goes to. Without virtual shards every id goes to the shard
of that id. -/
def home? (settings : FactorySettings) (id : ShardId) : Option ShardId :=
  if settings.virtualShards.map.isEmpty then some id else settings.virtualShards.physicalOf? id

/-- The ids that are served. -/
def virtualIds (settings : FactorySettings) : List ShardId :=
  if settings.virtualShards.map.isEmpty then settings.registered
  else settings.virtualShards.map.keys

/-- There are shards, each with an id of its own; every virtual id has a shard, and every shard a
virtual id unless there are none at all. -/
structure Routable (settings : FactorySettings) : Prop where
  nonempty : settings.shards ≠ []
  distinct : settings.registered.Nodup
  known : ∀ virtualId physicalId, settings.virtualShards.physicalOf? virtualId = some physicalId →
    physicalId ∈ settings.registered
  busy : settings.virtualShards.map.isEmpty = false → ∀ physicalId ∈ settings.registered,
    ∃ virtualId, settings.virtualShards.physicalOf? virtualId = some physicalId

end FactorySettings

namespace SessionFactory

theorem firstRepeated?_eq_none {seen ids : List ShardId} :
    firstRepeated? seen ids = none ↔ ids.Nodup ∧ ∀ id ∈ ids, id ∉ seen := by
  induction ids generalizing seen with
  | nil => simp [firstRepeated?]
  | cons id rest ih =>
    rw [firstRepeated?]
    split
    case isTrue hseen =>
      have hseen : id ∈ seen := List.contains_iff_mem.mp hseen
      simp [hseen]
    case isFalse hnew =>
      have hnew : id ∉ seen := fun hmem => hnew (List.contains_iff_mem.mpr hmem)
      rw [ih, List.nodup_cons, List.forall_mem_cons]
      constructor
      · rintro ⟨hnodup, hrest⟩
        refine ⟨⟨?_, hnodup⟩, hnew, ?_⟩
        · intro hmem
          exact hrest id hmem List.mem_cons_self
        · intro other hother hmem
          exact hrest other hother (List.mem_cons_of_mem _ hmem)
      · rintro ⟨⟨hnot, hnodup⟩, -, hrest⟩
        refine ⟨hnodup, ?_⟩
        intro other hother hmem
        rcases List.mem_cons.mp hmem with rfl | hmem
        · exact hnot hother
        · exact hrest other hother hmem

theorem firstStray?_eq_none {registered : List ShardId} {m : VirtualMap} :
    firstStray? registered m = none ↔ ∀ virtualId physicalId,
      m.physicalOf? virtualId = some physicalId → physicalId ∈ registered := by
  simp only [firstStray?, List.find?_eq_none, Prod.forall, VirtualMap.mem_toList]
  simp

/-! ## Placing -/

theorem servedBy?_erase {m : VirtualMap} {hosted : Ordered.Map ShardId IdSet}
    {physicalId other : ShardId} (h : other ≠ physicalId) :
    servedBy? m (hosted.erase physicalId) other = servedBy? m hosted other := by
  rw [servedBy?, servedBy?, Ordered.Map.get?_erase_ne hosted h]

/-- The ids that a placed shard takes do not depend on the shards that were placed before. -/
theorem place_spec {m : VirtualMap} {registered : List (ShardId × Nat)}
    {hosted : Ordered.Map ShardId IdSet} {shards : List PhysicalShard}
    (hnodup : (registered.map (·.1)).Nodup) (h : place m registered hosted = .ok shards) :
    shards.map (fun shard => (shard.physicalId, shard.backend)) = registered
      ∧ ∀ shard ∈ shards, servedBy? m hosted shard.physicalId = some shard.served := by
  induction registered generalizing hosted shards with
  | nil =>
    cases h
    simp
  | cons first rest ih =>
    obtain ⟨physicalId, backend⟩ := first
    obtain ⟨hnew, hnodup⟩ := List.nodup_cons.mp hnodup
    rw [place] at h
    cases hserved : servedBy? m hosted physicalId with
    | none =>
      rw [hserved] at h
      cases h
    | some served =>
      cases hrest : place m rest (hosted.erase physicalId) with
      | error e =>
        rw [hserved, hrest] at h
        cases h
      | ok tail =>
        rw [hserved, hrest] at h
        cases h
        obtain ⟨hpairs, hserves⟩ := ih hnodup hrest
        refine ⟨congrArg ((physicalId, backend) :: ·) hpairs, ?_⟩
        intro shard hshard
        rcases List.mem_cons.mp hshard with rfl | hshard
        · exact hserved
        · have hmem : shard.physicalId ∈ rest.map (·.1) := by
            rw [← hpairs, List.map_map]
            exact List.mem_map_of_mem hshard
          rw [← hserves shard hshard, servedBy?_erase]
          rintro rfl
          exact hnew hmem

/-- Every shard is placed just if each has ids to take. -/
theorem place_ok_iff {m : VirtualMap} {registered : List (ShardId × Nat)}
    {hosted : Ordered.Map ShardId IdSet} (hnodup : (registered.map (·.1)).Nodup) :
    (∃ shards, place m registered hosted = .ok shards) ↔
      ∀ physicalId ∈ registered.map (·.1), servedBy? m hosted physicalId ≠ none := by
  induction registered generalizing hosted with
  | nil => simp [place]
  | cons first rest ih =>
    obtain ⟨physicalId, backend⟩ := first
    obtain ⟨hnew, hnodup⟩ := List.nodup_cons.mp hnodup
    have hothers : (∀ other ∈ rest.map (·.1),
        servedBy? m (hosted.erase physicalId) other ≠ none) ↔
        ∀ other ∈ rest.map (·.1), servedBy? m hosted other ≠ none := by
      refine forall₂_congr fun other hother => ?_
      rw [servedBy?_erase]
      rintro rfl
      exact hnew hother
    rw [List.map_cons, List.forall_mem_cons, ← hothers, ← ih hnodup, place]
    cases servedBy? m hosted physicalId with
    | none => simp
    | some served => cases place m rest (hosted.erase physicalId) <;> simp

theorem place_error {m : VirtualMap} {registered : List (ShardId × Nat)}
    {hosted : Ordered.Map ShardId IdSet} {e : ShardError}
    (h : place m registered hosted = .error e) : ∃ reason, e = .configuration reason := by
  induction registered generalizing hosted with
  | nil => cases h
  | cons first rest ih =>
    obtain ⟨physicalId, backend⟩ := first
    rw [place] at h
    cases hserved : servedBy? m hosted physicalId with
    | none =>
      rw [hserved] at h
      cases h
      exact ⟨_, rfl⟩
    | some served =>
      cases hrest : place m rest (hosted.erase physicalId) with
      | error e' =>
        rw [hserved, hrest] at h
        cases h
        exact ih hrest
      | ok tail =>
        rw [hserved, hrest] at h
        cases h

/-! ## Building -/

/-- A factory is built by placing the shards, once the settings have passed all other checks. -/
theorem build_eq_ok {settings : FactorySettings} {factory : SessionFactory} :
    build settings = .ok factory ↔ settings.shards ≠ [] ∧ settings.registered.Nodup
      ∧ (∀ virtualId physicalId,
        settings.virtualShards.physicalOf? virtualId = some physicalId →
          physicalId ∈ settings.registered)
      ∧ ∃ shards, place settings.virtualShards settings.shards settings.virtualShards.inverse
          = .ok shards ∧ factory = ⟨shards, settings.strategy, settings.timeout⟩ := by
  rw [← firstStray?_eq_none]
  have hrepeated : firstRepeated? [] settings.registered = none ↔ settings.registered.Nodup := by
    simp [firstRepeated?_eq_none]
  rw [← hrepeated, build]
  have hempty : settings.registered.isEmpty = true ↔ settings.shards = [] := by
    simp [FactorySettings.registered]
  by_cases hshards : settings.shards = []
  · simp [hempty.mpr hshards, hshards]
  · simp only [if_neg (mt hempty.mp hshards), ne_eq, hshards, not_false_eq_true, true_and]
    cases firstRepeated? [] settings.registered with
    | some id => simp
    | none =>
      cases firstStray? settings.registered settings.virtualShards with
      | some pair => simp
      | none =>
        cases place settings.virtualShards settings.shards settings.virtualShards.inverse with
        | error e => simp
        | ok shards => simp [eq_comm]

theorem build_error {settings : FactorySettings} {e : ShardError}
    (h : build settings = .error e) : ∃ reason, e = .configuration reason := by
  rw [build] at h
  split at h
  · cases h
    exact ⟨_, rfl⟩
  · split at h
    · cases h
      exact ⟨_, rfl⟩
    · split at h
      · cases h
        exact ⟨_, rfl⟩
      · split at h
        case h_1 e' hplace =>
          cases h
          exact place_error hplace
        case h_2 => cases h

theorem build_ok_iff {settings : FactorySettings} :
    (∃ factory, build settings = .ok factory) ↔ settings.Routable := by
  have hbusy : settings.registered.Nodup →
      ((∃ shards, place settings.virtualShards settings.shards settings.virtualShards.inverse
        = .ok shards) ↔ (settings.virtualShards.map.isEmpty = false →
          ∀ physicalId ∈ settings.registered,
            ∃ virtualId, settings.virtualShards.physicalOf? virtualId = some physicalId)) := by
    intro hnodup
    rw [place_ok_iff hnodup]
    cases hempty : settings.virtualShards.map.isEmpty with
    | true => simp [servedBy?, hempty]
    | false =>
      simp [servedBy?, hempty, VirtualMap.get?_inverse_eq_none, FactorySettings.registered]
  constructor
  · rintro ⟨factory, hbuild⟩
    obtain ⟨hshards, hnodup, hknown, shards, hplace, -⟩ := build_eq_ok.mp hbuild
    exact ⟨hshards, hnodup, hknown, (hbusy hnodup).mp ⟨shards, hplace⟩⟩
  · rintro ⟨hshards, hnodup, hknown, hall⟩
    obtain ⟨shards, hplace⟩ := (hbusy hnodup).mpr hall
    exact ⟨_, build_eq_ok.mpr ⟨hshards, hnodup, hknown, shards, hplace, rfl⟩⟩

theorem build_spec {settings : FactorySettings} {factory : SessionFactory}
    (h : build settings = .ok factory) :
    factory.physicalIds = settings.shards.map (·.1) ∧ factory.physicalIds.Nodup
      ∧ factory.shards.map (·.backend) = settings.shards.map (·.2) := by
  obtain ⟨-, hnodup, -, shards, hplace, rfl⟩ := build_eq_ok.mp h
  obtain ⟨hpairs, -⟩ := place_spec hnodup hplace
  have hids : shards.map (·.physicalId) = settings.shards.map (·.1) := by
    rw [← hpairs]
    simp
  refine ⟨hids, ?_, ?_⟩
  · rw [physicalIds, hids]
    exact hnodup
  · rw [← hpairs]
    simp

/-- The shards of a factory are the registered ones, and each serves, besides some id, just those
that go to it. -/
theorem build_serves {settings : FactorySettings} {factory : SessionFactory}
    (h : build settings = .ok factory) :
    factory.shards.map (fun shard => (shard.physicalId, shard.backend)) = settings.shards
      ∧ ∀ shard ∈ factory.shards, shard.served.toList ≠ []
        ∧ ∀ id, id ∈ shard.served.toList ↔ settings.home? id = some shard.physicalId := by
  obtain ⟨-, hnodup, -, shards, hplace, rfl⟩ := build_eq_ok.mp h
  obtain ⟨hpairs, hserves⟩ := place_spec hnodup hplace
  refine ⟨hpairs, ?_⟩
  intro shard hshard
  have hserved := hserves shard hshard
  rw [servedBy?] at hserved
  cases hempty : settings.virtualShards.map.isEmpty with
  | true =>
    rw [hempty, if_pos rfl] at hserved
    obtain hserved := Option.some.inj hserved
    have hmem : ∀ id, id ∈ shard.served.toList ↔ id = shard.physicalId := by
      simp [← hserved]
    refine ⟨List.ne_nil_of_mem ((hmem _).mpr rfl), ?_⟩
    simp [FactorySettings.home?, hempty, hmem]
  | false =>
    obtain ⟨hbusy, hmem⟩ := settings.virtualShards.inverse_spec
    rw [hempty, if_neg Bool.false_ne_true] at hserved
    refine ⟨hbusy _ _ hserved, ?_⟩
    intro id
    rw [FactorySettings.home?, hempty, if_neg Bool.false_ne_true, ← hmem, VirtualMap.hostedBy,
      hserved, Option.getD_some]

end SessionFactory

end ScatterGather
