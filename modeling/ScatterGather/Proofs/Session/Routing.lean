import Mathlib.Data.List.Induction
import ScatterGather.Proofs.Access.Dispatch
import ScatterGather.Proofs.Factory
import ScatterGather.Proofs.Session.Enlistment

/-!
# Which handle an id goes to

The ids of the handles, the index of a session and the map of its factory are three accounts of one
thing. For a session over the handles of a built factory they agree: the handles part the virtual ids
among themselves as the map says, so the index has one place for each id, and looking up a list of
ids yields the handles that serve them, in the order in which they are first needed.
-/

namespace ScatterGather

/-! ## The index -/

namespace Session

/-- No two handles serve one id. -/
def Parted (shards : List Shard) : Prop :=
  shards.Pairwise fun a b => a.served.toList.Disjoint b.served.toList

theorem serves_iff {shard : Shard} {id : ShardId} :
    shard.serves id = true ↔ id ∈ shard.served.toList :=
  Ordered.Set.mem_toList.symm

theorem get?_foldl_insert (ids : List ShardId) (place : Nat) (index : Ordered.Map ShardId Nat)
    (id : ShardId) :
    (ids.foldl (fun index id => index.insert id place) index).get? id =
      if id ∈ ids then some place else index.get? id := by
  induction ids generalizing index with
  | nil => simp
  | cons first rest ih =>
    rw [List.foldl_cons, ih]
    by_cases hfirst : id = first
    · simp [hfirst, Ordered.Map.get?_insert_self]
    · simp [hfirst, Ordered.Map.get?_insert_ne]

/-- What no handle serves is not entered. -/
theorem get?_enter_of_unserved {shards : List Shard} {id : ShardId}
    (h : ∀ shard ∈ shards, ¬ shard.serves id = true) (place : Nat)
    (index : Ordered.Map ShardId Nat) :
    (enter shards place index).get? id = index.get? id := by
  induction shards generalizing place index with
  | nil => rfl
  | cons shard rest ih =>
    obtain ⟨hshard, hrest⟩ := List.forall_mem_cons.mp h
    rw [enter, ih hrest, get?_foldl_insert, if_neg (mt serves_iff.mpr hshard)]

/-- An id is entered with the place of the handle that serves it. -/
theorem get?_enter_of_serves {shards : List Shard} (hparted : Parted shards) {i : Nat}
    {shard : Shard} (hshard : shards[i]? = some shard) {id : ShardId}
    (hserves : shard.serves id = true) (place : Nat) (index : Ordered.Map ShardId Nat) :
    (enter shards place index).get? id = some (place + i) := by
  induction shards generalizing i place index with
  | nil => cases hshard
  | cons first rest ih =>
    obtain ⟨hfirst, hrest⟩ := List.pairwise_cons.mp hparted
    rw [enter]
    cases i with
    | zero =>
      obtain rfl := Option.some.inj hshard
      have hunserved : ∀ other ∈ rest, ¬ other.serves id = true := by
        intro other hother hserved
        exact hfirst other hother (serves_iff.mp hserves) (serves_iff.mp hserved)
      rw [get?_enter_of_unserved hunserved, get?_foldl_insert, if_pos (serves_iff.mp hserves)]
      rfl
    | succ i =>
      rw [ih hrest hshard]
      congr 1
      omega

variable {session : Session}

/-- An id goes to the handle that serves it. -/
theorem placeOf_of_serves (hparted : Parted session.shards) {place : Nat} {shard : Shard}
    (hshard : session.shards[place]? = some shard) {id : ShardId}
    (hserves : shard.serves id = true) : session.placeOf id = .ok place := by
  rw [placeOf, index, get?_enter_of_serves hparted hshard hserves, Nat.zero_add]

theorem eq_of_serves (hparted : Parted session.shards) {shard other : Shard}
    (hshard : shard ∈ session.shards) (hother : other ∈ session.shards) {id : ShardId}
    (hserves : shard.serves id = true) (hserves' : other.serves id = true) : shard = other := by
  obtain ⟨place, hplace⟩ := List.mem_iff_getElem?.mp hshard
  obtain ⟨place', hplace'⟩ := List.mem_iff_getElem?.mp hother
  have hfound := placeOf_of_serves hparted hplace hserves
  rw [placeOf_of_serves hparted hplace' hserves'] at hfound
  obtain rfl := Except.ok.inj hfound
  exact Option.some.inj (hplace.symm.trans hplace')

theorem placeOf_of_unserved {id : ShardId}
    (h : ∀ shard ∈ session.shards, ¬ shard.serves id = true) :
    session.placeOf id = .error (.invalidArgument ("unknown shard id " ++ id.text)) := by
  rw [placeOf, index, get?_enter_of_unserved h, Ordered.Map.get?_empty]

/-! ## Looking ids up -/

/-- The first place whose handle serves an id. -/
def home (session : Session) (id : ShardId) : Nat :=
  session.shards.findIdx (·.serves id)

theorem getElem?_home {id : ShardId} {shard : Shard} (hshard : shard ∈ session.shards)
    (hserves : shard.serves id = true) :
    ∃ found, session.shards[session.home id]? = some found ∧ found.serves id = true := by
  have hlt : session.home id < session.shards.length :=
    List.findIdx_lt_length_of_exists ⟨shard, hshard, hserves⟩
  have hfound := List.findIdx_getElem (w := hlt)
  exact ⟨_, List.getElem?_eq_getElem hlt, hfound⟩

theorem home_eq (hparted : Parted session.shards) {place : Nat} {shard : Shard}
    (hshard : session.shards[place]? = some shard) {id : ShardId}
    (hserved : ∃ other ∈ session.shards, other.serves id = true) :
    session.home id = place ↔ shard.serves id = true := by
  obtain ⟨other, hother, hserves⟩ := hserved
  obtain ⟨found, hfound, hfoundServes⟩ := getElem?_home hother hserves
  constructor
  · rintro rfl
    rw [hshard] at hfound
    obtain rfl := Option.some.inj hfound
    exact hfoundServes
  · intro hserves
    have hplace := placeOf_of_serves hparted hshard hserves
    rw [placeOf_of_serves hparted hfound hfoundServes] at hplace
    exact Except.ok.inj hplace

/-- Where every id is served, looking them up finds the place of each. -/
theorem mapM_placeOf (hparted : Parted session.shards) {ids : List ShardId}
    (h : ∀ id ∈ ids, ∃ shard ∈ session.shards, shard.serves id = true) :
    ids.mapM session.placeOf = .ok (ids.map session.home) := by
  induction ids with
  | nil => rfl
  | cons id rest ih =>
    obtain ⟨⟨shard, hshard, hserves⟩, hrest⟩ := List.forall_mem_cons.mp h
    obtain ⟨found, hfound, hfoundServes⟩ := getElem?_home hshard hserves
    rw [List.mapM_cons, placeOf_of_serves hparted hfound hfoundServes, ih hrest]
    rfl

/-- The first id that no handle serves is reported. -/
theorem mapM_placeOf_error (hparted : Parted session.shards) {ids : List ShardId} {id : ShardId}
    (h : ids.find? (fun id => !session.shards.any (·.serves id)) = some id) :
    ids.mapM session.placeOf = .error (.invalidArgument ("unknown shard id " ++ id.text)) := by
  induction ids with
  | nil => cases h
  | cons first rest ih =>
    rw [List.mapM_cons]
    rw [List.find?_cons] at h
    cases hany : session.shards.any (·.serves first) with
    | true =>
      obtain ⟨shard, hshard, hserves⟩ := List.any_eq_true.mp hany
      obtain ⟨found, hfound, hfoundServes⟩ := getElem?_home hshard hserves
      simp only [hany, Bool.not_true] at h
      rw [placeOf_of_serves hparted hfound hfoundServes, ih h]
      rfl
    | false =>
      simp only [hany, Bool.not_false, Option.some.injEq] at h
      subst h
      rw [placeOf_of_unserved (by simpa using hany)]
      rfl

end Session

/-- Without repetitions, the elements of a list stand in the order of their first occurrences. -/
theorem pairwise_idxOf_eraseDups {α : Type} [DecidableEq α] (xs : List α) :
    xs.eraseDups.Pairwise fun a b => xs.idxOf a < xs.idxOf b := by
  induction xs using List.reverseRecOn with
  | nil => simp
  | append_singleton xs last ih =>
    have hold : ∀ a ∈ xs.eraseDups, (xs ++ [last]).idxOf a = xs.idxOf a := by
      intro a ha
      exact List.idxOf_append_of_mem (List.mem_eraseDups.mp ha)
    have hpairs : xs.eraseDups.Pairwise fun a b =>
        (xs ++ [last]).idxOf a < (xs ++ [last]).idxOf b := by
      refine ih.imp_of_mem ?_
      intro a b ha hb hlt
      rwa [hold a ha, hold b hb]
    rw [List.eraseDups_append]
    by_cases hlast : last ∈ xs
    · simpa [List.removeAll, hlast] using hpairs
    · have hnew : ([last].removeAll xs).eraseDups = [last] := by
        simp [List.removeAll, hlast, List.eraseDups_cons]
      rw [hnew]
      refine List.pairwise_append.mpr ⟨hpairs, List.pairwise_singleton _ _, ?_⟩
      intro a ha b hb
      obtain rfl : b = last := by simpa using hb
      rw [hold a ha, List.idxOf_append_of_notMem hlast]
      exact Nat.lt_add_right _ (List.idxOf_lt_length_iff.mpr (List.mem_eraseDups.mp ha))

theorem findIdx_congr_mem {α : Type} {p q : α → Bool} {xs : List α}
    (h : ∀ x ∈ xs, p x = q x) : xs.findIdx p = xs.findIdx q := by
  induction xs with
  | nil => rfl
  | cons first rest ih =>
    obtain ⟨hfirst, hrest⟩ := List.forall_mem_cons.mp h
    rw [List.findIdx_cons, List.findIdx_cons, hfirst, ih hrest]

namespace Session

variable {session : Session}

/-- Ids that are all served are looked up: the handles that serve them are found, each once, in the
order in which the ids need them. -/
theorem shardsFor_ok (hparted : Parted session.shards) {ids : List ShardId}
    (h : ∀ id ∈ ids, ∃ shard ∈ session.shards, shard.serves id = true) :
    ∃ picked, session.shardsFor ids = .ok picked ∧ picked.Nodup
      ∧ (∀ shard, shard ∈ picked ↔
        shard ∈ session.shards ∧ ∃ id ∈ ids, shard.serves id = true)
      ∧ picked.Pairwise fun a b => ids.findIdx a.serves < ids.findIdx b.serves := by
  suffices hfound : ∃ picked, session.shardsFor ids = .ok picked
      ∧ (∀ shard, shard ∈ picked ↔
        shard ∈ session.shards ∧ ∃ id ∈ ids, shard.serves id = true)
      ∧ picked.Pairwise fun a b => ids.findIdx a.serves < ids.findIdx b.serves by
    obtain ⟨picked, hpicked, hmem, hpairs⟩ := hfound
    refine ⟨picked, hpicked, hpairs.imp ?_, hmem, hpairs⟩
    rintro a b hlt rfl
    exact Nat.lt_irrefl _ hlt
  refine ⟨_, by rw [shardsFor, mapM_placeOf hparted h]; rfl, ?_, ?_⟩
  · intro shard
    simp only [List.mem_filterMap, List.mem_eraseDups, List.mem_map]
    constructor
    · rintro ⟨place, ⟨id, hid, rfl⟩, hshard⟩
      exact ⟨List.mem_of_getElem? hshard, id, hid, (home_eq hparted hshard (h id hid)).mp rfl⟩
    · rintro ⟨hshard, id, hid, hserves⟩
      obtain ⟨place, hplace⟩ := List.mem_iff_getElem?.mp hshard
      refine ⟨place, ⟨id, hid, ?_⟩, hplace⟩
      exact (home_eq hparted hplace (h id hid)).mpr hserves
  · -- Where a place first occurs among those of the ids, there the handle first serves an id.
    have hfirst : ∀ place shard, session.shards[place]? = some shard →
        (ids.map session.home).idxOf place = ids.findIdx shard.serves := by
      intro place shard hshard
      rw [List.idxOf, List.findIdx_map]
      apply findIdx_congr_mem
      intro id hid
      rw [Function.comp_apply, Bool.eq_iff_iff, beq_iff_eq]
      exact home_eq hparted hshard (h id hid)
    refine List.pairwise_filterMap.mpr ((pairwise_idxOf_eraseDups _).imp ?_)
    intro place place' hlt shard hshard shard' hshard'
    rwa [← hfirst place shard hshard, ← hfirst place' shard' hshard']

theorem shardsFor_single (hparted : Parted session.shards) {shard : Shard}
    (hshard : shard ∈ session.shards) {id : ShardId} (hserves : shard.serves id = true) :
    session.shardsFor [id] = .ok [shard] := by
  obtain ⟨place, hplace⟩ := List.mem_iff_getElem?.mp hshard
  have hplaces : [id].mapM session.placeOf = .ok [place] := by
    rw [List.mapM_cons, placeOf_of_serves hparted hplace hserves]
    rfl
  rw [shardsFor, hplaces]
  simp [Except.map, List.eraseDups_cons, hplace]

theorem shardsFor_error (hparted : Parted session.shards) {ids : List ShardId} {id : ShardId}
    (h : ids.find? (fun id => !session.shards.any (·.serves id)) = some id) :
    session.shardsFor ids = .error (.invalidArgument ("unknown shard id " ++ id.text)) := by
  rw [shardsFor, mapM_placeOf_error hparted h]
  rfl

/-- The handles that a call is meant for are different handles of the session, and where ids are
given each of them serves one. -/
theorem targets_spec (hparted : Parted session.shards)
    (hids : (session.shards.map (·.physicalId)).Nodup) {ids : Option (List ShardId)}
    {targets : List Shard} (h : session.targets ids = .ok targets) :
    (targets.map (·.physicalId)).Nodup ∧ ∀ shard ∈ targets, shard ∈ session.shards
      ∧ ∀ listed, ids = some listed → ∃ id ∈ listed, shard.serves id = true := by
  cases ids with
  | none =>
    obtain rfl := Except.ok.inj h
    exact ⟨hids, fun shard hshard => ⟨hshard, by simp⟩⟩
  | some listed =>
    have h : session.shardsFor listed = .ok targets := h
    have hserved : ∀ id ∈ listed, ∃ shard ∈ session.shards, shard.serves id = true := by
      intro id hid
      by_contra hnone
      have hunserved : (listed.find? fun id => !session.shards.any (·.serves id)) ≠ none := by
        intro hfind
        have hany := List.find?_eq_none.mp hfind id hid
        simp only [Bool.not_eq_true', Bool.not_eq_false, List.any_eq_true] at hany
        exact hnone hany
      obtain ⟨unknown, hunknown⟩ := Option.ne_none_iff_exists'.mp hunserved
      rw [shardsFor_error hparted hunknown] at h
      cases h
    obtain ⟨picked, hpicked, hnodup, hmem, -⟩ := shardsFor_ok hparted hserved
    obtain rfl := Except.ok.inj (hpicked.symm.trans h)
    refine ⟨?_, ?_⟩
    · refine hnodup.map_on ?_
      intro a ha b hb hsame
      exact List.inj_on_of_nodup_map hids ((hmem a).mp ha).1 ((hmem b).mp hb).1 hsame
    · intro shard hshard
      obtain ⟨hin, hserves⟩ := (hmem shard).mp hshard
      refine ⟨hin, ?_⟩
      intro other hother
      obtain rfl := Option.some.inj hother
      exact hserves

end Session

/-! ## Sessions of a factory -/

/-- The handles of a session are the registered shards, in order, and each of them serves those ids
that the settings send to it. -/
structure Session.Routes (session : Session) (settings : FactorySettings) : Prop where
  handles : session.shards.map (fun shard => (shard.physicalId, shard.backend)) = settings.shards
  nonempty : ∀ shard ∈ session.shards, shard.served.toList ≠ []
  disjoint : session.shards.Pairwise fun a b => a.served.toList.Disjoint b.served.toList
  together : ∀ id, (∃ shard ∈ session.shards, id ∈ shard.served.toList) ↔ id ∈ settings.virtualIds
  serves : ∀ shard ∈ session.shards, ∀ id,
    shard.serves id = true ↔ settings.home? id = some shard.physicalId

theorem FactorySettings.home?_mem {settings : FactorySettings} (h : settings.Routable)
    (id : ShardId) :
    (∃ physicalId ∈ settings.registered, settings.home? id = some physicalId) ↔
      id ∈ settings.virtualIds := by
  cases hempty : settings.virtualShards.map.isEmpty with
  | true => simp [home?, virtualIds, hempty]
  | false =>
    simp only [home?, virtualIds, hempty, if_neg Bool.false_ne_true, Ordered.Map.mem_keys]
    constructor
    · rintro ⟨physicalId, -, hhome⟩
      exact ⟨physicalId, hhome⟩
    · rintro ⟨physicalId, hhome⟩
      exact ⟨physicalId, h.known id physicalId hhome, hhome⟩

/-- Handles for the registered shards have the registered ids. -/
theorem FactorySettings.registered_eq {settings : FactorySettings} {shards : List Shard}
    (h : shards.map (fun shard => (shard.physicalId, shard.backend)) = settings.shards) :
    shards.map (·.physicalId) = settings.registered := by
  rw [registered, ← h, List.map_map]
  rfl

/-- Handles for the shards of a built factory part the ids among themselves as the map says. -/
theorem Session.routes_of_parts {settings : FactorySettings} {factory : SessionFactory}
    (hbuild : SessionFactory.build settings = .ok factory) {session : Session}
    (hparts : session.shards.map Cluster.physicalOf = factory.shards) :
    session.Routes settings := by
  obtain ⟨hpairs, hserved⟩ := SessionFactory.build_serves hbuild
  have hroutable := SessionFactory.build_ok_iff.mp ⟨factory, hbuild⟩
  have hhandles : session.shards.map (fun shard => (shard.physicalId, shard.backend))
      = settings.shards := by
    rw [← hpairs, ← hparts, List.map_map]
    rfl
  have hids := FactorySettings.registered_eq hhandles
  have hserves : ∀ shard ∈ session.shards, shard.served.toList ≠ []
      ∧ ∀ id, id ∈ shard.served.toList ↔ settings.home? id = some shard.physicalId := by
    intro shard hshard
    refine hserved (Cluster.physicalOf shard) ?_
    rw [← hparts]
    exact List.mem_map_of_mem hshard
  refine ⟨hhandles, fun shard hshard => (hserves shard hshard).1, ?_, ?_, ?_⟩
  · -- An id that two handles serve goes to both of their physical shards, which differ.
    have hdistinct : session.shards.Pairwise fun a b => a.physicalId ≠ b.physicalId := by
      rw [← List.pairwise_map (f := Shard.physicalId)]
      exact hids ▸ hroutable.distinct
    refine hdistinct.imp_of_mem ?_
    intro a b ha hb hne id hida hidb
    apply hne
    apply Option.some.inj
    rw [← ((hserves a ha).2 id).mp hida, ((hserves b hb).2 id).mp hidb]
  · intro id
    rw [← FactorySettings.home?_mem hroutable, ← hids]
    simp only [List.mem_map, exists_exists_and_eq_and]
    constructor
    · rintro ⟨shard, hshard, hid⟩
      exact ⟨shard, hshard, ((hserves shard hshard).2 id).mp hid⟩
    · rintro ⟨shard, hshard, hhome⟩
      exact ⟨shard, hshard, ((hserves shard hshard).2 id).mpr hhome⟩
  · intro shard hshard id
    rw [Session.serves_iff]
    exact (hserves shard hshard).2 id

theorem Session.Routes.nodup_ids {session : Session} {settings : FactorySettings}
    (h : session.Routes settings) (hroutable : settings.Routable) :
    (session.shards.map (·.physicalId)).Nodup := by
  rw [FactorySettings.registered_eq h.handles]
  exact hroutable.distinct

namespace Cluster

/-- A session can be opened from every factory that was built. -/
theorem openSession_ok {settings : FactorySettings} {factory : SessionFactory}
    (hbuild : SessionFactory.build settings = .ok factory) (w : Cluster) :
    ∃ number w', w.openSession factory = (.ok number, w')
      ∧ (w'.session number).shards.map physicalOf = factory.shards := by
  have hserved : ∀ shard ∈ factory.shards, shard.served.isEmpty = false := by
    intro shard hshard
    have hnonempty := ((SessionFactory.build_serves hbuild).2 shard hshard).1
    exact Bool.eq_false_iff.mpr (mt Ordered.Set.isEmpty_iff.mp hnonempty)
  obtain ⟨shards, w₁, hadded⟩ := addShards_ok factory.shards hserved w
  have hopen : w.openSession factory = (.ok w₁.sessions.length,
      { w₁ with sessions := w₁.sessions ++ [⟨shards, factory.timeout, none, false⟩] }) := by
    rw [openSession, hadded]
  refine ⟨_, _, hopen, ?_⟩
  obtain ⟨shards', w₂, hparts, -, -, hfound⟩ := openSession_spec hopen
  rw [hfound]
  exact hparts.parts

variable {σ T O : Type}

/-- A call of a session starts the handles it is meant for, and none of them twice. -/
theorem execute_startedOn (w : Cluster) (number : Nat) (access : AccessStrategy)
    (ids : Option (List ShardId)) (operation : Operation Cluster T)
    (strategy : ExitStrategy σ T O) (collector : Option (Collector O)) (exit : σ) :
    let call := (w.execute number access ids operation strategy collector exit).1
    startedOn call.trace = [] ∨ ∃ targets, (w.session number).targets ids = .ok targets
      ∧ (startedOn call.trace).Subperm (targets.map (·.physicalId)) := by
  unfold execute
  dsimp only
  split
  · exact .inl rfl
  · cases htargets : (w.session number).targets ids with
    | error e => exact .inl rfl
    | ok targets =>
      exact .inr ⟨targets, rfl, (AccessStrategy.apply_mayReturn ..).startedOn_subperm⟩

/-- Settings make a factory just if they can be routed, else they are refused as a configuration. A
session of the factory, as it is opened and wherever its handles are used later, has the registered
shards as its handles, which part the virtual ids among themselves as the map says. Ids are looked up
exactly: the handles that serve them, each once and in the order in which the ids need them, or an
error for the first id that no handle serves. So a call starts its operation on those shards only,
and at most once on each. -/
theorem virtual_routing_exact (settings : FactorySettings) :
    ((∃ factory, SessionFactory.build settings = .ok factory) ↔ settings.Routable)
    ∧ (∀ e, SessionFactory.build settings = .error e → ∃ reason, e = .configuration reason)
    ∧ ∀ factory, SessionFactory.build settings = .ok factory → ∀ w : Cluster, ∃ number opened,
      w.openSession factory = (.ok number, opened) ∧ ∀ (later : Cluster) (number' : Nat),
        (later.session number').shards = (opened.session number).shards →
        let session := later.session number'
        session.Routes settings
        ∧ (∀ ids, (∀ id ∈ ids, ∃ shard ∈ session.shards, shard.serves id = true) →
          ∃ picked, session.shardsFor ids = .ok picked ∧ picked.Nodup
            ∧ (∀ shard, shard ∈ picked ↔
              shard ∈ session.shards ∧ ∃ id ∈ ids, shard.serves id = true)
            ∧ picked.Pairwise fun a b => ids.findIdx a.serves < ids.findIdx b.serves)
        ∧ (∀ ids id, ids.find? (fun id => !session.shards.any (·.serves id)) = some id →
          session.shardsFor ids = .error (.invalidArgument ("unknown shard id " ++ id.text)))
        ∧ ∀ {σ T O : Type} (access : AccessStrategy) (ids : Option (List ShardId))
          (operation : Operation Cluster T) (strategy : ExitStrategy σ T O)
          (collector : Option (Collector O)) (exit : σ),
          let started := startedOn
            (later.execute number' access ids operation strategy collector exit).1.trace
          started.Nodup ∧ ∀ id ∈ started, ∃ shard ∈ session.shards, id = shard.physicalId
            ∧ ∀ listed, ids = some listed → ∃ id ∈ listed, shard.serves id = true := by
  refine ⟨SessionFactory.build_ok_iff, ?_, ?_⟩
  · intro e hrefused
    exact SessionFactory.build_error hrefused
  intro factory hbuild w
  have hroutable := SessionFactory.build_ok_iff.mp ⟨factory, hbuild⟩
  obtain ⟨number, opened, hopen, hparts⟩ := openSession_ok hbuild w
  refine ⟨number, opened, hopen, ?_⟩
  intro later number' hshards session
  have hroutes : session.Routes settings := Session.routes_of_parts hbuild (hshards ▸ hparts)
  have hids := hroutes.nodup_ids hroutable
  refine ⟨hroutes, ?_, ?_, ?_⟩
  · intro ids hserved
    exact Session.shardsFor_ok hroutes.disjoint hserved
  · intro ids id hunserved
    exact Session.shardsFor_error hroutes.disjoint hunserved
  · intro σ T O access ids operation strategy collector exit started
    rcases later.execute_startedOn number' access ids operation strategy collector exit with
      hnone | ⟨targets, htargets, hsub⟩
    · have hnone : started = [] := hnone
      simp [hnone]
    · obtain ⟨hnodup, hmem⟩ := Session.targets_spec hroutes.disjoint hids htargets
      obtain ⟨some, hperm, hsublist⟩ : started.Subperm (targets.map (·.physicalId)) := hsub
      refine ⟨hperm.nodup_iff.mp (hnodup.sublist hsublist), ?_⟩
      intro id hid
      obtain ⟨shard, hshard, rfl⟩ :=
        List.mem_map.mp (hsublist.subset (hperm.mem_iff.mpr hid))
      obtain ⟨hin, hserves⟩ := hmem shard hshard
      exact ⟨shard, hin, rfl, hserves⟩

/-- Two shards that host the virtual ids in turn: of three ids the first and the last go to the shard
that was registered last. -/
theorem virtual_routing_exact_in_turn :
    let settings : FactorySettings := ⟨[(.ofNat 20, 0), (.ofNat 10, 1)],
      .ofList [(.ofNat 0, .ofNat 10), (.ofNat 1, .ofNat 20), (.ofNat 2, .ofNat 10)], .default, none⟩
    settings.Routable ∧ ∃ factory opened, SessionFactory.build settings = .ok factory
      ∧ (ofBackends 2).openSession factory = (.ok 0, opened) ∧ ∃ picked,
        (opened.session 0).shardsFor [.ofNat 2, .ofNat 1, .ofNat 0] = .ok picked
          ∧ picked.map (·.physicalId) = [.ofNat 10, .ofNat 20] := by
  intro settings
  obtain ⟨hbuilds, -, hopens⟩ := virtual_routing_exact settings
  let factory : SessionFactory := ⟨[⟨.ofNat 20, .ofList [.ofNat 1], 0⟩,
    ⟨.ofNat 10, .ofList [.ofNat 0, .ofNat 2], 1⟩], .default, none⟩
  have hbuild : SessionFactory.build settings = .ok factory := by rfl
  obtain ⟨number, opened, hopen, hlater⟩ := hopens factory hbuild (ofBackends 2)
  obtain rfl : number = 0 := (Except.ok.inj (congrArg Prod.fst hopen)).symm
  refine ⟨hbuilds.mp ⟨factory, hbuild⟩, factory, opened, hbuild, hopen, ?_⟩
  obtain rfl : ((ofBackends 2).openSession factory).2 = opened := congrArg Prod.snd hopen
  obtain ⟨-, hfound, -⟩ := hlater _ 0 rfl
  obtain ⟨picked, hpicked, -⟩ := hfound [.ofNat 2, .ofNat 1, .ofNat 0] (by decide +kernel)
  have hids : ((((ofBackends 2).openSession factory).2.session 0).shardsFor
      [.ofNat 2, .ofNat 1, .ofNat 0]).map (·.map (·.physicalId)) = .ok [.ofNat 10, .ofNat 20] := by
    rfl
  rw [hpicked] at hids
  exact ⟨picked, hpicked, Except.ok.inj hids⟩

end Cluster

end ScatterGather
