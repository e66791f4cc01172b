import ScatterGather.Proofs.Cluster.Faultless
import ScatterGather.Proofs.Session.Closing
import ScatterGather.Proofs.Session.Outcome

/-!
# Sessions that nothing disturbs

A session without hooks, over backends without armed faults, of which no handle has a closed
connection. Its handles can be connected, its writes are accepted, its first transaction begins and
commits, its rows can be scanned, and it closes without an error. Once a transaction has committed,
what the handles show is what the stores have.
-/

namespace ScatterGather.Cluster

variable {b w w' : Cluster} {number : Nat} {session : Session} {shard : Shard} {ref : NativeRef}
variable {tx : Nat} {call : SessionCall} {rows : List Row}

/-- A tidy session of which no call will be refused by a backend. -/
structure Healthy (w : Cluster) (number : Nat) : Prop extends Tidy w number where
  faultless : w.Faultless
  unclosed : Unclosed w number

namespace Healthy

theorem moves (h : Healthy w number) (hmoves : Moves number call w w')
    (hcall : ∀ i fault, call ≠ .arm i fault) : Healthy w' number where
  toTidy := h.toTidy.moves hmoves
  faultless := h.faultless.of_armed (hmoves.armed hcall)
  unclosed := h.unclosed_moves hmoves h.unclosed

theorem quiet (h : Healthy w number) (hwithin : Within [] w w') (hhanded : w'.handed = w.handed) :
    Healthy w' number := by
  have hmoves : Moves number .transaction w w' := .single (.quiet hwithin hhanded)
  exact h.moves hmoves nofun

end Healthy

/-! ## Connecting -/

/-- Events of transactions, one after the other, accept a connection that is welcome. -/
theorem runEvents_ok (shard : Shard) {events : List OpenEvent}
    (hplain : ∀ event ∈ events, IsEnlist event) (hdue : ∀ tx, .enlist tx ∈ events → w.Due session tx)
    (h : w.Welcome session ref) : (runEvents shard ref events w).1 = .ok () := by
  induction events generalizing w with
  | nil => rfl
  | cons event rest ih =>
    obtain ⟨⟨tx, rfl⟩, hrestPlain⟩ := List.forall_mem_cons.mp hplain
    have hrest : ∀ {w₁ : Cluster}, w.runEvent shard ref (.enlist tx) = (.ok (), .enlist tx, w₁) →
        w₁.Welcome session ref → (∀ tx, (w₁.transaction tx).status = (w.transaction tx).status) →
        (runEvents shard ref (.enlist tx :: rest) w).1 = .ok () := by
      intro w₁ hrun hwelcome hstatus
      have hrestDue : ∀ tx, .enlist tx ∈ rest → w₁.Due session tx := by
        intro other hevent
        rw [Due, hstatus]
        exact hdue other (List.mem_cons_of_mem _ hevent)
      rw [runEvents, hrun]
      exact ih hrestPlain hrestDue hwelcome
    by_cases hreferenced : w.isReferenced tx = true
    · obtain ⟨hok, hwelcome⟩ := h.joinLate (hdue tx List.mem_cons_self) shard.physicalId
      refine hrest ?_ hwelcome ?_
      · rw [runEvent_of_referenced hreferenced, hok]
      · intro other
        rcases w.joinLate_cases tx shard.physicalId ref with
          ⟨-, hjoined⟩ | ⟨-, w', hwithin, -, ⟨-, hjoined, -⟩ | ⟨-, hjoined, -⟩ | ⟨-, e, hjoined⟩⟩
        · rw [hjoined]
        · rw [hjoined, status_enlist, hwithin.status]
        · rw [hjoined, status_enlist, hwithin.status]
        · rw [hjoined, hwithin.status]
    · refine hrest ?_ h fun _ => rfl
      rw [runEvent_of_unreferenced hreferenced]

/-- Without hooks a connection of which nothing was made yet is published. -/
theorem Opening.settle_ok (h : Opening w number session shard ref)
    (hplain : ∀ event ∈ (w.slot shard).events, IsEnlist event) (hfaultless : w.Faultless)
    (hfresh : w.native ref = .fresh) :
    (Cluster.settle shard ref (w.rounds shard) [] w).1 = .ok ref := by
  have hidle : (w.native ref).isActive = false := by
    rw [hfresh]
    rfl
  have hwelcome : (w.withEvents shard []).Welcome session ref := by
    refine ⟨hfaultless, h.reached, ?_⟩
    intro hactive
    have hactive : (w.native ref).isActive = true := hactive
    rw [hidle] at hactive
    cases hactive
  have hdue : ∀ tx, .enlist tx ∈ (w.slot shard).events → (w.withEvents shard []).Due session tx :=
    h.due shard h.mem
  have hran := runEvents_ok shard hplain hdue hwelcome
  obtain ⟨w₁, -, ⟨hsettle, -⟩ | ⟨e, hsettle, hwhy, -⟩⟩ :=
    h.settle_cases hplain (by rw [hfresh]; rfl)
  · rw [hsettle]
  · rw [hran] at hwhy
    cases hwhy

namespace Healthy

theorem establish_ok (h : Healthy w number) (hhookless : Hookless w number session)
    (hshard : shard ∈ session.shards) : ∃ ref, (w.establish shard).1 = .ok ref := by
  rcases hhookless.toSound.establish_cases hshard with
    ⟨ref, -, hestablish⟩ | ⟨hnone, w₁, hwithin, -, ⟨e, reason, -, hrefused⟩ | hopened⟩
  · exact ⟨ref, congrArg Prod.fst hestablish⟩
  · rw [openConnection_ok h.faultless] at hrefused
    cases hrefused
  · obtain ⟨ref, -, hfresh, hopening, hestablish⟩ := hopened
    have hplain : ∀ event ∈ (w₁.slot shard).events, IsEnlist event := by
      rw [hwithin.slot]
      exact hhookless.plain shard hshard
    refine ⟨ref, ?_⟩
    rw [hestablish]
    exact hopening.settle_ok hplain (h.faultless.within hwithin) hfresh

/-- A handle has a connection once it was asked for one. -/
theorem establish (h : Healthy w number) (hhookless : Hookless w number session)
    (hshard : shard ∈ session.shards) : ∃ ref w', w.establish shard = (.ok ref, w')
      ∧ w'.connection? shard = some ref ∧ Healthy w' number := by
  have hshard' : shard ∈ (w.session number).shards := hhookless.found ▸ hshard
  have hmoves : Moves number .transaction w (w.establish shard).2 :=
    h.establish_moves hshard' (fun hcloses => hcloses)
  have hhealthy := h.moves hmoves nofun
  obtain ⟨ref, hok⟩ := h.establish_ok hhookless hshard
  rcases hhookless.establish_cases hshard with
    ⟨found, hfound, hestablish⟩ | ⟨-, w', ⟨e, hestablish, -⟩ | ⟨found, hestablish, hconnected⟩⟩
  · exact ⟨found, w, hestablish, hfound, h⟩
  · rw [hestablish] at hok
    cases hok
  · rw [hestablish] at hhealthy
    exact ⟨found, w', hestablish, hconnected.published, hhealthy⟩

theorem write_ok (h : Healthy w number) (hhookless : Hookless w number session)
    (hshard : shard ∈ session.shards) (key : String) (value : Option Json) :
    (w.write shard key value).1 = .ok () := by
  obtain ⟨ref, w₁, hestablish, hconnection, hhealthy⟩ := h.establish hhookless hshard
  have hhookless' := hhookless.establish hshard
  rw [hestablish] at hhookless'
  have hopened := hhookless'.opened shard hshard ref hconnection
  have hunclosed := hhealthy.unclosed shard (hhookless'.found ▸ hshard) ref hconnection
  have hwrite := writeNative_ok hopened hunclosed key value
  unfold Cluster.write onShard
  rw [hestablish]
  simp only
  generalize (w₁.callBackend ref.backend fun b => b.write ref.connection key value) = written
    at hwrite
  obtain ⟨answer, w₂⟩ := written
  obtain rfl : answer = .ok () := hwrite
  rfl

end Healthy

/-! ## The first transaction -/

/-- A session that has no transaction and no connections yet begins one. -/
theorem beginTransaction_ok (hopen : (w.session number).closed = false)
    (hnone : (w.session number).current = none)
    (hunconnected : ∀ shard ∈ (w.session number).shards, w.connection? shard = none) :
    (w.beginTransaction number).1 = .ok w.transactions.length := by
  have hasked : w.currentTransaction number
      = (.ok w.transactions.length, (w.renewTransaction number).2) := by
    unfold Cluster.currentTransaction
    simp only [hopen, hnone, Bool.false_eq_true, if_false]
    rw [← (w.renewTransaction_spec number).1]
  obtain ⟨-, w₁, refs, hrecruits, hwithin, -⟩ := w.renewTransaction_spec number
  have hstatus := w.status_renewTransaction number
  have henlisted : ((w.renewTransaction number).2.transaction w.transactions.length).enlisted
      = [] := by
    have hmembers : (w₁.transaction w.transactions.length).enlisted = [] := by
      rw [hrecruits.enlisted, transaction_withTransaction, enlisted_of_ge (Nat.le_refl _)]
      refine List.append_eq_nil_iff.mpr ⟨rfl, List.filterMap_eq_nil_iff.mpr ?_⟩
      intro shard hshard
      have hconnection : w.withTransaction.connection? shard = none := hunconnected shard hshard
      rw [hconnection, Option.map_none]
    exact (hwithin.enlisted _).trans hmembers
  unfold Cluster.beginTransaction
  rw [hasked]
  simp only
  generalize (w.renewTransaction number).2 = w₂ at hstatus henlisted
  have hbegin : (w₂.begin w.transactions.length).1 = .ok () := by
    unfold Cluster.begin
    simp only [hstatus, henlisted, beginEach]
  generalize w₂.begin w.transactions.length = begun at hbegin
  obtain ⟨answer, w₃⟩ := begun
  obtain rfl : answer = .ok () := hbegin
  rfl

/-! ## Reading what was committed -/

/-- The stores are those of the state `b`, and nothing is staged on the connections of a session. -/
structure Reading (b w : Cluster) (number : Nat) (session : Session) : Prop
    extends Hookless w number session where
  healthy : Healthy w number
  stores : SameStores b w
  unstaged : ∀ shard ∈ session.shards, ∀ ref, w.connection? shard = some ref →
    (w.native ref).staged = ∅

namespace Reading

theorem quietly (h : Reading b w number session) (hwithin : Within [] w w')
    (hstores : SameStores w w') (hhanded : w'.handed = w.handed) : Reading b w' number session where
  toHookless := h.toHookless.quietly hwithin
  healthy := h.healthy.quiet hwithin hhanded
  stores := h.stores.trans hstores
  unstaged := by
    intro shard hshard ref href
    rw [hwithin.connection?] at href
    rw [hwithin.others ref List.not_mem_nil]
    exact h.unstaged shard hshard ref href

theorem establish (h : Reading b w number session) (hshard : shard ∈ session.shards) :
    ∃ ref w', w.establish shard = (.ok ref, w') ∧ w'.connection? shard = some ref
      ∧ Reading b w' number session := by
  obtain ⟨ref, w', hestablish, hconnection, hhealthy⟩ := h.healthy.establish h.toHookless hshard
  have hhookless := h.toHookless.establish hshard
  rw [hestablish] at hhookless
  suffices hkept : SameStores b w' ∧ ∀ other ∈ session.shards, ∀ reached,
      w'.connection? other = some reached → (w'.native reached).staged = ∅ from
    ⟨ref, w', hestablish, hconnection, hhookless, hhealthy, hkept.1, hkept.2⟩
  rcases h.toHookless.establish_cases hshard with
    ⟨found, -, hsame⟩ | ⟨-, w₁, ⟨e, hsame, -⟩ | ⟨found, hsame, hconnected⟩⟩
  · obtain ⟨-, rfl⟩ := Prod.mk.inj (hestablish.symm.trans hsame)
    exact ⟨h.stores, h.unstaged⟩
  · cases hestablish.symm.trans hsame
  · obtain ⟨-, rfl⟩ := Prod.mk.inj (hestablish.symm.trans hsame)
    refine ⟨h.stores.trans hconnected.stores, ?_⟩
    intro other hother reached hreached
    by_cases heq : other.handle = shard.handle
    · obtain rfl := h.eq_of_handle hother hshard heq
      obtain rfl := Option.some.inj (hconnected.published.symm.trans hreached)
      exact hconnected.staged
    · have hreached : w.connection? other = some reached :=
        (hconnected.connection? other heq).symm.trans hreached
      rw [hconnected.natives reached (h.opened other hother reached hreached)]
      exact h.unstaged other hother reached hreached

/-- A handle shows the rows of its store. -/
theorem scan (h : Reading b w number session) (hshard : shard ∈ session.shards) (start : String) :
    ∃ w', w.scan shard start = (.ok ((b.backend shard.backend).store.scan start), w')
      ∧ Reading b w' number session := by
  obtain ⟨ref, w', hestablish, hconnection, hreading⟩ := h.establish hshard
  have hopened := hreading.opened shard hshard ref hconnection
  have hunclosed := hreading.healthy.unclosed shard (hreading.found ▸ hshard) ref hconnection
  have hview : (w'.native ref).view (w'.backend ref.backend).store
      = (b.backend shard.backend).store := by
    rw [Connection.view, hreading.unstaged shard hshard ref hconnection,
      backend_of_connection? hconnection, hreading.stores]
    rfl
  -- A scan leaves the backend as it is.
  have hkept : (w'.callBackend ref.backend fun b => (b.scan ref.connection start, b)).2 = w' := by
    have hset : w'.backends.set ref.backend (w'.backend ref.backend) = w'.backends := by
      rw [backend, List.getD_eq_getElem?_getD,
        List.getElem?_eq_getElem (lt_of_connection? hopened.connection?), Option.getD_some,
        List.set_getElem_self]
    simp only [callBackend, hset]
  have hscan := scanNative_ok hopened hunclosed start
  rw [hview] at hscan
  refine ⟨w', ?_, hreading⟩
  unfold Cluster.scan onShard
  rw [hestablish]
  simp only
  refine Prod.ext ?_ hkept
  simp only [callBackend, hscan]
  rfl

end Reading

/-- The transaction is committed, and each store has what was written through its handle. -/
theorem Writing.commits (h : Writing b w number session tx rows) (hhealthy : Healthy w number) :
    ∃ w', w.commit tx = (.ok (), w') ∧ Reading w' w' number session
      ∧ (∀ shard ∈ session.shards, (w'.backend shard.backend).store = b.storeWith rows shard)
      ∧ ∀ i, (∀ shard ∈ session.shards, shard.backend ≠ i) →
        (w'.backend i).store = (b.backend i).store := by
  have hcovers := h.covers tx h.current
  have hactive : ∀ ref ∈ w.natives tx, (w.native ref).isActive = true := by
    intro ref href
    obtain ⟨e, he, rfl⟩ := mem_natives.mp href
    obtain ⟨shard, hshard, -, hconnection⟩ := h.members tx h.current e he
    exact h.isActive hshard hconnection
  have hok := commit_ok hhealthy.faultless h.active hactive hcovers.distinct
  have hhookless := h.toHookless.same ((w.commit_work tx).sameMembers rfl) (h.toSound.commit h.current)
  have hmoves : Moves number .transaction w (w.commit tx).2 := hhealthy.commit_moves hcovers.known
  have hhealthy' := hhealthy.moves hmoves nofun
  obtain ⟨hslots, -⟩ := (w.commit_work tx).sameMembers rfl
  have hunstaged : ∀ ref ∈ w.natives tx, ((w.commit tx).2.native ref).staged = ∅ := by
    rcases w.commit_cases tx with ⟨hstatus, -⟩ | ⟨-, done, w₁, w', hdone, -, hend⟩
    · exact absurd h.active hstatus
    · rcases hend with ⟨rfl, hcommit, hafter⟩ | ⟨e, rest, reason, -, hcommit, -⟩
      · intro ref href
        have hcommitted : w'.native ref = _ :=
          (hafter.others ref List.not_mem_nil).trans (hdone.after ref href)
        rw [hcommit, hcommitted]
      · rw [hcommit] at hok
        cases hok
  rcases h.commit_cases with
    ⟨w', hcommit, hstored, helse⟩ | ⟨id, committed, reason, w', hcommit, -⟩
  · rw [hcommit] at hhookless hhealthy' hslots hunstaged
    refine ⟨w', hcommit, ⟨hhookless, hhealthy', .refl w', ?_⟩, hstored, helse⟩
    intro shard hshard ref href
    rw [connection?, slot, hslots] at href
    exact hunstaged ref (hcovers.joined shard hshard ref href).mem
  · rw [hcommit] at hok
    cases hok

/-! ## Closing -/

theorem Healthy.closeShards_ok (h : Healthy w number) {shards : List Shard}
    (hshards : ∀ shard ∈ shards, shard ∈ (w.session number).shards) :
    (closeShards shards w).1 = [] := by
  induction shards generalizing w with
  | nil => rfl
  | cons shard rest ih =>
    obtain ⟨hshard, hrest⟩ := List.forall_mem_cons.mp hshards
    have hmoves : Moves number .close w (w.closeShard shard).2 := closeShard_moves hshard trivial
    have hclosed : (w.closeShard shard).1 = .ok () := by
      cases hconnection : w.connection? shard with
      | none => rw [closeShard, hconnection]
      | some ref =>
        rcases h.closeShard_cases h.unclosed hshard hconnection with ⟨hok, -⟩ | ⟨-, hrefused⟩
        · exact hok
        · have hfault := h.faultless ref.backend .closing
          rw [hrefused.armed] at hfault
          cases hfault
    have hhealthy := h.moves hmoves (by simp)
    have hkept := h.shards_moves hmoves
    rw [closeShards]
    generalize w.closeShard shard = closed at hclosed hhealthy hkept
    obtain ⟨answer, w₁⟩ := closed
    obtain rfl : answer = .ok () := hclosed
    exact ih hhealthy fun other hother => hkept ▸ hrest other hother

/-- An open session closes without an error. -/
theorem Healthy.closeSession_ok (h : Healthy w number) (hopen : (w.session number).closed = false) :
    (w.closeSession number).1 = .ok () := by
  unfold closeSession
  simp only [hopen, Bool.false_eq_true, if_false]
  generalize hw₁ : (w.mapSession number fun session => { session with closed := true }) = w₁
  have hshut : Moves number .close w w₁ := hw₁ ▸ .single (.shut trivial)
  have hwarned := w₁.warnUnfinished_work (w.session number).current
  have hwarn := hwarned.quiet rfl
  have hhanded := hwarned.handed_eq rfl
  have hmoves : Moves number .close w (w₁.warnUnfinished (w.session number).current) :=
    hshut.tail (.quiet hwarn hhanded)
  have hkept := h.shards_moves hmoves
  have hhealthy := h.moves hmoves nofun
  generalize w₁.warnUnfinished (w.session number).current = w₂ at hkept hhealthy
  have hnone := hhealthy.closeShards_ok fun shard hshard => hkept ▸ hshard
  generalize closeShards (w.session number).shards w₂ = closed at hnone
  obtain ⟨errors, w₃⟩ := closed
  obtain rfl : errors = [] := hnone
  rfl

end ScatterGather.Cluster
