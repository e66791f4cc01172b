import ScatterGather.Proofs.Factory
import ScatterGather.Proofs.Session.Chains

/-!
# Whose local transactions the members are

A connection joins transactions before it is published, and it stays among their members if it is
then rejected: nothing takes it out again, and the next connection of the handle joins as a further
member. What still holds of every transaction is that a member that is not closed is the published
connection of its handle, so there is at most one of these for each shard.
-/

namespace ScatterGather

/-- A call that closes no handle and lets no close fail. -/
def SessionCall.KeepsOpen : SessionCall → Prop
  | closeShard _ | close => False
  | arm _ call => call ≠ .closing
  | _ => True

theorem SessionCall.KeepsOpen.not_closes {call : SessionCall} (h : call.KeepsOpen) :
    ¬ call.Closes := by
  cases call with
  | closeShard | close => exact h.elim
  | _ => exact id

namespace Cluster

variable {w w' : Cluster} {number : Nat} {shard : Shard} {ref : NativeRef} {tx : Nat}
variable {call : SessionCall} {e : Enlisted}

/-- A member stands for a shard of the session: it is the connection that the handle has published,
unless it was closed. -/
def Placed (w : Cluster) (number : Nat) (e : Enlisted) : Prop :=
  ∃ shard ∈ (w.session number).shards, e.shard = shard.physicalId
    ∧ ((w.native e.native).closed = true ∨ w.connection? shard = some e.native)

/-- A session of which no connection was closed except those that were rejected. -/
structure Placing (w : Cluster) (number : Nat) : Prop where
  accepting : ∀ i, (w.backend i).faults.closing = false
  unclosed : ∀ shard ∈ (w.session number).shards, ∀ ref, w.connection? shard = some ref →
    (w.native ref).closed = false
  distinct : ∀ tx, (w.natives tx).Nodup
  placed : ∀ tx, ∀ e ∈ (w.transaction tx).enlisted, w.Placed number e

theorem accepting_of_armed (h : ∀ i, (w.backend i).faults.closing = false)
    (harmed : ∀ i, (w'.backend i).faults.isArmed .closing = true →
      (w.backend i).faults.isArmed .closing = true) (i : Nat) :
    (w'.backend i).faults.closing = false :=
  Bool.eq_false_iff.mpr fun hclosing => Bool.false_ne_true ((h i).symm.trans (harmed i hclosing))

/-! ## What a move does to members -/

/-- Where no connection changes hands, members stay what they are. -/
theorem Placed.steady (h : w.Placed number e) (hsteady : Steady w w')
    (hshards : (w'.session number).shards = (w.session number).shards)
    (hconnection : ∀ shard, w'.connection? shard = w.connection? shard) : w'.Placed number e := by
  obtain ⟨shard, hshard, hid, hplaced⟩ := h
  exact ⟨shard, hshards ▸ hshard, hid, by rwa [hsteady.closed, hconnection]⟩

namespace Placing

theorem steady (h : Placing w number) (hsteady : Steady w w')
    (hshards : (w'.session number).shards = (w.session number).shards)
    (hconnection : ∀ shard, w'.connection? shard = w.connection? shard)
    (harmed : ∀ i, (w'.backend i).faults.isArmed .closing = true →
      (w.backend i).faults.isArmed .closing = true)
    (henlisted : ∀ tx, (w'.transaction tx).enlisted = (w.transaction tx).enlisted) :
    Placing w' number where
  accepting := accepting_of_armed h.accepting harmed
  unclosed := fun shard hshard ref href => by
    rw [hshards] at hshard
    rw [hconnection] at href
    rw [hsteady.closed]
    exact h.unclosed shard hshard ref href
  distinct := fun tx => by
    rw [natives, henlisted]
    exact h.distinct tx
  placed := fun tx e he => by
    rw [henlisted] at he
    exact (h.placed tx e he).steady hsteady hshards hconnection

/-- The members of a new transaction are the published connections. -/
theorem renew (h : Placing w number) (htidy : Tidy w number) (hrenewed : Renewed number w w') :
    Placing w' number := by
  have hshards : (w'.session number).shards = (w.session number).shards := by
    rw [hrenewed.session]
  have hsteady := hrenewed.steady
  refine ⟨accepting_of_armed h.accepting fun i => hrenewed.armed i .closing, ?_, fun tx => ?_,
    fun tx e he => ?_⟩
  · intro shard hshard ref href
    rw [hshards] at hshard
    rw [hrenewed.connection?] at href
    rw [hsteady.closed]
    exact h.unclosed shard hshard ref href
  · by_cases heq : tx = w.transactions.length
    · rw [heq, hrenewed.natives]
      exact htidy.nodup_connections
    · rw [natives, hrenewed.enlisted tx heq]
      exact h.distinct tx
  · by_cases heq : tx = w.transactions.length
    · rw [heq, hrenewed.members] at he
      obtain ⟨shard, hshard, hentry⟩ := List.mem_filterMap.mp he
      obtain ⟨ref, hconnected, rfl⟩ := Option.map_eq_some_iff.mp hentry
      exact ⟨shard, hshards ▸ hshard, rfl, .inr ((hrenewed.connection? shard).trans hconnected)⟩
    · rw [hrenewed.enlisted tx heq] at he
      exact (h.placed tx e he).steady hsteady hshards hrenewed.connection?

/-- After an attempt to connect a handle, a transaction has at most one further member, which was
opened by the attempt. -/
theorem attempt (h : Placing w number) (htidy : Tidy w number)
    (hmem : shard ∈ (w.session number).shards) (hunconnected : w.connection? shard = none)
    (hattempt : Attempt shard w w')
    (hunclosed : ∀ ref, w'.connection? shard = some ref → (w'.native ref).closed = false)
    (henlisted : ∀ tx, (w'.transaction tx).enlisted = (w.transaction tx).enlisted ∨
      ∃ ref, ¬ w.IsOpened ref ∧ w'.Placed number ⟨shard.physicalId, ref⟩
        ∧ (w'.transaction tx).enlisted = (w.transaction tx).enlisted ++ [⟨shard.physicalId, ref⟩]) :
    Placing w' number := by
  have hshards : (w'.session number).shards = (w.session number).shards := by
    rw [session, hattempt.sessions, session]
  have hother : ∀ other, w.connection? other ≠ none →
      w'.connection? other = w.connection? other := by
    intro other hconnected
    refine hattempt.connections other fun heq => hconnected ?_
    rw [connection?, Option.map_eq_none_iff] at hunconnected ⊢
    rwa [slot, heq]
  have hplaced : ∀ tx, ∀ e ∈ (w.transaction tx).enlisted, w'.Placed number e := by
    intro tx e he
    obtain ⟨other, hmem', hid, hwhere⟩ := h.placed tx e he
    refine ⟨other, hshards ▸ hmem', hid, hwhere.imp (fun hclosed => ?_) fun hconnected => ?_⟩
    · rwa [hattempt.others e.native (htidy.members tx _ (List.mem_map_of_mem he))]
    · rw [hother other (by simp [hconnected]), hconnected]
  refine ⟨accepting_of_armed h.accepting fun i => hattempt.armed i .closing, ?_, fun tx => ?_,
    fun tx e he => ?_⟩
  · intro other hmem' ref href
    rw [hshards] at hmem'
    by_cases heq : other = shard
    · exact hunclosed ref (heq ▸ href)
    · have hhandle := htidy.handle_ne hmem' hmem heq
      rw [hattempt.connections other hhandle] at href
      rw [hattempt.others ref (htidy.opened other hmem' ref href)]
      exact h.unclosed other hmem' ref href
  · rcases henlisted tx with hsame | ⟨ref, hnew, -, hjoined⟩
    · rw [natives, hsame]
      exact h.distinct tx
    · rw [natives, hjoined, List.map_append]
      refine List.nodup_append.mpr ⟨h.distinct tx, List.nodup_singleton _, ?_⟩
      rintro old hold last hlast rfl
      rw [List.mem_singleton.mp hlast] at hold
      exact hnew (htidy.members tx ref hold)
  · rcases henlisted tx with hsame | ⟨ref, -, hlast, hjoined⟩
    · rw [hsame] at he
      exact hplaced tx e he
    · rw [hjoined, List.mem_append, List.mem_singleton] at he
      rcases he with he | rfl
      · exact hplaced tx e he
      · exact hlast

theorem move (h : Placing w number) (htidy : Tidy w number) (hopen : call.KeepsOpen)
    (hmove : Move number call w w') : Placing w' number := by
  have hshards := htidy.shards_move hmove
  cases hmove with
  | work within steady =>
    exact h.steady steady hshards within.connection? (fun i => within.armed i .closing)
      within.enlisted
  | @mark w₁ w' refs tx status current within marked steady =>
    refine h.steady steady hshards
      (fun shard => (marked.connection? shard).trans (within.connection? shard))
      (fun i harmed => within.armed i .closing (marked.armed i .closing harmed)) fun other => ?_
    rw [marked.enlisted, enlisted_setStatus, within.enlisted]
  | hand => exact ⟨h.accepting, h.unclosed, h.distinct, h.placed⟩
  | renew ended renewed => exact h.renew htidy renewed
  | @queue shard hook mem unconnected =>
    exact h.steady ((Step.slot w shard _).steady rfl) rfl
      (fun other => connection?_withEvents w shard other _) (fun _ harmed => harmed) fun _ => rfl
  | @connect w' shard ref stays mem unconnected attached =>
    have hplaced : w'.Placed number ⟨shard.physicalId, ref⟩ :=
      ⟨shard, hshards ▸ mem, rfl, .inr attached.connected⟩
    refine h.attempt htidy mem unconnected attached.toAttempt (fun found hfound => ?_) fun tx =>
      (attached.enlisted_cases tx).imp_right fun hjoined => ⟨ref, attached.new, hplaced, hjoined⟩
    obtain rfl := Option.some.inj (attached.connected.symm.trans hfound)
    exact attached.unclosed
  | @refuse w' shard mem unconnected refused =>
    refine h.attempt htidy mem unconnected refused.toAttempt (fun found hfound => ?_) fun tx =>
      (refused.enlisted tx).imp_right fun ⟨ref, _, hnew, _, hjoined, hclosed⟩ => ?_
    · rw [refused.unconnected] at hfound
      cases hfound
    · exact ⟨ref, hnew, ⟨shard, hshards ▸ mem, rfl, .inl (hclosed (h.accepting _))⟩, hjoined⟩
  | disconnect closes | shut closes => exact absurd closes hopen.not_closes
  | @arm i fault armed =>
    have hfault : fault ≠ .closing := by
      rw [armed] at hopen
      exact hopen
    refine ⟨fun j => ((w.backend_arm i j fault).2.2 .closing hfault).trans (h.accepting j), ?_,
      h.distinct, ?_⟩
    · intro shard hshard ref href
      rw [native_arm]
      exact h.unclosed shard hshard ref href
    · intro tx e he
      rw [Placed, native_arm]
      exact h.placed tx e he

theorem run (h : Placing w number) (htidy : Tidy w number) {calls : List SessionCall}
    (hcalls : ∀ call ∈ calls, call.KeepsOpen) : Placing (w.run number calls) number :=
  htidy.run_induction (fun v => Placing v number) SessionCall.KeepsOpen
    (fun hopen htidy hmove hplacing => hplacing.move htidy hopen hmove) h hcalls

/-- A member is open just if its handle has published it. -/
theorem open_iff (h : Placing w number) (he : e ∈ (w.transaction tx).enlisted) :
    ∃ shard ∈ (w.session number).shards, e.shard = shard.physicalId
      ∧ ((w.native e.native).closed = false ↔ w.connection? shard = some e.native) := by
  obtain ⟨shard, hshard, hid, hplaced⟩ := h.placed tx e he
  refine ⟨shard, hshard, hid, fun hunclosed => ?_, h.unclosed shard hshard e.native⟩
  refine hplaced.resolve_left fun hclosed => ?_
  rw [hunclosed] at hclosed
  cases hclosed

/-- Two open members for one shard are the same. -/
theorem nodup_open (h : Placing w number)
    (hids : ((w.session number).shards.map (·.physicalId)).Nodup) (tx : Nat) :
    (((w.transaction tx).enlisted.filter fun e => !(w.native e.native).closed).map
      (·.shard)).Nodup := by
  have hmembers : (w.transaction tx).enlisted.Nodup := (h.distinct tx).of_map _
  have hdistinct := h.distinct tx
  refine List.Nodup.map_on ?_ (hmembers.filter _)
  intro one hone other hother hsame
  obtain ⟨hone, honeOpen⟩ := List.mem_filter.mp hone
  obtain ⟨hother, hotherOpen⟩ := List.mem_filter.mp hother
  obtain ⟨shard, hshard, hid, hiff⟩ := h.open_iff hone
  obtain ⟨shard', hshard', hid', hiff'⟩ := h.open_iff hother
  obtain rfl : shard = shard' :=
    List.inj_on_of_nodup_map hids hshard hshard' (hid.symm.trans (hsame.trans hid'))
  have hnative : one.native = other.native := by
    refine Option.some.inj ((hiff.mp ?_).symm.trans (hiff'.mp ?_))
    · simpa using honeOpen
    · simpa using hotherOpen
  exact List.inj_on_of_nodup_map hdistinct hone hother hnative

end Placing

/-! ## Runs -/

/-- A session that was just opened has no transactions and no connections. -/
theorem openSession_placing {factory : SessionFactory} (hfresh : w.transactions = [])
    (haccepting : ∀ i, (w.backend i).faults.closing = false)
    (hopen : w.openSession factory = (.ok number, w')) : Placing w' number := by
  obtain ⟨shards, w₁, hadded, rfl, rfl, hfound⟩ := openSession_spec hopen
  have hnone : ∀ tx, (w₁.transaction tx).enlisted = [] := fun tx => by
    rw [enlisted_of_ge (by simp [hadded.transactions, hfresh])]
    rfl
  refine ⟨fun i => ?_, fun shard hshard ref href => ?_, fun tx => ?_, fun tx e he => ?_⟩
  · exact (congrArg (fun b => b.faults.closing) (congrArg (·.getD i default) hadded.backends)).trans
      (haccepting i)
  · rw [hfound] at hshard
    have hunconnected : w₁.connection? shard = none := hadded.unconnected hshard
    cases hunconnected.symm.trans href
  · change (w₁.natives tx).Nodup
    rw [natives, hnone]
    exact List.nodup_nil
  · have he : e ∈ (w₁.transaction tx).enlisted := he
    rw [hnone] at he
    cases he

/-- Every member of a transaction stands for a shard, and it is not closed just if the handle of that
shard has published it. So there is at most one for each shard that is not closed; the others belong
to connections that were rejected. -/
theorem run_members {settings : FactorySettings} {factory : SessionFactory} {w₀ w : Cluster}
    (hbuild : SessionFactory.build settings = .ok factory) (hfresh : w₀.transactions = [])
    (hfree : w₀.handed = []) (haccepting : ∀ i, (w₀.backend i).faults.closing = false)
    (hplaces : ∀ physical ∈ factory.shards, physical.backend < w₀.backends.length)
    (hopen : w₀.openSession factory = (.ok number, w)) {calls : List SessionCall}
    (hcalls : ∀ call ∈ calls, call.KeepsOpen) :
    let w' := w.run number calls
    ∀ tx, (w'.natives tx).Nodup
      ∧ (∀ e ∈ (w'.transaction tx).enlisted, ∃ shard ∈ (w.session number).shards,
        e.shard = shard.physicalId
          ∧ ((w'.native e.native).closed = false ↔ w'.connection? shard = some e.native))
      ∧ (((w'.transaction tx).enlisted.filter fun e => !(w'.native e.native).closed).map
        (·.shard)).Nodup := by
  intro w' tx
  have htidy := openSession_tidy hfresh hfree hplaces hopen
  have hplacing : Placing w' number := (openSession_placing hfresh haccepting hopen).run htidy hcalls
  have hshards : (w'.session number).shards = (w.session number).shards := htidy.shards_run calls
  have hids : ((w.session number).shards.map (·.physicalId)).Nodup := by
    obtain ⟨-, hids, -⟩ := SessionFactory.build_spec hbuild
    obtain ⟨shards, w₁, hadded, rfl, rfl, hfound⟩ := openSession_spec hopen
    rw [hfound, hadded.physicalIds]
    exact hids
  refine ⟨hplacing.distinct tx, fun e he => hshards ▸ hplacing.open_iff he, ?_⟩
  exact hplacing.nodup_open (hshards.symm ▸ hids) tx

/-- A hook rejects the first connection after the transaction has taken it in; the second one is
accepted. Both are members for the one shard, of which the first was closed. -/
theorem run_members_rejected :
    let factory : SessionFactory := ⟨[⟨.ofNat 0, .ofList [.ofNat 0], 0⟩], .default, none⟩
    let w := ((ofBackends 1).openSession factory).2
    let w' := w.run 0 [.beginTransaction, .hook 0 (.mk "h" (· == 0) none [] 0), .establish 0,
      .establish 0]
    (w'.transaction 0).enlisted = [⟨.ofNat 0, ⟨0, 0⟩⟩, ⟨.ofNat 0, ⟨0, 1⟩⟩]
      ∧ (w'.native ⟨0, 0⟩).closed = true
      ∧ (((w'.transaction 0).enlisted.filter fun e => !(w'.native e.native).closed).map
        (·.shard)).Nodup
      ∧ ∃ shard ∈ (w.session 0).shards, w'.connection? shard = some ⟨0, 1⟩ := by
  intro factory w w'
  have hbuild : SessionFactory.build (.ofShards [(.ofNat 0, 0)]) = .ok factory := by
    rfl
  have haccepting : ∀ i, ((ofBackends 1).backend i).faults.closing = false := by
    intro i
    match i with
    | 0 | i + 1 => rfl
  have hopen : (ofBackends 1).openSession factory = (.ok 0, w) := eq_of_fst (by decide +kernel)
  have hcalls : ∀ call ∈ [SessionCall.beginTransaction, .hook 0 (.mk "h" (· == 0) none [] 0),
      .establish 0, .establish 0], call.KeepsOpen := by
    simp [SessionCall.KeepsOpen]
  obtain ⟨-, hplaced, hnodup⟩ :=
    run_members hbuild rfl rfl haccepting (by decide +kernel) hopen hcalls 0
  have hmembers : (w'.transaction 0).enlisted = [⟨.ofNat 0, ⟨0, 0⟩⟩, ⟨.ofNat 0, ⟨0, 1⟩⟩] := by
    decide +kernel
  have hlast : ⟨.ofNat 0, ⟨0, 1⟩⟩ ∈ (w'.transaction 0).enlisted := by
    rw [hmembers]
    exact List.mem_cons_of_mem _ List.mem_cons_self
  refine ⟨hmembers, by decide +kernel, hnodup, ?_⟩
  obtain ⟨shard, hshard, -, hiff⟩ := hplaced _ hlast
  exact ⟨shard, hshard, hiff.mp (by decide +kernel)⟩

end Cluster

end ScatterGather
