import Mathlib.Logic.Relation
import ScatterGather.Proofs.Cluster.Work
import ScatterGather.Proofs.Session.Moves

/-!
# Calls as chains of moves

Each call of a session is a chain of moves. So what every move keeps, a run of calls keeps, and what
is wanted of a run has to be shown for the kinds of moves alone.
-/

namespace ScatterGather.Cluster

variable {w w' : Cluster} {number : Nat} {shard : Shard} {ref : NativeRef} {tx : Nat}
variable {call : SessionCall}

/-- A chain of moves of a call. -/
abbrev Moves (number : Nat) (call : SessionCall) : Cluster → Cluster → Prop :=
  Relation.ReflTransGen (Move number call)

/-- A session stays tidy along a chain. -/
theorem Tidy.moves (h : Tidy w number) (hmoves : Moves number call w w') : Tidy w' number := by
  induction hmoves with
  | refl => exact h
  | tail _ hmove ih => exact ih.move hmove

/-- What every move of a call keeps, a chain of its moves keeps. -/
theorem Tidy.moves_induction {P : Cluster → Prop}
    (hmove : ∀ {w w'}, Tidy w number → Move number call w w' → P w → P w')
    (h : Tidy w number) (hmoves : Moves number call w w') (hw : P w) : P w' := by
  induction hmoves with
  | refl => exact hw
  | tail hmoves hlast ih => exact hmove (h.moves hmoves) hlast ih

/-- The handles of a session stay the same. -/
theorem Tidy.shards_move (h : Tidy w number) (hmove : Move number call w w') :
    (w'.session number).shards = (w.session number).shards := by
  cases hmove with
  | work within => rw [within.session]
  | mark current within marked =>
    have hstatus : ∀ (v : Cluster) tx status,
        (v.setStatus tx status).session number = v.session number := fun _ _ _ => rfl
    rw [marked.session, hstatus, within.session]
  | hand | queue | arm => rfl
  | renew ended renewed => rw [renewed.session]
  | connect stays mem unconnected attached => rw [session, attached.sessions, session]
  | refuse mem unconnected refused => rw [session, refused.sessions, session]
  | disconnect closes mem connected within handed =>
    rw [within.session]
    rfl
  | shut closes => rw [session_mapSession h.here]

theorem Tidy.shards_moves (h : Tidy w number) (hmoves : Moves number call w w') :
    (w'.session number).shards = (w.session number).shards :=
  h.moves_induction (P := fun v => (v.session number).shards = (w.session number).shards)
    (fun h hmove hsame => (h.shards_move hmove).trans hsame) hmoves rfl

/-! ## Opening a session -/

/-- A session that was just opened in a cluster without transactions is tidy. -/
theorem openSession_tidy {factory : SessionFactory} (hnone : w.transactions = [])
    (hfree : w.handed = [])
    (hplaces : ∀ physical ∈ factory.shards, physical.backend < w.backends.length)
    (h : w.openSession factory = (.ok number, w')) : Tidy w' number := by
  have hhandles := openSession_handles hplaces h
  have hhanded : w'.handed = [] := by
    have hsame := (w.openSession_work factory).handed_eq rfl
    rw [h] at hsame
    exact hsame.trans hfree
  obtain ⟨shards, w₁, hadded, rfl, rfl, hfound⟩ := openSession_spec h
  have htransactions : w₁.transactions = [] := hadded.transactions.trans hnone
  have hwaits : ∀ shard ∈ shards, ∀ tx, ¬ w₁.Waits shard tx := by
    intro shard hshard tx hwaits
    rw [Waits, hadded.slot hshard] at hwaits
    exact absurd hwaits List.not_mem_nil
  refine ⟨hhandles, ?_, ?_, ?_, ?_, ?_, ?_⟩
  · rw [hfound]
    intro tx htx
    cases htx
  · rw [hhanded]
    exact fun tx htx => absurd htx List.not_mem_nil
  · rw [hfound]
    exact fun shard hshard tx hw => absurd hw (hwaits shard hshard tx)
  · intro tx htx
    rw [htransactions] at htx
    cases htx
  · intro tx ref href
    rw [natives, enlisted_of_ge (by simp [htransactions])] at href
    cases href
  · rw [hfound]
    exact fun shard hshard _ tx hw => hwaits shard hshard tx hw

/-! ## Calls of transactions

A transaction that is begun, committed or rolled back to some effect is the current one: any other
has come to its end (`Tidy.settled`). So each of these calls is one move, `Move.mark` if it gives the
transaction another status and `Move.work` if not. -/

/-- Where only members of the current transaction have changed, no other becomes active. -/
theorem active_of_within {refs : List NativeRef} (hwithin : Within refs w w')
    (htx : (w.session number).current = some tx) (hsub : refs ⊆ w.natives tx) (ref : NativeRef)
    (hactive : (w'.native ref).isActive = true) : (w.native ref).isActive = true ∨
      ∃ tx, (w.session number).current = some tx ∧ ref ∈ w.natives tx := by
  by_cases hmem : ref ∈ refs
  · exact .inr ⟨tx, htx, hsub hmem⟩
  · rw [hwithin.others ref hmem] at hactive
    exact .inl hactive

/-- Work on members of the current transaction after which it has another status. -/
theorem Move.marked {w₁ : Cluster} {refs : List NativeRef} {status : TransactionStatus}
    (hwithin : Within refs w w₁) (hmarked : Within [] (w₁.setStatus tx status) w')
    (hsteady : Steady w w') (htx : (w.session number).current = some tx)
    (hsub : refs ⊆ w.natives tx) (hbegun : status ≠ .created)
    (hbegins : status = .active → (w.transaction tx).status = .created) :
    Move number call w w' := by
  refine .mark htx hwithin hmarked hsteady (fun ref hactive => ?_) hbegun hbegins
  rw [hmarked.others ref List.not_mem_nil] at hactive
  exact active_of_within hwithin htx hsub ref hactive

/-- A begin that fails has taken back what it began, and the status is as it was. -/
theorem Tidy.begin_moves (h : Tidy w number) (htx : tx < w.transactions.length) :
    Moves number call w (w.begin tx).2 := by
  rcases h.settled tx htx with hcurrent | hfinal
  · have hsteady := (w.begin_work tx).steady rfl
    rcases w.begin_cases tx with ⟨w', hbegin, -, hwithin, -⟩ |
      ⟨w₁, w', hbegin, hstatus, hwithin, -, -, hafter, -⟩ | ⟨e, w', hbegin, -, hwithin, -⟩
    · rw [hbegin] at hsteady ⊢
      exact .single (.quiet hwithin hsteady.handed)
    · rw [hbegin] at hsteady ⊢
      exact .single (.marked hwithin hafter hsteady hcurrent (List.Subset.refl _) nofun
        fun _ => hstatus)
    · rw [hbegin] at hsteady ⊢
      exact .single (.work hwithin hsteady
        (active_of_within hwithin hcurrent (List.Subset.refl _)))
  · -- A transaction that has come to its end is left alone.
    have hsame : (w.begin tx).2 = w := by
      unfold begin
      cases hstatus : (w.transaction tx).status with
      | created | active | failedCommit =>
        rw [hstatus] at hfinal
        cases hfinal
      | committed | rolledBack => simp only [hstatus]
    rw [hsame]

/-- A commit that fails at some member has ended only those in front of it, which are members too. -/
theorem Tidy.commit_moves (h : Tidy w number) (htx : tx < w.transactions.length) :
    Moves number call w (w.commit tx).2 := by
  rcases w.commit_cases tx with ⟨-, e, hcommit⟩ | ⟨hactive, done, w₁, w', hdone, -, hend⟩
  · rw [hcommit]
  · have hsteady := (w.commit_work tx).steady rfl
    have hcurrent := h.current_of_unended htx (by rw [hactive]; rfl)
    rcases hend with ⟨henlisted, hcommit, hafter⟩ | ⟨e, rest, reason, henlisted, hcommit, hafter⟩
    · rw [hcommit] at hsteady ⊢
      refine .single (.marked hdone.within hafter hsteady hcurrent ?_ (by decide) fun hbegun => ?_)
      · rw [natives, henlisted]
        exact List.Subset.refl _
      · cases hbegun
    · rw [hcommit] at hsteady ⊢
      refine .single (.marked hdone.within hafter hsteady hcurrent ?_ (by decide) fun hbegun => ?_)
      · rw [natives, henlisted, List.map_append]
        exact List.subset_append_left _ _
      · cases hbegun

/-- After a rollback that fails the status is as it was, so that the rollback can be tried again. -/
theorem Tidy.rollback_moves (h : Tidy w number) (htx : tx < w.transactions.length) :
    Moves number call w (w.rollback tx).2 := by
  rcases w.rollback_cases tx with ⟨-, e, hrollback⟩ | ⟨hunfinished, w₁, w', -, hend⟩
  · rw [hrollback]
  · have hsteady := (w.rollback_work tx).steady rfl
    have hcurrent : (w.session number).current = some tx := by
      refine h.current_of_unended htx ?_
      generalize (w.transaction tx).status = status at hunfinished ⊢
      cases status with
      | created | committed | rolledBack => cases hunfinished
      | active | failedCommit => rfl
    rcases hend with ⟨hundone, hrollback, hafter⟩ | ⟨failures, -, -, hundone, hrollback, hafter⟩
    · rw [hrollback] at hsteady ⊢
      exact .single (.marked hundone.within hafter hsteady hcurrent (List.Subset.refl _) nofun nofun)
    · rw [hrollback] at hsteady ⊢
      have hwithin := hundone.within.trans (hafter.mono (List.nil_subset _))
      exact .single (.work hwithin hsteady
        (active_of_within hwithin hcurrent (List.Subset.refl _)))

/-- A timeout may be set for a transaction that has come to its end. -/
theorem setTimeout_moves (w : Cluster) (number tx : Nat) (seconds : UInt32) :
    Moves number call w (w.setTimeout tx seconds) := by
  have hwork := w.setTimeout_work tx seconds
  refine .single (.work (w.setTimeout_within tx seconds) (hwork.steady rfl) fun ref hactive => ?_)
  rw [(hwork.sameWork rfl).isActive] at hactive
  exact .inl hactive

/-! ## Transactions that callers have in hand

A caller gets the current transaction and no other, and gives back what it has. -/

theorem handOut_moves (htx : (w.session number).current = some tx) :
    Moves number call w (w.handOut tx).2 := by
  unfold handOut
  split
  · exact .refl
  · refine .single (.hand fun other hother => ?_)
    rcases List.mem_append.mp hother with hold | hlast
    · exact .inl hold
    · obtain rfl := Option.some.inj (List.mem_singleton.mp hlast)
      exact .inr htx

theorem letGo_moves (w : Cluster) (number n : Nat) : Moves number call w (w.letGo n) := by
  refine .single (.hand fun tx htx => .inl ?_)
  rcases List.mem_or_eq_of_mem_set htx with hold | hnone
  · exact hold
  · cases hnone

/-- The current transaction is asked for: a new one may be made, and the answer is the current
one. -/
theorem Tidy.currentTransaction_moves (h : Tidy w number) (call : SessionCall) :
    Moves number call w (w.currentTransaction number).2
      ∧ ∀ tx, (w.currentTransaction number).1 = .ok tx →
        ((w.currentTransaction number).2.session number).current = some tx := by
  have hrenew : ∀ w₁ : Cluster, number < w₁.sessions.length →
      (∀ tx, (w₁.session number).current = some tx → (w₁.transaction tx).status.isFinal = true) →
      Move number call w₁ (w₁.renewTransaction number).2
        ∧ ((w₁.renewTransaction number).2.session number).current
          = some (w₁.renewTransaction number).1 := by
    intro w₁ here hended
    have hrenewed := w₁.renewTransaction_renewed here
    refine ⟨.renew hended hrenewed, ?_⟩
    rw [hrenewed.session, (w₁.renewTransaction_spec number).1]
  unfold currentTransaction
  simp only
  split
  · exact ⟨.refl, nofun⟩
  · cases hcurrent : (w.session number).current with
    | none =>
      obtain ⟨hmove, hnew⟩ := hrenew w h.here fun tx htx => by
        rw [hcurrent] at htx
        cases htx
      exact ⟨.single hmove, fun tx hok => hnew.trans (congrArg some (Except.ok.inj hok))⟩
    | some tx =>
      simp only
      split
      case isTrue hfinal =>
        generalize hw₁ : report .debug "previous transaction completed, starting a new one" w = w₁
        have hreport : Within [] w w₁ := hw₁ ▸ (Within.refl _ w).report ..
        have hquiet : Move number call w w₁ := .quiet hreport (hw₁ ▸ rfl)
        obtain ⟨hmove, hnew⟩ := hrenew w₁ (hreport.sessions ▸ h.here) fun tx' htx' => by
          rw [hreport.session, hcurrent] at htx'
          obtain rfl := Option.some.inj htx'
          rw [hreport.status]
          exact hfinal
        exact ⟨.tail (.single hquiet) hmove,
          fun tx' hok => hnew.trans (congrArg some (Except.ok.inj hok))⟩
      case isFalse =>
        exact ⟨.refl, fun tx' hok => hcurrent.trans (congrArg some (Except.ok.inj hok))⟩

/-- The same with the transaction begun as well, which leaves sessions alone. -/
theorem Tidy.beginTransaction_moves (h : Tidy w number) (call : SessionCall) :
    Moves number call w (w.beginTransaction number).2
      ∧ ∀ tx, (w.beginTransaction number).1 = .ok tx →
        ((w.beginTransaction number).2.session number).current = some tx := by
  obtain ⟨hmoves, hcurrent⟩ := h.currentTransaction_moves call
  unfold beginTransaction
  generalize w.currentTransaction number = asked at hmoves hcurrent
  match asked with
  | (.error e, w₁) => exact ⟨hmoves, nofun⟩
  | (.ok tx, w₁) =>
    have htx : (w₁.session number).current = some tx := hcurrent tx rfl
    have htidy : Tidy w₁ number := h.moves hmoves
    have hbegin : Moves number call w₁ (w₁.begin tx).2 := htidy.begin_moves (htidy.known tx htx)
    have hsession := session_congr ((w₁.begin_work tx).sessions_eq rfl) number
    simp only
    generalize w₁.begin tx = begun at hbegin hsession
    match begun with
    | (.error e, w₂) => exact ⟨hmoves.trans hbegin, nofun⟩
    | (.ok (), w₂) =>
      refine ⟨hmoves.trans hbegin, fun tx' hok => ?_⟩
      exact (congrArg Session.current hsession).trans
        (htx.trans (congrArg some (Except.ok.inj hok)))

/-- An answer that is the current transaction can be handed out. -/
theorem handOutOk_moves {result : Except ShardError Nat × Cluster}
    (hmoves : Moves number call w result.2)
    (hcurrent : ∀ tx, result.1 = .ok tx → (result.2.session number).current = some tx) :
    Moves number call w (handOutOk result) := by
  match result with
  | (.error e, w₁) => exact hmoves
  | (.ok tx, w₁) => exact hmoves.trans (handOut_moves (hcurrent tx rfl))

/-! ## Calls of handles

Where there is a connection already, no move is needed. -/

/-- An attempt is one move, whether it connects the handle or not. -/
theorem Tidy.establish_moves (h : Tidy w number) (hshard : shard ∈ (w.session number).shards)
    (hstays : ¬ call.Closes) : Moves number call w (w.establish shard).2 := by
  cases hconnection : w.connection? shard with
  | some ref =>
    have hsame : w.establish shard = (.ok ref, w) := by rw [establish, hconnection]
    rw [hsame]
  | none =>
    rcases establish_attempt (h.slots shard hshard) (h.backends shard hshard) hconnection h.members
      with ⟨ref, w', hestablish, hattached⟩ | ⟨e, w', hestablish, hrefused⟩
    · rw [hestablish]
      exact .single (.connect hstays hshard hconnection hattached)
    · rw [hestablish]
      exact .single (.refuse hshard hconnection hrefused)

theorem hook_moves (hshard : shard ∈ (w.session number).shards) (hook : Hook) :
    Moves number call w (w.registerEvent shard (.hook hook)).2 := by
  cases hconnection : w.connection? shard with
  | some ref => rw [registerEvent_of_connected hconnection]
  | none =>
    rw [registerEvent_of_unconnected hconnection]
    exact .single (.queue hshard hconnection)

/-- A write is work of the connection's transaction if that is active, and else a quiet move: what is
in a store is no concern of a session. -/
theorem writeNative_move (w : Cluster) (number : Nat) (ref : NativeRef) (key : String)
    (value : Option Json) : Move number call w
      (w.callBackend ref.backend fun b => b.write ref.connection key value).2 := by
  have hsteady := (Step.write w ref key value).steady rfl
  rcases w.writeNative_cases ref key value with ⟨w', hwrite, hwithin, -⟩ |
    ⟨w', hwrite, hactive, hwithin, -, -⟩ | ⟨w', hwrite, -, hwithin⟩
  · rw [hwrite] at hsteady ⊢
    exact .quiet hwithin hsteady.handed
  · rw [hwrite] at hsteady ⊢
    refine .work hwithin hsteady fun other hother => .inl ?_
    by_cases heq : other = ref
    · rw [heq]
      exact hactive
    · rwa [hwithin.others other fun hmem => heq (List.mem_singleton.mp hmem)] at hother
  · rw [hwrite] at hsteady ⊢
    exact .quiet hwithin hsteady.handed

theorem Tidy.write_moves (h : Tidy w number) (hshard : shard ∈ (w.session number).shards)
    (hstays : ¬ call.Closes) (key : String) (value : Option Json) :
    Moves number call w (w.write shard key value).2 := by
  have hmoves := h.establish_moves hshard hstays
  unfold write onShard
  generalize w.establish shard = established at hmoves
  match established with
  | (.error e, w₁) => exact hmoves
  | (.ok ref, w₁) => exact hmoves.tail (w₁.writeNative_move number ref key value)

/-! ## Closing

Each handle that is still connected is a move of its own. What is reported in between changes nothing
that a session looks at. -/

/-- A handle that is closed is unplugged first, so it has no connection even if that refuses. -/
theorem closeShard_within (h : w.connection? shard = some ref) :
    Within [ref] (w.unplug shard) (w.closeShard shard).2 := by
  unfold closeShard
  rw [h]
  simp only
  generalize hw₁ : report .debug ("close session on shard " ++ shard.label)
    (w.setSlot shard { w.slot shard with connection := none }) = w₁
  have hreport : Within [] (w.unplug shard) w₁ := hw₁ ▸ (Within.refl _ _).report ..
  have hwithin := (hreport.mono (List.nil_subset _)).trans (w₁.closeNative_within ref)
  generalize w₁.closeNative ref = closed at hwithin
  match closed with
  | (.ok (), w₂) => exact hwithin
  | (.error reason, w₂) => exact hwithin

theorem closeShard_moves (hshard : shard ∈ (w.session number).shards) (hcloses : call.Closes) :
    Moves number call w (w.closeShard shard).2 := by
  cases hconnection : w.connection? shard with
  | none =>
    have hsame : (w.closeShard shard).2 = w := by
      unfold closeShard
      rw [hconnection]
    rw [hsame]
  | some ref =>
    exact .single (.disconnect hcloses hshard hconnection (closeShard_within hconnection)
      ((w.closeShard_work shard).handed_eq rfl))

/-- A refused close does not keep the remaining handles from being closed. -/
theorem Tidy.closeShards_moves (h : Tidy w number) (hcloses : call.Closes) {shards : List Shard}
    (hshards : ∀ shard ∈ shards, shard ∈ (w.session number).shards) :
    Moves number call w (closeShards shards w).2 := by
  induction shards generalizing w with
  | nil => exact .refl
  | cons shard rest ih =>
    have hmoves := closeShard_moves (hshards shard List.mem_cons_self) hcloses
    have hrest : ∀ {w₁ : Cluster}, Moves number call w w₁ →
        Moves number call w (closeShards rest w₁).2 := by
      intro w₁ hmoves
      -- The induction asks for the handles of the session as it is by then.
      refine hmoves.trans (ih (h.moves hmoves) fun other hother => ?_)
      rw [h.shards_moves hmoves]
      exact hshards other (List.mem_cons_of_mem _ hother)
    rw [closeShards]
    generalize w.closeShard shard = closed at hmoves
    obtain ⟨answer, w₁⟩ := closed
    cases answer with
    | ok done => exact hrest hmoves
    | error e => exact hrest (hmoves.tail (.quiet ((Within.refl _ _).report ..) rfl))

theorem Tidy.closeSession_moves (h : Tidy w number) (hcloses : call.Closes) :
    Moves number call w (w.closeSession number).2 := by
  unfold closeSession
  simp only
  split
  · exact .refl
  · have hshut : Moves number call w
        (w.mapSession number fun session => { session with closed := true }) :=
      .single (.shut hcloses)
    generalize hw₁ : (w.mapSession number fun session => { session with closed := true }) = w₁
      at hshut
    have hwarned := w₁.warnUnfinished_work (w.session number).current
    have hwarn : Moves number call w (w₁.warnUnfinished (w.session number).current) :=
      hshut.tail (.quiet (hwarned.quiet rfl) (hwarned.handed_eq rfl))
    have hshards : ∀ shard ∈ (w.session number).shards,
        shard ∈ ((w₁.warnUnfinished (w.session number).current).session number).shards :=
      fun shard hshard => by rwa [h.shards_moves hwarn]
    have hclose := (h.moves hwarn).closeShards_moves hcloses hshards
    generalize closeShards (w.session number).shards (w₁.warnUnfinished (w.session number).current)
      = closed at hclose
    obtain ⟨errors, w₂⟩ := closed
    have hall := (hwarn.trans hclose).tail (.quiet ((Within.refl [] w₂).report .info
      ("closed session over " ++ Text.ofNat (w.session number).shards.length ++ " shard(s)")) rfl)
    cases errors with
    | nil => exact hall
    | cons first rest => exact hall

/-! ## Runs -/

/-- What a call names is a transaction that was made. -/
theorem Tidy.named_lt (h : Tidy w number) {name : TransactionName}
    (htx : w.named? number name = some tx) : tx < w.transactions.length := by
  cases name with
  | current => exact h.known tx htx
  | handed n =>
    rw [named?, handed?] at htx
    exact h.held tx (List.mem_of_getElem? (Option.join_eq_some_iff.mp htx))

theorem Tidy.onNamed (h : Tidy w number) (name : TransactionName) {step : Nat → Cluster}
    (hstep : ∀ tx < w.transactions.length, Moves number call w (step tx)) :
    Moves number call w (w.onNamed number name step) := by
  unfold Cluster.onNamed
  split
  case h_1 tx htx => exact hstep tx (h.named_lt htx)
  case h_2 => exact .refl

theorem onHandle_moves (index : Nat) {step : Shard → Cluster}
    (hstep : ∀ shard ∈ (w.session number).shards, Moves number call w (step shard)) :
    Moves number call w (w.onHandle number index step) := by
  unfold onHandle
  split
  case h_1 shard hshard => exact hstep shard (List.mem_of_getElem? hshard)
  case h_2 => exact .refl

/-- Every call is a chain of its moves. -/
theorem Tidy.after_moves (h : Tidy w number) (call : SessionCall) :
    Moves number call w (w.after number call) := by
  cases call with
  | transaction =>
    obtain ⟨hmoves, hcurrent⟩ := h.currentTransaction_moves .transaction
    exact handOutOk_moves hmoves hcurrent
  | beginTransaction =>
    obtain ⟨hmoves, hcurrent⟩ := h.beginTransaction_moves .beginTransaction
    exact handOutOk_moves hmoves hcurrent
  | begin name => exact h.onNamed name fun tx htx => h.begin_moves htx
  | commit name => exact h.onNamed name fun tx htx => h.commit_moves htx
  | rollback name => exact h.onNamed name fun tx htx => h.rollback_moves htx
  | setTimeout name seconds => exact h.onNamed name fun tx _ => w.setTimeout_moves number tx seconds
  | register name sync =>
    exact h.onNamed name fun tx _ => .single (.quiet ((Step.register w tx sync).quiet rfl) rfl)
  | letGo n => exact w.letGo_moves number n
  | establish index => exact onHandle_moves index fun shard hshard => h.establish_moves hshard id
  | hook index hook => exact onHandle_moves index fun shard hshard => hook_moves hshard hook
  | write index key value =>
    exact onHandle_moves index fun shard hshard => h.write_moves hshard id key value
  | closeShard index =>
    exact onHandle_moves index fun shard hshard => closeShard_moves hshard trivial
  | close => exact h.closeSession_moves trivial
  | arm i fault => exact .single (.arm rfl)

/-- A session stays tidy whatever it is asked for. -/
theorem Tidy.run (h : Tidy w number) (calls : List SessionCall) :
    Tidy (w.run number calls) number := by
  induction calls generalizing w with
  | nil => exact h
  | cons call rest ih => exact ih (h.moves (h.after_moves call))

theorem Tidy.shards_run (h : Tidy w number) (calls : List SessionCall) :
    ((w.run number calls).session number).shards = (w.session number).shards := by
  induction calls generalizing w with
  | nil => rfl
  | cons call rest ih =>
    exact (ih (h.moves (h.after_moves call))).trans (h.shards_moves (h.after_moves call))

/-- What every move of every allowed call keeps, a run of allowed calls keeps. -/
theorem Tidy.run_induction (P : Cluster → Prop) (allowed : SessionCall → Prop)
    (hmove : ∀ {call w w'}, allowed call → Tidy w number → Move number call w w' → P w → P w')
    (h : Tidy w number) (hw : P w) {calls : List SessionCall}
    (hcalls : ∀ call ∈ calls, allowed call) : P (w.run number calls) := by
  induction calls generalizing w with
  | nil => exact hw
  | cons call rest ih =>
    have hmoves := h.after_moves call
    exact ih (h.moves hmoves)
      (h.moves_induction (hmove (hcalls call List.mem_cons_self)) hmoves hw)
      fun call hcall => hcalls call (List.mem_cons_of_mem _ hcall)

end ScatterGather.Cluster
