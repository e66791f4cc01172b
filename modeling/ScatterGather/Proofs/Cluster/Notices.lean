import ScatterGather.Proofs.Cluster.Completion
import ScatterGather.Proofs.Cluster.Work

/-!
# What synchronizations hear of a completion

A commit of an active transaction calls its synchronizations in two stages, with all work on local
transactions in between; a rollback calls them in the second stage only. A stage is described in
full by the state it leads to (`notified`): each callback leaves a remark and perhaps a complaint in
the journal, in the order of registration, and may register a further synchronization; nothing else
changes. The work in between is unheard of (`Unheard`).
-/

namespace ScatterGather.Cluster

variable {w w' w'' : Cluster} {tx : Nat}

/-! ## Steps that no synchronization hears of -/

/-- The journal has grown, and the only remarks among what was added are of a certain kind. -/
def Adds (remarks : String → Prop) (w w' : Cluster) : Prop :=
  ∃ more, w'.entries = w.entries ++ more ∧ ∀ text, .remark text ∈ more → remarks text

namespace Adds

variable {remarks remarks' : String → Prop}

theorem of_journal (remarks : String → Prop) (h : w'.journal = w.journal) : Adds remarks w w' :=
  ⟨[], by rw [entries, h, List.append_nil]; rfl, nofun⟩

theorem trans (h : Adds remarks w w') (h' : Adds remarks w' w'') : Adds remarks w w'' := by
  obtain ⟨more, hentries, hmore⟩ := h
  obtain ⟨more', hentries', hmore'⟩ := h'
  refine ⟨more ++ more', by rw [hentries', hentries, List.append_assoc], fun text hmem => ?_⟩
  exact (List.mem_append.mp hmem).elim (hmore text) (hmore' text)

theorem mono (h : Adds remarks w w') (hsub : ∀ text, remarks text → remarks' text) :
    Adds remarks' w w' := by
  obtain ⟨more, hentries, hmore⟩ := h
  exact ⟨more, hentries, fun text hmem => hsub text (hmore text hmem)⟩

theorem record (h : Adds remarks w w') {entry : Entry}
    (hentry : ∀ text, entry = .remark text → remarks text) :
    Adds remarks w (record w' entry) := by
  refine h.trans ⟨[entry], List.reverse_cons, fun text hmem => ?_⟩
  exact hentry text (List.mem_singleton.mp hmem).symm

theorem report (h : Adds remarks w w') (level : Level) (text : String) :
    Adds remarks w (report level text w') :=
  h.record nofun

end Adds

/-- A step that calls no synchronization: the remarks it adds to the journal are of another kind,
and transactions keep their synchronizations and their status. -/
structure Unheard (remarks : String → Prop) (w w' : Cluster) : Prop where
  adds : Adds remarks w w'
  synchronizations : ∀ tx,
    (w'.transaction tx).synchronizations = (w.transaction tx).synchronizations
  status : ∀ tx, (w'.transaction tx).status = (w.transaction tx).status

/-- No remark at all. -/
def Wordless (_ : String) : Prop :=
  False

theorem Step.adds {effect : Effect} {remarks : String → Prop} (h : Step effect w w')
    (hkind : [.remark].contains effect = false)
    (hhook : [.hook].contains effect = false ∨ ∀ text, HookRemark text → remarks text) :
    Adds remarks w w' := by
  have hsame : Adds remarks w w := .of_journal remarks rfl
  cases h with
  | report => exact hsame.report ..
  | remark => cases hkind
  | hook _ shown =>
    refine hsame.record fun text htext => ?_
    cases htext
    exact hhook.resolve_left nofun _ shown
  | _ => exact .of_journal remarks rfl

namespace Work

variable {effects : List Effect}

/-- Synchronizations are called by their own steps only. -/
theorem adds (h : Work effects w w') (hkinds : effects.any [Effect.remark].contains = false) :
    Adds HookRemark w w' :=
  h.keeps hkinds (fun _ => .of_journal _ rfl) .trans fun hstep hkind =>
    hstep.adds hkind (.inr fun _ => id)

theorem unheard (h : Work effects w w')
    (hkinds : effects.any [.remark, .status, .register].contains = false) :
    Unheard HookRemark w w' where
  adds := h.adds (Effect.not_any_mono hkinds rfl)
  synchronizations := h.synchronizations_eq (Effect.not_any_mono hkinds rfl)
  status := h.status_eq (Effect.not_any_mono hkinds rfl)

/-- Where no hook is run either, nothing is remarked at all. -/
theorem wordless (h : Work effects w w')
    (hkinds : effects.any [.remark, .hook, .status, .register].contains = false) :
    Unheard Wordless w w' := by
  have hadds : effects.any [.remark, .hook].contains = false := Effect.not_any_mono hkinds rfl
  refine ⟨h.keeps hadds (fun _ => .of_journal _ rfl) .trans fun hstep hkind => ?_,
    h.synchronizations_eq (Effect.not_any_mono hkinds rfl),
    h.status_eq (Effect.not_any_mono hkinds rfl)⟩
  exact hstep.adds (Effect.not_contains_mono hkind rfl) (.inl (Effect.not_contains_mono hkind rfl))

end Work

/-! ## One stage of callbacks -/

/-- A callback about to be called. -/
structure Callback where
  /-- The place of its synchronization in the order of registration. -/
  place : Nat
  sync : Synchronization
  reaction : Reaction

/-- Synchronizations with their places. -/
abbrev Numbered : Type :=
  List (Synchronization × Nat)

/-- The callbacks before completion, of the synchronizations that have one. -/
def Numbered.before (numbered : Numbered) : List Callback :=
  numbered.filterMap fun one => one.1.before.map (Callback.mk one.2 one.1)

/-- The callbacks after completion. -/
def Numbered.after (numbered : Numbered) : List Callback :=
  numbered.map fun one => ⟨one.2, one.1, one.1.after⟩

/-- The callbacks of some synchronizations before completion, in the order of registration. -/
def callbacksBefore (syncs : List Synchronization) : List Callback :=
  Numbered.before syncs.zipIdx

/-- The callbacks of some synchronizations after completion, in the order of registration. -/
def callbacksAfter (syncs : List Synchronization) : List Callback :=
  Numbered.after syncs.zipIdx

/-- The complaint about a callback that refused or panicked. -/
def complaint (stage : String) (call : Callback) : List Entry :=
  match call.reaction with
  | .refuse => [.event .warn ("exception calling user Synchronization " ++ stage ++ ": "
      ++ call.sync.name ++ " refused")]
  | .panic => [.event .warn ("user Synchronization panicked in " ++ stage)]
  | .accept | .register => []

/-- The synchronization that a callback registers, if it does. -/
def furtherOf (call : Callback) : List Synchronization :=
  match call.reaction with
  | .register => [⟨call.sync.name ++ "'", some .accept, .accept⟩]
  | .accept | .refuse | .panic => []

/-- The words of a callback: its synchronization, when it is called, and what it sees. -/
def remarkText (name moment : String) (status : TransactionStatus) (commits : Nat) : String :=
  name ++ " " ++ moment ++ " status=" ++ status.inspect ++ " commits=" ++ Text.ofNat commits

/-- What a callback leaves in the journal, called in this state. -/
def notice (w : Cluster) (tx : Nat) (moment stage : String) (call : Callback) : List Entry :=
  .remark (remarkText call.sync.name moment (w.transaction tx).status w.commits)
    :: complaint stage call

/-- The state after some callbacks were called, each once and one after the other. -/
def notified (w : Cluster) (tx : Nat) (moment stage : String) (calls : List Callback) : Cluster :=
  { w.mapTransaction tx fun t =>
      { t with synchronizations := t.synchronizations ++ calls.flatMap furtherOf } with
    journal := (calls.flatMap (w.notice tx moment stage)).reverse ++ w.journal }

theorem set_transaction_self (w : Cluster) (tx : Nat) :
    w.transactions.set tx (w.transaction tx) = w.transactions := by
  rcases Nat.lt_or_ge tx w.transactions.length with hlt | hge
  · rw [transaction, List.getD_eq_getElem?_getD, List.getElem?_eq_getElem hlt, Option.getD_some,
      List.set_getElem_self]
  · exact List.set_eq_of_length_le hge

theorem mapTransaction_mapTransaction (w : Cluster) (tx : Nat)
    (first second : Transaction → Transaction) :
    (w.mapTransaction tx first).mapTransaction tx second
      = w.mapTransaction tx fun t => second (first t) := by
  have hset : (w.transactions.set tx (first (w.transaction tx))).set tx
      (second ((w.mapTransaction tx first).transaction tx))
        = w.transactions.set tx (second (first (w.transaction tx))) := by
    rcases Nat.lt_or_ge tx w.transactions.length with hlt | hge
    · rw [List.set_set, transaction_mapTransaction_self hlt]
    · rw [List.set_set, List.set_eq_of_length_le hge, List.set_eq_of_length_le hge]
  rw [mapTransaction, mapTransaction, mapTransaction, ← hset]
  rfl

/-- Where nothing is registered, only the journal is another one. -/
theorem with_journal_eq (w : Cluster) (tx : Nat) (journal : List Entry) :
    { w.mapTransaction tx fun t => { t with synchronizations := t.synchronizations ++ [] } with
      journal := journal } = { w with journal := journal } := by
  simp only [mapTransaction, List.append_nil]
  exact congrArg (fun transactions : List Transaction =>
    { w with transactions := transactions, journal := journal }) (w.set_transaction_self tx)

theorem notified_nil (w : Cluster) (tx : Nat) (moment stage : String) :
    w.notified tx moment stage [] = w :=
  w.with_journal_eq tx w.journal

theorem entries_notified (w : Cluster) (tx : Nat) (moment stage : String) (calls : List Callback) :
    (w.notified tx moment stage calls).entries
      = w.entries ++ calls.flatMap (w.notice tx moment stage) := by
  rw [entries, notified, List.reverse_append, List.reverse_reverse]
  rfl

theorem notified_transaction (w : Cluster) (tx other : Nat) (moment stage : String)
    (calls : List Callback) :
    ((w.notified tx moment stage calls).transaction other).status = (w.transaction other).status
      ∧ ((w.notified tx moment stage calls).transaction other).enlisted
        = (w.transaction other).enlisted := by
  have htransaction : (w.notified tx moment stage calls).transaction other
      = (w.mapTransaction tx fun t => { t with
        synchronizations := t.synchronizations ++ calls.flatMap furtherOf }).transaction other := rfl
  rw [htransaction, transaction_mapTransaction]
  split
  case isTrue h => rw [h.1]; exact ⟨rfl, rfl⟩
  case isFalse => exact ⟨rfl, rfl⟩

theorem notice_congr (hstatus : (w'.transaction tx).status = (w.transaction tx).status)
    (hbackends : w'.backends = w.backends) (moment stage : String) :
    w'.notice tx moment stage = w.notice tx moment stage := by
  funext call
  rw [notice, notice, hstatus, commits, hbackends, commits]

theorem notified_append (w : Cluster) (tx : Nat) (moment stage : String)
    (calls more : List Callback) :
    (w.notified tx moment stage calls).notified tx moment stage more
      = w.notified tx moment stage (calls ++ more) := by
  have hnotice : (w.notified tx moment stage calls).notice tx moment stage
      = w.notice tx moment stage := notice_congr (w.notified_transaction ..).1 rfl moment stage
  have hmap := w.mapTransaction_mapTransaction tx
    (fun t => { t with synchronizations := t.synchronizations ++ calls.flatMap furtherOf })
    (fun t => { t with synchronizations := t.synchronizations ++ more.flatMap furtherOf })
  have hboth : (w.notified tx moment stage calls).notified tx moment stage more
      = { (w.mapTransaction tx fun t =>
            { t with synchronizations := t.synchronizations ++ calls.flatMap furtherOf }
          ).mapTransaction tx fun t =>
            { t with synchronizations := t.synchronizations ++ more.flatMap furtherOf } with
        journal := (more.flatMap ((w.notified tx moment stage calls).notice tx moment stage)).reverse
          ++ ((calls.flatMap (w.notice tx moment stage)).reverse ++ w.journal) } := rfl
  rw [hboth, hmap, hnotice, notified, List.flatMap_append, List.flatMap_append, List.reverse_append,
    List.append_assoc]
  simp only [List.append_assoc]

/-- What one callback does. -/
theorem notified_singleton (w : Cluster) (tx : Nat) (moment stage : String) (call : Callback) :
    w.notified tx moment stage [call]
      = (w.remark tx call.sync moment).react tx stage call.sync call.reaction := by
  obtain ⟨place, sync, reaction⟩ := call
  cases reaction with
  | accept | refuse | panic => exact w.with_journal_eq tx _
  | register => rfl

theorem Numbered.before_of_none {sync : Synchronization} (h : sync.before = none) (place : Nat)
    (rest : Numbered) : Numbered.before ((sync, place) :: rest) = rest.before :=
  List.filterMap_cons_none (congrArg (Option.map _) h)

theorem Numbered.before_of_some {sync : Synchronization} {reaction : Reaction}
    (h : sync.before = some reaction) (place : Nat) (rest : Numbered) :
    Numbered.before ((sync, place) :: rest) = [⟨place, sync, reaction⟩] ++ rest.before :=
  List.filterMap_cons_some (congrArg (Option.map _) h)

theorem notifyBefore_numbered (tx : Nat) (numbered : Numbered) (w : Cluster) :
    notifyBefore tx (numbered.map (·.1)) w
      = w.notified tx "before" "before_completion" numbered.before := by
  induction numbered generalizing w with
  | nil => exact (w.notified_nil ..).symm
  | cons first rest ih =>
    obtain ⟨sync, place⟩ := first
    rw [List.map_cons, notifyBefore]
    cases hbefore : sync.before with
    | none =>
      rw [Numbered.before_of_none hbefore]
      exact ih w
    | some reaction =>
      rw [Numbered.before_of_some hbefore, ← notified_append, notified_singleton]
      exact ih _

theorem notifyBefore_eq (tx : Nat) (syncs : List Synchronization) (w : Cluster) :
    notifyBefore tx syncs w
      = w.notified tx "before" "before_completion" (callbacksBefore syncs) := by
  rw [callbacksBefore, ← notifyBefore_numbered, List.zipIdx_map_fst]

theorem notifyAfter_numbered (tx : Nat) (completion : CompletionStatus) (numbered : Numbered)
    (w : Cluster) :
    notifyAfter tx completion (numbered.map (·.1)) w = w.notified tx ("after:" ++ completion.inspect)
      "after_completion" numbered.after := by
  induction numbered generalizing w with
  | nil => exact (w.notified_nil ..).symm
  | cons first rest ih =>
    obtain ⟨sync, place⟩ := first
    have hcalls : Numbered.after ((sync, place) :: rest)
        = [⟨place, sync, sync.after⟩] ++ Numbered.after rest := rfl
    rw [List.map_cons, notifyAfter, ih, hcalls, ← notified_append, notified_singleton]

theorem notifyAfter_eq (tx : Nat) (completion : CompletionStatus) (syncs : List Synchronization)
    (w : Cluster) :
    notifyAfter tx completion syncs w = w.notified tx ("after:" ++ completion.inspect)
      "after_completion" (callbacksAfter syncs) := by
  rw [callbacksAfter, ← notifyAfter_numbered, List.zipIdx_map_fst]

/-! ## Which callbacks there are -/

theorem Numbered.before_places (numbered : Numbered) :
    (numbered.before.map (·.place)).Sublist (numbered.map (·.2)) := by
  induction numbered with
  | nil => exact .slnil
  | cons first rest ih =>
    obtain ⟨sync, place⟩ := first
    cases hbefore : sync.before with
    | none =>
      rw [Numbered.before_of_none hbefore]
      exact .cons _ ih
    | some reaction =>
      rw [Numbered.before_of_some hbefore]
      exact .cons_cons _ ih

/-- No synchronization is called twice before one completion. -/
theorem callbacksBefore_distinct (syncs : List Synchronization) :
    ((callbacksBefore syncs).map (·.place)).Nodup := by
  refine (Numbered.before_places syncs.zipIdx).nodup ?_
  rw [List.zipIdx_map_snd]
  exact List.nodup_range'

/-! ## The stages of a completion -/

/-- A completion in stages: first the callbacks before it, then work on local transactions during
which no callback is called, then the callbacks after it. What the callbacks of a stage do is in
`notified`; no stage of callbacks touches a backend. -/
def Staged (tx : Nat) (before : List Callback) (work : Cluster → Cluster)
    (completion : CompletionStatus) (after : List Callback) (w w' : Cluster) : Prop :=
  let called := w.notified tx "before" "before_completion" before
  ∃ done : Cluster, done.backends = (work called).backends ∧ Adds Wordless called done
    ∧ w' = done.notified tx ("after:" ++ completion.inspect) "after_completion" after

theorem synchronizations_notified (h : tx < w.transactions.length) (moment stage : String)
    (calls : List Callback) :
    ((w.notified tx moment stage calls).transaction tx).synchronizations
      = (w.transaction tx).synchronizations ++ calls.flatMap furtherOf := by
  have htransaction : (w.notified tx moment stage calls).transaction tx
      = (w.mapTransaction tx fun t => { t with
        synchronizations := t.synchronizations ++ calls.flatMap furtherOf }).transaction tx := rfl
  rw [htransaction, transaction_mapTransaction_self h]

theorem synchronizations_setStatus (w : Cluster) (tx other : Nat) (status : TransactionStatus) :
    ((w.setStatus tx status).transaction other).synchronizations
      = (w.transaction other).synchronizations :=
  synchronizations_mapTransaction (by exact fun _ => rfl)

/-- The last stage, after work that no synchronization heard of. -/
theorem Staged.complete {syncs : List Synchronization} {calls : List Callback}
    {work : Cluster → Cluster} {done : Cluster}
    (hwork : Unheard Wordless (w.notified tx "before" "before_completion" calls)
      (work (w.notified tx "before" "before_completion" calls)))
    (hbackends : done.backends
      = (work (w.notified tx "before" "before_completion" calls)).backends)
    (hadds : Adds Wordless (work (w.notified tx "before" "before_completion" calls)) done)
    (hsyncs : (done.transaction tx).synchronizations = syncs) (completion : CompletionStatus) :
    Staged tx calls work completion (callbacksAfter syncs) w (done.completeWith tx completion) :=
  ⟨done, hbackends, hwork.adds.trans hadds, by rw [completeWith, notifyAfter_eq, hsyncs]⟩

/-- A commit in stages: it calls the callbacks before completion, each once and in the order of
registration, then commits local transactions, and then calls the callbacks after completion with
its outcome, also those of the synchronizations that the first ones registered. -/
def CommitStaged (w : Cluster) (tx : Nat) : Prop :=
  let t := w.transaction tx
  ∃ completion : CompletionStatus,
    (completion = .committed ∧ (w.commit tx).1 = .ok () ∨
      completion = .unknown ∧ ∃ shard committed source,
        (w.commit tx).1 = .error (.commitFailure shard committed source))
    ∧ Staged tx (callbacksBefore t.synchronizations)
      (fun called => (commitEach t.enlisted [] called).2) completion
      (callbacksAfter (t.synchronizations ++ (callbacksBefore t.synchronizations).flatMap furtherOf))
      w (w.commit tx).2

theorem commit_staged (hactive : (w.transaction tx).status = .active) : w.CommitStaged tx := by
  have htx : tx < w.transactions.length := lt_of_begun (by rw [hactive]; exact nofun)
  generalize hsyncs : (w.transaction tx).synchronizations = syncs
  generalize henlisted : (w.transaction tx).enlisted = enlisted
  have hcalled := synchronizations_notified htx "before" "before_completion" (callbacksBefore syncs)
  have hwork := (commitEach_work enlisted []
    (w.notified tx "before" "before_completion" (callbacksBefore syncs))).wordless rfl
  have hstill := (hwork.synchronizations tx).trans hcalled
  rw [hsyncs] at hstill
  unfold CommitStaged commit
  simp only [if_pos hactive, hsyncs, henlisted, notifyBefore_eq]
  cases hrun : commitEach enlisted [] (w.notified tx "before" "before_completion"
      (callbacksBefore syncs)) with
  | mk outcome worked =>
    obtain ⟨committed, failure⟩ := outcome
    rw [hrun] at hstill
    cases failure with
    | none =>
      refine ⟨.committed, .inl ⟨rfl, rfl⟩, .complete hwork ?_ ?_ ?_ .committed⟩
      · rw [hrun]; rfl
      · rw [hrun]; exact (Adds.of_journal _ rfl).report ..
      · exact (synchronizations_setStatus ..).trans hstill
    | some failed =>
      obtain ⟨shard, reason⟩ := failed
      refine ⟨.unknown, .inr ⟨rfl, _, _, _, rfl⟩, .complete hwork ?_ ?_ ?_ .unknown⟩
      · rw [hrun]; rfl
      · rw [hrun]; exact .of_journal _ rfl
      · exact (synchronizations_setStatus ..).trans hstill

/-- A rollback in stages: no callback is called before its work on local transactions, and those
after completion are called with its outcome. -/
def RollbackStaged (w : Cluster) (tx : Nat) : Prop :=
  let t := w.transaction tx
  ∃ completion : CompletionStatus,
    (completion = .rolledBack ∧ (w.rollback tx).1 = .ok () ∨
      completion = .unknown ∧ ∃ failures,
        (w.rollback tx).1 = .error (.rollbackFailure failures))
    ∧ Staged tx [] (fun called => (rollbackEach t.enlisted called).2) completion
      (callbacksAfter t.synchronizations) w (w.rollback tx).2

theorem rollback_staged (hunfinished : (w.transaction tx).status.isUnfinished = true) :
    w.RollbackStaged tx := by
  generalize hsyncs : (w.transaction tx).synchronizations = syncs
  generalize henlisted : (w.transaction tx).enlisted = enlisted
  have hnone := w.notified_nil tx "before" "before_completion"
  have hwork := (rollbackEach_work enlisted
    (w.notified tx "before" "before_completion" [])).wordless rfl
  have hstill := hwork.synchronizations tx
  rw [hnone, hsyncs] at hstill
  unfold RollbackStaged rollback
  simp only [if_pos hunfinished, hsyncs, henlisted]
  cases hrun : rollbackEach enlisted w with
  | mk failures worked =>
    rw [hrun] at hstill
    cases failures with
    | nil =>
      refine ⟨.rolledBack, .inl ⟨rfl, rfl⟩, .complete hwork ?_ ?_ ?_ .rolledBack⟩
      · rw [hnone, hrun]; rfl
      · rw [hnone, hrun]; exact (Adds.of_journal _ rfl).report ..
      · exact (synchronizations_setStatus ..).trans hstill
    | cons first failures =>
      refine ⟨.unknown, .inr ⟨rfl, _, rfl⟩, .complete hwork ?_ ?_ hstill .unknown⟩
      · rw [hnone, hrun]
      · rw [hnone, hrun]; exact .of_journal _ rfl

end ScatterGather.Cluster
