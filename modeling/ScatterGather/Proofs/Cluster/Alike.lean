import ScatterGather.Cluster.Session
import ScatterGather.Proofs.Cluster.Notices

/-!
# Clusters that differ in synchronizations only

Two clusters are alike if they differ in no more than what is registered to be called around
completions, and in their journals. Nothing else in a cluster depends on either: each function
takes alike clusters to alike ones and gives the same answer, whatever the callbacks do in the one
and in the other.
-/

namespace ScatterGather

/-- A transaction as if no synchronization were registered. -/
def Transaction.bare (t : Transaction) : Transaction :=
  { t with synchronizations := [] }

namespace Cluster

/-- Clusters that are the same but for synchronizations and journals. -/
structure Alike (w w' : Cluster) : Prop where
  backends : w'.backends = w.backends
  slots : w'.slots = w.slots
  sessions : w'.sessions = w.sessions
  handed : w'.handed = w.handed
  transactions : w'.transactions.map Transaction.bare = w.transactions.map Transaction.bare

/-- Two outcomes with one answer and alike states. -/
def Agree {α : Type} (r r' : α × Cluster) : Prop :=
  ∃ answer w w', r = (answer, w) ∧ r' = (answer, w') ∧ Alike w w'

variable {w w' w'' : Cluster} {tx : Nat}

theorem Agree.state {α : Type} {r r' : α × Cluster} (h : Agree r r') : Alike r.2 r'.2 := by
  obtain ⟨_, _, _, rfl, rfl, halike⟩ := h
  exact halike

theorem Agree.answer {α : Type} {r r' : α × Cluster} (h : Agree r r') : r'.1 = r.1 := by
  obtain ⟨_, _, _, rfl, rfl, _⟩ := h
  rfl

namespace Alike

theorem refl (w : Cluster) : Alike w w :=
  ⟨rfl, rfl, rfl, rfl, rfl⟩

theorem symm (h : Alike w w') : Alike w' w :=
  ⟨h.backends.symm, h.slots.symm, h.sessions.symm, h.handed.symm, h.transactions.symm⟩

theorem trans (h : Alike w w') (h' : Alike w' w'') : Alike w w'' :=
  ⟨h'.backends.trans h.backends, h'.slots.trans h.slots, h'.sessions.trans h.sessions,
    h'.handed.trans h.handed, h'.transactions.trans h.transactions⟩

/-- The same answer in alike states. -/
theorem pair {α : Type} (h : Alike w w') (answer : α) : Agree (answer, w) (answer, w') :=
  ⟨answer, w, w', rfl, rfl, h⟩

/-! ## What alike clusters look up -/

theorem backend (h : Alike w w') (i : Nat) : w'.backend i = w.backend i := by
  rw [Cluster.backend, h.backends]
  rfl

theorem native (h : Alike w w') (ref : NativeRef) : w'.native ref = w.native ref := by
  rw [Cluster.native, h.backend]
  rfl

theorem slot (h : Alike w w') (shard : Shard) : w'.slot shard = w.slot shard := by
  rw [Cluster.slot, h.slots]
  rfl

theorem connection? (h : Alike w w') (shard : Shard) :
    w'.connection? shard = w.connection? shard := by
  rw [Cluster.connection?, h.slot]
  rfl

theorem session (h : Alike w w') (number : Nat) : w'.session number = w.session number := by
  rw [Cluster.session, h.sessions]
  rfl

theorem isReferenced (h : Alike w w') (tx : Nat) : w'.isReferenced tx = w.isReferenced tx := by
  rw [Cluster.isReferenced, h.handed, h.sessions]
  rfl

theorem transaction (h : Alike w w') (tx : Nat) :
    (w'.transaction tx).bare = (w.transaction tx).bare := by
  have hbare : ∀ u : Cluster, (u.transaction tx).bare
      = ((u.transactions.map Transaction.bare)[tx]?).getD Transaction.fresh.bare := by
    intro u
    rw [Cluster.transaction, List.getD_eq_getElem?_getD, List.getElem?_map, Option.getD_map]
  rw [hbare, hbare, h.transactions]

theorem status (h : Alike w w') (tx : Nat) :
    (w'.transaction tx).status = (w.transaction tx).status :=
  (congrArg Transaction.status (h.transaction tx) :)

theorem enlisted (h : Alike w w') (tx : Nat) :
    (w'.transaction tx).enlisted = (w.transaction tx).enlisted :=
  (congrArg Transaction.enlisted (h.transaction tx) :)

theorem timeout (h : Alike w w') (tx : Nat) :
    (w'.transaction tx).timeout = (w.transaction tx).timeout :=
  (congrArg Transaction.timeout (h.transaction tx) :)

theorem length_transactions (h : Alike w w') :
    w'.transactions.length = w.transactions.length := by
  simpa only [List.length_map] using congrArg List.length h.transactions

/-! ## Changes that keep clusters alike -/

/-- The journals may differ. -/
theorem record (h : Alike w w') (entry entry' : Entry) :
    Alike (record w entry) (record w' entry') :=
  ⟨h.backends, h.slots, h.sessions, h.handed, h.transactions⟩

theorem report (h : Alike w w') (level : Level) (text : String) :
    Alike (report level text w) (report level text w') :=
  h.record ..

theorem callBackend {α : Type} (h : Alike w w') (i : Nat) (call : Backend → α × Backend) :
    Agree (w.callBackend i call) (w'.callBackend i call) := by
  refine ⟨_, _, _, rfl, by rw [Cluster.callBackend, h.backend], ?_⟩
  exact ⟨by rw [h.backends], h.slots, h.sessions, h.handed, h.transactions⟩

theorem mapBackend (h : Alike w w') (i : Nat) (change : Backend → Backend) :
    Alike (w.mapBackend i change) (w'.mapBackend i change) :=
  ⟨by rw [Cluster.mapBackend, h.backend, h.backends]; rfl,
    h.slots, h.sessions, h.handed, h.transactions⟩

theorem setSlot (h : Alike w w') (shard : Shard) (slot : Slot) :
    Alike (w.setSlot shard slot) (w'.setSlot shard slot) :=
  ⟨h.backends, by rw [Cluster.setSlot, h.slots]; rfl, h.sessions, h.handed, h.transactions⟩

theorem mapSession (h : Alike w w') (number : Nat) (change : Session → Session) :
    Alike (w.mapSession number change) (w'.mapSession number change) :=
  ⟨h.backends, h.slots, by rw [Cluster.mapSession, h.session, h.sessions]; rfl, h.handed,
    h.transactions⟩

theorem letGo (h : Alike w w') (number : Nat) : Alike (w.letGo number) (w'.letGo number) :=
  ⟨h.backends, h.slots, h.sessions, by rw [Cluster.letGo, h.handed]; rfl, h.transactions⟩

theorem handOut (h : Alike w w') (tx : Nat) : Agree (w.handOut tx) (w'.handOut tx) := by
  rw [Cluster.handOut, Cluster.handOut, h.handed]
  split
  · exact h.pair _
  · refine pair ?_ _
    exact ⟨h.backends, h.slots, h.sessions, rfl, h.transactions⟩

/-- A change that comes to the same whether or not the synchronizations are there. -/
theorem mapTransaction (h : Alike w w') (tx : Nat) {change : Transaction → Transaction}
    (hchange : ∀ t, (change t).bare = (change t.bare).bare) :
    Alike (w.mapTransaction tx change) (w'.mapTransaction tx change) := by
  refine ⟨h.backends, h.slots, h.sessions, h.handed, ?_⟩
  rw [Cluster.mapTransaction, Cluster.mapTransaction, List.map_set, List.map_set, h.transactions,
    hchange (w'.transaction tx), h.transaction, ← hchange]

theorem setStatus (h : Alike w w') (tx : Nat) (status : TransactionStatus) :
    Alike (w.setStatus tx status) (w'.setStatus tx status) :=
  h.mapTransaction tx fun _ => rfl

theorem enlist (h : Alike w w') (tx : Nat) (shard : ShardId) (ref : NativeRef) :
    Alike (w.enlist tx shard ref) (w'.enlist tx shard ref) :=
  h.mapTransaction tx fun _ => rfl

/-! ## Callbacks -/

/-- A change of nothing but synchronizations. -/
theorem resynchronized (w : Cluster) (tx : Nat) {change : Transaction → Transaction}
    (hchange : ∀ t, (change t).bare = t.bare) : Alike w (w.mapTransaction tx change) := by
  refine ⟨rfl, rfl, rfl, rfl, ?_⟩
  have hset := congrArg (List.map Transaction.bare) (w.set_transaction_self tx)
  rw [List.map_set] at hset
  rw [Cluster.mapTransaction, List.map_set, hchange, hset]

theorem register (w : Cluster) (tx : Nat) (sync : Synchronization) :
    Alike w (w.register tx sync) :=
  resynchronized w tx fun _ => rfl

/-- Whatever callbacks do, they leave a cluster like the one before. -/
theorem notified (w : Cluster) (tx : Nat) (moment stage : String) (calls : List Callback) :
    Alike w (w.notified tx moment stage calls) := by
  have hmore : Alike w (w.mapTransaction tx fun t =>
      { t with synchronizations := t.synchronizations ++ calls.flatMap furtherOf }) :=
    resynchronized w tx fun _ => rfl
  exact ⟨hmore.backends, hmore.slots, hmore.sessions, hmore.handed, hmore.transactions⟩

theorem notifyBefore (h : Alike w w') (tx : Nat) (syncs syncs' : List Synchronization) :
    Alike (notifyBefore tx syncs w) (notifyBefore tx syncs' w') := by
  rw [notifyBefore_eq, notifyBefore_eq]
  exact (notified w ..).symm.trans (h.trans (notified w' ..))

theorem completeWith (h : Alike w w') (tx : Nat) (completion : CompletionStatus) :
    Alike (w.completeWith tx completion) (w'.completeWith tx completion) := by
  rw [Cluster.completeWith, Cluster.completeWith, notifyAfter_eq, notifyAfter_eq]
  exact (notified w ..).symm.trans (h.trans (notified w' ..))

/-! ## Transactions -/

theorem setNativeTimeouts (h : Alike w w') (seconds : UInt32) (enlisted : List Enlisted) :
    Alike (enlisted.foldl (fun w e => w.setNativeTimeout seconds e.native) w)
      (enlisted.foldl (fun w e => w.setNativeTimeout seconds e.native) w') := by
  induction enlisted generalizing w w' with
  | nil => exact h
  | cons e rest ih => exact ih (h.mapBackend ..)

theorem setTimeout (h : Alike w w') (tx : Nat) (seconds : UInt32) :
    Alike (w.setTimeout tx seconds) (w'.setTimeout tx seconds) := by
  have hset : Alike (w.mapTransaction tx fun t => { t with timeout := some seconds })
      (w'.mapTransaction tx fun t => { t with timeout := some seconds }) :=
    h.mapTransaction tx fun _ => rfl
  simp only [Cluster.setTimeout, hset.enlisted]
  exact hset.setNativeTimeouts ..

theorem passTimeout (h : Alike w w') (tx : Nat) (ref : NativeRef) :
    Alike (w.passTimeout tx ref) (w'.passTimeout tx ref) := by
  rw [Cluster.passTimeout, Cluster.passTimeout, h.timeout]
  split
  · exact h.mapBackend ..
  · exact h

theorem registerEvent (h : Alike w w') (shard : Shard) (event : OpenEvent) :
    Agree (w.registerEvent shard event) (w'.registerEvent shard event) := by
  simp only [Cluster.registerEvent, h.connection?, h.slot]
  split
  · exact h.pair _
  · exact (h.setSlot ..).pair _

theorem enlistShards (h : Alike w w') (tx : Nat) (shards : List Shard) :
    Alike (enlistShards tx shards w) (enlistShards tx shards w') := by
  induction shards generalizing w w' with
  | nil => exact h
  | cons shard rest ih =>
    obtain ⟨answer, w₁, w₁', hrun, hrun', h₁⟩ := h.registerEvent shard (.enlist tx)
    rw [Cluster.enlistShards, Cluster.enlistShards, hrun, hrun']
    cases answer with
    | some ref => exact ih (h₁.enlist ..)
    | none => exact ih h₁

theorem newTransaction (h : Alike w w') (shards : List Shard) :
    Agree (w.newTransaction shards) (w'.newTransaction shards) := by
  have hnew : Alike { w with transactions := w.transactions ++ [.fresh] }
      { w' with transactions := w'.transactions ++ [.fresh] } :=
    ⟨h.backends, h.slots, h.sessions, h.handed, by
      rw [List.map_append, List.map_append, h.transactions]⟩
  rw [Cluster.newTransaction, Cluster.newTransaction, h.length_transactions]
  exact (hnew.enlistShards ..).pair _

theorem beginEach (h : Alike w w') (tx : Nat) (enlisted : List Enlisted) :
    Agree (beginEach tx enlisted w) (beginEach tx enlisted w') := by
  induction enlisted generalizing w w' with
  | nil => exact h.pair _
  | cons e rest ih =>
    obtain ⟨answer, w₁, w₁', hrun, hrun', h₁⟩ :
        Agree ((w.passTimeout tx e.native).beginNative e.native)
          ((w'.passTimeout tx e.native).beginNative e.native) := (h.passTimeout ..).callBackend ..
    rw [Cluster.beginEach, Cluster.beginEach, hrun, hrun']
    cases answer with
    | ok => exact ih h₁
    | error reason =>
      obtain ⟨failed, w₂, w₂', hrest, hrest', h₂⟩ := ih (h₁.report .warn
        ("exception starting transaction on shard " ++ e.shard.text ++ ": " ++ reason.message))
      simp only [hrest, hrest']
      exact h₂.pair _

theorem compensate (h : Alike w w') (enlisted : List Enlisted) :
    Alike (compensate enlisted w) (compensate enlisted w') := by
  induction enlisted generalizing w w' with
  | nil => exact h
  | cons e rest ih =>
    rw [Cluster.compensate, Cluster.compensate, h.native]
    split
    · obtain ⟨answer, w₁, w₁', hrun, hrun', h₁⟩ :
          Agree (w.rollbackNative e.native) (w'.rollbackNative e.native) := h.callBackend ..
      rw [hrun, hrun']
      cases answer with
      | ok => exact ih h₁
      | error reason => exact ih (h₁.report ..)
    · exact ih h

theorem begin (h : Alike w w') (tx : Nat) : Agree (w.begin tx) (w'.begin tx) := by
  simp only [Cluster.begin, h.status, h.enlisted]
  split
  · exact (h.report ..).pair _
  · obtain ⟨failed, w₁, w₁', hrun, hrun', h₁⟩ := h.beginEach tx (w.transaction tx).enlisted
    rw [hrun, hrun']
    cases failed with
    | nil => exact ((h₁.setStatus ..).report ..).pair _
    | cons first failed => exact (h₁.compensate ..).pair _
  · exact h.pair _

theorem commitEach (h : Alike w w') (enlisted : List Enlisted) (committed : List ShardId) :
    Agree (commitEach enlisted committed w) (commitEach enlisted committed w') := by
  induction enlisted generalizing committed w w' with
  | nil => exact h.pair _
  | cons e rest ih =>
    obtain ⟨answer, w₁, w₁', hrun, hrun', h₁⟩ :
        Agree (w.commitNative e.native) (w'.commitNative e.native) := h.callBackend ..
    rw [Cluster.commitEach, Cluster.commitEach, hrun, hrun']
    cases answer with
    | ok => exact ih h₁ _
    | error reason => exact (h₁.report ..).pair _

theorem commit (h : Alike w w') (tx : Nat) : Agree (w.commit tx) (w'.commit tx) := by
  simp only [Cluster.commit, h.status, h.enlisted]
  split
  · -- The callbacks of the two runs need not have anything in common.
    obtain ⟨⟨committed, failure⟩, w₁, w₁', hrun, hrun', h₁⟩ :=
      (h.notifyBefore tx (w.transaction tx).synchronizations
        (w'.transaction tx).synchronizations).commitEach (w.transaction tx).enlisted []
    rw [hrun, hrun']
    cases failure with
    | none => exact (((h₁.setStatus ..).report ..).completeWith ..).pair _
    | some failed => exact ((h₁.setStatus ..).completeWith ..).pair _
  · exact h.pair _

theorem rollbackEach (h : Alike w w') (enlisted : List Enlisted) :
    Agree (rollbackEach enlisted w) (rollbackEach enlisted w') := by
  induction enlisted generalizing w w' with
  | nil => exact h.pair _
  | cons e rest ih =>
    rw [Cluster.rollbackEach, Cluster.rollbackEach, h.native]
    split
    · exact ih (h.report ..)
    · obtain ⟨answer, w₁, w₁', hrun, hrun', h₁⟩ :
          Agree (w.rollbackNative e.native) (w'.rollbackNative e.native) := h.callBackend ..
      rw [hrun, hrun']
      cases answer with
      | ok => exact ih h₁
      | error reason =>
        obtain ⟨failures, w₂, w₂', hrest, hrest', h₂⟩ := ih (h₁.report .warn
          ("rollback failed on shard " ++ e.shard.text ++ ": " ++ reason.message))
        simp only [hrest, hrest']
        exact h₂.pair _

theorem rollback (h : Alike w w') (tx : Nat) : Agree (w.rollback tx) (w'.rollback tx) := by
  simp only [Cluster.rollback, h.status, h.enlisted]
  split
  · obtain ⟨failures, w₁, w₁', hrun, hrun', h₁⟩ := h.rollbackEach (w.transaction tx).enlisted
    rw [hrun, hrun']
    cases failures with
    | nil => exact (((h₁.setStatus ..).report ..).completeWith ..).pair _
    | cons first failures => exact (h₁.completeWith ..).pair _
  · exact h.pair _

theorem joinLate (h : Alike w w') (tx : Nat) (shard : ShardId) (ref : NativeRef) :
    Agree (w.joinLate tx shard ref) (w'.joinLate tx shard ref) := by
  simp only [Cluster.joinLate, h.status, h.enlisted]
  split
  · exact h.pair _
  have hpassed := (h.report .debug ("setting up transaction on shard " ++ shard.text)).passTimeout
    tx ref
  split
  · obtain ⟨answer, w₁, w₁', hrun, hrun', h₁⟩ := hpassed.callBackend ref.backend
      fun b => b.begin ref.connection
    rw [beginNative, beginNative, hrun, hrun']
    cases answer with
    | ok => exact (h₁.enlist ..).pair _
    | error reason =>
      have hwarned := h₁.report .warn ("exception starting late transaction on shard "
        ++ shard.text ++ ": " ++ reason.message)
      simp only [hwarned.native]
      refine pair ?_ _
      split
      · obtain ⟨answer, w₂, w₂', hback, hback', h₂⟩ := hwarned.callBackend ref.backend
          fun b => b.rollback ref.connection
        rw [rollbackNative, rollbackNative, hback, hback']
        cases answer with
        | ok => exact h₂
        | error reason => exact h₂.report ..
      · exact hwarned
  · exact (hpassed.enlist ..).pair _

end Alike

end Cluster

end ScatterGather
