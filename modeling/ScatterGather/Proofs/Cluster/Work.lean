import ScatterGather.Cluster.Session
import ScatterGather.Proofs.Cluster.Effect

/-!
# What each function does to a cluster

Of each function that changes a cluster it is said once which kinds of steps it takes. The loops take
those of their bodies, and a call takes those of all it is made of.
-/

namespace ScatterGather.Cluster

variable {w w' : Cluster}

/-! ## Callbacks and timeouts -/

theorem react_work (w : Cluster) (tx : Nat) (stage : String) (sync : Synchronization)
    (reaction : Reaction) : Work [.report, .register] w (w.react tx stage sync reaction) := by
  cases reaction with
  | accept => exact .refl _ w
  | refuse | panic => exact .single (.report ..) rfl
  | register => exact .single (.register ..) rfl

/-- The steps in which synchronizations are called. -/
def notifying : List Effect :=
  [.report, .remark, .register]

theorem notifyBefore_work (tx : Nat) (syncs : List Synchronization) (w : Cluster) :
    Work notifying w (notifyBefore tx syncs w) := by
  induction syncs generalizing w with
  | nil => exact .refl _ w
  | cons sync rest ih =>
    rw [notifyBefore]
    cases sync.before with
    | none => exact ih w
    | some reaction =>
      have hremark : Work notifying w (w.remark tx sync "before") := .single (.remark ..) rfl
      exact (hremark.trans ((react_work ..).mono rfl)).trans (ih _)

theorem completeWith_work (w : Cluster) (tx : Nat) (completion : CompletionStatus) :
    Work notifying w (w.completeWith tx completion) := by
  unfold completeWith
  generalize (w.transaction tx).synchronizations = syncs
  induction syncs generalizing w with
  | nil => exact .refl _ w
  | cons sync rest ih =>
    rw [notifyAfter]
    have hremark : Work notifying w (w.remark tx sync ("after:" ++ completion.inspect)) :=
      .single (.remark ..) rfl
    exact (hremark.trans ((react_work ..).mono rfl)).trans (ih _)

theorem passTimeout_work (w : Cluster) (tx : Nat) (ref : NativeRef) :
    Work [.time] w (w.passTimeout tx ref) := by
  unfold passTimeout
  split
  · exact .single (.time ..) rfl
  · exact .refl _ w

theorem setTimeout_work (w : Cluster) (tx : Nat) (seconds : UInt32) :
    Work [.time, .timeout] w (w.setTimeout tx seconds) := by
  have hfold : ∀ (enlisted : List Enlisted) (w : Cluster), Work [.time, .timeout] w
      (enlisted.foldl (fun w e => w.setNativeTimeout seconds e.native) w) := by
    intro enlisted
    induction enlisted with
    | nil => exact fun w => .refl _ w
    | cons e rest ih =>
      exact fun w => (Work.single (.time w seconds e.native) rfl).trans (ih _)
  have hset : Work [.time, .timeout] w
      (w.mapTransaction tx fun t => { t with timeout := some seconds }) :=
    .single (.timeout ..) rfl
  exact hset.trans (hfold _ _)

/-! ## Begin, commit and rollback -/

theorem beginEach_work (tx : Nat) (enlisted : List Enlisted) (w : Cluster) :
    Work [.report, .begin, .time] w (beginEach tx enlisted w).2 := by
  induction enlisted generalizing w with
  | nil => exact .refl _ w
  | cons e rest ih =>
    have hbegin : Work [.report, .begin, .time] w
        ((w.passTimeout tx e.native).beginNative e.native).2 :=
      ((w.passTimeout_work tx e.native).mono rfl).step (.begin ..) rfl
    rw [beginEach]
    generalize (w.passTimeout tx e.native).beginNative e.native = begun at hbegin
    obtain ⟨answer, w₁⟩ := begun
    cases answer with
    | ok done => exact hbegin.trans (ih w₁)
    | error reason => exact (hbegin.step (.report ..) rfl).trans (ih _)

theorem compensate_work (enlisted : List Enlisted) (w : Cluster) :
    Work [.report, .rollback] w (compensate enlisted w) := by
  induction enlisted generalizing w with
  | nil => exact .refl _ w
  | cons e rest ih =>
    have hrollback : Work [.report, .rollback] w (w.rollbackNative e.native).2 :=
      .single (.rollback ..) rfl
    rw [compensate]
    split
    · generalize w.rollbackNative e.native = undone at hrollback
      obtain ⟨answer, w₁⟩ := undone
      cases answer with
      | ok done => exact hrollback.trans (ih w₁)
      | error reason => exact (hrollback.step (.report ..) rfl).trans (ih _)
    · exact ih w

/-- The steps of a begin. -/
def beginning : List Effect :=
  [.report, .begin, .rollback, .time, .status]

theorem begin_work (w : Cluster) (tx : Nat) : Work beginning w (w.begin tx).2 := by
  have hbegin : Work beginning w _ :=
    (beginEach_work tx (w.transaction tx).enlisted w).mono rfl
  unfold begin
  simp only
  cases (w.transaction tx).status with
  | active => exact .single (.report ..) rfl
  | created =>
    generalize beginEach tx (w.transaction tx).enlisted w = begun at hbegin
    match begun with
    | ([], w₁) => exact (hbegin.step (.status ..) rfl).step (.report ..) rfl
    | (first :: failed, w₁) => exact hbegin.trans ((compensate_work _ w₁).mono rfl)
  | committed | failedCommit | rolledBack => exact .refl _ w

theorem commitEach_work (enlisted : List Enlisted) (committed : List ShardId) (w : Cluster) :
    Work [.report, .commit] w (commitEach enlisted committed w).2 := by
  induction enlisted generalizing committed w with
  | nil => exact .refl _ w
  | cons e rest ih =>
    have hcommit : Work [.report, .commit] w (w.commitNative e.native).2 :=
      .single (.commit ..) rfl
    rw [commitEach]
    generalize w.commitNative e.native = done at hcommit
    match done with
    | (.ok (), w₁) => exact hcommit.trans (ih _ w₁)
    | (.error reason, w₁) => exact hcommit.step (.report ..) rfl

/-- The steps of a commit. -/
def committing : List Effect :=
  .commit :: .status :: notifying

theorem commit_work (w : Cluster) (tx : Nat) : Work committing w (w.commit tx).2 := by
  unfold commit
  by_cases hactive : (w.transaction tx).status = .active
  · have hcommit : Work committing w _ :=
      ((notifyBefore_work tx (w.transaction tx).synchronizations w).mono rfl).trans
        ((commitEach_work (w.transaction tx).enlisted [] _).mono rfl)
    simp only [if_pos hactive]
    generalize commitEach (w.transaction tx).enlisted []
      (notifyBefore tx (w.transaction tx).synchronizations w) = done at hcommit
    match done with
    | ((committed, none), w₁) =>
      exact ((hcommit.step (.status ..) rfl).step (.report ..) rfl).trans
        ((completeWith_work _ tx .committed).mono rfl)
    | ((committed, some (shard, reason)), w₁) =>
      exact (hcommit.step (.status ..) rfl).trans ((completeWith_work _ tx .unknown).mono rfl)
  · simp only [if_neg hactive]
    exact .refl _ w

theorem rollbackEach_work (enlisted : List Enlisted) (w : Cluster) :
    Work [.report, .rollback] w (rollbackEach enlisted w).2 := by
  induction enlisted generalizing w with
  | nil => exact .refl _ w
  | cons e rest ih =>
    have hrollback : Work [.report, .rollback] w (w.rollbackNative e.native).2 :=
      .single (.rollback ..) rfl
    rw [rollbackEach]
    split
    · exact (Work.single (.report ..) rfl).trans (ih _)
    · generalize w.rollbackNative e.native = undone at hrollback
      obtain ⟨answer, w₁⟩ := undone
      cases answer with
      | ok done => exact hrollback.trans (ih w₁)
      | error reason => exact (hrollback.step (.report ..) rfl).trans (ih _)

/-- The steps of a rollback. -/
def rollingBack : List Effect :=
  .rollback :: .status :: notifying

theorem rollback_work (w : Cluster) (tx : Nat) : Work rollingBack w (w.rollback tx).2 := by
  have hrollback : Work rollingBack w _ :=
    (rollbackEach_work (w.transaction tx).enlisted w).mono rfl
  unfold rollback
  simp only
  split
  · generalize rollbackEach (w.transaction tx).enlisted w = undone at hrollback
    match undone with
    | ([], w₁) =>
      exact ((hrollback.step (.status ..) rfl).step (.report ..) rfl).trans
        ((completeWith_work _ tx .rolledBack).mono rfl)
    | (first :: failures, w₁) =>
      exact hrollback.trans ((completeWith_work w₁ tx .unknown).mono rfl)
  · exact .refl _ w

/-! ## Joining -/

/-- A connection that has joined already does not join again. -/
theorem joinLate_of_joined {tx : Nat} {id : ShardId} {ref : NativeRef}
    (hjoined : (w.transaction tx).enlisted.any (fun e => e.native = ref) = true) :
    w.joinLate tx id ref = (.ok (), w) :=
  if_pos hjoined

/-- What comes before a connection joins. -/
theorem settingUp_work (w : Cluster) (tx : Nat) (id : ShardId) (ref : NativeRef) :
    Work [.report, .time] w
      ((report .debug ("setting up transaction on shard " ++ id.text) w).passTimeout tx ref) :=
  (Work.single (.report ..) rfl).trans ((passTimeout_work _ tx ref).mono rfl)

/-- A connection that joins is given the timeout first, and nothing after that changes it. -/
theorem joinLate_passed (w : Cluster) {tx : Nat} {id : ShardId} {ref : NativeRef}
    (hnew : ¬ (w.transaction tx).enlisted.any (fun e => e.native = ref) = true) :
    Work [.report, .begin, .rollback, .enlist]
      ((report .debug ("setting up transaction on shard " ++ id.text) w).passTimeout tx ref)
      (w.joinLate tx id ref).2 := by
  unfold joinLate
  simp only [if_neg hnew]
  generalize (report .debug ("setting up transaction on shard " ++ id.text) w).passTimeout tx ref
    = w₁
  split
  · have hbegin : Work [.report, .begin, .rollback, .enlist] w₁ (w₁.beginNative ref).2 :=
      .single (.begin ..) rfl
    generalize w₁.beginNative ref = begun at hbegin
    match begun with
    | (.ok (), w₂) => exact hbegin.step (.enlist ..) rfl
    | (.error reason, w₂) =>
      have hfailed := hbegin.step (.report _ .warn ("exception starting late transaction on shard "
        ++ id.text ++ ": " ++ reason.message)) rfl
      simp only
      generalize ScatterGather.report _ _ w₂ = w₃ at hfailed
      split
      · have hundo := hfailed.step (.rollback _ ref) rfl
        generalize w₃.rollbackNative ref = undone at hundo
        match undone with
        | (.ok (), w₄) => exact hundo
        | (.error undo, w₄) => exact hundo.step (.report ..) rfl
      · exact hfailed
  · exact .single (.enlist ..) rfl

/-- The steps in which a connection joins a transaction. -/
def joining : List Effect :=
  [.report, .begin, .rollback, .time, .enlist]

theorem joinLate_work (w : Cluster) (tx : Nat) (id : ShardId) (ref : NativeRef) :
    Work joining w (w.joinLate tx id ref).2 := by
  by_cases hjoined : (w.transaction tx).enlisted.any (fun e => e.native = ref) = true
  · rw [joinLate_of_joined hjoined]
    exact .refl _ w
  · exact ((w.settingUp_work tx id ref).mono rfl).trans ((joinLate_passed w hjoined).mono rfl)

/-! ## Connecting a handle -/

theorem runHook_work (w : Cluster) (shard : Shard) (ref : NativeRef) (hook : Hook) :
    Work [.hook, .write, .slot] w (w.runHook shard ref hook).2.2 := by
  obtain ⟨tag, rejects, key, children, runs⟩ := hook
  have hremark : Work [.hook, .write, .slot] w (record w (.remark (tag ++ "@"
      ++ shard.physicalId.text ++ " run=" ++ Text.ofNat runs ++ " visible="
      ++ if w.isConnected shard then "true" else "false"))) :=
    .single (.hook w ⟨tag, shard.physicalId, runs, w.isConnected shard, rfl⟩) rfl
  unfold runHook
  cases key with
  | none => exact hremark.step (.slot ..) rfl
  | some key => exact (hremark.step (.write _ ref key _) rfl).step (.slot ..) rfl

/-- The steps in which a connection is shown to what waits for it. -/
def showing : List Effect :=
  [.hook, .write, .slot] ++ joining

theorem runEvent_work (w : Cluster) (shard : Shard) (ref : NativeRef) (event : OpenEvent) :
    Work showing w (w.runEvent shard ref event).2.2 := by
  cases event with
  | enlist tx =>
    rw [runEvent]
    split
    · exact (w.joinLate_work tx shard.physicalId ref).mono rfl
    · exact .refl _ w
  | hook hook => exact (w.runHook_work shard ref hook).mono rfl

theorem runEvents_work (shard : Shard) (ref : NativeRef) (events : List OpenEvent) (w : Cluster) :
    Work showing w (runEvents shard ref events w).2.2 := by
  induction events generalizing w with
  | nil => exact .refl _ w
  | cons event rest ih =>
    have hevent := w.runEvent_work shard ref event
    rw [runEvents]
    generalize w.runEvent shard ref event = ran at hevent
    obtain ⟨answer, event', w₁⟩ := ran
    cases answer with
    | ok done => exact hevent.trans (ih w₁)
    | error e => exact hevent

/-- The steps in which a connection is turned down, or a handle let go of. -/
def parting : List Effect :=
  [.report, .slot, .close]

theorem reject_work (w : Cluster) (shard : Shard) (ref : NativeRef) (events : List OpenEvent)
    (reason : ShardError) : Work parting w (w.reject shard ref events reason) := by
  unfold reject
  simp only
  generalize hwaiting : setSlot _ shard _ = waiting
  have hclose : Work parting w (waiting.closeNative ref).2 :=
    hwaiting ▸ ((Work.single (.report ..) rfl).step (.slot ..) rfl).step (.close ..) rfl
  generalize waiting.closeNative ref = closed at hclose
  obtain ⟨answer, w₁⟩ := closed
  cases answer with
  | ok done => exact hclose
  | error close => exact hclose.step (.report ..) rfl

theorem settle_work (shard : Shard) (ref : NativeRef) (rounds : Nat) (fired : List OpenEvent)
    (w : Cluster) : Work (.close :: showing) w (settle shard ref rounds fired w).2 := by
  have hpublish (w : Cluster) : Work (.close :: showing) w (w.publish shard ref) :=
    .single (.slot ..) rfl
  induction rounds generalizing fired w with
  | zero =>
    rw [settle]
    exact hpublish w
  | succ rounds ih =>
    cases hevents : (w.slot shard).events with
    | nil =>
      unfold settle
      simp only [hevents]
      exact hpublish w
    | cons event rest =>
      have hemptied : Work (.close :: showing) w
          (w.setSlot shard { w.slot shard with events := [] }) := .single (.slot ..) rfl
      have hround := hemptied.trans ((runEvents_work shard ref (event :: rest) _).mono rfl)
      unfold settle
      simp only [hevents]
      generalize runEvents shard ref (event :: rest) _ = ran at hround ⊢
      obtain ⟨answer, events, w₁⟩ := ran
      cases answer with
      | ok done => exact hround.trans (ih _ w₁)
      | error e => exact hround.trans ((reject_work ..).mono rfl)

/-- The steps in which a handle is connected and used. -/
def connecting : List Effect :=
  .connect :: .close :: showing

theorem establish_work (w : Cluster) (shard : Shard) :
    Work connecting w (w.establish shard).2 := by
  rw [establish]
  split
  · exact .refl _ w
  · have hopen : Work connecting w (w.callBackend shard.backend Backend.openConnection).2 :=
      .single (.connect ..) rfl
    generalize w.callBackend shard.backend Backend.openConnection = opened at hopen
    obtain ⟨answer, w₁⟩ := opened
    cases answer with
    | error reason => exact hopen
    | ok number =>
      exact (hopen.step (.report ..) rfl).trans ((settle_work ..).mono rfl)

theorem write_work (w : Cluster) (shard : Shard) (key : String) (value : Option Json) :
    Work connecting w (w.write shard key value).2 := by
  have hestablish := w.establish_work shard
  rw [write, onShard]
  generalize w.establish shard = established at hestablish
  obtain ⟨answer, w₁⟩ := established
  cases answer with
  | error e => exact hestablish
  | ok ref => exact hestablish.step (.write _ ref key value) rfl

theorem closeShard_work (w : Cluster) (shard : Shard) :
    Work parting w (w.closeShard shard).2 := by
  unfold closeShard
  split
  · exact .refl _ w
  · rename_i ref _
    simp only
    generalize hparted : ScatterGather.report _ _ (w.setSlot shard _) = parted
    have hclose : Work parting w (parted.closeNative ref).2 :=
      hparted ▸ ((Work.single (.slot ..) rfl).step (.report ..) rfl).step (.close ..) rfl
    generalize parted.closeNative ref = closed at hclose
    obtain ⟨answer, w₁⟩ := closed
    cases answer with
    | ok done => exact hclose
    | error reason => exact hclose

/-! ## Sessions -/

theorem registerEvent_work (w : Cluster) (shard : Shard) (event : OpenEvent) :
    Work [.slot] w (w.registerEvent shard event).2 := by
  rw [registerEvent]
  split
  · exact .refl _ w
  · exact .single (.slot ..) rfl

theorem enlistShards_work (tx : Nat) (shards : List Shard) (w : Cluster) :
    Work [.slot, .enlist] w (enlistShards tx shards w) := by
  induction shards generalizing w with
  | nil => exact .refl _ w
  | cons shard rest ih =>
    have hregister : Work [.slot, .enlist] w (w.registerEvent shard (.enlist tx)).2 :=
      (w.registerEvent_work shard (.enlist tx)).mono rfl
    rw [enlistShards]
    generalize w.registerEvent shard (.enlist tx) = registered at hregister
    obtain ⟨answer, w₁⟩ := registered
    cases answer with
    | some ref => exact (hregister.step (.enlist ..) rfl).trans (ih _)
    | none => exact hregister.trans (ih w₁)

/-- The steps in which a session gets a new transaction. -/
def renewing : List Effect :=
  [.create, .slot, .enlist, .time, .timeout, .session]

theorem newTransaction_work (w : Cluster) (shards : List Shard) :
    Work renewing w (w.newTransaction shards).2 :=
  (Work.single (.create w) rfl).trans ((enlistShards_work ..).mono rfl)

theorem renewTransaction_work (w : Cluster) (number : Nat) :
    Work renewing w (w.renewTransaction number).2 := by
  have hnew := w.newTransaction_work (w.session number).shards
  unfold renewTransaction
  simp only
  generalize w.newTransaction (w.session number).shards = made at hnew
  obtain ⟨tx, w₁⟩ := made
  cases (w.session number).timeout with
  | none => exact hnew.step (.session ..) rfl
  | some seconds =>
    exact (hnew.trans ((w₁.setTimeout_work tx seconds).mono rfl)).step (.session ..) rfl

theorem currentTransaction_work (w : Cluster) (number : Nat) :
    Work (.report :: renewing) w (w.currentTransaction number).2 := by
  unfold currentTransaction
  simp only
  split
  · exact .refl _ w
  · split
    · split
      · exact (Work.single (.report ..) rfl).trans ((renewTransaction_work ..).mono rfl)
      · exact .refl _ w
    · exact (w.renewTransaction_work number).mono rfl

theorem beginTransaction_work (w : Cluster) (number : Nat) :
    Work (beginning ++ renewing) w (w.beginTransaction number).2 := by
  have hcurrent : Work (beginning ++ renewing) w (w.currentTransaction number).2 :=
    (w.currentTransaction_work number).mono rfl
  rw [beginTransaction]
  generalize w.currentTransaction number = current at hcurrent
  obtain ⟨answer, w₁⟩ := current
  cases answer with
  | error e => exact hcurrent
  | ok tx =>
    have hbegin := hcurrent.trans ((w₁.begin_work tx).mono rfl)
    dsimp only
    generalize w₁.begin tx = begun at hbegin
    obtain ⟨answer, w₂⟩ := begun
    cases answer with
    | error e => exact hbegin
    | ok done => exact hbegin

theorem closeShards_work (shards : List Shard) (w : Cluster) :
    Work parting w (closeShards shards w).2 := by
  induction shards generalizing w with
  | nil => exact .refl _ w
  | cons shard rest ih =>
    have hclose := w.closeShard_work shard
    rw [closeShards]
    generalize w.closeShard shard = closed at hclose
    obtain ⟨answer, w₁⟩ := closed
    cases answer with
    | ok done => exact hclose.trans (ih w₁)
    | error e => exact (hclose.step (.report ..) rfl).trans (ih _)

theorem warnUnfinished_work (w : Cluster) (current : Option Nat) :
    Work [.report] w (w.warnUnfinished current) := by
  cases current with
  | none => exact .refl _ w
  | some tx =>
    simp only [warnUnfinished]
    split
    · exact .single (.report ..) rfl
    · exact .refl _ w

theorem closeSession_work (w : Cluster) (number : Nat) :
    Work (.session :: parting) w (w.closeSession number).2 := by
  unfold closeSession
  simp only
  split
  · exact .refl _ w
  · have hmarked : Work (.session :: parting) w
        (w.mapSession number fun session => { session with closed := true }) :=
      .single (.session ..) rfl
    have hwarned := hmarked.trans ((warnUnfinished_work _ (w.session number).current).mono rfl)
    have hclose := hwarned.trans ((closeShards_work (w.session number).shards _).mono rfl)
    generalize closeShards _ _ = closed at hclose ⊢
    obtain ⟨errors, w₁⟩ := closed
    cases errors with
    | nil => exact hclose.step (.report ..) rfl
    | cons first rest => exact hclose.step (.report ..) rfl

theorem addShards_work (shards : List PhysicalShard) (w : Cluster) :
    Work [.slot] w (addShards shards w).2 := by
  induction shards generalizing w with
  | nil => exact .refl _ w
  | cons physical rest ih =>
    have hslot : Work [.slot] w
        (w.addShard physical.physicalId physical.served physical.backend).2 := by
      rw [addShard]
      split
      · exact .refl _ w
      · exact .single (.handle ..) rfl
    rw [addShards]
    generalize w.addShard physical.physicalId physical.served physical.backend = added at hslot
    obtain ⟨answer, w₁⟩ := added
    cases answer with
    | error e => exact hslot
    | ok shard => exact hslot.trans (ih w₁)

/-- A session that is opened connects to no backend yet. -/
theorem openSession_work (w : Cluster) (factory : SessionFactory) :
    Work [.slot, .session] w (w.openSession factory).2 := by
  have hadded : Work [.slot, .session] w (addShards factory.shards w).2 :=
    (addShards_work factory.shards w).mono rfl
  rw [openSession]
  generalize addShards factory.shards w = added at hadded
  obtain ⟨answer, w₁⟩ := added
  cases answer with
  | error e => exact hadded
  | ok shards => exact hadded.step (.opened ..) rfl

end ScatterGather.Cluster
