import ScatterGather.Proofs.Cluster.Alike
import ScatterGather.Proofs.Session.Opening
import ScatterGather.Proofs.Session.Run

/-!
# Runs with and without synchronizations

The calls of a session keep clusters alike that differ in synchronizations only. So a run can be
compared with the one that leaves out all registrations: the other calls give the same answers, and
the backends, the handles, the sessions and all that transactions are besides their synchronizations
come out the same.
-/

namespace ScatterGather

/-- Whether a call registers a synchronization. -/
def SessionCall.registers : SessionCall → Bool
  | register _ _ => true
  | _ => false

/-- What a call of a session answers. -/
inductive SessionAnswer where
  | transaction (answer : Except ShardError Nat)
  | done (answer : Except ShardError Unit)
  | connection (answer : Except ShardError NativeRef)
  | written (answer : Except Cluster.RowError Unit)

namespace Cluster

variable {w w' : Cluster} {shard : Shard} {ref : NativeRef}

namespace Alike

/-! ## Connecting shards -/

theorem queueEvents (h : Alike w w') (shard : Shard) (events : List OpenEvent) :
    Alike (w.queueEvents shard events) (w'.queueEvents shard events) := by
  simp only [Cluster.queueEvents, h.slot]
  exact h.setSlot ..

theorem withEvents (h : Alike w w') (shard : Shard) (events : List OpenEvent) :
    Alike (w.withEvents shard events) (w'.withEvents shard events) := by
  simp only [Cluster.withEvents, h.slot]
  exact h.setSlot ..

theorem publish (h : Alike w w') (shard : Shard) (ref : NativeRef) :
    Alike (w.publish shard ref) (w'.publish shard ref) := by
  simp only [Cluster.publish, h.slot]
  exact h.setSlot ..

theorem runHook (h : Alike w w') (shard : Shard) (ref : NativeRef) (hook : Hook) :
    ∃ answer hook' w₁ w₁', w.runHook shard ref hook = (answer, hook', w₁)
      ∧ w'.runHook shard ref hook = (answer, hook', w₁') ∧ Alike w₁ w₁' := by
  obtain ⟨tag, rejects, key, children, runs⟩ := hook
  refine ⟨_, _, _, _, rfl, rfl, ?_⟩
  cases key with
  | none => exact (h.record ..).queueEvents ..
  | some key => exact ((h.record ..).callBackend ..).state.queueEvents ..

theorem runEvent (h : Alike w w') (shard : Shard) (ref : NativeRef) (event : OpenEvent) :
    ∃ answer event' w₁ w₁', w.runEvent shard ref event = (answer, event', w₁)
      ∧ w'.runEvent shard ref event = (answer, event', w₁') ∧ Alike w₁ w₁' := by
  cases event with
  | enlist tx =>
    simp only [Cluster.runEvent, h.isReferenced]
    split
    · obtain ⟨answer, w₁, w₁', hrun, hrun', h₁⟩ := h.joinLate tx shard.physicalId ref
      rw [hrun, hrun']
      exact ⟨_, _, _, _, rfl, rfl, h₁⟩
    · exact ⟨_, _, _, _, rfl, rfl, h⟩
  | hook hook =>
    obtain ⟨answer, hook', w₁, w₁', hrun, hrun', h₁⟩ := h.runHook shard ref hook
    rw [Cluster.runEvent, Cluster.runEvent, hrun, hrun']
    exact ⟨_, _, _, _, rfl, rfl, h₁⟩

theorem runEvents (h : Alike w w') (shard : Shard) (ref : NativeRef) (events : List OpenEvent) :
    ∃ answer events' w₁ w₁', runEvents shard ref events w = (answer, events', w₁)
      ∧ runEvents shard ref events w' = (answer, events', w₁') ∧ Alike w₁ w₁' := by
  induction events generalizing w w' with
  | nil => exact ⟨_, _, _, _, rfl, rfl, h⟩
  | cons event rest ih =>
    obtain ⟨answer, event', w₁, w₁', hrun, hrun', h₁⟩ := h.runEvent shard ref event
    rw [Cluster.runEvents, Cluster.runEvents, hrun, hrun']
    cases answer with
    | ok =>
      obtain ⟨answer, rest', w₂, w₂', hrest, hrest', h₂⟩ := ih h₁
      simp only [hrest, hrest']
      exact ⟨_, _, _, _, rfl, rfl, h₂⟩
    | error e => exact ⟨_, _, _, _, rfl, rfl, h₁⟩

theorem reject (h : Alike w w') (shard : Shard) (ref : NativeRef) (events : List OpenEvent)
    (reason : ShardError) :
    Alike (w.reject shard ref events reason) (w'.reject shard ref events reason) := by
  have hwarned := h.report .warn ("open session event failed on shard " ++ shard.label ++ ": "
    ++ reason.message)
  simp only [Cluster.reject, hwarned.slot]
  obtain ⟨answer, w₁, w₁', hrun, hrun', h₁⟩ := (hwarned.setSlot shard _).callBackend ref.backend
    fun b => b.close ref.connection
  rw [closeNative, closeNative, hrun, hrun']
  cases answer with
  | ok => exact h₁
  | error close => exact h₁.report ..

theorem settle (h : Alike w w') (shard : Shard) (ref : NativeRef) (rounds : Nat)
    (fired : List OpenEvent) :
    Agree (settle shard ref rounds fired w) (settle shard ref rounds fired w') := by
  induction rounds generalizing fired w w' with
  | zero => exact (h.publish ..).pair _
  | succ rounds ih =>
    cases hevents : (w.slot shard).events with
    | nil =>
      rw [settle_of_nil hevents, settle_of_nil (by rw [h.slot, hevents])]
      exact (h.publish ..).pair _
    | cons event rest =>
      obtain ⟨answer, events, w₁, w₁', hrun, hrun', h₁⟩ :=
        (h.withEvents shard []).runEvents shard ref (event :: rest)
      rw [settle_of_cons hevents, settle_of_cons (by rw [h.slot, hevents]), hrun, hrun']
      cases answer with
      | ok => exact ih h₁ _
      | error e => exact (h₁.reject ..).pair _

theorem establish (h : Alike w w') (shard : Shard) :
    Agree (w.establish shard) (w'.establish shard) := by
  rw [Cluster.establish, Cluster.establish, h.connection?]
  split
  · exact h.pair _
  · obtain ⟨answer, w₁, w₁', hrun, hrun', h₁⟩ :=
      h.callBackend shard.backend Backend.openConnection
    rw [hrun, hrun']
    cases answer with
    | error reason => exact h₁.pair _
    | ok number =>
      have hopened := h₁.report .info ("open session on shard " ++ shard.label)
      simp only [Cluster.rounds, hopened.slot]
      exact hopened.settle ..

theorem write (h : Alike w w') (shard : Shard) (key : String) (value : Option Json) :
    Agree (w.write shard key value) (w'.write shard key value) := by
  obtain ⟨answer, w₁, w₁', hrun, hrun', h₁⟩ := h.establish shard
  rw [Cluster.write, Cluster.write, onShard, onShard, hrun, hrun']
  cases answer with
  | error e => exact h₁.pair _
  | ok ref =>
    obtain ⟨answer, w₂, w₂', hcall, hcall', h₂⟩ := h₁.callBackend ref.backend
      fun b => b.write ref.connection key value
    simp only [hcall, hcall']
    exact h₂.pair _

theorem closeShard (h : Alike w w') (shard : Shard) :
    Agree (w.closeShard shard) (w'.closeShard shard) := by
  simp only [Cluster.closeShard, h.connection?, h.slot]
  split
  · exact h.pair _
  · rename_i ref _
    obtain ⟨answer, w₁, w₁', hrun, hrun', h₁⟩ := ((h.setSlot shard
      { w.slot shard with connection := none }).report .debug
        ("close session on shard " ++ shard.label)).callBackend ref.backend
          fun b => b.close ref.connection
    rw [closeNative, closeNative, hrun, hrun']
    cases answer with
    | ok => exact h₁.pair _
    | error reason => exact h₁.pair _

/-! ## Sessions -/

theorem renewTransaction (h : Alike w w') (number : Nat) :
    Agree (w.renewTransaction number) (w'.renewTransaction number) := by
  obtain ⟨tx, w₁, w₁', hrun, hrun', h₁⟩ := h.newTransaction (w.session number).shards
  simp only [Cluster.renewTransaction, h.session, hrun, hrun']
  split
  · exact ((h₁.setTimeout ..).mapSession ..).pair _
  · exact (h₁.mapSession ..).pair _

theorem currentTransaction (h : Alike w w') (number : Nat) :
    Agree (w.currentTransaction number) (w'.currentTransaction number) := by
  have hrenew : ∀ {w w' : Cluster}, Alike w w' → Agree
      ((.ok (w.renewTransaction number).1 : Except ShardError Nat), (w.renewTransaction number).2)
      (.ok (w'.renewTransaction number).1, (w'.renewTransaction number).2) := by
    intro w w' h
    have hboth := h.renewTransaction number
    rw [hboth.answer]
    exact hboth.state.pair _
  simp only [Cluster.currentTransaction, h.session, h.status]
  split
  · exact h.pair _
  · split
    · split
      · exact hrenew (h.report ..)
      · exact h.pair _
    · exact hrenew h

theorem beginTransaction (h : Alike w w') (number : Nat) :
    Agree (w.beginTransaction number) (w'.beginTransaction number) := by
  obtain ⟨answer, w₁, w₁', hrun, hrun', h₁⟩ := h.currentTransaction number
  rw [Cluster.beginTransaction, Cluster.beginTransaction, hrun, hrun']
  cases answer with
  | error e => exact h₁.pair _
  | ok tx =>
    obtain ⟨answer, w₂, w₂', hbegin, hbegin', h₂⟩ := h₁.begin tx
    simp only [hbegin, hbegin']
    cases answer with
    | error e => exact h₂.pair _
    | ok => exact h₂.pair _

theorem closeShards (h : Alike w w') (shards : List Shard) :
    Agree (closeShards shards w) (closeShards shards w') := by
  induction shards generalizing w w' with
  | nil => exact h.pair _
  | cons shard rest ih =>
    obtain ⟨answer, w₁, w₁', hrun, hrun', h₁⟩ := h.closeShard shard
    rw [Cluster.closeShards, Cluster.closeShards, hrun, hrun']
    cases answer with
    | ok => exact ih h₁
    | error e =>
      obtain ⟨errors, w₂, w₂', hrest, hrest', h₂⟩ := ih (h₁.report .warn e.message)
      simp only [hrest, hrest']
      exact h₂.pair _

theorem warnUnfinished (h : Alike w w') (current : Option Nat) :
    Alike (w.warnUnfinished current) (w'.warnUnfinished current) := by
  cases current with
  | none => exact h
  | some tx =>
    simp only [Cluster.warnUnfinished, h.status]
    split
    · exact h.report ..
    · exact h

theorem closeSession (h : Alike w w') (number : Nat) :
    Agree (w.closeSession number) (w'.closeSession number) := by
  simp only [Cluster.closeSession, h.session]
  split
  · exact h.pair _
  · obtain ⟨errors, w₁, w₁', hrun, hrun', h₁⟩ :=
      ((h.mapSession number fun session => { session with closed := true }).warnUnfinished
        (w.session number).current).closeShards (w.session number).shards
    rw [hrun, hrun']
    cases errors with
    | nil => exact (h₁.report ..).pair _
    | cons first errors => exact (h₁.report ..).pair _

end Alike

/-! ## Calls and what they answer -/

/-- What a call answers that gives the caller a transaction: the number he has it under. -/
def handedOut : Except ShardError Nat × Cluster → Except ShardError Nat
  | (.ok tx, w) => .ok (w.handOut tx).1
  | (.error e, _) => .error e

/-- What a call of a session answers, if there is what it names and something to answer. -/
def answer? (number : Nat) (w : Cluster) : SessionCall → Option SessionAnswer
  | .transaction => some (.transaction (handedOut (w.currentTransaction number)))
  | .beginTransaction => some (.transaction (handedOut (w.beginTransaction number)))
  | .begin name => (w.named? number name).map fun tx => .done (w.begin tx).1
  | .commit name => (w.named? number name).map fun tx => .done (w.commit tx).1
  | .rollback name => (w.named? number name).map fun tx => .done (w.rollback tx).1
  | .establish index =>
    (w.session number).shards[index]?.map fun shard => .connection (w.establish shard).1
  | .write index key value =>
    (w.session number).shards[index]?.map fun shard => .written (w.write shard key value).1
  | .closeShard index =>
    (w.session number).shards[index]?.map fun shard => .done (w.closeShard shard).1
  | .close => some (.done (w.closeSession number).1)
  | .setTimeout _ _ | .register _ _ | .letGo _ | .hook _ _ | .arm _ _ => none

/-- The state after calls that were made one after the other through several sessions, each with
the number of its session. -/
def runAll (w : Cluster) (calls : List (Nat × SessionCall)) : Cluster :=
  calls.foldl (fun w call => after call.1 w call.2) w

namespace Alike

theorem named? (h : Alike w w') (number : Nat) (name : TransactionName) :
    w'.named? number name = w.named? number name := by
  cases name with
  | current => exact congrArg Session.current (h.session number)
  | handed n =>
    rw [Cluster.named?, Cluster.handed?, h.handed]
    rfl

theorem handOutOk {r r' : Except ShardError Nat × Cluster} (h : Agree r r') :
    Alike (handOutOk r) (handOutOk r') ∧ handedOut r' = handedOut r := by
  obtain ⟨answer, w, w', rfl, rfl, halike⟩ := h
  cases answer with
  | ok tx =>
    have hboth := halike.handOut tx
    exact ⟨hboth.state, congrArg Except.ok hboth.answer⟩
  | error e => exact ⟨halike, rfl⟩

theorem onNamed (h : Alike w w') (number : Nat) (name : TransactionName)
    {step step' : Nat → Cluster} (hstep : ∀ tx, Alike (step tx) (step' tx)) :
    Alike (w.onNamed number name step) (w'.onNamed number name step') := by
  rw [Cluster.onNamed, Cluster.onNamed, h.named?]
  split
  · exact hstep _
  · exact h

theorem onHandle (h : Alike w w') (number index : Nat) {step step' : Shard → Cluster}
    (hstep : ∀ shard, Alike (step shard) (step' shard)) :
    Alike (w.onHandle number index step) (w'.onHandle number index step') := by
  rw [Cluster.onHandle, Cluster.onHandle, h.session]
  split
  · exact hstep _
  · exact h

theorem after (h : Alike w w') (number : Nat) (call : SessionCall) :
    Alike (after number w call) (after number w' call) := by
  cases call with
  | transaction => exact (handOutOk (h.currentTransaction number)).1
  | beginTransaction => exact (handOutOk (h.beginTransaction number)).1
  | begin name => exact h.onNamed number name fun tx => (h.begin tx).state
  | commit name => exact h.onNamed number name fun tx => (h.commit tx).state
  | rollback name => exact h.onNamed number name fun tx => (h.rollback tx).state
  | setTimeout name seconds => exact h.onNamed number name fun tx => h.setTimeout tx seconds
  | register name sync =>
    exact h.onNamed number name fun tx => (register w tx sync).symm.trans (h.trans (register ..))
  | letGo n => exact h.letGo n
  | establish index => exact h.onHandle number index fun shard => (h.establish shard).state
  | hook index hook => exact h.onHandle number index fun shard => (h.registerEvent shard _).state
  | write index key value =>
    exact h.onHandle number index fun shard => (h.write shard key value).state
  | closeShard index => exact h.onHandle number index fun shard => (h.closeShard shard).state
  | close => exact (h.closeSession number).state
  | arm i call => exact h.mapBackend i fun b => b.arm call

/-- A registration alone leaves a cluster like the one before. -/
theorem registration (number : Nat) {call : SessionCall} (hregisters : call.registers = true) :
    Alike w (Cluster.after number w call) := by
  cases call with
  | register name sync =>
    rw [Cluster.after, Cluster.onNamed]
    split
    · exact register ..
    · exact .refl w
  | _ => cases hregisters

theorem answer? (h : Alike w w') (number : Nat) (call : SessionCall) :
    w'.answer? number call = w.answer? number call := by
  cases call with
  | transaction =>
    exact congrArg (some ∘ SessionAnswer.transaction) (handOutOk (h.currentTransaction number)).2
  | beginTransaction =>
    exact congrArg (some ∘ SessionAnswer.transaction) (handOutOk (h.beginTransaction number)).2
  | begin name => simp only [Cluster.answer?, h.named?, (h.begin _).answer]
  | commit name => simp only [Cluster.answer?, h.named?, (h.commit _).answer]
  | rollback name => simp only [Cluster.answer?, h.named?, (h.rollback _).answer]
  | establish index => simp only [Cluster.answer?, h.session, (h.establish _).answer]
  | write index key value => simp only [Cluster.answer?, h.session, (h.write ..).answer]
  | closeShard index => simp only [Cluster.answer?, h.session, (h.closeShard _).answer]
  | close => exact congrArg (some ∘ SessionAnswer.done) (h.closeSession number).answer
  | setTimeout | register | letGo | hook | arm => rfl

/-- Leaving out registrations keeps clusters alike. -/
theorem runAll (h : Alike w w') (calls : List (Nat × SessionCall)) :
    Alike (w.runAll calls) (w'.runAll (calls.filter fun call => !call.2.registers)) := by
  induction calls generalizing w w' with
  | nil => exact h
  | cons call rest ih =>
    cases hregisters : call.2.registers with
    | true =>
      -- A registration is a step of the first run alone.
      rw [List.filter_cons_of_neg (by simp [hregisters])]
      exact ih ((registration call.1 hregisters).symm.trans h)
    | false =>
      rw [List.filter_cons_of_pos (by simp [hregisters])]
      exact ih (h.after ..)

end Alike

/-- A cluster as if no synchronization had been registered so far. -/
def unsynchronized (w : Cluster) : Cluster :=
  { w with transactions := w.transactions.map Transaction.bare }

theorem alike_unsynchronized (w : Cluster) : Alike w w.unsynchronized :=
  ⟨rfl, rfl, rfl, rfl, List.map_map⟩

end Cluster

end ScatterGather
