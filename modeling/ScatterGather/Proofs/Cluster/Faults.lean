import ScatterGather.Proofs.Cluster.Faultless

/-!
# Calls that an armed fault refuses

A fault makes the next call of one kind fail on its backend, and is used up by that. So when members
of a transaction are called one after the other, each of them at a stage at which its call is due, the
first one on each backend with an armed fault is refused and all others go through. `CalledInTurn` is
such a series of calls; what it leaves behind is read off it here once, for begin and rollback alike.
-/

namespace ScatterGather

/-- How many calls of one kind had an effect. -/
def CallCounts.of (counts : CallCounts) : NativeCall → Nat
  | .opening => counts.opened
  | .beginning => counts.begins
  | .committing => counts.commits
  | .rollingBack => counts.rollbacks
  | .closing => counts.closed

namespace Backend

variable {b : Backend} {number : Nat} {c : Connection}

theorem isArmed_disarm (b : Backend) (call other : NativeCall) :
    (b.disarm call).faults.isArmed other = (b.faults.isArmed other && call != other) := by
  cases call <;> cases other <;> simp [disarm, Faults.set, Faults.isArmed]

theorem begin_refused (hc : b.connection? number = some c) (hfault : b.faults.beginning = true) :
    b.begin number = (.error (.injectedFault .beginning), b.disarm .beginning) := by
  simp [begin, hc, hfault]

theorem begin_begun (hc : b.connection? number = some c) (hfault : b.faults.beginning = false)
    (hidle : c.isActive = false) :
    b.begin number = (.ok (), { b.setConnection number { c with phase := .active, staged := ∅ } with
      calls := { b.calls with begins := b.calls.begins + 1 } }) := by
  simp [begin, hc, hfault, hidle]

theorem rollback_refused (hc : b.connection? number = some c) (hactive : c.isActive = true)
    (hfault : b.faults.rollingBack = true) :
    b.rollback number = (.error (.injectedFault .rollingBack), b.disarm .rollingBack) := by
  simp [rollback, hc, hactive, hfault]

theorem rollback_undone (hc : b.connection? number = some c) (hactive : c.isActive = true)
    (hfault : b.faults.rollingBack = false) :
    b.rollback number =
      (.ok (), { b.setConnection number { c with phase := .rolledBack, staged := ∅ } with
        calls := { b.calls with rollbacks := b.calls.rollbacks + 1 } }) := by
  simp [rollback, hc, hactive, hfault]

theorem rollback_idle (hc : b.connection? number = some c) (hidle : c.isActive = false) :
    b.rollback number = (.ok (), b) := by
  simp [rollback, hc, hidle]

end Backend

namespace Cluster

variable {w w' w'' : Cluster} {ref : NativeRef} {tx : Nat} {call : NativeCall} {phase : Phase}

/-! ## One call -/

theorem backend_congr (h : w'.backends = w.backends) (i : Nat) : w'.backend i = w.backend i := by
  rw [backend, h, backend]

theorem native_congr (h : w'.backends = w.backends) (ref : NativeRef) :
    w'.native ref = w.native ref := by
  rw [native, backend_congr h, native]

/-- On which backends the next call of a kind fails. -/
def armed (w : Cluster) (call : NativeCall) (i : Nat) : Bool :=
  (w.backend i).faults.isArmed call

/-- From one state to a later one nothing has happened that a call could notice: at most some
timeouts are set, and something was noted down. -/
structure Still (refs : List NativeRef) (w w' : Cluster) : Prop where
  within : Within refs w w'
  stores : SameStores w w'
  work : SameWork w w'
  faults : ∀ i, (w'.backend i).faults = (w.backend i).faults
  calls : ∀ i, (w'.backend i).calls = (w.backend i).calls

/-- A call was refused by an armed fault, which is used up. -/
structure Tripped (call : NativeCall) (ref : NativeRef) (w w' : Cluster) : Prop where
  armed : w.armed call ref.backend = true
  within : Within [ref] w w'
  stores : SameStores w w'
  work : SameWork w w'
  faults : ∀ i other, w'.armed other i
    = (w.armed other i && !(i == ref.backend && call == other))
  calls : ∀ i, (w'.backend i).calls = (w.backend i).calls

/-- A call went through: it took the local transaction to a phase, with nothing staged. -/
structure Done (call : NativeCall) (phase : Phase) (ref : NativeRef) (w w' : Cluster) : Prop where
  unarmed : w.armed call ref.backend = false
  within : Within [ref] w w'
  stores : SameStores w w'
  phase : (w'.native ref).phase = phase
  staged : (w'.native ref).staged = ∅
  faults : ∀ i other, w'.armed other i = w.armed other i
  calls : ∀ i other, (w'.backend i).calls.of other
    = (w.backend i).calls.of other + if i = ref.backend ∧ call = other then 1 else 0

namespace Still

variable {refs : List NativeRef}

theorem refl (w : Cluster) : Still refs w w :=
  ⟨.refl _ w, .refl w, .refl w, fun _ => rfl, fun _ => rfl⟩

theorem report (h : Still refs w w') (level : Level) (text : String) :
    Still refs w (report level text w') :=
  ⟨h.within.report .., h.stores, h.work, h.faults, h.calls⟩

theorem of_backends (hwithin : Within refs w w') (h : w'.backends = w.backends) :
    Still refs w w' := by
  refine ⟨hwithin, .of_backends h, ?_, fun i => by rw [backend_congr h],
    fun i => by rw [backend_congr h]⟩
  intro ref
  rw [native_congr h]
  exact ⟨rfl, rfl⟩

theorem armed (h : Still refs w w') (call : NativeCall) (i : Nat) :
    w'.armed call i = w.armed call i := by
  rw [Cluster.armed, h.faults, Cluster.armed]

theorem tripped (h : Still [ref] w w') (hcall : Tripped call ref w' w'') :
    Tripped call ref w w'' where
  armed := h.armed call ref.backend ▸ hcall.armed
  within := h.within.trans hcall.within
  stores := h.stores.trans hcall.stores
  work := h.work.trans hcall.work
  faults := fun i other => by rw [hcall.faults, h.armed]
  calls := fun i => (hcall.calls i).trans (h.calls i)

theorem done (h : Still [ref] w w') (hcall : Done call phase ref w' w'') :
    Done call phase ref w w'' where
  unarmed := h.armed call ref.backend ▸ hcall.unarmed
  within := h.within.trans hcall.within
  stores := h.stores.trans hcall.stores
  phase := hcall.phase
  staged := hcall.staged
  faults := fun i other => by rw [hcall.faults, h.armed]
  calls := fun i other => by rw [hcall.calls, h.calls]

end Still

theorem passTimeout_still (w : Cluster) (tx : Nat) (ref : NativeRef) :
    Still [ref] w (w.passTimeout tx ref) := by
  have hwork := w.passTimeout_work tx ref
  have hbackend : ∀ i, ((w.passTimeout tx ref).backend i).faults = (w.backend i).faults
      ∧ ((w.passTimeout tx ref).backend i).calls = (w.backend i).calls := by
    intro i
    unfold passTimeout
    split
    case h_2 => exact ⟨rfl, rfl⟩
    case h_1 seconds _ =>
      have hset : (w.setNativeTimeout seconds ref).backend i =
          if ref.backend = i ∧ ref.backend < w.backends.length then
            (w.backend ref.backend).setTimeout ref.connection seconds
          else w.backend i := getD_set ..
      rw [hset]
      split
      case isFalse => exact ⟨rfl, rfl⟩
      case isTrue h =>
        rw [← h.1, Backend.setTimeout]
        split <;> exact ⟨rfl, rfl⟩
  exact ⟨w.passTimeout_within tx ref, hwork.sameStores rfl, hwork.sameWork rfl,
    fun i => (hbackend i).1, fun i => (hbackend i).2⟩

section Calls

variable {answer : Except BackendError Unit} {step : Backend → Except BackendError Unit × Backend}
variable {b : Backend}

theorem IsOpened.backend_lt (h : w.IsOpened ref) : ref.backend < w.backends.length :=
  lt_of_connection? h.connection?

theorem backend_of_call (hopened : w.IsOpened ref)
    (hcall : step (w.backend ref.backend) = (answer, b)) (i : Nat) :
    (w.callBackend ref.backend step).2.backend i
      = if i = ref.backend then b else w.backend i := by
  rw [backend_callBackend, hcall]
  by_cases hi : i = ref.backend
  · rw [if_pos ⟨hi.symm, hopened.backend_lt⟩, if_pos hi]
  · rw [if_neg fun h => hi h.1.symm, if_neg hi]

theorem refused_of_call (hopened : w.IsOpened ref) (hfault : w.armed call ref.backend = true)
    (hcall : step (w.backend ref.backend)
      = (.error (.injectedFault call), (w.backend ref.backend).disarm call)) :
    Tripped call ref w (w.callBackend ref.backend step).2 := by
  have hbackend := backend_of_call hopened hcall
  have hwithin : Within [] w (w.callBackend ref.backend step).2 :=
    within_of_call hcall (Backend.within_disarm _ call)
  refine ⟨hfault, hwithin.mono (List.nil_subset _), sameStores_of_call hcall rfl, ?_, ?_, ?_⟩
  · intro other
    rw [hwithin.others other List.not_mem_nil]
    exact ⟨rfl, rfl⟩
  · intro i other
    rw [armed, hbackend]
    by_cases hi : i = ref.backend
    · subst hi
      simp [Backend.isArmed_disarm, armed, bne]
    · simp [hi, armed]
  · intro i
    rw [hbackend]
    split
    case isTrue hi => rw [hi]; rfl
    case isFalse => rfl

theorem done_of_call {d : Connection} (hopened : w.IsOpened ref)
    (hfault : w.armed call ref.backend = false)
    (hcall : step (w.backend ref.backend) = (.ok (), b))
    (hconnections : b.connections = (w.backend ref.backend).connections.set ref.connection d)
    (hstore : b.store = (w.backend ref.backend).store)
    (hfaults : b.faults = (w.backend ref.backend).faults)
    (hcounts : ∀ other, b.calls.of other
      = (w.backend ref.backend).calls.of other + if call = other then 1 else 0)
    (hphase : d.phase = phase) (hstaged : d.staged = ∅) :
    Done call phase ref w (w.callBackend ref.backend step).2 := by
  have hbackend := backend_of_call hopened hcall
  have hnative : (w.callBackend ref.backend step).2.native ref = d :=
    native_of_call hopened.connection? hcall
      (Backend.connection?_set hconnections hopened.connection?)
  refine ⟨hfault, within_of_call hcall (Backend.within_set hconnections hfaults),
    sameStores_of_call hcall hstore, by rw [hnative, hphase], by rw [hnative, hstaged], ?_, ?_⟩
  · intro i other
    rw [armed, armed, hbackend]
    split
    case isTrue hi => rw [hfaults, hi]
    case isFalse => rfl
  · intro i other
    rw [hbackend]
    by_cases hi : i = ref.backend
    · subst hi
      simp [hcounts]
    · simp [hi]

end Calls

theorem beginNative_refused (hopened : w.IsOpened ref)
    (hfault : w.armed .beginning ref.backend = true) :
    (w.beginNative ref).1 = .error (.injectedFault .beginning)
      ∧ Tripped .beginning ref w (w.beginNative ref).2 := by
  have hcall := Backend.begin_refused hopened.connection? hfault
  exact ⟨congrArg Prod.fst hcall, refused_of_call hopened hfault hcall⟩

theorem beginNative_done (hopened : w.IsOpened ref)
    (hfault : w.armed .beginning ref.backend = false)
    (hidle : (w.native ref).isActive = false) :
    (w.beginNative ref).1 = .ok () ∧ Done .beginning .active ref w (w.beginNative ref).2 := by
  have hcall := Backend.begin_begun hopened.connection? hfault hidle
  refine ⟨congrArg Prod.fst hcall, done_of_call hopened hfault hcall rfl rfl rfl ?_ rfl rfl⟩
  intro other
  cases other <;> rfl

theorem rollbackNative_refused (hactive : (w.native ref).isActive = true)
    (hfault : w.armed .rollingBack ref.backend = true) :
    (w.rollbackNative ref).1 = .error (.injectedFault .rollingBack)
      ∧ Tripped .rollingBack ref w (w.rollbackNative ref).2 := by
  have hopened := isOpened_of_active hactive
  have hcall := Backend.rollback_refused hopened.connection? hactive hfault
  exact ⟨congrArg Prod.fst hcall, refused_of_call hopened hfault hcall⟩

theorem rollbackNative_done (hactive : (w.native ref).isActive = true)
    (hfault : w.armed .rollingBack ref.backend = false) :
    (w.rollbackNative ref).1 = .ok ()
      ∧ Done .rollingBack .rolledBack ref w (w.rollbackNative ref).2 := by
  have hopened := isOpened_of_active hactive
  have hcall := Backend.rollback_undone hopened.connection? hactive hfault
  refine ⟨congrArg Prod.fst hcall, done_of_call hopened hfault hcall rfl rfl rfl ?_ rfl rfl⟩
  intro other
  cases other <;> rfl

/-- Where no transaction is active there is nothing to roll back. -/
theorem rollbackNative_still (hopened : w.IsOpened ref) (hidle : (w.native ref).isActive = false) :
    (w.rollbackNative ref).1 = .ok () ∧ Still [] w (w.rollbackNative ref).2 := by
  have hcall := Backend.rollback_idle hopened.connection? hidle
  refine ⟨congrArg Prod.fst hcall, .of_backends (within_of_call hcall (.refl [] _)) ?_⟩
  have hset : (w.rollbackNative ref).2.backends
      = w.backends.set ref.backend (w.backend ref.backend) := by
    rw [rollbackNative, callBackend, hcall]
  have hlt := hopened.backend_lt
  have hsame : w.backend ref.backend = w.backends[ref.backend] := by
    rw [backend, List.getD_eq_getElem?_getD, List.getElem?_eq_getElem hlt, Option.getD_some]
  rw [hset, hsame, List.set_getElem_self]

/-! ## Calls in turn -/

/-- Of some members that are called one after the other, those that a fault refuses: the first on each
backend on which one is armed. -/
def refusedBy (armed : Nat → Bool) : List Enlisted → List Enlisted
  | [] => []
  | e :: rest =>
    if armed e.native.backend then
      e :: refusedBy (fun i => armed i && !(i == e.native.backend)) rest
    else refusedBy armed rest

theorem refusedBy_sublist (armed : Nat → Bool) (members : List Enlisted) :
    (refusedBy armed members).Sublist members := by
  induction members generalizing armed with
  | nil => exact .slnil
  | cons e rest ih =>
    rw [refusedBy]
    split
    · exact (ih _).cons_cons e
    · exact (ih _).cons e

/-- All calls go through exactly if no fault is armed on a backend that is called. -/
theorem refusedBy_eq_nil_iff {armed : Nat → Bool} {members : List Enlisted} :
    refusedBy armed members = [] ↔ ∀ e ∈ members, armed e.native.backend = false := by
  induction members with
  | nil => simp [refusedBy]
  | cons e rest ih =>
    rw [refusedBy]
    cases hfault : armed e.native.backend with
    | true => simp [hfault]
    | false => simp [hfault, ih]

/-- The members `due` were called one after the other, and those in `refused` were refused. -/
inductive CalledInTurn (call : NativeCall) (phase : Phase) :
    (due refused : List Enlisted) → (w w' : Cluster) → Prop
  | nobody (w : Cluster) : CalledInTurn call phase [] [] w w
  | still {due refused : List Enlisted} {w w₁ w₂ : Cluster} (pause : Still [] w w₁)
      (later : CalledInTurn call phase due refused w₁ w₂) : CalledInTurn call phase due refused w w₂
  | refused {due refused : List Enlisted} {w w₁ w₂ : Cluster} (e : Enlisted)
      (now : Tripped call e.native w w₁) (later : CalledInTurn call phase due refused w₁ w₂) :
      CalledInTurn call phase (e :: due) (e :: refused) w w₂
  | done {due refused : List Enlisted} {w w₁ w₂ : Cluster} (e : Enlisted)
      (now : Done call phase e.native w w₁) (later : CalledInTurn call phase due refused w₁ w₂) :
      CalledInTurn call phase (e :: due) refused w w₂

namespace CalledInTurn

variable {due refused : List Enlisted}

theorem within (h : CalledInTurn call phase due refused w w') :
    Within (due.map (·.native)) w w' := by
  induction h with
  | nobody w => exact .refl _ w
  | still pause _ ih => exact (pause.within.mono (List.nil_subset _)).trans ih
  | refused e now _ ih => exact (now.within.mono (by simp)).trans (ih.mono (by simp))
  | done e now _ ih => exact (now.within.mono (by simp)).trans (ih.mono (by simp))

theorem stores (h : CalledInTurn call phase due refused w w') : SameStores w w' := by
  induction h with
  | nobody w => exact .refl w
  | still pause _ ih => exact pause.stores.trans ih
  | refused e now _ ih => exact now.stores.trans ih
  | done e now _ ih => exact now.stores.trans ih

/-- The faults decide who is refused. -/
theorem refused_eq (h : CalledInTurn call phase due refused w w') :
    refused = refusedBy (w.armed call) due := by
  induction h with
  | nobody w => rfl
  | still pause _ ih =>
    rw [ih]
    exact congrArg (refusedBy · _) (funext (pause.armed call))
  | refused e now _ ih =>
    rw [refusedBy, if_pos now.armed, ih]
    refine congrArg (fun armed => e :: refusedBy armed _) (funext fun i => ?_)
    rw [now.faults]
    simp
  | done e now _ ih =>
    rw [refusedBy, if_neg (by simp [now.unarmed]), ih]
    exact congrArg (refusedBy · _) (funext fun i => now.faults i call)

/-- No fault is left on a backend that was called. -/
theorem armed_called (h : CalledInTurn call phase due refused w w') {e : Enlisted} (he : e ∈ due) :
    w'.armed call e.native.backend = false := by
  have hkept : ∀ {due refused : List Enlisted} {w w' : Cluster} {i : Nat},
      CalledInTurn call phase due refused w w' → w.armed call i = false → w'.armed call i = false :=
    fun h hnone => Bool.eq_false_iff.mpr fun harmed =>
      Bool.eq_false_iff.mp hnone (h.within.armed _ _ harmed)
  induction h with
  | nobody w => cases he
  | still pause _ ih => exact ih he
  | refused d now later ih =>
    rcases List.mem_cons.mp he with rfl | he
    · refine hkept later ?_
      simp [now.faults]
    · exact ih he
  | done d now later ih =>
    rcases List.mem_cons.mp he with rfl | he
    · exact hkept later ((now.faults _ _).trans now.unarmed)
    · exact ih he

/-- A member that was refused is as far as it was, and every other one has come to the phase. -/
theorem settled (h : CalledInTurn call phase due refused w w')
    (hdistinct : (due.map (·.native)).Nodup) : ∀ e ∈ due,
    (e ∈ refused → (w'.native e.native).phase = (w.native e.native).phase
      ∧ (w'.native e.native).staged = (w.native e.native).staged)
    ∧ (e ∉ refused → (w'.native e.native).phase = phase ∧ (w'.native e.native).staged = ∅) := by
  induction h with
  | nobody w => exact nofun
  | still pause _ ih =>
    intro e he
    obtain ⟨hkept, hdone⟩ := ih hdistinct e he
    obtain ⟨hphase, hstaged⟩ := pause.work e.native
    exact ⟨fun hmem => ⟨(hkept hmem).1.trans hphase, (hkept hmem).2.trans hstaged⟩, hdone⟩
  | refused d now later ih =>
    obtain ⟨hnotin, hdistinct⟩ := List.nodup_cons.mp hdistinct
    intro e he
    rcases List.mem_cons.mp he with rfl | hlast
    · have hlater := later.within.others e.native hnotin
      have hwork := now.work e.native
      refine ⟨fun _ => by rw [hlater]; exact hwork, fun hmem => absurd List.mem_cons_self hmem⟩
    · obtain ⟨hkept, hdone⟩ := ih hdistinct e hlast
      obtain ⟨hphase, hstaged⟩ := now.work e.native
      have hne : e ≠ d := by
        intro heq
        exact hnotin (heq ▸ List.mem_map_of_mem hlast)
      simp only [List.mem_cons, hne, false_or]
      exact ⟨fun hmem => ⟨(hkept hmem).1.trans hphase, (hkept hmem).2.trans hstaged⟩, hdone⟩
  | done d now later ih =>
    obtain ⟨hnotin, hdistinct⟩ := List.nodup_cons.mp hdistinct
    intro e he
    rcases List.mem_cons.mp he with rfl | hlast
    · have hlater := later.within.others e.native hnotin
      refine ⟨fun hmem => absurd ?_ hnotin, fun _ => ?_⟩
      · rw [later.refused_eq] at hmem
        exact List.mem_map_of_mem ((refusedBy_sublist _ _).subset hmem)
      · rw [hlater]
        exact ⟨now.phase, now.staged⟩
    · obtain ⟨hkept, hdone⟩ := ih hdistinct e hlast
      have hne : e.native ∉ [d.native] := by
        intro hmem
        have hnative : e.native ∈ _ := List.mem_map_of_mem hlast
        rw [List.mem_singleton.mp hmem] at hnative
        exact hnotin hnative
      have hsame := now.within.others e.native hne
      exact ⟨fun hmem => hsame ▸ hkept hmem, hdone⟩

/-- Each call that went through was counted on its backend. -/
theorem counted (h : CalledInTurn call phase due refused w w') (i : Nat) :
    (w'.backend i).calls.of call + (refused.countP fun e => e.native.backend = i)
      = (w.backend i).calls.of call + due.countP fun e => e.native.backend = i := by
  induction h with
  | nobody w => rfl
  | still pause _ ih => rw [ih, pause.calls]
  | refused e now _ ih =>
    rw [now.calls] at ih
    simp only [List.countP_cons]
    omega
  | done e now _ ih =>
    rw [now.calls] at ih
    simp only [List.countP_cons, decide_eq_true_eq, and_true, eq_comm (a := i)] at ih ⊢
    omega

end CalledInTurn

end Cluster

end ScatterGather
