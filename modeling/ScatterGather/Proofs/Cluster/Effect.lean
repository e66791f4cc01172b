import Mathlib.Logic.Relation
import ScatterGather.Cluster.Establish
import ScatterGather.Proofs.Backend.Run
import ScatterGather.Proofs.Cluster.Frame

/-!
# What the work on a cluster is made of

Whatever a cluster is asked for, its state changes in few kinds of steps (`Step`): a call of a
backend, an entry of the journal, something else that is kept under a handle or that a transaction
remembers. Work is said to be made of steps of certain kinds (`Work`), and what these keep is kept by
it (`Work.keeps`). So a fact about all of a function's work takes one look at each kind of steps, and
none at the function.
-/

namespace ScatterGather.Cluster

/-- The kinds of steps. -/
inductive Effect where
  | report
  /-- A synchronization remarks something. -/
  | remark
  /-- A hook remarks that a connection is shown to it. -/
  | hook
  | begin
  | commit
  | rollback
  | write
  /-- A local transaction gets a timeout. -/
  | time
  | connect
  | close
  | arm
  /-- A logical transaction is made. -/
  | create
  | status
  | register
  | enlist
  /-- A logical transaction gets a timeout. -/
  | timeout
  /-- What is kept under a handle changes, or there is another handle. -/
  | slot
  /-- A session changes, or there is another one. -/
  | session
  /-- Callers have other transactions in hand. -/
  | hand
deriving DecidableEq

namespace Effect

variable {effect : Effect} {effects others fewer : List Effect}

theorem not_contains_mono (h : others.contains effect = false)
    (hsub : fewer.all others.contains = true) : fewer.contains effect = false := by
  refine Bool.eq_false_iff.mpr fun hmem => Bool.eq_false_iff.mp h ?_
  exact List.all_eq_true.mp hsub effect (List.contains_iff_mem.mp hmem)

theorem not_any_mono (h : effects.any others.contains = false)
    (hsub : fewer.all others.contains = true) : effects.any fewer.contains = false := by
  refine List.any_eq_false.mpr fun effect mem => Bool.eq_false_iff.mp ?_
  exact not_contains_mono (Bool.eq_false_iff.mpr (List.any_eq_false.mp h effect mem)) hsub

end Effect

/-- A remark that a hook makes when a connection is shown to it. -/
def HookRemark (text : String) : Prop :=
  ∃ (tag : String) (id : ShardId) (runs : Nat) (visible : Bool), text = tag ++ "@" ++ id.text
    ++ " run=" ++ Text.ofNat runs ++ " visible=" ++ if visible then "true" else "false"

/-- One step of a kind. -/
inductive Step : Effect → Cluster → Cluster → Prop
  | report (w : Cluster) (level : Level) (text : String) : Step .report w (report level text w)
  | remark (w : Cluster) (text : String) : Step .remark w (record w (.remark text))
  | hook (w : Cluster) {text : String} (shown : HookRemark text) :
      Step .hook w (record w (.remark text))
  | begin (w : Cluster) (ref : NativeRef) : Step .begin w (w.beginNative ref).2
  | commit (w : Cluster) (ref : NativeRef) : Step .commit w (w.commitNative ref).2
  | rollback (w : Cluster) (ref : NativeRef) : Step .rollback w (w.rollbackNative ref).2
  | write (w : Cluster) (ref : NativeRef) (key : String) (value : Option Json) :
      Step .write w (w.callBackend ref.backend fun b => b.write ref.connection key value).2
  | time (w : Cluster) (seconds : UInt32) (ref : NativeRef) :
      Step .time w (w.setNativeTimeout seconds ref)
  | connect (w : Cluster) (backend : Nat) :
      Step .connect w (w.callBackend backend Backend.openConnection).2
  | close (w : Cluster) (ref : NativeRef) : Step .close w (w.closeNative ref).2
  | arm (w : Cluster) (backend : Nat) (call : NativeCall) :
      Step .arm w (w.mapBackend backend fun b => b.arm call)
  | create (w : Cluster) : Step .create w { w with transactions := w.transactions ++ [.fresh] }
  | status (w : Cluster) (tx : Nat) (status : TransactionStatus) :
      Step .status w (w.setStatus tx status)
  | register (w : Cluster) (tx : Nat) (sync : Synchronization) :
      Step .register w (w.register tx sync)
  | enlist (w : Cluster) (tx : Nat) (id : ShardId) (ref : NativeRef) :
      Step .enlist w (w.enlist tx id ref)
  | timeout (w : Cluster) (tx : Nat) (seconds : UInt32) :
      Step .timeout w (w.mapTransaction tx fun t => { t with timeout := some seconds })
  | slot (w : Cluster) (shard : Shard) (slot : Slot) : Step .slot w (w.setSlot shard slot)
  | handle (w : Cluster) (slot : Slot) : Step .slot w { w with slots := w.slots ++ [slot] }
  | session (w : Cluster) (number : Nat) (change : Session → Session) :
      Step .session w (w.mapSession number change)
  | opened (w : Cluster) (session : Session) :
      Step .session w { w with sessions := w.sessions ++ [session] }
  | hand (w : Cluster) (handed : List (Option Nat)) : Step .hand w { w with handed := handed }

/-- Any number of steps, all of them of these kinds. -/
def Work (effects : List Effect) : Cluster → Cluster → Prop :=
  Relation.ReflTransGen fun w w' => ∃ effect ∈ effects, Step effect w w'

namespace Work

variable {effects more : List Effect} {effect : Effect} {w w' w'' : Cluster}

theorem refl (effects : List Effect) (w : Cluster) : Work effects w w :=
  Relation.ReflTransGen.refl

theorem trans (h : Work effects w w') (h' : Work effects w' w'') : Work effects w w'' :=
  Relation.ReflTransGen.trans h h'

/-- A step more. -/
theorem step (h : Work effects w w') (next : Step effect w' w'')
    (mem : effects.contains effect = true) : Work effects w w'' :=
  Relation.ReflTransGen.tail h ⟨effect, List.contains_iff_mem.mp mem, next⟩

theorem single (next : Step effect w w') (mem : effects.contains effect = true) :
    Work effects w w' :=
  (refl effects w).step next mem

theorem mono (h : Work effects w w') (hsub : effects.all more.contains = true) :
    Work more w w' := by
  refine Relation.ReflTransGen.mono ?_ _ _ h
  rintro v v' ⟨effect, mem, hstep⟩
  exact ⟨effect, List.contains_iff_mem.mp (List.all_eq_true.mp hsub effect mem), hstep⟩

/-- What all steps keep but those of some kinds is kept by work without these. -/
theorem keeps {R : Cluster → Cluster → Prop} {others : List Effect} (h : Work effects w w')
    (hkinds : effects.any others.contains = false) (hrefl : ∀ w, R w w)
    (htrans : ∀ {w w' w''}, R w w' → R w' w'' → R w w'')
    (hstep : ∀ {effect w w'}, Step effect w w' → others.contains effect = false → R w w') :
    R w w' := by
  induction h with
  | refl => exact hrefl w
  | tail _ hlast ih =>
    obtain ⟨effect, mem, hlast⟩ := hlast
    exact htrans ih (hstep hlast (Bool.eq_false_iff.mpr (List.any_eq_false.mp hkinds effect mem)))

end Work

variable {effects : List Effect} {effect : Effect} {w w' : Cluster}

/-! ## What the backends are asked

The state of a backend changes through its calls, and each of these belongs to one kind of steps. So
what calls of a backend leave alone, steps of other kinds leave alone on all backends. -/

/-- The kind of the steps that make a call of a backend. Nobody looks at the state through the calls
that only read, and rows are put past the sessions into a backend that has none yet. -/
def Effect.ofCall? : BackendCall → Option Effect
  | .openConnection => some .connect
  | .close _ => some .close
  | .begin _ => some .begin
  | .commit _ => some .commit
  | .rollback _ => some .rollback
  | .setTimeout .. => some .time
  | .write .. => some .write
  | .arm _ => some .arm
  | .get .. | .scan .. | .seed .. => none

theorem callBackend_asks {α : Type} (w : Cluster) (i : Nat) (call : BackendCall)
    (hkind : Effect.ofCall? call = some effect) {f : Backend → α × Backend}
    (hf : ∀ b, (f b).2 = (b.perform call).2) (j : Nat) :
    (w.callBackend i f).2.backend j = w.backend j ∨ ∃ call, Effect.ofCall? call = some effect
      ∧ (w.callBackend i f).2.backend j = ((w.backend j).perform call).2 := by
  rw [backend_callBackend]
  split
  case isTrue h => exact .inr ⟨call, hkind, h.1 ▸ hf _⟩
  case isFalse => exact .inl rfl

/-- A step calls no backend, or one, once. -/
theorem Step.asks (h : Step effect w w') (i : Nat) :
    w'.backend i = w.backend i ∨ ∃ call, Effect.ofCall? call = some effect
      ∧ w'.backend i = ((w.backend i).perform call).2 := by
  cases h with
  | begin _ ref => exact w.callBackend_asks _ (.begin ref.connection) rfl (fun _ => rfl) i
  | commit _ ref => exact w.callBackend_asks _ (.commit ref.connection) rfl (fun _ => rfl) i
  | rollback _ ref => exact w.callBackend_asks _ (.rollback ref.connection) rfl (fun _ => rfl) i
  | write _ ref key value =>
    exact w.callBackend_asks _ (.write ref.connection key value) rfl (fun _ => rfl) i
  | time _ seconds ref =>
    exact w.callBackend_asks ref.backend (.setTimeout ref.connection seconds) rfl
      (f := fun b => ((), b.setTimeout ref.connection seconds)) (fun _ => rfl) i
  | connect => exact w.callBackend_asks _ .openConnection rfl (fun _ => rfl) i
  | close _ ref => exact w.callBackend_asks _ (.close ref.connection) rfl (fun _ => rfl) i
  | arm _ backend call =>
    exact w.callBackend_asks backend (.arm call) rfl (f := fun b => ((), b.arm call))
      (fun _ => rfl) i
  | report | remark | hook => exact .inl rfl
  | create | status | register | enlist | timeout => exact .inl rfl
  | slot | handle | session | opened | hand => exact .inl rfl

theorem Step.sameStores (h : Step effect w w')
    (hkind : [.commit, .write].contains effect = false) : SameStores w w' := by
  intro i
  rcases h.asks i with hsame | ⟨call, hasks, hafter⟩
  · rw [hsame]
  · rw [hafter]
    refine (Backend.step_perform _ call).store_kept ?_ ?_ ?_
    · rintro number rfl
      cases hasks
      cases hkind
    · rintro number key value rfl
      cases hasks
      cases hkind
    · rintro key value rfl
      cases hasks

theorem Work.sameStores (h : Work effects w w')
    (hkinds : effects.any [.commit, .write].contains = false) : SameStores w w' :=
  h.keeps hkinds .refl .trans Step.sameStores

/-! ## Steps that go unseen -/

/-- The kinds of steps that change nothing but what is noted down, what callers have in hand, and
what transactions remember besides their members and status. -/
def Effect.isQuiet : Effect → Bool
  | .report | .remark | .hook | .register | .timeout | .hand => true
  | _ => false

theorem Step.quiet (h : Step effect w w') (hquiet : effect.isQuiet = true) : Within [] w w' := by
  cases h with
  | report _ level text => exact (Within.refl [] w).report level text
  | remark | hook => exact (Within.refl [] w).record _
  | register | timeout => exact .mapTransaction w _ (by exact fun _ => rfl) (by exact fun _ => rfl)
  | hand =>
    exact ⟨rfl, rfl, rfl, fun _ => rfl, fun _ => rfl, rfl, fun _ => Nat.le_refl _, fun _ _ h => h,
      fun _ _ => rfl⟩
  | _ => cases hquiet

theorem Work.quiet (h : Work effects w w') (hquiet : effects.all Effect.isQuiet = true) :
    Within [] w w' := by
  induction h with
  | refl => exact .refl [] w
  | tail _ hlast ih =>
    obtain ⟨effect, mem, hlast⟩ := hlast
    exact ih.trans (hlast.quiet (List.all_eq_true.mp hquiet effect mem))

/-! ## What changes in steps of its own kind only -/

namespace Step

theorem slots_eq (h : Step effect w w') (hkind : [.slot].contains effect = false) :
    w'.slots = w.slots := by
  cases h with
  | slot | handle => cases hkind
  | _ => rfl

theorem sessions_eq (h : Step effect w w') (hkind : [.session].contains effect = false) :
    w'.sessions = w.sessions := by
  cases h with
  | session | opened => cases hkind
  | _ => rfl

theorem handed_eq (h : Step effect w w') (hkind : [.hand].contains effect = false) :
    w'.handed = w.handed := by
  cases h with
  | hand => cases hkind
  | _ => rfl

theorem enlisted_eq (h : Step effect w w') (hkind : [.enlist].contains effect = false) (tx : Nat) :
    (w'.transaction tx).enlisted = (w.transaction tx).enlisted := by
  cases h with
  | enlist => cases hkind
  | status | register | timeout => exact enlisted_mapTransaction (by exact fun _ => rfl)
  | create => exact congrArg Transaction.enlisted (transaction_withTransaction w tx)
  | _ => rfl

theorem status_eq (h : Step effect w w') (hkind : [.status].contains effect = false) (tx : Nat) :
    (w'.transaction tx).status = (w.transaction tx).status := by
  cases h with
  | status => cases hkind
  | register | enlist | timeout => exact status_mapTransaction (by exact fun _ => rfl)
  | create => exact congrArg Transaction.status (transaction_withTransaction w tx)
  | _ => rfl

theorem timeout_eq (h : Step effect w w') (hkind : [.timeout].contains effect = false) (tx : Nat) :
    (w'.transaction tx).timeout = (w.transaction tx).timeout := by
  cases h with
  | timeout => cases hkind
  | status | register | enlist => exact timeout_mapTransaction (by exact fun _ => rfl)
  | create => exact congrArg Transaction.timeout (transaction_withTransaction w tx)
  | _ => rfl

theorem synchronizations_eq (h : Step effect w w') (hkind : [.register].contains effect = false)
    (tx : Nat) : (w'.transaction tx).synchronizations = (w.transaction tx).synchronizations := by
  cases h with
  | register => cases hkind
  | status | enlist | timeout => exact synchronizations_mapTransaction (by exact fun _ => rfl)
  | create => exact congrArg Transaction.synchronizations (transaction_withTransaction w tx)
  | _ => rfl

end Step

namespace Work

theorem slots_eq (h : Work effects w w') (hkinds : effects.any [Effect.slot].contains = false) :
    w'.slots = w.slots :=
  h.keeps (R := fun w w' => w'.slots = w.slots) hkinds (fun _ => rfl) (fun h h' => h'.trans h)
    Step.slots_eq

theorem sessions_eq (h : Work effects w w')
    (hkinds : effects.any [Effect.session].contains = false) : w'.sessions = w.sessions :=
  h.keeps (R := fun w w' => w'.sessions = w.sessions) hkinds (fun _ => rfl) (fun h h' => h'.trans h)
    Step.sessions_eq

theorem handed_eq (h : Work effects w w') (hkinds : effects.any [Effect.hand].contains = false) :
    w'.handed = w.handed :=
  h.keeps (R := fun w w' => w'.handed = w.handed) hkinds (fun _ => rfl) (fun h h' => h'.trans h)
    Step.handed_eq

theorem enlisted_eq (h : Work effects w w')
    (hkinds : effects.any [Effect.enlist].contains = false) :
    ∀ tx, (w'.transaction tx).enlisted = (w.transaction tx).enlisted :=
  h.keeps (R := fun w w' => ∀ tx, (w'.transaction tx).enlisted = (w.transaction tx).enlisted) hkinds
    (fun _ _ => rfl) (fun h h' tx => (h' tx).trans (h tx)) Step.enlisted_eq

theorem status_eq (h : Work effects w w')
    (hkinds : effects.any [Effect.status].contains = false) :
    ∀ tx, (w'.transaction tx).status = (w.transaction tx).status :=
  h.keeps (R := fun w w' => ∀ tx, (w'.transaction tx).status = (w.transaction tx).status) hkinds
    (fun _ _ => rfl) (fun h h' tx => (h' tx).trans (h tx)) Step.status_eq

theorem timeout_eq (h : Work effects w w')
    (hkinds : effects.any [Effect.timeout].contains = false) :
    ∀ tx, (w'.transaction tx).timeout = (w.transaction tx).timeout :=
  h.keeps (R := fun w w' => ∀ tx, (w'.transaction tx).timeout = (w.transaction tx).timeout) hkinds
    (fun _ _ => rfl) (fun h h' tx => (h' tx).trans (h tx)) Step.timeout_eq

theorem synchronizations_eq (h : Work effects w w')
    (hkinds : effects.any [Effect.register].contains = false) :
    ∀ tx, (w'.transaction tx).synchronizations = (w.transaction tx).synchronizations :=
  h.keeps (R := fun w w' => ∀ tx,
      (w'.transaction tx).synchronizations = (w.transaction tx).synchronizations)
    hkinds (fun _ _ => rfl) (fun h h' tx => (h' tx).trans (h tx)) Step.synchronizations_eq

end Work

end ScatterGather.Cluster
