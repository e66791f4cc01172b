import Mathlib.Data.List.Induction
import ScatterGather.Proofs.Handle.Alone

/-!
# One connection to a handle

However the calls on a handle are interleaved, each connection that was opened for it was handed to
its close, or is the one that a call is setting up, or is the one of the handle; and there is never
more than one of these last two kinds. Calls that connect the handle answer with its connection, so
that between two closes they all answer with the same.
-/

namespace ScatterGather

/-! ## What a history says -/

/-- The connection that was opened. -/
def Incident.opens : Incident → Option NativeRef
  | opened ref => some ref
  | _ => none

/-- The connection that was handed to its close. -/
def Incident.hands : Incident → Option NativeRef
  | rejected ref | parted ref => some ref
  | _ => none

/-- The connection of the handle after an incident. -/
def Incident.follow (connection : Option NativeRef) : Incident → Option NativeRef
  | published _ ref => some ref
  | parted _ => none
  | _ => connection

/-- Whether an incident goes together with the connection that the handle has. -/
def Incident.Fits (connection : Option NativeRef) : Incident → Prop
  | registered _ answer => answer = connection
  | published _ _ => connection = none
  | parted ref => connection = some ref
  | answered _ (.ok ref) => connection = some ref
  | opened _ | shown .. | rejected _ | answered _ (.error _) => True

def openedIn (history : List Incident) : List NativeRef :=
  history.filterMap Incident.opens

def handedIn (history : List Incident) : List NativeRef :=
  history.filterMap Incident.hands

/-- The connection that a handle has after a history, if it had the given one before. -/
def connectionAfter (connection : Option NativeRef) (history : List Incident) :
    Option NativeRef :=
  history.foldl Incident.follow connection

theorem openedIn_append (history more : List Incident) :
    openedIn (history ++ more) = openedIn history ++ openedIn more :=
  List.filterMap_append

theorem handedIn_append (history more : List Incident) :
    handedIn (history ++ more) = handedIn history ++ handedIn more :=
  List.filterMap_append

/-- Every incident goes together with the connection at its time. -/
def Faithful : Option NativeRef → List Incident → Prop
  | _, [] => True
  | connection, incident :: rest =>
    incident.Fits connection ∧ Faithful (incident.follow connection) rest

variable {connection : Option NativeRef} {ref : NativeRef}

theorem connectionAfter_append (connection : Option NativeRef) (history more : List Incident) :
    connectionAfter connection (history ++ more)
      = connectionAfter (connectionAfter connection history) more :=
  List.foldl_append

theorem faithful_append {history more : List Incident} :
    Faithful connection (history ++ more) ↔
      Faithful connection history ∧ Faithful (connectionAfter connection history) more := by
  induction history generalizing connection with
  | nil => exact (iff_of_eq (true_and _)).symm
  | cons incident rest ih =>
    rw [List.cons_append, Faithful, ih, Faithful, and_assoc]
    rfl

/-- A handle keeps its connection up to the next close. -/
theorem Faithful.keeps {history : List Incident} (h : Faithful (some ref) history)
    (hkept : ∀ gone, .parted gone ∉ history) : connectionAfter (some ref) history = some ref := by
  induction history with
  | nil => rfl
  | cons incident rest ih =>
    have hfollow : incident.follow (some ref) = some ref := by
      cases incident with
      | published => cases h.1
      | parted gone => exact absurd List.mem_cons_self (hkept gone)
      | registered | opened | shown | rejected | answered => rfl
    have hrest : Faithful (incident.follow (some ref)) rest := h.2
    rw [hfollow] at hrest
    rw [connectionAfter, List.foldl_cons, hfollow]
    exact ih hrest fun gone hmem => hkept gone (List.mem_cons_of_mem _ hmem)

/-- The connection of a handle was published, and not closed since. -/
theorem published_of_connectionAfter {history : List Incident}
    (h : connectionAfter none history = some ref) :
    ∃ before call after, history = before ++ .published call ref :: after
      ∧ ∀ gone, .parted gone ∉ after := by
  induction history using List.reverseRecOn with
  | nil => cases h
  | append_singleton history incident ih =>
    rw [connectionAfter_append] at h
    have hearlier : connectionAfter none history = some ref →
        (∀ gone, incident ≠ .parted gone) →
        ∃ before call after, history ++ [incident] = before ++ .published call ref :: after
          ∧ ∀ gone, .parted gone ∉ after := by
      intro hsome hother
      obtain ⟨before, call, after, rfl, hkept⟩ := ih hsome
      refine ⟨before, call, after ++ [incident], by simp, fun gone hmem => ?_⟩
      rcases List.mem_append.mp hmem with hmem | hmem
      · exact hkept gone hmem
      · exact hother gone (List.mem_singleton.mp hmem).symm
    cases incident with
    | published call other =>
      obtain rfl := Option.some.inj h
      exact ⟨history, call, [], rfl, nofun⟩
    | parted => cases h
    | registered | opened | shown | rejected | answered => exact hearlier h nofun

/-! ## What a turn adds to it -/

theorem openedIn_registers (events : List OpenEvent) :
    openedIn (events.map fun child => .registered child none) = [] := by
  simp [openedIn, Incident.opens]

theorem handedIn_registers (events : List OpenEvent) :
    handedIn (events.map fun child => .registered child none) = [] := by
  simp [handedIn, Incident.hands]

theorem faithful_registers (events : List OpenEvent) :
    Faithful none (events.map fun child => .registered child none)
      ∧ connectionAfter none (events.map fun child => .registered child none) = none := by
  induction events with
  | nil => exact ⟨trivial, rfl⟩
  | cons event rest ih => exact ⟨⟨rfl, ih.1⟩, ih.2⟩

variable {shard : Shard} {call : Nat} {w : Cluster} {stage : CallStage}
variable {result : Cluster × CallStage × List Incident}

/-- The history goes along with the connection of the handle. -/
theorem Turned.follows (h : Turned shard call w stage result)
    (hslot : shard.handle < w.slots.length)
    (halone : stage.holds = true → w.connection? shard = none)
    (hown : ∀ ref heard left, stage = .showing ref heard left → ref.backend = shard.backend) :
    Faithful (w.connection? shard) result.2.2
      ∧ connectionAfter (w.connection? shard) result.2.2 = result.1.connection? shard := by
  cases h with
  | share connected => exact ⟨⟨connected, trivial⟩, rfl⟩
  | enter | pass | rest => exact ⟨trivial, rfl⟩
  | refuse undisturbed | opened undisturbed | dropped undisturbed =>
    exact ⟨⟨trivial, trivial⟩, undisturbed.connection?.symm⟩
  | parted undisturbed => exact ⟨trivial, undisturbed.connection?.symm⟩
  | publish =>
    rw [Cluster.connection?_publish hslot (hown _ _ _ rfl), halone rfl]
    exact ⟨⟨rfl, rfl, trivial⟩, rfl⟩
  | take => exact ⟨trivial, (Cluster.connection?_withEvents ..).symm⟩
  | @accept _ _ _ _ event _ _ undisturbed =>
    obtain ⟨hfaithful, hafter⟩ := faithful_registers event.registers
    rw [undisturbed.connection?, Cluster.connection?_withEvents, halone rfl]
    exact ⟨⟨trivial, hfaithful⟩, hafter⟩
  | @reject _ _ _ _ event _ _ _ undisturbed =>
    obtain ⟨hfaithful, hafter⟩ := faithful_registers event.registers
    rw [undisturbed.connection?, Cluster.connection?_withEvents, halone rfl]
    refine ⟨⟨trivial, ?_⟩, ?_⟩
    · exact faithful_append.mpr ⟨hfaithful, trivial, trivial⟩
    · exact (connectionAfter_append none _ [.rejected _]).trans
        (congrArg (connectionAfter · [.rejected _]) hafter)
  | part connected undisturbed =>
    rw [undisturbed.connection?, Cluster.connection?_unplug hslot, connected]
    exact ⟨⟨rfl, trivial⟩, rfl⟩

/-- A turn loses sight of no connection. -/
theorem Turned.accounts (h : Turned shard call w stage result)
    (hslot : shard.handle < w.slots.length)
    (halone : stage.holds = true → w.connection? shard = none)
    (hown : ∀ ref heard left, stage = .showing ref heard left → ref.backend = shard.backend) :
    ((w.connection? shard).toList ++ stage.setsUp.toList ++ openedIn result.2.2).Perm
      (handedIn result.2.2 ++ ((result.1.connection? shard).toList
        ++ result.2.1.setsUp.toList)) := by
  rw [← (h.follows hslot halone hown).2]
  cases h with
  | share | enter | refuse | dropped | pass | parted | rest | take =>
    simp [openedIn, handedIn, List.filterMap_cons, Incident.opens, Incident.hands,
      CallStage.setsUp, connectionAfter, Incident.follow]
  | opened | publish =>
    rw [halone rfl]
    exact .refl _
  | @accept _ ref _ _ event =>
    have hafter := (faithful_registers event.registers).2
    have hopened : openedIn (.shown ref event true :: _) = [] := openedIn_registers event.registers
    have hhanded : handedIn (.shown ref event true :: _) = [] := handedIn_registers event.registers
    have hnone : connectionAfter none (.shown ref event true :: _) = none := hafter
    dsimp only
    rw [halone rfl, hopened, hhanded, hnone]
    exact .refl _
  | @reject _ ref _ _ event =>
    have hafter := (faithful_registers event.registers).2
    have hopened : openedIn (.shown ref event false :: _) = [] := openedIn_registers event.registers
    have hhanded : handedIn (.shown ref event false :: _) = [] := handedIn_registers event.registers
    have hnone : connectionAfter none (.shown ref event false :: _) = none := hafter
    dsimp only
    rw [halone rfl, openedIn_append, handedIn_append, connectionAfter_append, hopened, hhanded,
      hnone]
    exact .refl _
  | part connected =>
    rw [connected]
    exact .refl _

/-- A turn opens no connection, or a new one. -/
theorem Turned.opens (h : Turned shard call w stage result) :
    openedIn result.2.2 = [] ∨
      ∃ ref, openedIn result.2.2 = [ref] ∧ ¬ w.IsOpened ref ∧ result.1.IsOpened ref := by
  cases h with
  | share | enter | refuse | publish | take | dropped | pass | part | parted | rest =>
    exact .inl rfl
  | opened _ _ new reached => exact .inr ⟨_, rfl, new, reached⟩
  | @accept _ _ _ _ event => exact .inl (openedIn_registers event.registers)
  | @reject _ _ _ _ event =>
    refine .inl ?_
    dsimp only
    rw [openedIn_append]
    exact congrArg (· ++ []) (openedIn_registers event.registers)

/-- An answer is the end of the call that gives it. -/
theorem Turned.answers (h : Turned shard call w stage result) {other : Nat}
    {answer : Except ShardError NativeRef} (hmem : .answered other answer ∈ result.2.2) :
    other = call ∧ result.2.1 = .established answer := by
  cases h with
  | enter | take | pass | parted | rest => cases hmem
  | share | refuse | dropped =>
    cases List.mem_singleton.mp hmem
    exact ⟨rfl, rfl⟩
  | opened | part => cases List.mem_singleton.mp hmem
  | publish =>
    rcases List.mem_cons.mp hmem with hmem | hmem
    · cases hmem
    · cases List.mem_singleton.mp hmem
      exact ⟨rfl, rfl⟩
  | accept => simp at hmem
  | reject => simp at hmem

/-- A call that is over has answered, now or before. -/
theorem Turned.ended (h : Turned shard call w stage result) {answer : Except ShardError NativeRef}
    (hended : result.2.1 = .established answer) :
    .answered call answer ∈ result.2.2 ∨ stage = .established answer := by
  cases h with
  | enter | take | pass | parted | opened | part | accept | reject => cases hended
  | share | refuse | dropped =>
    cases hended
    exact .inl (List.mem_singleton_self _)
  | publish =>
    cases hended
    exact .inl (List.mem_cons_of_mem _ (List.mem_singleton_self _))
  | rest => exact .inr hended

theorem Turned.publishes (h : Turned shard call w stage result) {other : Nat}
    (hmem : .published other ref ∈ result.2.2) :
    other = call ∧ result.2.1 = .established (.ok ref) := by
  cases h with
  | enter | take | pass | parted | rest => cases hmem
  | share | refuse | dropped | opened | part => cases List.mem_singleton.mp hmem
  | publish =>
    rcases List.mem_cons.mp hmem with hmem | hmem
    · cases hmem
      exact ⟨rfl, rfl⟩
    · cases List.mem_singleton.mp hmem
  | accept => simp at hmem
  | reject => simp at hmem

namespace Sharing

variable {s s' : Sharing}

namespace Arrived

variable {calls : List CallStage} {incidents : List Incident}

theorem follows (h : Arrived shard s w calls incidents) :
    Faithful (s.cluster.connection? shard) incidents
      ∧ connectionAfter (s.cluster.connection? shard) incidents
        = s.cluster.connection? shard := by
  cases h with
  | elsewhere | waits | leaves => exact ⟨trivial, rfl⟩
  | queued _ unconnected => exact ⟨⟨unconnected.symm, trivial⟩, rfl⟩
  | returned _ connected => exact ⟨⟨connected.symm, trivial⟩, rfl⟩
  | shared connected => exact ⟨⟨connected, trivial⟩, rfl⟩

/-- Without the lock no connection is opened, closed or set up. -/
theorem idle (h : Arrived shard s w calls incidents) :
    openedIn incidents = [] ∧ handedIn incidents = [] ∧ calls.filterMap CallStage.setsUp = [] := by
  cases h with
  | elsewhere | waits | leaves | queued | returned | shared => exact ⟨rfl, rfl, rfl⟩

theorem answers (h : Arrived shard s w calls incidents) {other : Nat}
    {answer : Except ShardError NativeRef} (hmem : .answered other answer ∈ incidents) :
    other = s.calls.length ∧ calls = [.established answer] := by
  cases h with
  | elsewhere | waits | leaves => cases hmem
  | queued | returned => cases List.mem_singleton.mp hmem
  | shared =>
    cases List.mem_singleton.mp hmem
    exact ⟨rfl, rfl⟩

theorem ended (h : Arrived shard s w calls incidents) {answer : Except ShardError NativeRef}
    (hmem : .established answer ∈ calls) : .answered s.calls.length answer ∈ incidents := by
  cases h with
  | elsewhere | queued | returned => cases hmem
  | waits | leaves => cases List.mem_singleton.mp hmem
  | shared =>
    cases List.mem_singleton.mp hmem
    exact List.mem_singleton_self _

theorem publishes (h : Arrived shard s w calls incidents) (other : Nat) (ref : NativeRef) :
    .published other ref ∉ incidents := by
  intro hmem
  cases h with
  | elsewhere | waits | leaves => cases hmem
  | queued | returned | shared => cases List.mem_singleton.mp hmem

theorem length_le (h : Arrived shard s w calls incidents) : calls.length ≤ 1 := by
  cases h with
  | elsewhere | queued | returned => exact Nat.zero_le _
  | waits | leaves | shared => exact Nat.le_refl _

end Arrived

/-! ## The ledger of connections -/

/-- The connections in somebody's hands: that of the handle, and those that are being set up. -/
def owned (shard : Shard) (s : Sharing) : List NativeRef :=
  (s.cluster.connection? shard).toList ++ s.calls.filterMap CallStage.setsUp

/-- Every connection that was opened is accounted for, and every answer goes together with the
connection of its time. -/
structure Ledger (shard : Shard) (s : Sharing) : Prop extends Governed shard s where
  accounted : (openedIn s.history).Perm (handedIn s.history ++ s.owned shard)
  distinct : (openedIn s.history).Nodup
  reached : ∀ ref ∈ openedIn s.history, s.cluster.IsOpened ref
  faithful : Faithful none s.history
  current : connectionAfter none s.history = s.cluster.connection? shard
  ended : ∀ call answer, .answered call answer ∈ s.history ↔
    s.calls[call]? = some (.established answer)
  publisher : ∀ call ref, .published call ref ∈ s.history →
    s.calls[call]? = some (.established (.ok ref))

end Sharing

theorem CallStage.setsUp_of_free {stage : CallStage} (h : stage.holds = false) :
    stage.setsUp = none := by
  cases stage with
  | showing => cases h
  | waiting | opening | dropping | established | leaving | parting | closed => rfl

theorem flatMap_of_alone {α β : Type} {f : α → List β} {l : List α} {i : Nat} {a : α}
    (hfound : l[i]? = some a) (h : ∀ (j : Nat) b, l[j]? = some b → j ≠ i → f b = []) :
    l.flatMap f = f a := by
  induction l generalizing i with
  | nil => cases hfound
  | cons head rest ih =>
    rw [List.flatMap_cons]
    cases i with
    | zero =>
      obtain rfl := Option.some.inj hfound
      have hrest : rest.flatMap f = [] := by
        refine List.flatMap_eq_nil_iff.mpr fun b hb => ?_
        obtain ⟨j, hj⟩ := List.mem_iff_getElem?.mp hb
        exact h (j + 1) b hj (Nat.succ_ne_zero j)
      rw [hrest, List.append_nil]
    | succ i =>
      rw [h 0 head rfl (Nat.succ_ne_zero i).symm, List.nil_append]
      exact ih hfound fun j b hb hne => h (j + 1) b hb fun heq => hne (Nat.succ.inj heq)

theorem filterMap_of_alone {α β : Type} {f : α → Option β} {l : List α} {i : Nat} {a : α}
    (hfound : l[i]? = some a) (h : ∀ (j : Nat) b, l[j]? = some b → j ≠ i → f b = none) :
    l.filterMap f = (f a).toList := by
  rw [List.filterMap_eq_flatMap_toList]
  exact flatMap_of_alone hfound fun j b hj hne => congrArg Option.toList (h j b hj hne)

namespace Sharing

variable {s s' : Sharing}

namespace Ledger

theorem start (hslot : w.slots[shard.handle]? = some ⟨none, []⟩)
    (hbackend : shard.backend < w.backends.length) : Ledger shard (Sharing.start w) := by
  have hnone : w.connection? shard = none := by
    rw [Cluster.connection?, Cluster.slot, List.getD_eq_getElem?_getD, hslot]
    rfl
  have howned : (Sharing.start w).owned shard = [] := by
    rw [owned, Sharing.start, hnone]
    rfl
  exact
    { toGoverned := .start (List.getElem?_eq_some_iff.mp hslot).1 hbackend
      accounted := howned ▸ .refl _
      distinct := List.nodup_nil
      reached := fun _ hmem => absurd hmem List.not_mem_nil
      faithful := trivial
      current := hnone.symm
      ended := fun call answer => ⟨fun hmem => absurd hmem List.not_mem_nil, fun hfound => by
        rw [Sharing.start, List.getElem?_nil] at hfound
        cases hfound⟩
      publisher := fun _ _ hmem => absurd hmem List.not_mem_nil }

theorem arrived {calls : List CallStage} {incidents : List Incident} (h : Ledger shard s)
    (harrived : Arrived shard s w calls incidents) : Ledger shard (s.arrive w calls incidents) := by
  obtain ⟨hfaithful, hafter⟩ := harrived.follows
  obtain ⟨hopened, hhanded, hcalls⟩ := harrived.idle
  have hopenedIn : openedIn (s.history ++ incidents) = openedIn s.history := by
    rw [openedIn_append, hopened, List.append_nil]
  have hold : ∀ (call : Nat) stage, s.calls[call]? = some stage →
      (s.calls ++ calls)[call]? = some stage := fun call stage hfound => by
    rw [List.getElem?_append_left (List.getElem?_eq_some_iff.mp hfound).1, hfound]
  exact
    { toGoverned := h.toGoverned.arrived harrived
      accounted := by
        have howned : (s.arrive w calls incidents).owned shard = s.owned shard := by
          rw [owned, arrive, harrived.connection?, List.filterMap_append, hcalls, List.append_nil,
            owned]
        rw [howned, arrive, hopenedIn, handedIn_append, hhanded, List.append_nil]
        exact h.accounted
      distinct := hopenedIn ▸ h.distinct
      reached := fun ref hmem =>
        harrived.grows.isOpened (h.reached ref (hopenedIn ▸ hmem))
      faithful := faithful_append.mpr ⟨h.faithful, h.current ▸ hfaithful⟩
      current := by
        rw [arrive, connectionAfter_append, h.current, hafter, harrived.connection?]
      ended := fun call answer => by
        refine ⟨fun hmem => ?_, fun hfound => ?_⟩
        · rcases List.mem_append.mp hmem with hmem | hmem
          · exact hold call _ ((h.ended call answer).mp hmem)
          · obtain ⟨rfl, rfl⟩ := harrived.answers hmem
            exact List.getElem?_concat_length
        · have hlt : call < (s.calls ++ calls).length := (List.getElem?_eq_some_iff.mp hfound).1
          rcases getElem?_append_cases hfound with hfound | ⟨hge, hnew⟩
          · exact List.mem_append_left _ ((h.ended call answer).mpr hfound)
          · have hlast : call = s.calls.length := by
              have hone := harrived.length_le
              rw [List.length_append] at hlt
              omega
            exact List.mem_append_right _ (hlast ▸ harrived.ended hnew)
      publisher := fun call ref hmem => by
        rcases List.mem_append.mp hmem with hmem | hmem
        · exact hold call _ (h.publisher call ref hmem)
        · exact absurd hmem (harrived.publishes call ref) }

/-- While a call takes its turn, the others set nothing up. -/
theorem owned_of_ready (h : Ledger shard s) (hready : s.Ready call stage) :
    s.owned shard = (s.cluster.connection? shard).toList ++ stage.setsUp.toList := by
  rw [owned, filterMap_of_alone hready.found fun other stage' hfound hne =>
    CallStage.setsUp_of_free (h.others hready hfound hne)]

theorem owned_advance (h : Ledger shard s) (hready : s.Ready call stage) :
    (s.advance shard call stage).owned shard =
      ((stage.turn shard call s.cluster).1.connection? shard).toList
        ++ (stage.turn shard call s.cluster).2.1.setsUp.toList := by
  have hlt : call < s.calls.length := (List.getElem?_eq_some_iff.mp hready.found).1
  have hself : (s.calls.set call (stage.turn shard call s.cluster).2.1)[call]?
      = some (stage.turn shard call s.cluster).2.1 := List.getElem?_set_self hlt
  have hsetsUp := filterMap_of_alone (f := CallStage.setsUp) hself fun other stage' hfound hne => by
    rcases getElem?_set_cases hfound with ⟨heq, -⟩ | ⟨-, hfound⟩
    · exact absurd heq hne
    · exact CallStage.setsUp_of_free (h.others hready hfound hne)
  rw [owned, ← hsetsUp]
  rfl

theorem advance (h : Ledger shard s) (hready : s.Ready call stage) :
    Ledger shard (s.advance shard call stage) := by
  have hturned := h.turned call stage
  have hgrows := hturned.grows
  obtain ⟨hfaithful, hafter⟩ :=
    hturned.follows h.slot (h.unconnected hready) (h.own_of_ready hready)
  have haccounts := hturned.accounts h.slot (h.unconnected hready) (h.own_of_ready hready)
  have howned := h.owned_of_ready hready
  have howned' := h.owned_advance hready
  have hlt : call < s.calls.length := (List.getElem?_eq_some_iff.mp hready.found).1
  -- A call that was over before stays where it is.
  have hstays : ∀ (other : Nat) answer, s.calls[other]? = some (.established answer) →
      (s.calls.set call (stage.turn shard call s.cluster).2.1)[other]?
        = some (.established answer) := by
    intro other answer hfound
    by_cases heq : other = call
    · subst heq
      obtain rfl := Option.some.inj (hready.found.symm.trans hfound)
      rw [List.getElem?_set_self hlt]
      rfl
    · rw [List.getElem?_set_ne (Ne.symm heq), hfound]
  exact
    { toGoverned := h.toGoverned.advance hready
      accounted := by
        rw [howned', Sharing.advance, openedIn_append, handedIn_append, List.append_assoc]
        refine (h.accounted.append_right _).trans ?_
        rw [howned, List.append_assoc]
        exact haccounts.append_left _
      distinct := by
        rw [Sharing.advance, openedIn_append]
        rcases hturned.opens with hnone | ⟨ref, hone, hnew, -⟩
        · rw [hnone, List.append_nil]
          exact h.distinct
        · rw [hone]
          refine List.nodup_append.mpr ⟨h.distinct, List.nodup_singleton ref, ?_⟩
          rintro other hother _ hmem rfl
          obtain rfl := List.mem_singleton.mp hmem
          exact hnew (h.reached other hother)
      reached := fun ref hmem => by
        rw [Sharing.advance, openedIn_append] at hmem
        rcases List.mem_append.mp hmem with hold | hnew
        · exact hgrows.isOpened (h.reached ref hold)
        · rcases hturned.opens with hnone | ⟨opened, hone, -, hreached⟩
          · rw [hnone] at hnew
            cases hnew
          · rw [hone] at hnew
            exact List.mem_singleton.mp hnew ▸ hreached
      faithful := by
        rw [Sharing.advance, faithful_append, h.current]
        exact ⟨h.faithful, hfaithful⟩
      current := by
        rw [Sharing.advance, connectionAfter_append, h.current, hafter]
      ended := fun other answer => by
        refine ⟨fun hmem => ?_, fun hfound => ?_⟩
        · rcases List.mem_append.mp hmem with hmem | hmem
          · exact hstays other answer ((h.ended other answer).mp hmem)
          · obtain ⟨rfl, hended⟩ := hturned.answers hmem
            exact (List.getElem?_set_self hlt).trans (congrArg some hended)
        · rcases getElem?_set_cases hfound with ⟨rfl, hended⟩ | ⟨-, hfound⟩
          · rcases hturned.ended hended.symm with hnow | rfl
            · exact List.mem_append_right _ hnow
            · exact List.mem_append_left _ ((h.ended other answer).mpr hready.found)
          · exact List.mem_append_left _ ((h.ended other answer).mpr hfound)
      publisher := fun other ref hmem => by
        rcases List.mem_append.mp hmem with hmem | hmem
        · exact hstays other _ (h.publisher other ref hmem)
        · obtain ⟨rfl, hended⟩ := hturned.publishes hmem
          exact (List.getElem?_set_self hlt).trans (congrArg some hended) }

theorem step (h : Ledger shard s) (hstep : Step shard s s') : Ledger shard s' := by
  rcases hstep.cases with ⟨w, calls, incidents, harrived, rfl⟩ | ⟨call, stage, hready, rfl⟩
  · exact h.arrived harrived
  · exact h.advance hready

theorem reaches (h : Ledger shard s) (hreaches : Reaches shard s s') : Ledger shard s' := by
  induction hreaches with
  | refl => exact h
  | tail _ hstep ih => exact ih.step hstep

/-- Never more than one connection is in somebody's hands. -/
theorem length_owned (h : Ledger shard s) : (s.owned shard).length ≤ 1 := by
  by_cases hholder : ∃ (call : Nat) (stage : CallStage),
      s.calls[call]? = some stage ∧ stage.holds = true
  · obtain ⟨call, stage, hfound, hholds⟩ := hholder
    rw [h.owned_of_ready ⟨hfound, .inl hholds⟩, (h.holder call stage hfound hholds).2]
    exact Option.length_toList_le
  · have hnone : s.calls.filterMap CallStage.setsUp = [] := by
      refine List.filterMap_eq_nil_iff.mpr fun stage hmem => CallStage.setsUp_of_free ?_
      obtain ⟨call, hfound⟩ := List.mem_iff_getElem?.mp hmem
      exact Bool.eq_false_iff.mpr fun hholds => hholder ⟨call, stage, hfound, hholds⟩
    rw [owned, hnone, List.append_nil]
    exact Option.length_toList_le

/-- Without a close in between, two calls answer with the same connection. -/
theorem same_connection (h : Ledger shard s) {before between after : List Incident}
    {one two : Nat} {ref ref' : NativeRef}
    (hhistory : s.history = before ++ .answered one (.ok ref) :: between
      ++ .answered two (.ok ref') :: after)
    (hkept : ∀ gone, .parted gone ∉ between) : ref = ref' := by
  have hfaithful := h.faithful
  rw [hhistory, List.append_assoc, faithful_append, List.cons_append, Faithful,
    faithful_append] at hfaithful
  obtain ⟨-, hone, hbetween, htwo, -⟩ := hfaithful
  have hone : connectionAfter none before = some ref := hone
  have hfollow : Incident.follow (connectionAfter none before) (.answered one (.ok ref))
      = some ref := hone
  rw [hfollow] at hbetween htwo
  have htwo : connectionAfter (some ref) between = some ref' := htwo
  rw [hbetween.keeps hkept] at htwo
  exact Option.some.inj htwo

/-- A call that fails published nothing. -/
theorem not_published (h : Ledger shard s) {e : ShardError}
    (hfailed : .answered call (.error e) ∈ s.history) (ref : NativeRef) :
    .published call ref ∉ s.history := by
  intro hpublished
  have hfound := (h.ended call _).mp hfailed
  rw [h.publisher call ref hpublished] at hfound
  cases hfound

/-- While a call has the lock, no other call has it. -/
theorem holder_unique (h : Ledger shard s) {one two : Nat} {stage stage' : CallStage}
    (hone : s.calls[one]? = some stage) (hholds : stage.holds = true)
    (htwo : s.calls[two]? = some stage') (hholds' : stage'.holds = true) : one = two :=
  Option.some.inj
    ((h.holder one stage hone hholds).1.symm.trans (h.holder two stage' htwo hholds').1)

end Ledger

/-- However many calls connect and close a handle, however they are interleaved and whatever fails:
of the connections opened for the handle, all but at most one were handed to their close, and that
one is being set up or is the handle's; at most one call has the lock, and the handle has no
connection meanwhile. Without a close in between, all calls answer with the same connection; a call
that fails published none. A call that nobody interrupts is `establish` or `closeShard`. -/
theorem one_connection (hslot : w.slots[shard.handle]? = some ⟨none, []⟩)
    (hbackend : shard.backend < w.backends.length) (h : Reaches shard (Sharing.start w) s) :
    ((openedIn s.history).Nodup
      ∧ (openedIn s.history).Perm (handedIn s.history ++ s.owned shard)
      ∧ (s.owned shard).length ≤ 1)
    ∧ (∀ (call : Nat) stage, s.calls[call]? = some stage → stage.holds = true →
      s.cluster.connection? shard = none ∧ ∀ (other : Nat) stage',
        s.calls[other]? = some stage' → stage'.holds = true → call = other)
    ∧ (∀ call answer, .answered call answer ∈ s.history ↔
      s.calls[call]? = some (.established answer))
    ∧ (∀ before one ref between two ref' after,
      s.history = before ++ .answered one (.ok ref) :: between
        ++ .answered two (.ok ref') :: after →
      (∀ gone, .parted gone ∉ between) → ref = ref')
    ∧ (∀ (call : Nat) e, s.calls[call]? = some (.established (.error e)) →
      ∀ ref, .published call ref ∉ s.history)
    ∧ (s.lock = none →
      (∃ s', Reaches shard s s' ∧ s'.cluster = (s.cluster.establish shard).2 ∧ s'.lock = none
        ∧ s'.calls = s.calls ++ [.established (s.cluster.establish shard).1])
      ∧ ∃ s', Reaches shard s s' ∧ s'.cluster = (s.cluster.closeShard shard).2 ∧ s'.lock = none
        ∧ s'.calls = s.calls ++ [.closed (s.cluster.closeShard shard).1]) := by
  have hledger : Ledger shard s := (Ledger.start hslot hbackend).reaches h
  refine ⟨⟨hledger.distinct, hledger.accounted, hledger.length_owned⟩,
    fun call stage hfound hholds => ?_, hledger.ended, ?_, fun call e hfound ref => ?_,
    fun hfree => ⟨hledger.establish_alone hfree, closeShard_alone shard hfree⟩⟩
  · exact ⟨(hledger.holder call stage hfound hholds).2, fun other stage' hother hholds' =>
      hledger.holder_unique hfound hholds hother hholds'⟩
  · exact fun before one ref between two ref' after hhistory hkept =>
      hledger.same_connection hhistory hkept
  · exact hledger.not_published ((hledger.ended call _).mpr hfound) ref

/-- A handle, and a cluster of one backend that knows it. -/
def soleShard : Shard :=
  ⟨0, .ofNat 0, .ofList [.ofNat 0], 0⟩

def soleCluster : Cluster :=
  { Cluster.ofBackends 1 with slots := [⟨none, []⟩] }

/-- Two calls connect the handle while a third waits to close it, and the first has opened a
connection. -/
def contended : Sharing :=
  let waiting := ((start soleCluster).connect soleShard).connect soleShard
  let all : Sharing := { waiting with calls := waiting.calls ++ [.leaving] }
  (all.advance soleShard 0 .waiting).advance soleShard 0 .opening

/-- The second call shares the connection of the first, and then the third takes it away. -/
def parted : Sharing :=
  ((contended.advance soleShard 0 (.showing ⟨0, 0⟩ [] [])).advance soleShard 1 .waiting).advance
    soleShard 2 .leaving

theorem parted_reaches : Reaches soleShard (start soleCluster) parted := by
  have hconnect : Reaches soleShard (start soleCluster) ((start soleCluster).connect soleShard) :=
    .single .connect
  have hwaiting : Reaches soleShard (start soleCluster) _ :=
    (hconnect.tail .connect).tail .disconnect
  have hcontended : Reaches soleShard (start soleCluster) contended :=
    (hwaiting.advance 0 .waiting rfl (.inr rfl)).advance 0 .opening rfl (.inl rfl)
  exact ((hcontended.advance 0 (.showing ⟨0, 0⟩ [] []) rfl (.inl rfl)).advance 1 .waiting rfl
    (.inr rfl)).advance 2 .leaving rfl (.inr rfl)

theorem one_connection_parted :
    Reaches soleShard (start soleCluster) parted
      ∧ parted.history = [.opened ⟨0, 0⟩, .published 0 ⟨0, 0⟩, .answered 0 (.ok ⟨0, 0⟩),
        .answered 1 (.ok ⟨0, 0⟩), .parted ⟨0, 0⟩]
      ∧ (openedIn parted.history).Perm (handedIn parted.history ++ parted.owned soleShard)
      ∧ (parted.owned soleShard).length ≤ 1 := by
  obtain ⟨⟨-, haccounted, hone⟩, -⟩ := one_connection rfl Nat.zero_lt_one parted_reaches
  exact ⟨parted_reaches, rfl, haccounted, hone⟩

end Sharing

end ScatterGather
