import ScatterGather.Proofs.Cluster.Turns
import ScatterGather.Proofs.Session.Run

/-!
# What a failed begin takes back

A begin that fails on some shards rolls back every member that reports itself active, and a connection
that could not join late is treated alike. For an idle member that is no more than what was begun. But
a member may have been active before, for another transaction over the same shard: its own begin is
refused for that reason, and then the work of the other transaction is rolled back with the rest.
-/

namespace ScatterGather.Cluster

variable {w w' w₁ : Cluster} {tx : Nat} {ref : NativeRef} {members : List Enlisted}

/-! ## One local transaction -/

/-- What is left of a local transaction that was not begun: an idle one is as it was, and an active
one lost what it had staged, unless its rollback failed. -/
structure Rebuffed (ref : NativeRef) (w w' : Cluster) : Prop where
  idle : (w.native ref).isActive = false → (w'.native ref).phase = (w.native ref).phase
    ∧ (w'.native ref).staged = (w.native ref).staged
  active : (w.native ref).isActive = true →
    ((w'.native ref).phase = .rolledBack ∧ (w'.native ref).staged = ∅) ∨
    w.armed .rollingBack ref.backend = true ∧ (w'.native ref).phase = (w.native ref).phase
      ∧ (w'.native ref).staged = (w.native ref).staged

/-- What is left of a local transaction that was begun in vain: nothing of it is active or staged,
unless its rollback failed. -/
def TakenBack (ref : NativeRef) (w w' : Cluster) : Prop :=
  (w'.native ref).staged = ∅ ∧ ((w'.native ref).phase = .rolledBack ∨
    w.armed .rollingBack ref.backend = true ∧ (w'.native ref).phase = .active)

/-- A local transaction that is rolled back if it is active, be that asked for or not; where it was
asked for, only a fault keeps it active. -/
def Cleared (asked : Prop) (ref : NativeRef) (w w' : Cluster) : Prop :=
  (w'.native ref = w.native ref
    ∧ (asked → (w.native ref).isActive = true → w.armed .rollingBack ref.backend = true)) ∨
  (w.native ref).isActive = true
    ∧ w'.native ref = { w.native ref with phase := .rolledBack, staged := ∅ }

namespace Cleared

variable {asked askedLater : Prop}

theorem mono (h : Cleared asked ref w w') (himp : askedLater → asked) :
    Cleared askedLater ref w w' := by
  rcases h with ⟨hkept, hfault⟩ | hcleared
  · exact .inl ⟨hkept, fun hasked => hfault (himp hasked)⟩
  · exact .inr hcleared

theorem trans {refs : List NativeRef} (h : Cleared asked ref w w₁) (hwithin : Within refs w w₁)
    (h' : Cleared askedLater ref w₁ w') : Cleared (asked ∨ askedLater) ref w w' := by
  rcases h with ⟨hkept, hfault⟩ | ⟨hactive, hcleared⟩
  · rw [Cleared, hkept] at h'
    rcases h' with ⟨hagain, hlater⟩ | hcleared
    · refine .inl ⟨hagain, fun hasked hactive => ?_⟩
      rcases hasked with hasked | hasked
      · exact hfault hasked hactive
      · exact hwithin.armed _ _ (hlater hasked hactive)
    · exact .inr hcleared
  · rcases h' with ⟨hkept, -⟩ | ⟨hagain, -⟩
    · exact .inr ⟨hactive, hkept.trans hcleared⟩
    · rw [hcleared] at hagain
      cases hagain

theorem rebuffed {refs : List NativeRef} (hwithin : Within refs w w₁)
    (hphase : (w₁.native ref).phase = (w.native ref).phase)
    (hstaged : (w₁.native ref).staged = (w.native ref).staged)
    (h : Cleared True ref w₁ w') : Rebuffed ref w w' := by
  have hactive : (w₁.native ref).isActive = (w.native ref).isActive := by
    rw [Connection.isActive, hphase, Connection.isActive]
  rcases h with ⟨hkept, hfault⟩ | ⟨hlive, hcleared⟩
  · rw [← hkept] at hphase hstaged
    refine ⟨fun _ => ⟨hphase, hstaged⟩, fun hlive => .inr ⟨?_, hphase, hstaged⟩⟩
    exact hwithin.armed _ _ (hfault trivial (hactive.trans hlive))
  · rw [hactive] at hlive
    refine ⟨fun hidle => ?_, fun _ => .inl ?_⟩
    · rw [hlive] at hidle
      cases hidle
    · rw [hcleared]
      exact ⟨rfl, rfl⟩

theorem takenBack {refs : List NativeRef} (hwithin : Within refs w w₁)
    (hactive : (w₁.native ref).isActive = true) (hstaged : (w₁.native ref).staged = ∅)
    (h : Cleared True ref w₁ w') : TakenBack ref w w' := by
  rcases h with ⟨hkept, hfault⟩ | ⟨-, hcleared⟩
  · rw [TakenBack, hkept]
    exact ⟨hstaged, .inr ⟨hwithin.armed _ _ (hfault trivial hactive), of_decide_eq_true hactive⟩⟩
  · rw [TakenBack, hcleared]
    exact ⟨rfl, .inl rfl⟩

end Cleared

/-- The rollback of an active transaction either goes through or is refused by a fault. -/
theorem rollbackNative_cleared (hactive : (w.native ref).isActive = true) (other : NativeRef) :
    Within [ref] w (w.rollbackNative ref).2
      ∧ Cleared (other = ref) other w (w.rollbackNative ref).2 := by
  have hothers : ∀ {w' : Cluster}, Within [ref] w w' → other ≠ ref →
      Cleared (other = ref) other w w' := by
    intro w' hwithin hne
    exact .inl ⟨hwithin.others other (by simpa using hne), fun heq => absurd heq hne⟩
  rcases w.rollbackNative_cases ref with
    ⟨reason, w₁, hrollback, hfault, hwithin, -⟩ | ⟨w₁, hrollback, hwithin, -, hnative⟩
  · rw [hrollback]
    have hkept := hwithin.others ref List.not_mem_nil
    have hwithin : Within [ref] w w₁ := hwithin.mono (List.nil_subset _)
    refine ⟨hwithin, ?_⟩
    by_cases heq : other = ref
    · subst heq
      exact .inl ⟨hkept, fun _ hactive => hfault (isOpened_of_active hactive)⟩
    · exact hothers hwithin heq
  · rw [hrollback]
    refine ⟨hwithin, ?_⟩
    by_cases heq : other = ref
    · subst heq
      rw [if_pos hactive] at hnative
      exact .inr ⟨hactive, hnative⟩
    · exact hothers hwithin heq

/-! ## The loops -/

/-- Compensation asks for the rollback of every member that is active. -/
theorem compensate_cleared (members : List Enlisted) (w : Cluster) (ref : NativeRef) :
    Cleared (ref ∈ members.map (·.native)) ref w (compensate members w) := by
  induction members generalizing w with
  | nil => exact .inl ⟨rfl, fun hmem => absurd hmem List.not_mem_nil⟩
  | cons e rest ih =>
    have hturn : ∃ w₁, Within [e.native] w w₁ ∧ Cleared (ref = e.native) ref w w₁
        ∧ compensate (e :: rest) w = compensate rest w₁ := by
      rw [compensate]
      by_cases hactive : (w.native e.native).isActive = true
      · rw [if_pos hactive]
        obtain ⟨hwithin, hcleared⟩ := rollbackNative_cleared hactive ref
        generalize w.rollbackNative e.native = undone at hwithin hcleared
        obtain ⟨answer, w₁⟩ := undone
        cases answer with
        | ok => exact ⟨w₁, hwithin, hcleared, rfl⟩
        | error reason => exact ⟨_, hwithin.report .., hcleared, rfl⟩
      · rw [if_neg hactive]
        refine ⟨w, .refl _ w, .inl ⟨rfl, fun heq hlive => ?_⟩, rfl⟩
        exact absurd (heq ▸ hlive) hactive
    obtain ⟨w₁, hwithin, hcleared, hrest⟩ := hturn
    rw [hrest]
    exact (hcleared.trans hwithin (ih w₁)).mono List.mem_cons.mp

/-- One turn of the begin loop: the member is begun, with nothing staged, or it is refused and all
local transactions are as far as they were. -/
theorem beginEach_turn (tx : Nat) (e : Enlisted) (w : Cluster) :
    let w₁ := (beginEach tx [e] w).2
    Within [e.native] w w₁ ∧
      ((askBegin tx e w = .ok () ∧ (w.native e.native).isActive = false
        ∧ (w₁.native e.native).isActive = true ∧ (w₁.native e.native).staged = ∅) ∨
      askBegin tx e w ≠ .ok () ∧ SameWork w w₁) := by
  have hpass := w.passTimeout_within tx e.native
  have hwork := (w.passTimeout_work tx e.native).sameWork rfl
  obtain ⟨hwithin, -⟩ := beginEach_spec tx [e] w
  refine ⟨hwithin, ?_⟩
  rcases beginEach_single tx e w with ⟨hask, hturn⟩ | ⟨reason, text, hask, hturn⟩
  · rw [hturn]
    rcases (w.passTimeout tx e.native).beginNative_cases e.native with
      ⟨reason, w₁, hbegin, -⟩ | ⟨w₁, hbegin, hidle, -, -, hnative⟩
    · rw [askBegin, hbegin] at hask
      cases hask
    · rw [hbegin]
      refine .inl ⟨hask, (hwork.isActive e.native).symm.trans hidle, ?_, ?_⟩
      · simp only [hnative]
        rfl
      · simp only [hnative]
  · rw [hturn]
    refine .inr ⟨fun hok => ?_, ?_⟩
    · rw [hask] at hok
      cases hok
    · rcases (w.passTimeout tx e.native).beginNative_cases e.native with
        ⟨reason', w₁, hbegin, hsame, -⟩ | ⟨w₁, hbegin, -⟩
      · rw [hbegin]
        refine hwork.trans fun ref => ?_
        rw [((hsame.report .warn text).others ref List.not_mem_nil)]
        exact ⟨rfl, rfl⟩
      · rw [askBegin, hbegin] at hask
        cases hask

/-- A local transaction for which no begin succeeds stays as far as it was. -/
theorem beginEach_unbegun (hnone : ∀ call ∈ beginCalls tx members w, call.member.native = ref →
      call.answer ≠ .ok ()) :
    ((beginEach tx members w).2.native ref).phase = (w.native ref).phase
      ∧ ((beginEach tx members w).2.native ref).staged = (w.native ref).staged := by
  induction members generalizing w with
  | nil => exact ⟨rfl, rfl⟩
  | cons e rest ih =>
    obtain ⟨hfirst, hnone⟩ := List.forall_mem_cons.mp hnone
    obtain ⟨hphase, hstaged⟩ := ih hnone
    obtain ⟨hwithin, ⟨hok, -⟩ | ⟨-, hwork⟩⟩ := beginEach_turn tx e w
    · have hne : ref ∉ [e.native] := by
        intro hmem
        exact hfirst (List.mem_singleton.mp hmem).symm hok
      rw [beginEach_cons, hphase, hstaged, hwithin.others ref hne]
      exact ⟨rfl, rfl⟩
    · rw [beginEach_cons]
      exact ⟨hphase.trans (hwork ref).1, hstaged.trans (hwork ref).2⟩

/-- A local transaction that was just begun is not begun again. -/
theorem beginEach_begun_before (hactive : (w.native ref).isActive = true)
    (hstaged : (w.native ref).staged = ∅) (members : List Enlisted) :
    ((beginEach tx members w).2.native ref).isActive = true
      ∧ ((beginEach tx members w).2.native ref).staged = ∅ := by
  induction members generalizing w with
  | nil => exact ⟨hactive, hstaged⟩
  | cons e rest ih =>
    rw [beginEach_cons]
    obtain ⟨hwithin, ⟨-, hidle, -⟩ | ⟨-, hwork⟩⟩ := beginEach_turn tx e w
    · have hne : ref ∉ [e.native] := by
        intro hmem
        rw [← List.mem_singleton.mp hmem, hactive] at hidle
        cases hidle
      have hsame := hwithin.others ref hne
      exact ih (hsame ▸ hactive) (hsame ▸ hstaged)
    · exact ih ((hwork.isActive ref).trans hactive) ((hwork ref).2.trans hstaged)

/-- A local transaction for which a begin succeeds is active after the loop, with nothing staged. -/
theorem beginEach_begun {call : Answered} (hcall : call ∈ beginCalls tx members w)
    (hok : call.answer = .ok ()) :
    ((beginEach tx members w).2.native call.member.native).isActive = true
      ∧ ((beginEach tx members w).2.native call.member.native).staged = ∅ := by
  induction members generalizing w with
  | nil => cases hcall
  | cons e rest ih =>
    rw [beginEach_cons]
    rcases List.mem_cons.mp hcall with rfl | hcall
    · obtain ⟨-, ⟨-, -, hactive, hstaged⟩ | ⟨hrefused, -⟩⟩ := beginEach_turn tx e w
      · exact beginEach_begun_before hactive hstaged rest
      · exact absurd hok hrefused
    · exact ih hcall

/-! ## Failed begins -/

/-- A connection that cannot join late is the only one that is touched, and it was not begun. -/
theorem joinLate_rebuffed {id : ShardId} {reason : ShardError}
    (h : (w.joinLate tx id ref).1 = .error reason) :
    (∀ other, other ≠ ref → (w.joinLate tx id ref).2.native other = w.native other)
      ∧ Rebuffed ref w (w.joinLate tx id ref).2 := by
  dsimp only [joinLate] at h ⊢
  split at h
  case isTrue => cases h
  case isFalse hnew =>
    rw [if_neg hnew]
    have hpass := w.settingUp_within tx id ref
    have hwork := (w.settingUp_work tx id ref).sameWork rfl
    generalize (report .debug ("setting up transaction on shard " ++ id.text) w).passTimeout tx ref
      = w₁ at h hpass hwork
    split at h
    case isFalse => cases h
    case isTrue hstatus =>
      rw [if_pos hstatus]
      rcases w₁.beginNative_cases ref with ⟨reason, w₂, hbegin, hwithin, -⟩ | ⟨w₂, hbegin, -⟩
      · rw [hbegin]
        dsimp only
        generalize hw₃ : report .warn ("exception starting late transaction on shard " ++ id.text
          ++ ": " ++ reason.message) w₂ = w₃
        have hsame : Within [] w₁ w₃ := hw₃ ▸ hwithin.report ..
        have hbefore : Within [ref] w w₃ := hpass.trans (hsame.mono (List.nil_subset _))
        have hturn : ∀ {w' : Cluster}, Within [ref] w₃ w' → Cleared True ref w₃ w' →
            (∀ other, other ≠ ref → w'.native other = w.native other) ∧ Rebuffed ref w w' := by
          intro w' hwithin hcleared
          refine ⟨fun other hne => (hbefore.trans hwithin).others other (by simpa using hne),
            hcleared.rebuffed hbefore ?_ ?_⟩
          · rw [hsame.others ref List.not_mem_nil]
            exact (hwork ref).1
          · rw [hsame.others ref List.not_mem_nil]
            exact (hwork ref).2
        split
        case isTrue hactive =>
          obtain ⟨hwithin, hcleared⟩ := rollbackNative_cleared hactive ref
          have hcleared : Cleared True ref w₃ _ := hcleared.mono fun _ => rfl
          generalize w₃.rollbackNative ref = undone at hwithin hcleared
          obtain ⟨answer, w₄⟩ := undone
          cases answer with
          | ok => exact hturn hwithin hcleared
          | error reason => exact hturn (hwithin.report ..) hcleared
        case isFalse hidle =>
          exact hturn (.refl _ w₃) (.inl ⟨rfl, fun _ hactive => absurd hactive hidle⟩)
      · rw [hbegin] at h
        cases h

/-- A begin that fails on some shards takes back what it began. No local transaction of another
connection is touched. Of the members for which a begin succeeded nothing is left, and those for which
none did are as far as they were, unless they are active: whatever reports itself active is rolled back,
also what was active before for another transaction. A connection that cannot join late is treated
alike. -/
theorem failed_begin_takes_back (w : Cluster) (tx : Nat) :
    (∀ failed source, (w.begin tx).1 = .error (.beginFailure failed source) →
      let calls := beginCalls tx (w.transaction tx).enlisted w
      let w' := (w.begin tx).2
      (∀ ref, ref ∉ w.natives tx → w'.native ref = w.native ref)
      ∧ (∀ call ∈ calls, call.answer = .ok () → TakenBack call.member.native w w')
      ∧ ∀ ref ∈ w.natives tx, (∀ call ∈ calls, call.member.native = ref → call.answer ≠ .ok ()) →
        Rebuffed ref w w')
    ∧ ∀ id ref reason, (w.joinLate tx id ref).1 = .error reason →
      (∀ other, other ≠ ref → (w.joinLate tx id ref).2.native other = w.native other)
      ∧ Rebuffed ref w (w.joinLate tx id ref).2 := by
  refine ⟨?_, fun id ref reason => joinLate_rebuffed⟩
  intro failed source hfailed calls w'
  have hcreated : (w.transaction tx).status = .created := by
    cases hstatus : (w.transaction tx).status with
    | created => rfl
    | active | committed | failedCommit | rolledBack =>
      simp only [begin, hstatus] at hfailed
      cases hfailed
  rcases begin_created hcreated with ⟨-, text, hbegin⟩ | ⟨first, others, -, hbegin⟩
  · rw [hbegin] at hfailed
    cases hfailed
  have hstate : w' = compensate (w.transaction tx).enlisted
      (beginEach tx (w.transaction tx).enlisted w).2 := congrArg Prod.snd hbegin
  obtain ⟨hloop, -⟩ := beginEach_spec tx (w.transaction tx).enlisted w
  have hundo := compensate_within (w.transaction tx).enlisted
    (beginEach tx (w.transaction tx).enlisted w).2
  have hcleared : ∀ ref ∈ w.natives tx,
      Cleared True ref (beginEach tx (w.transaction tx).enlisted w).2 w' := by
    intro ref hmem
    rw [hstate]
    exact (compensate_cleared _ _ ref).mono fun _ => hmem
  refine ⟨fun ref hnotin => ?_, fun call hcall hok => ?_, fun ref hmem hnone => ?_⟩
  · rw [hstate]
    exact (hloop.trans hundo).others ref hnotin
  · obtain ⟨hactive, hstaged⟩ := beginEach_begun hcall hok
    have hmem : call.member.native ∈ w.natives tx := by
      rw [natives, ← beginCalls_members tx (w.transaction tx).enlisted w, List.map_map]
      exact List.mem_map_of_mem hcall
    exact (hcleared _ hmem).takenBack hloop hactive hstaged
  · obtain ⟨hphase, hstaged⟩ := beginEach_unbegun hnone
    exact (hcleared ref hmem).rebuffed hloop hphase hstaged

/-- Two shards, of which the second refuses its begin: what was begun on the first is taken back, and
the second is as it was. So is a connection that is opened later and refuses its begin. -/
theorem failed_begin_takes_back_faults :
    let factory : SessionFactory :=
      ⟨[⟨.ofNat 0, .ofList [.ofNat 0], 0⟩, ⟨.ofNat 1, .ofList [.ofNat 1], 1⟩], .default, none⟩
    let fresh := ((ofBackends 2).openSession factory).2
    let w := fresh.run 0 [.establish 0, .establish 1, .transaction, .arm 1 .beginning]
    let late := ((fresh.run 0 [.beginTransaction, .arm 0 .beginning]).callBackend 0
      Backend.openConnection).2
    (w.begin 0).1 = .error (.beginFailure [.ofNat 1] (some "Injected fault on begin"))
      ∧ TakenBack ⟨0, 0⟩ w (w.begin 0).2 ∧ Rebuffed ⟨1, 0⟩ w (w.begin 0).2
      ∧ (late.joinLate 0 (.ofNat 0) ⟨0, 0⟩).1
        = .error (.beginFailure [.ofNat 0] (some "Injected fault on begin"))
      ∧ Rebuffed ⟨0, 0⟩ late (late.joinLate 0 (.ofNat 0) ⟨0, 0⟩).2 := by
  intro factory fresh w late
  have hfailed : (w.begin 0).1
      = .error (.beginFailure [.ofNat 1] (some "Injected fault on begin")) := by decide +kernel
  have hlate : (late.joinLate 0 (.ofNat 0) ⟨0, 0⟩).1
      = .error (.beginFailure [.ofNat 0] (some "Injected fault on begin")) := by decide +kernel
  obtain ⟨hbegin, -⟩ := failed_begin_takes_back w 0
  obtain ⟨-, hjoin⟩ := failed_begin_takes_back late 0
  obtain ⟨-, htaken, hrebuffed⟩ := hbegin _ _ hfailed
  have hfirst : (beginCalls 0 (w.transaction 0).enlisted w)[0]?.map (fun call =>
      (call.member.native, call.answer)) = some (⟨0, 0⟩, .ok ()) := by decide +kernel
  obtain ⟨call, hcall, hanswer⟩ := Option.map_eq_some_iff.mp hfirst
  obtain ⟨hnative, hok⟩ := Prod.mk.inj hanswer
  have hnone : ∀ call ∈ beginCalls 0 (w.transaction 0).enlisted w,
      call.member.native = ⟨1, 0⟩ → call.answer ≠ .ok () := by decide +kernel
  refine ⟨hfailed, hnative ▸ htaken call (List.mem_of_getElem? hcall) hok,
    hrebuffed ⟨1, 0⟩ (by decide +kernel) hnone, hlate, (hjoin _ _ _ hlate).2⟩

/-- A second transaction over a shard on which a first one is active cannot begin, and the writes that
the first one had staged are lost by that: a local transaction whose own begin was refused does not
always keep its status and its staged writes. -/
theorem failed_begin_clears_active :
    let factory : SessionFactory := ⟨[⟨.ofNat 0, .ofList [.ofNat 0], 0⟩], .default, none⟩
    let begun := ((ofBackends 1).openSession factory).2.run 0
      [.establish 0, .beginTransaction, .write 0 "k" (some (.string "v"))]
    let w := (begun.newTransaction (begun.session 0).shards).2
    let calls := beginCalls 1 (w.transaction 1).enlisted w
    let w' := (w.begin 1).2
    (w.transaction 0).status = .active ∧ (w.native ⟨0, 0⟩).phase = .active
      ∧ (w.native ⟨0, 0⟩).staged.get? "k" = some (some (.string "v"))
      ∧ (w.begin 1).1 = .error (.beginFailure [.ofNat 0] (some "Transaction already active"))
      ∧ calls.map (fun call => (call.member.native, call.answer)) = [(⟨0, 0⟩, .error .alreadyActive)]
      ∧ (w'.native ⟨0, 0⟩).phase = .rolledBack ∧ (w'.native ⟨0, 0⟩).staged.get? "k" = none
      ∧ ¬ ∀ failed source, (w.begin 1).1 = .error (.beginFailure failed source) →
        ∀ call ∈ calls, ∀ reason, call.answer = .error reason →
          (w'.native call.member.native).phase = (w.native call.member.native).phase
            ∧ (w'.native call.member.native).staged = (w.native call.member.native).staged := by
  intro factory begun w calls w'
  have hfailed : (w.begin 1).1
      = .error (.beginFailure [.ofNat 0] (some "Transaction already active")) := by decide +kernel
  have hcalls : calls.map (fun call => (call.member.native, call.answer))
      = [(⟨0, 0⟩, .error .alreadyActive)] := by decide +kernel
  have hbefore : (w.native ⟨0, 0⟩).phase = .active := by decide +kernel
  have hafter : (w'.native ⟨0, 0⟩).phase = .rolledBack := by decide +kernel
  refine ⟨by decide +kernel, hbefore, by decide +kernel, hfailed, hcalls, hafter, by decide +kernel,
    fun hkept => ?_⟩
  obtain ⟨call, hcall, hanswer⟩ := List.mem_map.mp (hcalls ▸ List.mem_singleton_self _)
  obtain ⟨hnative, hrefused⟩ := Prod.mk.inj hanswer
  obtain ⟨hphase, -⟩ := hkept _ _ hfailed call hcall _ hrefused
  rw [hnative, hafter, hbefore] at hphase
  cases hphase

end ScatterGather.Cluster
