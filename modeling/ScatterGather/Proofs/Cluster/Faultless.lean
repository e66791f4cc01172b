import ScatterGather.Proofs.Session.Opening

/-!
# Calls that no backend refuses

Where no fault is armed, a call of a backend is refused only for what its connection is: not open yet,
closed, or with a transaction at the wrong stage. So a begin, a commit or a connection that is shown to
transactions goes well as soon as the connections in question are ready for it.
-/

namespace ScatterGather.Cluster

variable {w w' : Cluster} {session : Session} {shard : Shard} {ref : NativeRef} {tx : Nat}

/-- No call is about to fail. -/
def Faultless (w : Cluster) : Prop :=
  ∀ i call, (w.backend i).faults.isArmed call = false

/-- Where nothing was armed on the way, nothing is armed at the end. -/
theorem Faultless.of_armed (h : w.Faultless) (harmed : ∀ i call,
    (w'.backend i).faults.isArmed call = true → (w.backend i).faults.isArmed call = true) :
    w'.Faultless := by
  intro i call
  refine Bool.eq_false_iff.mpr ?_
  intro hfault
  have hbefore := harmed i call hfault
  rw [h i call] at hbefore
  cases hbefore

theorem Faultless.within {refs : List NativeRef} (h : w.Faultless) (hwithin : Within refs w w') :
    w'.Faultless :=
  h.of_armed hwithin.armed

theorem Faultless.noRollbackFault (h : w.Faultless) : w.NoRollbackFault :=
  fun i => h i .rollingBack

theorem faultless_ofBackends (count : Nat) : (ofBackends count).Faultless := by
  intro i call
  rw [backend_ofBackends]
  cases call <;> rfl

/-! ## Calls of one connection -/

/-- An open connection is the one that the reference shows. -/
theorem IsOpened.connection? (h : w.IsOpened ref) :
    (w.backend ref.backend).connection? ref.connection = some (w.native ref) := by
  have hfound := List.getElem?_eq_getElem (show ref.connection < _ from h)
  rw [native, Backend.connection?, hfound, Option.getD_some]

theorem isOpened_of_active (h : (w.native ref).isActive = true) : w.IsOpened ref := by
  refine Nat.lt_of_not_le ?_
  intro hge
  rw [native, Backend.connection?, List.getElem?_eq_none hge] at h
  cases h

theorem openConnection_ok (h : w.Faultless) (i : Nat) :
    (w.callBackend i Backend.openConnection).1 = .ok (w.backend i).connections.length := by
  have hfault : (w.backend i).faults.opening = false := h i .opening
  simp [callBackend, Backend.openConnection, hfault]

theorem beginNative_ok (h : w.Faultless) (hopened : w.IsOpened ref)
    (hidle : (w.native ref).isActive = false) : (w.beginNative ref).1 = .ok () := by
  have hfault : (w.backend ref.backend).faults.beginning = false := h _ .beginning
  simp [beginNative, callBackend, Backend.begin, hopened.connection?, hfault, hidle]

theorem commitNative_ok (h : w.Faultless) (hactive : (w.native ref).isActive = true) :
    (w.commitNative ref).1 = .ok () := by
  have hfault : (w.backend ref.backend).faults.committing = false := h _ .committing
  simp [commitNative, callBackend, Backend.commit, (isOpened_of_active hactive).connection?, hfault,
    hactive]

theorem writeNative_ok (hopened : w.IsOpened ref) (hunclosed : (w.native ref).closed = false)
    (key : String) (value : Option Json) :
    (w.callBackend ref.backend fun b => b.write ref.connection key value).1 = .ok () := by
  simp only [callBackend, Backend.write, hopened.connection?, hunclosed, Bool.false_eq_true, if_false]
  split <;> rfl

theorem scanNative_ok (hopened : w.IsOpened ref) (hunclosed : (w.native ref).closed = false)
    (start : String) : (w.backend ref.backend).scan ref.connection start
      = .ok (((w.native ref).view (w.backend ref.backend).store).scan start) := by
  simp [Backend.scan, hopened.connection?, hunclosed]

/-! ## Committing -/

theorem commitEach_ok {enlisted : List Enlisted} (h : w.Faultless)
    (hactive : ∀ ref ∈ enlisted.map (·.native), (w.native ref).isActive = true)
    (hdistinct : (enlisted.map (·.native)).Nodup) (committed : List ShardId) :
    (commitEach enlisted committed w).1.2 = none := by
  induction enlisted generalizing w committed with
  | nil => rfl
  | cons e rest ih =>
    obtain ⟨hfirst, hrest⟩ := List.forall_mem_cons.mp hactive
    obtain ⟨hnotin, hdistinct⟩ := List.nodup_cons.mp hdistinct
    have hok := commitNative_ok h hfirst
    rw [commitEach]
    rcases w.commitNative_cases e.native with
      ⟨reason, w₁, hcommit, -⟩ | ⟨w₁, hcommit, -, hwithin, -⟩
    · rw [hcommit] at hok
      cases hok
    · rw [hcommit]
      refine ih (h.within hwithin) ?_ hdistinct _
      intro ref href
      have hne : ref ∉ [e.native] := by
        intro hmem
        obtain rfl := List.mem_singleton.mp hmem
        exact hnotin href
      rw [hwithin.others ref hne]
      exact hrest ref href

/-- An active transaction is committed if all its members are active. -/
theorem commit_ok (h : w.Faultless) (hstatus : (w.transaction tx).status = .active)
    (hactive : ∀ ref ∈ w.natives tx, (w.native ref).isActive = true)
    (hdistinct : (w.natives tx).Nodup) : (w.commit tx).1 = .ok () := by
  have hbefore := (notifyBefore_work tx (w.transaction tx).synchronizations w).quiet rfl
  unfold commit
  simp only [if_pos hstatus]
  generalize notifyBefore tx (w.transaction tx).synchronizations w = w₁ at hbefore
  have hmembers : ∀ ref ∈ (w.transaction tx).enlisted.map (·.native),
      (w₁.native ref).isActive = true := by
    intro ref href
    rw [hbefore.others ref List.not_mem_nil]
    exact hactive ref href
  have hdone := commitEach_ok (h.within hbefore) hmembers hdistinct []
  generalize commitEach (w.transaction tx).enlisted [] w₁ = done at hdone
  match done with
  | ((committed, none), w₂) => rfl
  | ((committed, some failed), w₂) => cases hdone

/-! ## Showing a connection to transactions -/

/-- A connection that the transactions of a session will accept: it is idle, unless it has joined the
current one. -/
structure Welcome (w : Cluster) (session : Session) (ref : NativeRef) : Prop where
  faultless : w.Faultless
  opened : w.IsOpened ref
  held : (w.native ref).isActive = true →
    ∀ tx, session.current = some tx → ref ∈ w.natives tx

theorem joinLate_idle_ok (h : w.Faultless) (hopened : w.IsOpened ref)
    (hidle : (w.native ref).isActive = false) (tx : Nat) (id : ShardId) :
    (w.joinLate tx id ref).1 = .ok () := by
  unfold joinLate
  simp only
  split
  · rfl
  · have hpass := w.settingUp_within tx id ref
    have hwork := (w.settingUp_work tx id ref).sameWork rfl
    generalize (report .debug ("setting up transaction on shard " ++ id.text) w).passTimeout tx ref
      = w₁ at hpass hwork
    split
    · have hbegin := beginNative_ok (h.within hpass) (hpass.isOpened hopened)
        ((hwork.isActive ref).trans hidle)
      generalize w₁.beginNative ref = begun at hbegin
      obtain ⟨answer, w₂⟩ := begun
      obtain rfl : answer = .ok () := hbegin
      rfl
    · rfl

theorem Welcome.joinLate (h : w.Welcome session ref) (hdue : w.Due session tx) (id : ShardId) :
    (w.joinLate tx id ref).1 = .ok () ∧ (w.joinLate tx id ref).2.Welcome session ref := by
  -- Joining keeps the connection welcome, if it is active only where it was or has joined now.
  have hjoin {w' : Cluster} (hwithin : Within [ref] w w')
      (hheld : (w'.native ref).isActive = true →
        (w.native ref).isActive = true ∨
          session.current = some tx ∧ (w.transaction tx).status = .active) :
      (w'.enlist tx id ref).Welcome session ref := by
    have hfaultless : w'.Faultless := h.faultless.within hwithin
    refine ⟨hfaultless, hwithin.isOpened h.opened, ?_⟩
    intro hactive other hother
    rw [natives, enlisted_enlist]
    split
    case isTrue => simp
    case isFalse hne =>
      rcases hheld hactive with hbefore | ⟨hcurrent, hstatus⟩
      · rw [← natives, hwithin.natives]
        exact h.held hbefore other hother
      · obtain rfl := Option.some.inj (hcurrent.symm.trans hother)
        refine absurd ⟨rfl, ?_⟩ hne
        rw [hwithin.transactions]
        exact lt_of_begun (by simp [hstatus])
  rcases w.joinLate_cases tx id ref with
    ⟨-, hjoined⟩ | ⟨hnew, w', hwithin, -, ⟨-, hjoined, hwork⟩ | ⟨hstatus, hjoined, -⟩ |
      ⟨hstatus, e, hjoined⟩⟩
  · rw [hjoined]
    exact ⟨rfl, h⟩
  · rw [hjoined]
    exact ⟨rfl, hjoin hwithin fun hactive => .inl ((hwork.isActive ref).symm.trans hactive)⟩
  · rw [hjoined]
    have hcurrent : session.current = some tx := by
      refine hdue.resolve_right ?_
      simp [hstatus, TransactionStatus.isFinal]
    exact ⟨rfl, hjoin hwithin fun _ => .inr ⟨hcurrent, hstatus⟩⟩
  · -- It has not joined the current transaction, so it is idle, and then nothing refuses it.
    have hcurrent : session.current = some tx := by
      refine hdue.resolve_right ?_
      simp [hstatus, TransactionStatus.isFinal]
    have hidle : (w.native ref).isActive = false := by
      refine Bool.eq_false_iff.mpr ?_
      intro hactive
      exact hnew (h.held hactive tx hcurrent)
    have hok := joinLate_idle_ok h.faultless h.opened hidle tx id
    rw [hjoined] at hok
    cases hok

end ScatterGather.Cluster
