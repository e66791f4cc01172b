import ScatterGather.Proofs.Session.Succession
import ScatterGather.Proofs.Session.Undisturbed
import ScatterGather.Proofs.Session.Calls

/-!
# Synchronizations over the life of a transaction

A commit of an active transaction leaves it with a status that no later call takes back to active,
so the callbacks before completion, which no other call makes, are made at most once in any run.
Together with the stages of commits and rollbacks, and with the runs that leave out registrations,
this is all that synchronizations observe, and all that they can do.
-/

namespace ScatterGather

/-- Whether a transaction with this status was the subject of a commit or a rollback. -/
def TransactionStatus.isSpent : TransactionStatus → Bool
  | created | active => false
  | committed | failedCommit | rolledBack => true

namespace Cluster

variable {w w' : Cluster} {tx : Nat}

/-! ## Remarks before and after completion -/

/-- The words of a callback before completion. -/
def BeforeRemark (text : String) : Prop :=
  ∃ name status commits, text = remarkText name "before" status commits

/-- The words of a callback after completion. -/
def AfterRemark (text : String) : Prop :=
  ∃ (name : String) (completion : CompletionStatus) (status : TransactionStatus) (commits : Nat),
    text = remarkText name ("after:" ++ completion.inspect) status commits

/-- Where a letter occurs last, a list is divided in one way only. -/
theorem append_cons_inj {α : Type} {a : α} {start start' rest rest' : List α}
    (hrest : a ∉ rest) (hrest' : a ∉ rest') (h : start ++ a :: rest = start' ++ a :: rest') :
    start = start' ∧ rest = rest' := by
  rcases List.append_eq_append_iff.mp h with ⟨more, hstart, hcons⟩ | ⟨more, hstart, hcons⟩
  · cases more with
    | nil =>
      rw [List.append_nil] at hstart
      exact ⟨hstart.symm, (List.cons.inj hcons).2⟩
    | cons b more =>
      obtain ⟨-, hmore⟩ := List.cons.inj hcons
      exact absurd (hmore ▸ List.mem_append_right _ List.mem_cons_self) hrest
  · cases more with
    | nil =>
      rw [List.append_nil] at hstart
      exact ⟨hstart, (List.cons.inj hcons).2.symm⟩
    | cons b more =>
      obtain ⟨-, hmore⟩ := List.cons.inj hcons
      exact absurd (hmore ▸ List.mem_append_right _ List.mem_cons_self) hrest'

/-- A text is divided by its last equals sign in one way only. -/
theorem append_equals_inj {start start' rest rest' : String} (hrest : '=' ∉ rest.toList)
    (hrest' : '=' ∉ rest'.toList) (h : start ++ "=" ++ rest = start' ++ "=" ++ rest') :
    start = start' ∧ rest = rest' := by
  have hlist := congrArg String.toList h
  rw [String.append_assoc, String.append_assoc, String.toList_append, String.toList_append] at hlist
  simp only [String.toList_append] at hlist
  obtain ⟨hstart, htext⟩ := append_cons_inj hrest hrest' hlist
  exact ⟨String.toList_inj.mp hstart, String.toList_inj.mp htext⟩

theorem equals_not_mem_ofNat (n : Nat) : '=' ∉ (Text.ofNat n).toList := by
  intro hmem
  rw [Text.ofNat, String.toList_ofList] at hmem
  cases Nat.isDigit_of_mem_toDigits (by decide) (by decide) hmem

theorem equals_not_mem_inspect (status : TransactionStatus) : '=' ∉ status.inspect.toList := by
  cases status <;> decide

theorem remarkText_eq (name moment : String) (status : TransactionStatus) (commits : Nat) :
    remarkText name moment status commits = name ++ " " ++ moment ++ " status" ++ "="
      ++ status.inspect ++ " commits" ++ "=" ++ Text.ofNat commits := by
  have hstatus : " status=" = " status" ++ "=" := rfl
  have hcommits : " commits=" = " commits" ++ "=" := rfl
  rw [remarkText, hstatus, hcommits, ← String.append_assoc, ← String.append_assoc]

/-- The words of callbacks tell when they were called. -/
theorem moment_of_remarkText {name name' moment moment' : String}
    {status status' : TransactionStatus} {commits commits' : Nat}
    (h : remarkText name moment status commits = remarkText name' moment' status' commits') :
    name ++ " " ++ moment = name' ++ " " ++ moment' := by
  rw [remarkText_eq, remarkText_eq] at h
  obtain ⟨hseen, -⟩ := append_equals_inj (equals_not_mem_ofNat _) (equals_not_mem_ofNat _) h
  obtain ⟨hcalled, -⟩ := append_equals_inj (equals_not_mem_inspect _) (equals_not_mem_inspect _)
    ((String.append_left_inj _).mp hseen)
  exact (String.append_left_inj _).mp hcalled

/-- The last letter of a text that is put together of two. -/
theorem getLast?_append_of_some {start rest : String} {c : Char}
    (h : rest.toList.getLast? = some c) : (start ++ rest).toList.getLast? = some c := by
  rw [String.toList_append, List.getLast?_append, h]
  rfl

/-- No callback after completion has the words of one before. -/
theorem AfterRemark.not_before {text : String} (h : AfterRemark text) : ¬ BeforeRemark text := by
  obtain ⟨name, completion, status, commits, rfl⟩ := h
  rintro ⟨name', status', commits', heq⟩
  have hlast := congrArg (fun text => text.toList.getLast?) (moment_of_remarkText heq)
  cases completion <;>
    cases (getLast?_append_of_some rfl).symm.trans (hlast.trans (getLast?_append_of_some rfl))

/-- No hook has the words of a callback before completion. -/
theorem HookRemark.not_before {text : String} (h : HookRemark text) : ¬ BeforeRemark text := by
  obtain ⟨tag, id, runs, visible, rfl⟩ := h
  rintro ⟨name, status, commits, heq⟩
  -- The words in front of the last equals sign are different ones.
  have hvisible : " visible=" = " visible" ++ "=" := rfl
  have hword : '=' ∉ (if visible then "true" else "false" : String).toList := by
    cases visible <;> decide
  rw [remarkText_eq, hvisible, ← String.append_assoc] at heq
  obtain ⟨hstart, -⟩ := append_equals_inj hword (equals_not_mem_ofNat _) heq
  have hlast := congrArg (fun text => text.toList.getLast?) hstart
  cases (getLast?_append_of_some rfl).symm.trans (hlast.trans (getLast?_append_of_some rfl))

/-! ## Spent transactions -/

/-- No call takes a transaction back to where it can be committed. -/
theorem after_spent (number : Nat) (w : Cluster) (call : SessionCall)
    (h : (w.transaction tx).status.isSpent = true) :
    ((after number w call).transaction tx).status.isSpent = true := by
  rcases after_advances number w call tx with hsame | hnext
  · rw [hsame]
    exact h
  · generalize (w.transaction tx).status = status at h hnext
    generalize ((after number w call).transaction tx).status = status' at hnext
    cases hnext with
    | begun | committed | halted | undone => cases h
    | cleared => rfl

/-- A commit of an active transaction spends it. -/
theorem commit_spends (hactive : (w.transaction tx).status = .active) :
    ((w.commit tx).2.transaction tx).status.isSpent = true := by
  have htx : tx < w.transactions.length := lt_of_begun (by rw [hactive]; exact nofun)
  rcases w.commit_cases tx with ⟨hnot, -⟩ | ⟨-, done, w₁, w', hdone, -,
    ⟨-, hcommit, hmarked⟩ | ⟨e, rest, reason, -, hcommit, hmarked⟩⟩
  · exact absurd hactive hnot
  · rw [hcommit, hmarked.status, status_setStatus (hdone.within.transactions ▸ htx)]
    rfl
  · rw [hcommit, hmarked.status, status_setStatus (hdone.within.transactions ▸ htx)]
    rfl

/-! ## Callbacks before completion in a run -/

/-- The callbacks before completion that a call makes, each with the transaction it is about: those
of the transaction that is committed, if that is active. -/
def callsBefore (number : Nat) (w : Cluster) : SessionCall → List (Nat × Callback)
  | .commit name =>
    match w.named? number name with
    | some tx =>
      if (w.transaction tx).status = .active then
        (callbacksBefore (w.transaction tx).synchronizations).map fun call => (tx, call)
      else []
    | none => []
  | _ => []

/-- The callbacks before completion that the calls of a run make. -/
def allCallsBefore (w : Cluster) : List (Nat × SessionCall) → List (Nat × Callback)
  | [] => []
  | call :: rest => w.callsBefore call.1 call.2 ++ (after call.1 w call.2).allCallsBefore rest

/-- A transaction whose synchronizations are called before completion was active, and is spent. -/
theorem spent_of_called {number : Nat} {call : SessionCall} {called : Nat × Callback}
    (h : called ∈ w.callsBefore number call) :
    (w.transaction called.1).status = .active
      ∧ ((after number w call).transaction called.1).status.isSpent = true := by
  cases call with
  | commit name =>
    rw [callsBefore] at h
    split at h
    case h_1 tx htx =>
      split at h
      case isTrue hactive =>
        obtain ⟨callback, -, rfl⟩ := List.mem_map.mp h
        refine ⟨hactive, ?_⟩
        rw [after, onNamed, htx]
        exact commit_spends hactive
      case isFalse => cases h
    case h_2 => cases h
  | _ => cases h

/-- The synchronizations of a spent transaction are not called before completion any more. -/
theorem not_called_of_spent (calls : List (Nat × SessionCall))
    (h : (w.transaction tx).status.isSpent = true) :
    ∀ called ∈ w.allCallsBefore calls, called.1 ≠ tx := by
  induction calls generalizing w with
  | nil => exact fun _ hmem => absurd hmem List.not_mem_nil
  | cons call rest ih =>
    intro called hmem
    rcases List.mem_append.mp hmem with hmem | hmem
    · intro heq
      rw [← heq, (spent_of_called hmem).1] at h
      cases h
    · exact ih (after_spent call.1 w call.2 h) called hmem

theorem callsBefore_distinct (number : Nat) (w : Cluster) (call : SessionCall) :
    ((w.callsBefore number call).map (Prod.map id Callback.place)).Nodup := by
  cases call with
  | commit name =>
    rw [callsBefore]
    split
    case h_1 tx htx =>
      split
      · have hplaces : (((callbacksBefore (w.transaction tx).synchronizations).map
            fun call => (tx, call)).map (Prod.map id Callback.place))
              = ((callbacksBefore (w.transaction tx).synchronizations).map (·.place)).map
                (Prod.mk tx) := by
          rw [List.map_map, List.map_map]
          rfl
        rw [hplaces]
        exact (callbacksBefore_distinct _).map fun _ _ heq => (Prod.mk.inj heq).2
      · exact List.nodup_nil
    case h_2 => exact List.nodup_nil
  | _ => exact List.nodup_nil

/-- In a whole run, no synchronization of a transaction is called before completion twice. -/
theorem allCallsBefore_distinct (w : Cluster) (calls : List (Nat × SessionCall)) :
    ((w.allCallsBefore calls).map (Prod.map id Callback.place)).Nodup := by
  induction calls generalizing w with
  | nil => exact List.nodup_nil
  | cons call rest ih =>
    rw [allCallsBefore, List.map_append, List.nodup_append]
    refine ⟨w.callsBefore_distinct call.1 call.2, ih _, fun now hnow later hlater heq => ?_⟩
    -- What is called now belongs to a transaction that this call spends.
    obtain ⟨called, hcalled, rfl⟩ := List.mem_map.mp hnow
    obtain ⟨again, hagain, rfl⟩ := List.mem_map.mp hlater
    exact not_called_of_spent rest (spent_of_called hcalled).2 again hagain
      (congrArg Prod.fst heq).symm

/-- A completion without callbacks before it leaves no words of such in the journal. -/
theorem Staged.quiet {work : Cluster → Cluster} {completion : CompletionStatus}
    {callbacks : List Callback} (h : Staged tx [] work completion callbacks w w') :
    Adds (fun text => ¬ BeforeRemark text) w w' := by
  obtain ⟨done, -, hadds, rfl⟩ := h
  rw [notified_nil] at hadds
  refine (hadds.mono fun _ => False.elim).trans ⟨_, done.entries_notified .., fun text hmem => ?_⟩
  obtain ⟨call, -, hnotice⟩ := List.mem_flatMap.mp hmem
  rcases List.mem_cons.mp hnotice with hremark | hcomplaint
  · cases hremark
    exact AfterRemark.not_before ⟨_, _, _, _, rfl⟩
  · rw [complaint] at hcomplaint
    split at hcomplaint <;> simp at hcomplaint

/-- A call that makes no callback before completion leaves no words of one in the journal. -/
theorem after_quiet (number : Nat) (w : Cluster) (call : SessionCall)
    (h : w.callsBefore number call = []) :
    Adds (fun text => ¬ BeforeRemark text) w (after number w call) := by
  have hsame : Adds (fun text => ¬ BeforeRemark text) w w := .of_journal _ rfl
  cases call with
  | commit name =>
    refine onNamed_of hsame fun tx htx => ?_
    simp only [callsBefore, htx] at h
    split at h
    case isTrue hactive =>
      obtain ⟨completion, -, hstaged⟩ := commit_staged hactive
      rw [List.map_eq_nil_iff.mp h] at hstaged
      exact hstaged.quiet
    case isFalse hactive =>
      rw [commit, if_neg hactive]
      exact hsame
  | rollback name =>
    refine onNamed_of hsame fun tx _ => ?_
    by_cases hunfinished : (w.transaction tx).status.isUnfinished = true
    · obtain ⟨completion, -, hstaged⟩ := rollback_staged hunfinished
      exact hstaged.quiet
    · rw [rollback, if_neg hunfinished]
      exact hsame
  | _ =>
    refine (after_adds number w (fun name heq => ?_) fun name heq => ?_).mono
      fun _ => HookRemark.not_before
    · cases heq
    · cases heq

/-! ## What synchronizations observe -/

/-- In any state that a run leads to, a commit of an active transaction calls its synchronizations
before all work on local transactions, and again after it with the outcome, and a rollback of an
unfinished one calls them after its work only. In a whole run, each synchronization of a transaction
is called before completion at most once, and only where a commit finds its transaction active. And
whatever the callbacks do, the run comes out as it does from a cluster without synchronizations if
all registrations are left out: each call is answered in the same way, and all that is not a
synchronization or the journal is the same. -/
theorem synchronizations_observe_completion (w : Cluster) (calls : List (Nat × SessionCall)) :
    (∀ tx, ((w.runAll calls).transaction tx).status = .active →
      (w.runAll calls).CommitStaged tx)
    ∧ (∀ tx, ((w.runAll calls).transaction tx).status.isUnfinished = true →
      (w.runAll calls).RollbackStaged tx)
    ∧ ((w.allCallsBefore calls).map (Prod.map id Callback.place)).Nodup
    ∧ (∀ number call, (w.runAll calls).callsBefore number call = [] →
      Adds (fun text => ¬ BeforeRemark text) (w.runAll calls) (after number (w.runAll calls) call))
    ∧ Alike (w.runAll calls)
      (w.unsynchronized.runAll (calls.filter fun call => !call.2.registers))
    ∧ ∀ number call,
      (w.unsynchronized.runAll (calls.filter fun call => !call.2.registers)).answer? number call
        = (w.runAll calls).answer? number call := by
  have halike := w.alike_unsynchronized.runAll calls
  exact ⟨fun tx => commit_staged, fun tx => rollback_staged, w.allCallsBefore_distinct calls,
    fun number call => (w.runAll calls).after_quiet number call, halike,
    fun number call => halike.answer? number call⟩

/-- A session over two shards on two backends. -/
def pair : Cluster :=
  ((ofBackends 2).openSession ⟨[⟨.ofNat 0, .ofList [.ofNat 0], 0⟩, ⟨.ofNat 1, .ofList [.ofNat 1], 1⟩],
    .default, none⟩).2

/-- A transaction on both shards with two synchronizations: one registers a further one when it is
called first, the other refuses and then panics. The second shard will refuse to commit. -/
def rehearsal : List (Nat × SessionCall) :=
  [(0, .establish 0), (0, .establish 1), (0, .beginTransaction),
    (0, .register .current ⟨"a", some .register, .accept⟩),
    (0, .register .current ⟨"b", some .refuse, .panic⟩), (0, .arm 1 .committing)]

theorem synchronizations_observe_completion_rehearsed :
    (pair.runAll rehearsal).CommitStaged 0 ∧ (pair.runAll rehearsal).RollbackStaged 0
      ∧ ((pair.runAll rehearsal).commit 0).2.entries.filterMap Entry.remark?
        = ["a before status=Active commits=0", "b before status=Active commits=0",
          "a after:Unknown status=FailedCommit commits=1",
          "b after:Unknown status=FailedCommit commits=1",
          "a' after:Unknown status=FailedCommit commits=1"]
      ∧ ((pair.allCallsBefore (rehearsal ++ [(0, .commit .current), (0, .commit .current)])).map
          (Prod.map id Callback.place)) = [(0, 0), (0, 1)]
      ∧ Adds (fun text => ¬ BeforeRemark text) (pair.runAll rehearsal)
        (after 0 (pair.runAll rehearsal) (.rollback .current)) := by
  obtain ⟨hcommit, hrollback, -, hquiet, -⟩ := synchronizations_observe_completion pair rehearsal
  refine ⟨hcommit 0 (by decide +kernel), hrollback 0 (by decide +kernel), by decide +kernel,
    by decide +kernel, hquiet 0 (.rollback .current) rfl⟩

end Cluster

end ScatterGather
