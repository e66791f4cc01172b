import ScatterGather.Proofs.Cluster.Frame

/-!
# Calls of local transactions

What a call of a local transaction does to the cluster around it: one lemma for each call, with its
endings. A call that fails changes no connection and no store.
-/

namespace ScatterGather.Cluster

variable {w : Cluster} {ref : NativeRef}

/-- A call by its answer; the cluster is whatever it then is. -/
theorem eq_of_fst {α : Type} {answer : α} {result : α × Cluster} (h : result.1 = answer) :
    result = (answer, result.2) := by
  rw [← h]

theorem native_of_connection? {c : Connection}
    (h : (w.backend ref.backend).connection? ref.connection = some c) : w.native ref = c :=
  Backend.connection_eq h

/-! ## From a backend to its cluster

A call is known by what its backend answers and becomes. The connections that the backend may change
are then those that the cluster may change. -/

section Calls

variable {α : Type} {call : Backend → α × Backend} {answer : α} {b : Backend} {c d : Connection}

theorem within_of_call {numbers : List Nat} (hcall : call (w.backend ref.backend) = (answer, b))
    (h : Backend.Within numbers (w.backend ref.backend) b) :
    Within (numbers.map fun number => ⟨ref.backend, number⟩) w (w.callBackend ref.backend call).2 :=
  .callBackend w ref.backend numbers (by rw [hcall]; exact h)

theorem sameStores_of_call (hcall : call (w.backend ref.backend) = (answer, b))
    (h : b.store = (w.backend ref.backend).store) :
    SameStores w (w.callBackend ref.backend call).2 :=
  .callBackend w ref.backend (by rw [hcall]; exact h)

/-- The backend of an open connection exists, so what the call left there is found there. -/
theorem native_of_call (hopened : (w.backend ref.backend).connection? ref.connection = some c)
    (hcall : call (w.backend ref.backend) = (answer, b))
    (h : b.connection? ref.connection = some d) :
    (w.callBackend ref.backend call).2.native ref = d := by
  rw [native_eq, backend_callBackend, if_pos ⟨rfl, lt_of_connection? hopened⟩, hcall]
  exact Backend.connection_eq h

end Calls

/-! ## Begin, commit and rollback

The endings of these are told apart by the answer. The reasons that are kept are those that someone
later asks for: a transaction that was begun had not been active, one that was committed had. -/

/-- A local transaction is begun without staged writes. -/
theorem beginNative_cases (w : Cluster) (ref : NativeRef) :
    (∃ reason w', w.beginNative ref = (.error reason, w') ∧ Within [] w w' ∧ SameStores w w') ∨
    ∃ w', w.beginNative ref = (.ok (), w') ∧ (w.native ref).isActive = false
      ∧ Within [ref] w w' ∧ SameStores w w'
      ∧ w'.native ref = { w.native ref with phase := .active, staged := ∅ } := by
  rcases (w.backend ref.backend).begin_cases ref.connection with
    ⟨reason, b, hcall, -, hwithin, hstore⟩ | ⟨c, b, hc, hactive, hcall, hwithin, hstore, hd⟩
  · exact .inl ⟨reason, _, eq_of_fst (congrArg Prod.fst hcall), within_of_call hcall hwithin,
      sameStores_of_call hcall hstore⟩
  · rw [native_of_connection? hc]
    exact .inr ⟨_, eq_of_fst (congrArg Prod.fst hcall), hactive, within_of_call hcall hwithin,
      sameStores_of_call hcall hstore, native_of_call hc hcall hd⟩

/-- A commit puts the staged writes over the store of this backend, and of no other. -/
theorem commitNative_cases (w : Cluster) (ref : NativeRef) :
    (∃ reason w', w.commitNative ref = (.error reason, w') ∧ Within [] w w' ∧ SameStores w w') ∨
    ∃ w', w.commitNative ref = (.ok (), w') ∧ (w.native ref).isActive = true
      ∧ Within [ref] w w'
      ∧ (∀ i, (w'.backend i).store =
          if i = ref.backend then (w.backend i).store.overlay (w.native ref).staged
          else (w.backend i).store)
      ∧ w'.native ref = { w.native ref with phase := .committed, staged := ∅ } := by
  rcases (w.backend ref.backend).commit_cases ref.connection with
    ⟨reason, b, hcall, -, hwithin, hstore⟩ | ⟨c, b, hc, hactive, hcall, hwithin, hstore, hd⟩
  · exact .inl ⟨reason, _, eq_of_fst (congrArg Prod.fst hcall), within_of_call hcall hwithin,
      sameStores_of_call hcall hstore⟩
  · rw [native_of_connection? hc]
    refine .inr ⟨_, eq_of_fst (congrArg Prod.fst hcall), hactive, within_of_call hcall hwithin, ?_,
      native_of_call hc hcall hd⟩
    intro i
    have hlt := lt_of_connection? hc
    rw [commitNative, backend_callBackend]
    by_cases hi : i = ref.backend
    · subst hi
      rw [if_pos ⟨rfl, hlt⟩, if_pos rfl, hcall, hstore]
    · rw [if_neg fun h => hi h.1.symm, if_neg hi]

/-- Without an armed fault the rollback of an open connection succeeds. Where nothing is active, it
has nothing to do. -/
theorem rollbackNative_cases (w : Cluster) (ref : NativeRef) :
    (∃ reason w', w.rollbackNative ref = (.error reason, w')
      ∧ (w.IsOpened ref → (w.backend ref.backend).faults.rollingBack = true)
      ∧ Within [] w w' ∧ SameStores w w') ∨
    ∃ w', w.rollbackNative ref = (.ok (), w') ∧ Within [ref] w w' ∧ SameStores w w'
      ∧ w'.native ref =
        if (w.native ref).isActive then { w.native ref with phase := .rolledBack, staged := ∅ }
        else w.native ref := by
  rcases (w.backend ref.backend).rollback_cases ref.connection with
    ⟨reason, b, hcall, hwhy, hwithin, hstore⟩ | ⟨hidle, hcall⟩ |
      ⟨c, b, hc, hactive, hcall, hwithin, hstore, hd⟩
  · refine .inl ⟨reason, _, eq_of_fst (congrArg Prod.fst hcall), ?_, within_of_call hcall hwithin,
      sameStores_of_call hcall hstore⟩
    intro hopened
    rcases hwhy with hnone | ⟨-, hfault⟩
    · exact absurd hopened (Nat.not_lt.mpr (List.getElem?_eq_none_iff.mp hnone))
    · exact hfault
  · -- The connection may not even be open, so it is the frame that says it is as it was.
    have hwithin : Within [] w (w.rollbackNative ref).2 := within_of_call hcall (.refl [] _)
    refine .inr ⟨_, eq_of_fst (congrArg Prod.fst hcall), hwithin.mono (List.nil_subset _),
      sameStores_of_call hcall rfl, ?_⟩
    have hidle : (w.native ref).isActive = false := hidle
    rw [hidle, if_neg Bool.false_ne_true]
    exact hwithin.others ref List.not_mem_nil
  · rw [native_of_connection? hc, if_pos hactive]
    exact .inr ⟨_, eq_of_fst (congrArg Prod.fst hcall), within_of_call hcall hwithin,
      sameStores_of_call hcall hstore, native_of_call hc hcall hd⟩

/-! ## Opening and closing -/

/-- A new connection has a number that none had before, and nothing begun. -/
theorem openConnection_cases (w : Cluster) (i : Nat) (hi : i < w.backends.length) :
    (∃ reason w', w.callBackend i Backend.openConnection = (.error reason, w') ∧ Within [] w w'
      ∧ SameStores w w') ∨
    ∃ number w', w.callBackend i Backend.openConnection = (.ok number, w') ∧ Within [] w w'
      ∧ SameStores w w' ∧ ¬ w.IsOpened ⟨i, number⟩ ∧ w'.IsOpened ⟨i, number⟩
      ∧ w'.native ⟨i, number⟩ = .fresh := by
  rcases (w.backend i).openConnection_cases with
    ⟨b, hcall, hwithin, hstore⟩ | ⟨b, hcall, hwithin, hstore, hconnections⟩
  · exact .inl ⟨_, _, eq_of_fst (congrArg Prod.fst hcall),
      Within.callBackend w i [] (by rw [hcall]; exact hwithin),
      SameStores.callBackend w i (by rw [hcall]; exact hstore)⟩
  · refine .inr ⟨_, _, eq_of_fst (congrArg Prod.fst hcall),
      Within.callBackend w i [] (by rw [hcall]; exact hwithin),
      SameStores.callBackend w i (by rw [hcall]; exact hstore), Nat.lt_irrefl _, ?_, ?_⟩
    · rw [IsOpened, backend_callBackend, if_pos ⟨rfl, hi⟩, hcall, hconnections]
      simp
    · rw [native_eq, backend_callBackend, if_pos ⟨rfl, hi⟩, hcall, Backend.connection,
        Backend.connection?, hconnections]
      simp

/-- Whether or not it is refused, a close concerns this connection alone. -/
theorem closeNative_within (w : Cluster) (ref : NativeRef) :
    Within [ref] w (w.closeNative ref).2 :=
  .callBackend w ref.backend [ref.connection]
    ((w.backend ref.backend).close_within ref.connection)

/-! ## Timeouts and writes -/

theorem setNativeTimeout_within (w : Cluster) (seconds : UInt32) (ref : NativeRef) :
    Within [ref] w (w.setNativeTimeout seconds ref) := by
  have hcall : w.setNativeTimeout seconds ref =
      (w.callBackend ref.backend fun b => ((), b.setTimeout ref.connection seconds)).2 := rfl
  rw [hcall]
  exact .callBackend w ref.backend [ref.connection] ((w.backend ref.backend).setTimeout_within ..)

/-- A write is refused by a closed connection and staged by an active transaction. Without one it goes
to the store at once, which no connection shows. -/
theorem writeNative_cases (w : Cluster) (ref : NativeRef) (key : String) (value : Option Json) :
    (∃ w', w.callBackend ref.backend (fun b => b.write ref.connection key value)
        = (.error .closed, w') ∧ Within [] w w' ∧ SameStores w w') ∨
    (∃ w', w.callBackend ref.backend (fun b => b.write ref.connection key value) = (.ok (), w')
      ∧ (w.native ref).isActive = true ∧ Within [ref] w w' ∧ SameStores w w'
      ∧ w'.native ref =
        { w.native ref with staged := (w.native ref).staged.insert key value }) ∨
    ∃ w', w.callBackend ref.backend (fun b => b.write ref.connection key value) = (.ok (), w')
      ∧ (w.native ref).isActive = false ∧ Within [] w w' := by
  rcases (w.backend ref.backend).write_cases ref.connection key value with
    hcall | ⟨c, b, hc, hactive, hcall, hwithin, hstore, hd⟩ | ⟨hidle, hcall⟩
  · exact .inl ⟨_, eq_of_fst (congrArg Prod.fst hcall),
      Within.callBackend w ref.backend [] (by rw [hcall]; exact .refl _ _),
      SameStores.callBackend w ref.backend (by rw [hcall])⟩
  · rw [native_of_connection? hc]
    exact .inr (.inl ⟨_, eq_of_fst (congrArg Prod.fst hcall), hactive,
      Within.callBackend w ref.backend [ref.connection] (by rw [hcall]; exact hwithin),
      SameStores.callBackend w ref.backend (by rw [hcall]; exact hstore),
      native_of_call hc hcall hd⟩)
  · exact .inr (.inr ⟨_, eq_of_fst (congrArg Prod.fst hcall), hidle,
      Within.callBackend w ref.backend [] (by
        rw [hcall]
        exact ⟨Nat.le_refl _, fun _ h => h, fun _ _ => rfl⟩)⟩)

/-! ## Faults -/

/-- Arming a fault changes what later calls answer, and only calls of this kind. -/
theorem backend_arm (w : Cluster) (i j : Nat) (call : NativeCall) :
    ((w.mapBackend i fun b => b.arm call).backend j).connections = (w.backend j).connections
      ∧ ((w.mapBackend i fun b => b.arm call).backend j).store = (w.backend j).store
      ∧ ∀ other, call ≠ other →
        ((w.mapBackend i fun b => b.arm call).backend j).faults.isArmed other
          = (w.backend j).faults.isArmed other := by
  have hbackend : (w.mapBackend i fun b => b.arm call).backend j =
      if i = j ∧ i < w.backends.length then (w.backend i).arm call else w.backend j := getD_set ..
  rw [hbackend]
  split
  case isTrue h =>
    rw [h.1]
    exact ⟨rfl, rfl, fun other hne => (w.backend j).isArmed_arm_ne hne⟩
  case isFalse => exact ⟨rfl, rfl, fun _ _ => rfl⟩

theorem native_arm (w : Cluster) (i : Nat) (call : NativeCall) (ref : NativeRef) :
    (w.mapBackend i fun b => b.arm call).native ref = w.native ref := by
  rw [native, Backend.connection?, (w.backend_arm i ref.backend call).1, native,
    Backend.connection?]

end ScatterGather.Cluster
