import ScatterGather.Proofs.Cluster.Completion
import ScatterGather.Proofs.Cluster.Faults

/-!
# The calls that begin and rollback make

Begin, its compensation and rollback give each member its turn. Which calls are made in these turns,
and what they answer, is written down here, so that it can be said which members were asked at all and
which of them failed. Where the members are distinct and ready for the call, the loops are series of
calls in turn, so that the armed faults alone decide who is refused.
-/

namespace ScatterGather

/-- A call of a member, with its answer. -/
structure Answered where
  member : Enlisted
  answer : Except BackendError Unit

/-- The member that was refused, and why. -/
def Answered.refusal? (call : Answered) : Option (Enlisted × BackendError) :=
  match call.answer with
  | .ok () => none
  | .error reason => some (call.member, reason)

/-- The members that were refused, in order, each with the reason. -/
def refusals (calls : List Answered) : List (Enlisted × BackendError) :=
  calls.filterMap Answered.refusal?

theorem refusals_cons_ok (e : Enlisted) (calls : List Answered) :
    refusals (⟨e, .ok ()⟩ :: calls) = refusals calls :=
  rfl

theorem refusals_cons_error (e : Enlisted) (reason : BackendError) (calls : List Answered) :
    refusals (⟨e, .error reason⟩ :: calls) = (e, reason) :: refusals calls :=
  rfl

theorem refusals_append (calls more : List Answered) :
    refusals (calls ++ more) = refusals calls ++ refusals more :=
  List.filterMap_append

namespace Cluster

variable {w w' : Cluster} {tx : Nat} {members : List Enlisted}

/-- The calls of a loop over members: what a member is asked when it has its turn, and where its turn
takes the cluster. -/
def callsOf (ask : Enlisted → Cluster → Option (Except BackendError Unit))
    (turn : Enlisted → Cluster → Cluster) : List Enlisted → Cluster → List Answered
  | [], _ => []
  | e :: rest, w => ((ask e w).map (Answered.mk e)).toList ++ callsOf ask turn rest (turn e w)

/-- The members that are active. -/
def activeOf (w : Cluster) (members : List Enlisted) : List Enlisted :=
  members.filter fun e => (w.native e.native).isActive

theorem activeOf_sublist (w : Cluster) (members : List Enlisted) :
    (w.activeOf members).Sublist members :=
  List.filter_sublist

theorem mem_activeOf {e : Enlisted} :
    e ∈ w.activeOf members ↔ e ∈ members ∧ (w.native e.native).isActive = true :=
  List.mem_filter

theorem not_mem_activeOf {ref : NativeRef} (hidle : (w.native ref).isActive ≠ true) :
    ref ∉ (w.activeOf members).map (·.native) := by
  intro hmem
  obtain ⟨e, he, hnative⟩ := List.mem_map.mp hmem
  exact hidle (hnative ▸ (mem_activeOf.mp he).2)

theorem activeOf_congr (h : ∀ e ∈ members, w'.native e.native = w.native e.native) :
    w'.activeOf members = w.activeOf members :=
  List.filter_congr fun e he => by rw [h e he]

theorem activeOf_cons (w : Cluster) (e : Enlisted) (rest : List Enlisted) :
    w.activeOf (e :: rest) =
      if (w.native e.native).isActive then e :: w.activeOf rest else w.activeOf rest :=
  List.filter_cons

/-- A step that concerns one member leaves those behind it as they are. -/
theorem Within.behind {e : Enlisted} {rest : List Enlisted} (h : Within [e.native] w w')
    (hnotin : e.native ∉ rest.map (·.native)) :
    ∀ d ∈ rest, w'.native d.native = w.native d.native := by
  intro d hd
  refine h.others d.native fun hmem => hnotin ?_
  rw [← List.mem_singleton.mp hmem]
  exact List.mem_map_of_mem hd

/-! ## Begin -/

/-- The answer to a member's own begin. -/
def askBegin (tx : Nat) (e : Enlisted) (w : Cluster) : Except BackendError Unit :=
  ((w.passTimeout tx e.native).beginNative e.native).1

/-- The begins of local transactions, one for each member. -/
def beginCalls (tx : Nat) : List Enlisted → Cluster → List Answered :=
  callsOf (fun e w => some (askBegin tx e w)) fun e w => (beginEach tx [e] w).2

theorem beginEach_single (tx : Nat) (e : Enlisted) (w : Cluster) :
    let w₁ := ((w.passTimeout tx e.native).beginNative e.native).2
    (askBegin tx e w = .ok () ∧ beginEach tx [e] w = ([], w₁)) ∨
    ∃ reason text, askBegin tx e w = .error reason
      ∧ beginEach tx [e] w = ([(e.shard, reason)], report .warn text w₁) := by
  simp only [askBegin, beginEach]
  obtain ⟨answer, w₁⟩ := (w.passTimeout tx e.native).beginNative e.native
  cases answer with
  | ok => exact .inl ⟨rfl, rfl⟩
  | error reason => exact .inr ⟨reason, _, rfl, rfl⟩

theorem beginEach_cons (tx : Nat) (e : Enlisted) (rest : List Enlisted) (w : Cluster) :
    beginEach tx (e :: rest) w =
      ((beginEach tx [e] w).1 ++ (beginEach tx rest (beginEach tx [e] w).2).1,
        (beginEach tx rest (beginEach tx [e] w).2).2) := by
  simp only [beginEach]
  obtain ⟨answer, w₁⟩ := (w.passTimeout tx e.native).beginNative e.native
  cases answer with
  | ok => rfl
  | error reason => rfl

theorem beginCalls_cons (tx : Nat) (e : Enlisted) (rest : List Enlisted) (w : Cluster) :
    beginCalls tx (e :: rest) w
      = ⟨e, askBegin tx e w⟩ :: beginCalls tx rest (beginEach tx [e] w).2 :=
  rfl

/-- Every member is asked. -/
theorem beginCalls_members (tx : Nat) (members : List Enlisted) (w : Cluster) :
    (beginCalls tx members w).map (·.member) = members := by
  induction members generalizing w with
  | nil => rfl
  | cons e rest ih =>
    rw [beginCalls_cons, List.map_cons, ih]

/-- What the loop collects are the refusals. -/
theorem beginEach_refusals (tx : Nat) (members : List Enlisted) (w : Cluster) :
    (beginEach tx members w).1
      = (refusals (beginCalls tx members w)).map fun refusal => (refusal.1.shard, refusal.2) := by
  induction members generalizing w with
  | nil => rfl
  | cons e rest ih =>
    rw [beginEach_cons, beginCalls_cons, ih]
    rcases beginEach_single tx e w with ⟨hask, hturn⟩ | ⟨reason, text, hask, hturn⟩
    · simp [hask, hturn, refusals_cons_ok]
    · simp [hask, hturn, refusals_cons_error]

/-- A begin succeeds if no member refuses. Otherwise it tells who refused, with the first reason, and
rolls back what is active. -/
theorem begin_created (hstatus : (w.transaction tx).status = .created) :
    let members := (w.transaction tx).enlisted
    let w₁ := (beginEach tx members w).2
    (refusals (beginCalls tx members w) = []
      ∧ ∃ text, w.begin tx = (.ok (), report .info text (w₁.setStatus tx .active))) ∨
    ∃ first others, refusals (beginCalls tx members w) = first :: others
      ∧ w.begin tx = (.error (.beginFailure ((first :: others).map (·.1.shard))
          (some first.2.message)), compensate members w₁) := by
  intro members w₁
  have hturns : beginEach tx (w.transaction tx).enlisted w = _ :=
    eq_of_fst (beginEach_refusals tx members w)
  unfold begin
  simp only [hstatus]
  rw [hturns]
  cases refusals (beginCalls tx members w) with
  | nil => exact .inl ⟨rfl, _, rfl⟩
  | cons first others =>
    refine .inr ⟨first, others, rfl, ?_⟩
    simp only [List.map_cons, List.map_map, Function.comp_def]
    rfl

/-- One turn of the begin loop on an idle member, which a fault refuses or which is begun. -/
theorem beginEach_settles (tx : Nat) {e : Enlisted} (hopen : w.IsOpened e.native)
    (hidle : (w.native e.native).isActive = false) :
    let w₁ := (beginEach tx [e] w).2
    (askBegin tx e w = .error (.injectedFault .beginning)
      ∧ ∃ w₀, Tripped .beginning e.native w w₀ ∧ Still [] w₀ w₁) ∨
    askBegin tx e w = .ok () ∧ Done .beginning .active e.native w w₁ := by
  intro w₁
  have hpass := w.passTimeout_still tx e.native
  have hopen := hpass.within.isOpened hopen
  have hidle := (hpass.work.isActive e.native).trans hidle
  cases hfault : (w.passTimeout tx e.native).armed .beginning e.native.backend with
  | true =>
    obtain ⟨hanswer, hcall⟩ := beginNative_refused hopen hfault
    refine .inl ⟨hanswer, _, hpass.tripped hcall, ?_⟩
    rcases beginEach_single tx e w with ⟨hask, -⟩ | ⟨reason, text, -, hturn⟩
    · rw [askBegin, hanswer] at hask
      cases hask
    · simp only [w₁, hturn]
      exact (Still.refl _).report .warn text
  | false =>
    obtain ⟨hanswer, hcall⟩ := beginNative_done hopen hfault hidle
    rcases beginEach_single tx e w with ⟨hask, hturn⟩ | ⟨reason, text, hask, -⟩
    · simp only [w₁, hturn]
      exact .inr ⟨hask, hpass.done hcall⟩
    · rw [askBegin, hanswer] at hask
      cases hask

/-- Members that are distinct, open and idle are begun but for those that a fault refuses. -/
theorem beginEach_called (tx : Nat) (hopened : ∀ e ∈ members, w.IsOpened e.native)
    (hidle : ∀ e ∈ members, (w.native e.native).isActive = false)
    (hdistinct : (members.map (·.native)).Nodup) :
    ∃ refused, CalledInTurn .beginning .active members refused w (beginEach tx members w).2
      ∧ refusals (beginCalls tx members w)
        = refused.map fun e => (e, .injectedFault .beginning) := by
  induction members generalizing w with
  | nil => exact ⟨[], .nobody w, rfl⟩
  | cons e rest ih =>
    obtain ⟨hnotin, hdistinct⟩ := List.nodup_cons.mp hdistinct
    obtain ⟨hopen, hopened⟩ := List.forall_mem_cons.mp hopened
    obtain ⟨hfirst, hidle⟩ := List.forall_mem_cons.mp hidle
    -- Whatever becomes of the first member, those behind it are still open and idle.
    have hlater : ∀ {w₁ : Cluster}, Within [e.native] w w₁ →
        ∃ refused, CalledInTurn .beginning .active rest refused w₁ (beginEach tx rest w₁).2
          ∧ refusals (beginCalls tx rest w₁)
            = refused.map fun e => (e, .injectedFault .beginning) := by
      intro w₁ hwithin
      have hbehind := hwithin.behind hnotin
      refine ih (fun d hd => hwithin.isOpened (hopened d hd)) (fun d hd => ?_) hdistinct
      rw [hbehind d hd]
      exact hidle d hd
    rw [beginEach_cons, beginCalls_cons]
    rcases beginEach_settles tx hopen hfirst with ⟨hask, w₀, htripped, hstill⟩ | ⟨hask, hdone⟩
    · obtain ⟨refused, hrest, hrefusals⟩ :=
        hlater (htripped.within.trans (hstill.within.mono (List.nil_subset _)))
      refine ⟨e :: refused, .refused e htripped (.still hstill hrest), ?_⟩
      rw [hask, refusals_cons_error, hrefusals, List.map_cons]
    · obtain ⟨refused, hrest, hrefusals⟩ := hlater hdone.within
      refine ⟨refused, .done e hdone hrest, ?_⟩
      rw [hask, refusals_cons_ok, hrefusals]

/-- The active members are rolled back but for those that a fault refuses. -/
theorem compensate_called (hdistinct : (members.map (·.native)).Nodup) :
    ∃ refused, CalledInTurn .rollingBack .rolledBack (w.activeOf members) refused w
      (compensate members w) := by
  induction members generalizing w with
  | nil => exact ⟨[], .nobody w⟩
  | cons e rest ih =>
    obtain ⟨hnotin, hdistinct⟩ := List.nodup_cons.mp hdistinct
    rw [activeOf_cons, compensate]
    by_cases hactive : (w.native e.native).isActive = true
    · rw [if_pos hactive, if_pos hactive]
      have hlater : ∀ {w₁ : Cluster}, Within [e.native] w w₁ →
          ∃ refused, CalledInTurn .rollingBack .rolledBack (w.activeOf rest) refused w₁
            (compensate rest w₁) := by
        intro w₁ hwithin
        rw [← activeOf_congr (hwithin.behind hnotin)]
        exact ih hdistinct
      cases hfault : w.armed .rollingBack e.native.backend with
      | true =>
        obtain ⟨hanswer, hcall⟩ := rollbackNative_refused hactive hfault
        rw [eq_of_fst hanswer]
        simp only
        generalize "compensating rollback failed on shard " ++ e.shard.text ++ ": "
          ++ (BackendError.injectedFault .rollingBack).message = text
        obtain ⟨refused, hrest⟩ := hlater (hcall.within.report .warn text)
        exact ⟨e :: refused, .refused e hcall (.still ((Still.refl _).report ..) hrest)⟩
      | false =>
        obtain ⟨hanswer, hcall⟩ := rollbackNative_done hactive hfault
        rw [eq_of_fst hanswer]
        obtain ⟨refused, hrest⟩ := hlater hcall.within
        exact ⟨refused, .done e hcall hrest⟩
    · rw [if_neg hactive, if_neg hactive]
      exact ih hdistinct

/-! ## Rollback -/

/-- The answer to a member's own rollback; one that has committed is not asked. -/
def askRollback (e : Enlisted) (w : Cluster) : Option (Except BackendError Unit) :=
  if (w.native e.native).wasCommitted then none else some (w.rollbackNative e.native).1

/-- The rollbacks of local transactions. -/
def rollbackCalls : List Enlisted → Cluster → List Answered :=
  callsOf askRollback fun e w => (rollbackEach [e] w).2

theorem rollbackEach_single (e : Enlisted) (w : Cluster) :
    (∃ text, askRollback e w = none ∧ (w.native e.native).wasCommitted = true
      ∧ rollbackEach [e] w = ([], report .debug text w)) ∨
    (w.native e.native).wasCommitted = false ∧
      ((askRollback e w = some (.ok ()) ∧ (w.rollbackNative e.native).1 = .ok ()
        ∧ rollbackEach [e] w = ([], (w.rollbackNative e.native).2)) ∨
      ∃ reason text, askRollback e w = some (.error reason)
        ∧ (w.rollbackNative e.native).1 = .error reason
        ∧ rollbackEach [e] w
          = ([⟨e.shard, reason.message⟩], report .warn text (w.rollbackNative e.native).2)) := by
  simp only [askRollback, rollbackEach]
  by_cases hcommitted : (w.native e.native).wasCommitted = true
  · exact .inl ⟨_, if_pos hcommitted, hcommitted, if_pos hcommitted⟩
  · refine .inr ⟨Bool.eq_false_iff.mpr hcommitted, ?_⟩
    simp only [if_neg hcommitted]
    obtain ⟨answer, w₁⟩ := w.rollbackNative e.native
    cases answer with
    | ok => exact .inl ⟨rfl, rfl, rfl⟩
    | error reason => exact .inr ⟨reason, _, rfl, rfl, rfl⟩

theorem rollbackEach_cons (e : Enlisted) (rest : List Enlisted) (w : Cluster) :
    rollbackEach (e :: rest) w =
      ((rollbackEach [e] w).1 ++ (rollbackEach rest (rollbackEach [e] w).2).1,
        (rollbackEach rest (rollbackEach [e] w).2).2) := by
  simp only [rollbackEach]
  split
  · rfl
  · obtain ⟨answer, w₁⟩ := w.rollbackNative e.native
    cases answer with
    | ok => rfl
    | error reason => rfl

theorem rollbackCalls_cons (e : Enlisted) (rest : List Enlisted) (w : Cluster) :
    rollbackCalls (e :: rest) w
      = ((askRollback e w).map (Answered.mk e)).toList
        ++ rollbackCalls rest (rollbackEach [e] w).2 :=
  rfl

/-- What the loop collects are the refusals. -/
theorem rollbackEach_refusals (members : List Enlisted) (w : Cluster) :
    (rollbackEach members w).1 = (refusals (rollbackCalls members w)).map fun refusal =>
      ⟨refusal.1.shard, refusal.2.message⟩ := by
  induction members generalizing w with
  | nil => rfl
  | cons e rest ih =>
    rw [rollbackEach_cons, rollbackCalls_cons, ih]
    rcases rollbackEach_single e w with
      ⟨text, hask, -, hturn⟩ | ⟨-, ⟨hask, -, hturn⟩ | ⟨reason, text, hask, -, hturn⟩⟩
    · simp [hask, hturn]
    · simp [hask, hturn, refusals_cons_ok]
    · simp [hask, hturn, refusals_cons_error]

/-- A rollback is done if no member refuses. Otherwise it tells who refused, and the status stays. -/
theorem rollback_unfinished (h : (w.transaction tx).status.isUnfinished = true) :
    let members := (w.transaction tx).enlisted
    let w₁ := (rollbackEach members w).2
    (refusals (rollbackCalls members w) = []
      ∧ w.rollback tx = (.ok (), (report .info "rolled back transaction"
        (w₁.setStatus tx .rolledBack)).completeWith tx .rolledBack)) ∨
    ∃ first others, refusals (rollbackCalls members w) = first :: others
      ∧ w.rollback tx = (.error (.rollbackFailure ((first :: others).map fun refusal =>
          ⟨refusal.1.shard, refusal.2.message⟩)), w₁.completeWith tx .unknown) := by
  intro members w₁
  have hturns : rollbackEach (w.transaction tx).enlisted w = _ :=
    eq_of_fst (rollbackEach_refusals members w)
  unfold rollback
  simp only [if_pos h]
  rw [hturns]
  cases refusals (rollbackCalls members w) with
  | nil => exact .inl ⟨rfl, rfl⟩
  | cons first others => exact .inr ⟨first, others, rfl, rfl⟩

/-- One turn of the rollback loop. An idle member is asked unless it has committed, to no effect; an
active one is refused by a fault or rolled back. -/
theorem rollbackEach_settles {e : Enlisted} (hopen : w.IsOpened e.native) :
    let w₁ := (rollbackEach [e] w).2
    ((w.native e.native).isActive = false
      ∧ askRollback e w = (if (w.native e.native).wasCommitted then none else some (.ok ()))
      ∧ Still [] w w₁) ∨
    (w.native e.native).isActive = true ∧ (w.native e.native).wasCommitted = false
      ∧ ((askRollback e w = some (.error (.injectedFault .rollingBack))
          ∧ ∃ w₀, Tripped .rollingBack e.native w w₀ ∧ Still [] w₀ w₁) ∨
        askRollback e w = some (.ok ()) ∧ Done .rollingBack .rolledBack e.native w w₁) := by
  intro w₁
  rcases rollbackEach_single e w with ⟨text, hask, hcommitted, hturn⟩ | ⟨hcommitted, hasked⟩
  · have hidle : (w.native e.native).isActive = false := by
      simp_all [Connection.isActive, Connection.wasCommitted]
    refine .inl ⟨hidle, ?_, ?_⟩
    · rw [hask, if_pos hcommitted]
    · simp only [w₁, hturn]
      exact (Still.refl w).report .debug text
  · cases hactive : (w.native e.native).isActive with
    | false =>
      obtain ⟨hanswer, hstill⟩ := rollbackNative_still hopen hactive
      rcases hasked with ⟨hask, -, hturn⟩ | ⟨reason, -, -, hfailed, -⟩
      · refine .inl ⟨rfl, ?_, ?_⟩
        · rw [hask, hcommitted, if_neg Bool.false_ne_true]
        · simp only [w₁, hturn]
          exact hstill
      · rw [hanswer] at hfailed
        cases hfailed
    | true =>
      refine .inr ⟨rfl, hcommitted, ?_⟩
      cases hfault : w.armed .rollingBack e.native.backend with
      | true =>
        obtain ⟨hanswer, hcall⟩ := rollbackNative_refused hactive hfault
        rcases hasked with ⟨-, hok, -⟩ | ⟨reason, text, hask, hfailed, hturn⟩
        · rw [hanswer] at hok
          cases hok
        · obtain rfl := Except.error.inj (hanswer.symm.trans hfailed)
          simp only [w₁, hturn]
          exact .inl ⟨hask, _, hcall, (Still.refl _).report .warn text⟩
      | false =>
        obtain ⟨hanswer, hcall⟩ := rollbackNative_done hactive hfault
        rcases hasked with ⟨hask, -, hturn⟩ | ⟨reason, -, -, hfailed, -⟩
        · simp only [w₁, hturn]
          exact .inr ⟨hask, hcall⟩
        · rw [hanswer] at hfailed
          cases hfailed

/-- Of distinct, open members those that have not committed are asked, and the active ones are rolled
back but for those that a fault refuses. -/
theorem rollbackEach_called (hopened : ∀ e ∈ members, w.IsOpened e.native)
    (hdistinct : (members.map (·.native)).Nodup) :
    ∃ refused, CalledInTurn .rollingBack .rolledBack (w.activeOf members) refused w
        (rollbackEach members w).2
      ∧ (rollbackCalls members w).map (·.member)
        = members.filter (fun e => !(w.native e.native).wasCommitted)
      ∧ refusals (rollbackCalls members w)
        = refused.map fun e => (e, .injectedFault .rollingBack) := by
  induction members generalizing w with
  | nil => exact ⟨[], .nobody w, rfl, rfl⟩
  | cons e rest ih =>
    obtain ⟨hnotin, hdistinct⟩ := List.nodup_cons.mp hdistinct
    obtain ⟨hopen, hopened⟩ := List.forall_mem_cons.mp hopened
    have hlater : ∀ {w₁ : Cluster}, Within [e.native] w w₁ →
        ∃ refused, CalledInTurn .rollingBack .rolledBack (w.activeOf rest) refused w₁
            (rollbackEach rest w₁).2
          ∧ (rollbackCalls rest w₁).map (·.member)
            = rest.filter (fun e => !(w.native e.native).wasCommitted)
          ∧ refusals (rollbackCalls rest w₁)
            = refused.map fun e => (e, .injectedFault .rollingBack) := by
      intro w₁ hwithin
      have hbehind := hwithin.behind hnotin
      have hcommitted : rest.filter (fun e => !(w.native e.native).wasCommitted)
          = rest.filter (fun e => !(w₁.native e.native).wasCommitted) :=
        List.filter_congr fun d hd => by rw [hbehind d hd]
      rw [← activeOf_congr hbehind, hcommitted]
      exact ih (fun d hd => hwithin.isOpened (hopened d hd)) hdistinct
    rw [rollbackEach_cons, rollbackCalls_cons, activeOf_cons, List.filter_cons, List.map_append,
      refusals_append]
    rcases rollbackEach_settles hopen with ⟨hidle, hask, hstill⟩ | ⟨hactive, hcommitted, hturn⟩
    · obtain ⟨refused, hrest, hasked, hrefusals⟩ :=
        hlater (hstill.within.mono (List.nil_subset _))
      rw [hask, hasked, hrefusals, hidle, if_neg Bool.false_ne_true]
      refine ⟨refused, .still hstill hrest, ?_, ?_⟩
      · cases (w.native e.native).wasCommitted <;> rfl
      · cases (w.native e.native).wasCommitted <;> rfl
    · rw [if_pos hactive, hcommitted]
      rcases hturn with ⟨hask, w₀, htripped, hstill⟩ | ⟨hask, hdone⟩
      · obtain ⟨refused, hrest, hasked, hrefusals⟩ :=
          hlater (htripped.within.trans (hstill.within.mono (List.nil_subset _)))
        rw [hask, hasked, hrefusals]
        exact ⟨e :: refused, .refused e htripped (.still hstill hrest), rfl, rfl⟩
      · obtain ⟨refused, hrest, hasked, hrefusals⟩ := hlater hdone.within
        rw [hask, hasked, hrefusals]
        exact ⟨refused, .done e hdone hrest, rfl, rfl⟩

end Cluster

end ScatterGather
