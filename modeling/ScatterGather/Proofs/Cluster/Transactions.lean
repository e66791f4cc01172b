import ScatterGather.Proofs.Cluster.Natives
import ScatterGather.Proofs.Cluster.Work

/-!
# What logical transactions do to local ones

Begin, commit and rollback of a logical transaction go over its members one by one. For each loop
one lemma says what it does to the members' local transactions and to the stores; everything else
stays as it was, the callbacks around completion included.
-/

namespace ScatterGather.Cluster

variable {w w' w'' : Cluster} {tx : Nat}

/-! ## The status -/

/-- No transaction has the status of one that is begun unless it has been made. -/
theorem lt_of_begun (h : (w.transaction tx).status ≠ .created) : tx < w.transactions.length := by
  rcases Nat.lt_or_ge tx w.transactions.length with hlt | hge
  · exact hlt
  · have hfresh : w.transaction tx = .fresh := by
      rw [transaction, List.getD_eq_getElem?_getD, List.getElem?_eq_none hge, Option.getD_none]
    rw [hfresh] at h
    exact absurd rfl h

theorem enlisted_setStatus (w : Cluster) (tx other : Nat) (status : TransactionStatus) :
    ((w.setStatus tx status).transaction other).enlisted = (w.transaction other).enlisted :=
  enlisted_mapTransaction (by exact fun _ => rfl)

theorem natives_setStatus (w : Cluster) (tx other : Nat) (status : TransactionStatus) :
    (w.setStatus tx status).natives other = w.natives other := by
  rw [natives, enlisted_setStatus, natives]

theorem status_setStatus (h : tx < w.transactions.length) (status : TransactionStatus) :
    ((w.setStatus tx status).transaction tx).status = status := by
  rw [setStatus, transaction_mapTransaction_self h]

theorem status_setStatus_ne {other : Nat} (h : other ≠ tx) (status : TransactionStatus) :
    ((w.setStatus tx status).transaction other).status = (w.transaction other).status := by
  rw [setStatus, transaction_mapTransaction_ne h]

/-! ## How far the local transactions are -/

/-- Every local transaction is as far as it was, with the same staged writes. -/
def SameWork (w w' : Cluster) : Prop :=
  ∀ ref, (w'.native ref).phase = (w.native ref).phase
    ∧ (w'.native ref).staged = (w.native ref).staged

namespace SameWork

theorem refl (w : Cluster) : SameWork w w :=
  fun _ => ⟨rfl, rfl⟩

theorem trans (h : SameWork w w') (h' : SameWork w' w'') : SameWork w w'' :=
  fun ref => ⟨(h' ref).1.trans (h ref).1, (h' ref).2.trans (h ref).2⟩

theorem isActive (h : SameWork w w') (ref : NativeRef) :
    (w'.native ref).isActive = (w.native ref).isActive := by
  rw [Connection.isActive, (h ref).1, Connection.isActive]

end SameWork

theorem Step.sameWork {effect : Effect} (h : Step effect w w')
    (hkind : [.begin, .commit, .rollback, .write].contains effect = false) : SameWork w w' := by
  intro ref
  rw [native_eq, native_eq]
  rcases h.asks ref.backend with hsame | ⟨call, hasks, hafter⟩
  · rw [hsame]
    exact ⟨rfl, rfl⟩
  · rw [hafter]
    refine (Backend.step_perform _ call).work_eq ?_ ?_ ?_ ?_ ref.connection
    all_goals
      intros
      rintro rfl
      cases hasks
      cases hkind

theorem Work.sameWork {effects : List Effect} (h : Work effects w w')
    (hkinds : effects.any [.begin, .commit, .rollback, .write].contains = false) : SameWork w w' :=
  h.keeps hkinds .refl .trans Step.sameWork

/-! ## Timeouts -/

theorem passTimeout_within (w : Cluster) (tx : Nat) (ref : NativeRef) :
    Within [ref] w (w.passTimeout tx ref) := by
  unfold passTimeout
  split
  · exact w.setNativeTimeout_within _ ref
  · exact .refl _ w

theorem settingUp_within (w : Cluster) (tx : Nat) (id : ShardId) (ref : NativeRef) :
    Within [ref] w
      ((report .debug ("setting up transaction on shard " ++ id.text) w).passTimeout tx ref) :=
  ((Within.refl [ref] w).report ..).trans (passTimeout_within _ tx ref)

/-- A timeout concerns the members of its transaction, and no other connection. -/
theorem setTimeout_within (w : Cluster) (tx : Nat) (seconds : UInt32) :
    Within (w.natives tx) w (w.setTimeout tx seconds) := by
  have hfold : ∀ (enlisted : List Enlisted) (w : Cluster), Within (enlisted.map (·.native)) w
      (enlisted.foldl (fun w e => w.setNativeTimeout seconds e.native) w) := by
    intro enlisted
    induction enlisted with
    | nil => exact fun w => .refl _ w
    | cons e rest ih =>
      intro w
      have hfirst := (w.setNativeTimeout_within seconds e.native).mono
        (List.cons_subset_cons e.native (List.nil_subset (rest.map (·.native))))
      exact hfirst.trans ((ih _).mono (List.subset_cons_self ..))
  have hset := (Step.timeout w tx seconds).quiet rfl
  unfold setTimeout
  simp only
  rw [hset.enlisted tx]
  exact (hset.mono (List.nil_subset _)).trans (hfold _ _)

/-! ## Begin -/

/-- If no member fails, all of them are active in the end and nothing is staged yet. -/
theorem beginEach_spec (tx : Nat) (enlisted : List Enlisted) (w : Cluster) :
    Within (enlisted.map (·.native)) w (beginEach tx enlisted w).2
      ∧ ((beginEach tx enlisted w).1 = [] → ∀ ref ∈ enlisted.map (·.native),
          ((beginEach tx enlisted w).2.native ref).isActive = true
            ∧ ((beginEach tx enlisted w).2.native ref).staged = ∅) := by
  induction enlisted generalizing w with
  | nil => exact ⟨.refl _ w, fun _ ref href => absurd href List.not_mem_nil⟩
  | cons e rest ih =>
    have hpass := w.passTimeout_within tx e.native
    rw [beginEach]
    rcases (w.passTimeout tx e.native).beginNative_cases e.native with
      ⟨reason, w₁, hbegin, hwithin, -⟩ | ⟨w₁, hbegin, -, hwithin, -, hnative⟩
    · rw [hbegin]
      obtain ⟨hrest, -⟩ := ih (report .warn ("exception starting transaction on shard "
        ++ e.shard.text ++ ": " ++ reason.message) w₁)
      have hfirst : Within ((e :: rest).map (·.native)) w w₁ :=
        (hpass.mono (by simp)).trans (hwithin.mono (List.nil_subset _))
      refine ⟨(hfirst.report ..).trans (hrest.mono (by simp)), ?_⟩
      intro hnil
      cases hnil
    · rw [hbegin]
      obtain ⟨hrest, hall⟩ := ih w₁
      refine ⟨((hpass.mono (by simp)).trans (hwithin.mono (by simp))).trans (hrest.mono (by simp)),
        ?_⟩
      intro hnil ref href
      by_cases hlater : ref ∈ rest.map (·.native)
      · exact hall hnil ref hlater
      · -- Nothing after the first member concerns its connection any more.
        obtain rfl : ref = e.native := (List.mem_cons.mp href).resolve_right hlater
        have hkept : (beginEach tx rest w₁).2.native e.native = w₁.native e.native :=
          hrest.others e.native hlater
        exact ⟨by simp only [hkept, hnative]; rfl, by simp only [hkept, hnative]⟩

/-- What is taken back after a begin that failed is taken back on its own members. -/
theorem compensate_within (enlisted : List Enlisted) (w : Cluster) :
    Within (enlisted.map (·.native)) w (compensate enlisted w) := by
  induction enlisted generalizing w with
  | nil => exact .refl _ w
  | cons e rest ih =>
    rw [compensate]
    split
    · rcases w.rollbackNative_cases e.native with
        ⟨reason, w₁, hrollback, -, hwithin, -⟩ | ⟨w₁, hrollback, hwithin, -⟩
      · rw [hrollback]
        exact ((hwithin.report ..).mono (List.nil_subset _)).trans ((ih _).mono (by simp))
      · rw [hrollback]
        exact (hwithin.mono (by simp)).trans ((ih w₁).mono (by simp))
    · exact (ih w).mono (by simp)

/-- A begin either finds the transaction active, or takes it from created to active, with nothing
staged on any member, or fails and leaves the status alone. -/
theorem begin_cases (w : Cluster) (tx : Nat) :
    (∃ w', w.begin tx = (.ok (), w') ∧ (w.transaction tx).status = .active ∧ Within [] w w'
      ∧ SameStores w w') ∨
    (∃ w₁ w', w.begin tx = (.ok (), w') ∧ (w.transaction tx).status = .created
      ∧ Within (w.natives tx) w w₁ ∧ SameStores w w₁
      ∧ (∀ ref ∈ w.natives tx, (w₁.native ref).isActive = true ∧ (w₁.native ref).staged = ∅)
      ∧ Within [] (w₁.setStatus tx .active) w' ∧ SameStores w₁ w') ∨
    ∃ e w', w.begin tx = (.error e, w') ∧ (w.transaction tx).status ≠ .active
      ∧ Within (w.natives tx) w w' ∧ SameStores w w' := by
  unfold begin
  simp only
  cases (w.transaction tx).status with
  | active => exact .inl ⟨_, rfl, rfl, (Within.refl _ w).report .., .refl w⟩
  | created =>
    obtain ⟨hwithin, hall⟩ := beginEach_spec tx (w.transaction tx).enlisted w
    have hstores := (beginEach_work tx (w.transaction tx).enlisted w).sameStores rfl
    generalize beginEach tx (w.transaction tx).enlisted w = begun at hwithin hstores hall
    match begun with
    | ([], w₁) =>
      exact .inr (.inl ⟨w₁, _, rfl, rfl, hwithin, hstores, hall rfl, (Within.refl _ _).report ..,
        .refl _⟩)
    | (first :: failed, w₁) =>
      have hundo := compensate_within (w.transaction tx).enlisted w₁
      exact .inr (.inr ⟨_, _, rfl, nofun, hwithin.trans hundo,
        hstores.trans ((compensate_work _ w₁).sameStores rfl)⟩)
  | committed => exact .inr (.inr ⟨_, w, rfl, nofun, .refl _ w, .refl w⟩)
  | failedCommit => exact .inr (.inr ⟨_, w, rfl, nofun, .refl _ w, .refl w⟩)
  | rolledBack => exact .inr (.inr ⟨_, w, rfl, nofun, .refl _ w, .refl w⟩)

end ScatterGather.Cluster
