import ScatterGather.Proofs.Cluster.Transactions

/-!
# How logical transactions end

A commit makes a first part of the members permanent, all of them if no one refuses. A rollback
leaves a member active only if it reports a failure for it, and then leaves it as it was.
-/

namespace ScatterGather.Cluster

variable {w w' w'' : Cluster} {tx : Nat}

/-! ## Commit -/

/-- A store with what some local transactions have staged for its backend laid over it. -/
def layOver (w : Cluster) (i : Nat) (refs : List NativeRef) (store : Store) : Store :=
  refs.foldl (fun store ref =>
    if i = ref.backend then store.overlay (w.native ref).staged else store) store

theorem layOver_congr {i : Nat} {refs : List NativeRef}
    (h : ∀ ref ∈ refs, w'.native ref = w.native ref) (store : Store) :
    w'.layOver i refs store = w.layOver i refs store := by
  induction refs generalizing store with
  | nil => rfl
  | cons ref rest ih =>
    have hrest := ih fun other hother => h other (List.mem_cons_of_mem _ hother)
    simp only [layOver, List.foldl_cons] at hrest ⊢
    rw [h ref List.mem_cons_self, hrest]

theorem layOver_of_not_mem {i : Nat} {refs : List NativeRef} (h : ∀ ref ∈ refs, ref.backend ≠ i)
    (store : Store) : w.layOver i refs store = store := by
  induction refs generalizing store with
  | nil => rfl
  | cons ref rest ih =>
    have hne : i ≠ ref.backend := fun heq => h ref List.mem_cons_self heq.symm
    rw [layOver, List.foldl_cons, if_neg hne]
    exact ih (fun other hother => h other (List.mem_cons_of_mem _ hother)) store

/-- Some members have committed, one after the other, and nothing else has happened. -/
structure Committed (done : List Enlisted) (w w' : Cluster) : Prop where
  within : Within (done.map (·.native)) w w'
  distinct : (done.map (·.native)).Nodup
  active : ∀ ref ∈ done.map (·.native), (w.native ref).isActive = true
  after : ∀ ref ∈ done.map (·.native),
    w'.native ref = { w.native ref with phase := .committed, staged := ∅ }
  stores : ∀ i, (w'.backend i).store = w.layOver i (done.map (·.native)) (w.backend i).store

namespace Committed

variable {done : List Enlisted}

theorem nil (hwithin : Within [] w w') (hstores : SameStores w w') : Committed [] w w' :=
  ⟨hwithin, List.nodup_nil, nofun, nofun, hstores⟩

theorem of_quiet (hwithin : Within [] w w') (hstores : SameStores w w')
    (h : Committed done w' w'') : Committed done w w'' where
  within := (hwithin.mono (List.nil_subset _)).trans h.within
  distinct := h.distinct
  active := fun ref href => by
    rw [← hwithin.others ref List.not_mem_nil]
    exact h.active ref href
  after := fun ref href => by
    rw [← hwithin.others ref List.not_mem_nil]
    exact h.after ref href
  stores := fun i => by
    rw [h.stores, hstores]
    exact layOver_congr (fun ref _ => hwithin.others ref List.not_mem_nil) _

/-- One more member that commits in front of the others. -/
theorem cons {e : Enlisted} (hactive : (w.native e.native).isActive = true)
    (hwithin : Within [e.native] w w')
    (hstores : ∀ i, (w'.backend i).store =
      if i = e.native.backend then (w.backend i).store.overlay (w.native e.native).staged
      else (w.backend i).store)
    (hnative : w'.native e.native = { w.native e.native with phase := .committed, staged := ∅ })
    (h : Committed done w' w'') : Committed (e :: done) w w'' := by
  -- It is not active any more, so it does not commit again.
  have hnotin : e.native ∉ done.map (·.native) := by
    intro hmem
    have hagain := h.active e.native hmem
    rw [hnative] at hagain
    cases hagain
  have hothers : ∀ ref ∈ done.map (·.native), w'.native ref = w.native ref := by
    intro ref href
    refine hwithin.others ref fun hmem => hnotin ?_
    rwa [← List.mem_singleton.mp hmem]
  refine ⟨(hwithin.mono (by simp)).trans (h.within.mono (by simp)), ?_, ?_, ?_, ?_⟩
  · exact List.nodup_cons.mpr ⟨hnotin, h.distinct⟩
  · intro ref href
    rcases List.mem_cons.mp href with rfl | href
    · exact hactive
    · rw [← hothers ref href]
      exact h.active ref href
  · intro ref href
    rcases List.mem_cons.mp href with rfl | href
    · rw [h.within.others e.native hnotin, hnative]
    · rw [h.after ref href, hothers ref href]
  · intro i
    rw [h.stores, layOver_congr hothers, hstores]
    rfl

end Committed

theorem commitEach_cases (enlisted : List Enlisted) (committed : List ShardId) (w : Cluster) :
    ∃ done w', Committed done w w' ∧
      ((enlisted = done
        ∧ commitEach enlisted committed w = ((committed ++ done.map (·.shard), none), w')) ∨
      ∃ e rest reason, enlisted = done ++ e :: rest
        ∧ commitEach enlisted committed w
          = ((committed ++ done.map (·.shard), some (e.shard, reason)), w')) := by
  induction enlisted generalizing committed w with
  | nil =>
    refine ⟨[], w, .nil (.refl _ w) (.refl w), .inl ⟨rfl, ?_⟩⟩
    rw [commitEach, List.map_nil, List.append_nil]
  | cons e rest ih =>
    rw [commitEach]
    rcases w.commitNative_cases e.native with
      ⟨reason, w₁, hcommit, hwithin, hstores⟩ | ⟨w₁, hcommit, hactive, hwithin, hstores, hnative⟩
    · rw [hcommit]
      have hnone : committed = committed ++ ([] : List Enlisted).map (·.shard) :=
        (List.append_nil committed).symm
      exact ⟨[], _, .nil (hwithin.report ..) hstores, .inr ⟨e, rest, reason, rfl,
        congrArg (fun ids => ((ids, some (e.shard, reason)), _)) hnone⟩⟩
    · rw [hcommit]
      obtain ⟨done, w', hdone, hend⟩ := ih (committed ++ [e.shard]) w₁
      refine ⟨e :: done, w', .cons hactive hwithin hstores hnative hdone, ?_⟩
      rw [List.append_assoc] at hend
      rcases hend with ⟨rfl, hend⟩ | ⟨failed, rest', reason, rfl, hend⟩
      · exact .inl ⟨rfl, hend⟩
      · exact .inr ⟨failed, rest', reason, rfl, hend⟩

/-- A commit is refused, or it commits all members, or it stops at a member that refuses and tells
which ones had committed. -/
theorem commit_cases (w : Cluster) (tx : Nat) :
    ((w.transaction tx).status ≠ .active ∧ ∃ e, w.commit tx = (.error e, w)) ∨
    (w.transaction tx).status = .active ∧ ∃ done w₁ w', Committed done w w₁ ∧ SameStores w₁ w' ∧
      (((w.transaction tx).enlisted = done ∧ w.commit tx = (.ok (), w')
        ∧ Within [] (w₁.setStatus tx .committed) w') ∨
      ∃ e rest reason, (w.transaction tx).enlisted = done ++ e :: rest
        ∧ w.commit tx = (.error (.commitFailure e.shard (done.map (·.shard)) reason), w')
        ∧ Within [] (w₁.setStatus tx .failedCommit) w') := by
  unfold commit
  by_cases hactive : (w.transaction tx).status = .active
  · refine .inr ⟨hactive, ?_⟩
    have hbefore := notifyBefore_work tx (w.transaction tx).synchronizations w
    obtain ⟨done, w₁, hdone, hend⟩ := commitEach_cases (w.transaction tx).enlisted []
      (notifyBefore tx (w.transaction tx).synchronizations w)
    have hdone : Committed done w w₁ :=
      .of_quiet (hbefore.quiet rfl) (hbefore.sameStores rfl) hdone
    simp only [if_pos hactive, List.nil_append] at hend ⊢
    rcases hend with ⟨henlisted, hend⟩ | ⟨e, rest, reason, henlisted, hend⟩
    · rw [hend]
      have hafter := completeWith_work (report .info ("committed transaction on "
        ++ Text.ofNat (done.map (·.shard)).length ++ " shard(s)") (w₁.setStatus tx .committed)) tx
        .committed
      exact ⟨done, w₁, _, hdone, hafter.sameStores rfl,
        .inl ⟨henlisted, rfl, ((Within.refl _ _).report ..).trans (hafter.quiet rfl)⟩⟩
    · rw [hend]
      have hafter := (w₁.setStatus tx .failedCommit).completeWith_work tx .unknown
      exact ⟨done, w₁, _, hdone, hafter.sameStores rfl,
        .inr ⟨e, rest, reason.message, henlisted, rfl, hafter.quiet rfl⟩⟩
  · exact .inl ⟨hactive, _, if_neg hactive⟩

/-! ## Rollback -/

/-- Some members were rolled back, except for those that failures are reported for. -/
structure Undone (enlisted : List Enlisted) (failures : List ShardFailure) (w w' : Cluster) :
    Prop where
  within : Within (enlisted.map (·.native)) w w'
  stores : SameStores w w'
  left : ∀ e ∈ enlisted, (w'.native e.native).isActive = true →
    w'.native e.native = w.native e.native ∧ ∃ source, ⟨e.shard, source⟩ ∈ failures

namespace Undone

variable {e : Enlisted} {rest : List Enlisted} {failures : List ShardFailure}

/-- What one more member needs in front of the others: that it is left as it was where it is left
active, and that a failure is reported for it then. -/
theorem cons {more : List ShardFailure} (hwithin : Within [e.native] w w')
    (hstores : SameStores w w') (h : Undone rest failures w' w'') (hmore : failures ⊆ more)
    (hleft : (w'.native e.native).isActive = true →
      w'.native e.native = w.native e.native ∧ ∃ source, ⟨e.shard, source⟩ ∈ more) :
    Undone (e :: rest) more w w'' := by
  have hfirst : (w''.native e.native).isActive = true →
      w''.native e.native = w'.native e.native := by
    intro hactive
    by_cases hrest : e.native ∈ rest.map (·.native)
    · obtain ⟨d, hd, hnative⟩ := List.mem_map.mp hrest
      rw [← hnative] at hactive ⊢
      exact (h.left d hd hactive).1
    · exact h.within.others e.native hrest
  refine ⟨(hwithin.mono (by simp)).trans (h.within.mono (by simp)), hstores.trans h.stores, ?_⟩
  intro d hd hactive
  rcases List.mem_cons.mp hd with rfl | hd
  · have hsame := hfirst hactive
    rw [hsame] at hactive ⊢
    exact hleft hactive
  · obtain ⟨hsame, source, hfailure⟩ := h.left d hd hactive
    refine ⟨?_, source, hmore hfailure⟩
    by_cases hnative : d.native = e.native
    · rw [hnative] at hsame hactive ⊢
      rw [hsame] at hactive ⊢
      exact (hleft hactive).1
    · exact hsame.trans (hwithin.others d.native fun hmem => hnative (List.mem_singleton.mp hmem))

end Undone

theorem rollbackEach_undone (enlisted : List Enlisted) (w : Cluster) :
    Undone enlisted (rollbackEach enlisted w).1 w (rollbackEach enlisted w).2 := by
  induction enlisted generalizing w with
  | nil => exact ⟨.refl _ w, .refl w, nofun⟩
  | cons e rest ih =>
    rw [rollbackEach]
    by_cases hcommitted : (w.native e.native).wasCommitted = true
    · rw [if_pos hcommitted]
      generalize hw₁ : report .debug ("skipping rollback of committed transaction on shard "
        ++ e.shard.text) w = w₁
      have hskip : Within [] w w₁ := hw₁ ▸ (Within.refl _ w).report ..
      have hskipStores : SameStores w w₁ := hw₁ ▸ .refl w
      refine (ih w₁).cons (hskip.mono (List.nil_subset _)) hskipStores (List.Subset.refl _) ?_
      intro hactive
      rw [hskip.others _ List.not_mem_nil] at hactive
      simp_all [Connection.isActive, Connection.wasCommitted]
    · rw [if_neg hcommitted]
      rcases w.rollbackNative_cases e.native with
        ⟨reason, w₁, hrollback, -, hwithin, hstores⟩ | ⟨w₁, hrollback, hwithin, hstores, hnative⟩
      · rw [hrollback]
        generalize hw₂ : report .warn ("rollback failed on shard " ++ e.shard.text ++ ": "
          ++ reason.message) w₁ = w₂
        have hkept : Within [] w w₂ := hw₂ ▸ hwithin.report ..
        have hkeptStores : SameStores w w₂ := hw₂ ▸ hstores
        simp only [hw₂]
        refine (ih w₂).cons (hkept.mono (List.nil_subset _)) hkeptStores
          (List.subset_cons_self _ _) ?_
        exact fun _ => ⟨hkept.others _ List.not_mem_nil, _, List.mem_cons_self⟩
      · rw [hrollback]
        refine (ih w₁).cons hwithin hstores (List.Subset.refl _) ?_
        have hidle : (w₁.native e.native).isActive = false := by
          rw [hnative]
          split
          · rfl
          · exact Bool.eq_false_iff.mpr ‹_›
        intro hactive
        rw [hidle] at hactive
        cases hactive

/-- No rollback fails where no fault is armed. -/
theorem rollbackEach_ok (enlisted : List Enlisted) {w : Cluster}
    (hopened : ∀ ref ∈ enlisted.map (·.native), w.IsOpened ref) (hquiet : w.NoRollbackFault) :
    (rollbackEach enlisted w).1 = [] := by
  induction enlisted generalizing w with
  | nil => rfl
  | cons e rest ih =>
    have hnext : ∀ {refs : List NativeRef} {w₁ : Cluster}, Within refs w w₁ →
        (rollbackEach rest w₁).1 = [] := by
      intro refs w₁ hwithin
      refine ih (fun ref href => ?_) (hwithin.noRollbackFault hquiet)
      exact hwithin.isOpened (hopened ref (List.mem_cons_of_mem _ href))
    rw [rollbackEach]
    split
    · exact hnext ((Within.refl [] w).report ..)
    · rcases w.rollbackNative_cases e.native with
        ⟨reason, w₁, -, hfault, -⟩ | ⟨w₁, hrollback, hwithin, -⟩
      · have hfault := hfault (hopened e.native List.mem_cons_self)
        rw [hquiet] at hfault
        cases hfault
      · rw [hrollback]
        exact hnext hwithin

/-- A rollback is refused, or it is done, or it reports failures and leaves the status alone. -/
theorem rollback_cases (w : Cluster) (tx : Nat) :
    ((w.transaction tx).status.isUnfinished = false ∧ ∃ e, w.rollback tx = (.error e, w)) ∨
    (w.transaction tx).status.isUnfinished = true ∧ ∃ w₁ w', SameStores w₁ w' ∧
      ((Undone (w.transaction tx).enlisted [] w w₁ ∧ w.rollback tx = (.ok (), w')
        ∧ Within [] (w₁.setStatus tx .rolledBack) w') ∨
      ∃ failures, (rollbackEach (w.transaction tx).enlisted w).1 = failures ∧ failures ≠ []
        ∧ Undone (w.transaction tx).enlisted failures w w₁
        ∧ w.rollback tx = (.error (.rollbackFailure failures), w') ∧ Within [] w₁ w') := by
  unfold rollback
  have hundone := rollbackEach_undone (w.transaction tx).enlisted w
  by_cases hunfinished : (w.transaction tx).status.isUnfinished = true
  · refine .inr ⟨hunfinished, ?_⟩
    simp only [if_pos hunfinished]
    generalize rollbackEach (w.transaction tx).enlisted w = undone at hundone
    match undone with
    | ([], w₁) =>
      have hafter := completeWith_work
        (report .info "rolled back transaction" (w₁.setStatus tx .rolledBack)) tx .rolledBack
      exact ⟨w₁, _, hafter.sameStores rfl,
        .inl ⟨hundone, rfl, ((Within.refl _ _).report ..).trans (hafter.quiet rfl)⟩⟩
    | (first :: failures, w₁) =>
      have hafter := w₁.completeWith_work tx .unknown
      exact ⟨w₁, _, hafter.sameStores rfl,
        .inr ⟨first :: failures, rfl, List.cons_ne_nil _ _, hundone, rfl, hafter.quiet rfl⟩⟩
  · exact .inl ⟨Bool.eq_false_iff.mpr hunfinished, _, if_neg hunfinished⟩

end ScatterGather.Cluster
