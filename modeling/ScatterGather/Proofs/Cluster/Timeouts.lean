import ScatterGather.Proofs.Cluster.Transactions
import ScatterGather.Proofs.Cluster.Work

/-!
# Timeouts of local transactions

A timeout belongs to the connection. It is set and never taken away, and begin, commit, rollback,
writes and closing have nothing to do with it. So it can come from a transaction that has long come to
its end.
-/

namespace ScatterGather

theorem Backend.timeout_setTimeout {b : Backend} {number : Nat}
    (h : number < b.connections.length) (seconds : UInt32) :
    ((b.setTimeout number seconds).connection number).timeout = some seconds := by
  unfold setTimeout
  have hfound : b.connection? number = some b.connections[number] := List.getElem?_eq_getElem h
  rw [hfound]
  have hset : (b.setConnection number { b.connections[number] with timeout := seconds }).connection?
      number = some { b.connections[number] with timeout := some seconds } :=
    connection?_set rfl hfound
  exact congrArg Connection.timeout (connection_eq hset)

namespace Cluster

variable {w w' w'' : Cluster} {tx : Nat} {ref : NativeRef}

/-- All timeouts are as they were, those of connections and those of transactions. -/
structure SameTimeouts (w w' : Cluster) : Prop where
  native : ∀ ref, (w'.native ref).timeout = (w.native ref).timeout
  transaction : ∀ tx, (w'.transaction tx).timeout = (w.transaction tx).timeout

namespace SameTimeouts

theorem refl (w : Cluster) : SameTimeouts w w :=
  ⟨fun _ => rfl, fun _ => rfl⟩

theorem trans (h : SameTimeouts w w') (h' : SameTimeouts w' w'') : SameTimeouts w w'' :=
  ⟨fun ref => (h'.native ref).trans (h.native ref),
    fun tx => (h'.transaction tx).trans (h.transaction tx)⟩

end SameTimeouts

theorem Step.sameTimeouts {effect : Effect} (h : Step effect w w')
    (hkind : [.time, .timeout].contains effect = false) : SameTimeouts w w' := by
  refine ⟨fun ref => ?_, h.timeout_eq (Effect.not_contains_mono hkind rfl)⟩
  rw [native_eq, native_eq]
  rcases h.asks ref.backend with hsame | ⟨call, hasks, hafter⟩
  · rw [hsame]
  · rw [hafter]
    refine (Backend.step_perform _ call).timeout_eq ?_ ref.connection
    rintro number seconds rfl
    cases hasks
    cases hkind

theorem Work.sameTimeouts {effects : List Effect} (h : Work effects w w')
    (hkinds : effects.any [.time, .timeout].contains = false) : SameTimeouts w w' :=
  h.keeps hkinds .refl .trans Step.sameTimeouts

/-! ## Passing a timeout on -/

/-- A transaction passed its timeout on to some connections, if it has one. No other timeout was
changed. -/
structure Passed (tx : Nat) (refs : List NativeRef) (w w' : Cluster) : Prop where
  transaction : ∀ other, (w'.transaction other).timeout = (w.transaction other).timeout
  given : ∀ ref ∈ refs,
    (w'.native ref).timeout = (w.transaction tx).timeout.or (w.native ref).timeout
  others : ∀ ref, ref ∉ refs → (w'.native ref).timeout = (w.native ref).timeout

namespace Passed

variable {refs more : List NativeRef}

theorem of_same (tx : Nat) (h : SameTimeouts w w') : Passed tx [] w w' :=
  ⟨h.transaction, nofun, fun ref _ => h.native ref⟩

theorem trans (h : Passed tx refs w w') (h' : Passed tx more w' w'') :
    Passed tx (refs ++ more) w w'' where
  transaction := fun other => (h'.transaction other).trans (h.transaction other)
  given := fun ref href => by
    -- To be given the same timeout twice makes no difference.
    have hgiven : (w'.native ref).timeout = (w.transaction tx).timeout.or (w.native ref).timeout ∨
        (w'.native ref).timeout = (w.native ref).timeout := by
      by_cases hmem : ref ∈ refs
      · exact .inl (h.given ref hmem)
      · exact .inr (h.others ref hmem)
    by_cases hmem : ref ∈ more
    · rw [h'.given ref hmem, h.transaction]
      rcases hgiven with hgiven | hgiven
      · rw [hgiven, ← Option.or_assoc, Option.or_self]
      · rw [hgiven]
    · rw [h'.others ref hmem, h.given ref ((List.mem_append.mp href).resolve_right hmem)]
  others := fun ref hne => by
    rw [List.mem_append, not_or] at hne
    rw [h'.others ref hne.2, h.others ref hne.1]

theorem same (h : Passed tx refs w w') (h' : SameTimeouts w' w'') : Passed tx refs w w'' := by
  simpa using h.trans (.of_same tx h')

end Passed

theorem setNativeTimeout_passed {seconds : UInt32} (hopened : w.IsOpened ref)
    (htimeout : (w.transaction tx).timeout = some seconds) :
    Passed tx [ref] w (w.setNativeTimeout seconds ref) := by
  refine ⟨fun _ => rfl, fun other hother => ?_, fun other hother => ?_⟩
  · obtain rfl := List.mem_singleton.mp hother
    have hbackend : (w.setNativeTimeout seconds other).backend other.backend
        = (w.backend other.backend).setTimeout other.connection seconds := by
      have hlt := lt_of_connection? (List.getElem?_eq_getElem hopened)
      exact (getD_set ..).trans (if_pos ⟨rfl, hlt⟩)
    rw [native_eq, hbackend, Backend.timeout_setTimeout hopened, htimeout]
    rfl
  · rw [(w.setNativeTimeout_within seconds ref).others other hother]

theorem passTimeout_passed (tx : Nat) (hopened : w.IsOpened ref) :
    Passed tx [ref] w (w.passTimeout tx ref) := by
  unfold passTimeout
  split
  case h_1 seconds htimeout => exact setNativeTimeout_passed hopened htimeout
  case h_2 hnone =>
    refine ⟨fun _ => rfl, fun other _ => ?_, fun _ _ => rfl⟩
    rw [hnone, Option.none_or]

theorem beginEach_passed (tx : Nat) {enlisted : List Enlisted}
    (hopened : ∀ ref ∈ enlisted.map (·.native), w.IsOpened ref) :
    Passed tx (enlisted.map (·.native)) w (beginEach tx enlisted w).2 := by
  induction enlisted generalizing w with
  | nil => exact .of_same tx (.refl w)
  | cons e rest ih =>
    rw [List.map_cons, List.forall_mem_cons] at hopened
    have hpass := w.passTimeout_within tx e.native
    have hfirst := (passTimeout_passed tx hopened.1).same
      ((Step.begin _ e.native).sameTimeouts rfl)
    rw [beginEach]
    rcases (w.passTimeout tx e.native).beginNative_cases e.native with
      ⟨reason, w₁, hbegin, hwithin, -⟩ | ⟨w₁, hbegin, -, hwithin, -⟩
    · rw [hbegin] at hfirst ⊢
      have hreport := hfirst.same ((Step.report w₁ .warn ("exception starting transaction on shard "
        ++ e.shard.text ++ ": " ++ reason.message)).sameTimeouts rfl)
      exact hreport.trans (ih fun ref href => hwithin.isOpened (hpass.isOpened (hopened.2 ref href)))
    · rw [hbegin] at hfirst ⊢
      exact hfirst.trans (ih fun ref href => hwithin.isOpened (hpass.isOpened (hopened.2 ref href)))

/-- A transaction that is begun passes its timeout on to its members; one that is active or has come
to its end does not. -/
theorem begin_passed (hopened : ∀ ref ∈ w.natives tx, w.IsOpened ref) :
    (w.transaction tx).status = .created ∧ Passed tx (w.natives tx) w (w.begin tx).2 ∨
      (w.transaction tx).status ≠ .created ∧ SameTimeouts w (w.begin tx).2 := by
  unfold begin
  simp only
  cases (w.transaction tx).status with
  | active => exact .inr ⟨nofun, (Step.report ..).sameTimeouts rfl⟩
  | created =>
    have hbegin := beginEach_passed tx hopened
    refine .inl ⟨rfl, ?_⟩
    generalize beginEach tx (w.transaction tx).enlisted w = begun at hbegin
    match begun with
    | ([], w') =>
      exact hbegin.same (((Step.status w' tx .active).sameTimeouts rfl).trans
        ((Step.report ..).sameTimeouts rfl))
    | (first :: failed, w') => exact hbegin.same ((compensate_work _ w').sameTimeouts rfl)
  | committed | failedCommit | rolledBack => exact .inr ⟨nofun, .refl w⟩

/-- A transaction and its members have the timeout that was set, and all others what they had. -/
theorem setTimeout_passed (htx : tx < w.transactions.length)
    (hopened : ∀ ref ∈ w.natives tx, w.IsOpened ref) (seconds : UInt32) :
    ((w.setTimeout tx seconds).transaction tx).timeout = some seconds
      ∧ (∀ other, other ≠ tx →
        ((w.setTimeout tx seconds).transaction other).timeout = (w.transaction other).timeout)
      ∧ (∀ ref ∈ w.natives tx, ((w.setTimeout tx seconds).native ref).timeout = some seconds)
      ∧ ∀ ref, ref ∉ w.natives tx →
        ((w.setTimeout tx seconds).native ref).timeout = (w.native ref).timeout := by
  have hfold : ∀ (enlisted : List Enlisted) (v : Cluster),
      (v.transaction tx).timeout = some seconds →
      (∀ ref ∈ enlisted.map (·.native), v.IsOpened ref) →
      Passed tx (enlisted.map (·.native)) v
        (enlisted.foldl (fun w e => w.setNativeTimeout seconds e.native) v) := by
    intro enlisted
    induction enlisted with
    | nil => exact fun v _ _ => .of_same tx (.refl v)
    | cons e rest ih =>
      intro v htimeout hopened
      rw [List.map_cons, List.forall_mem_cons] at hopened
      have hwithin := v.setNativeTimeout_within seconds e.native
      exact (setNativeTimeout_passed hopened.1 htimeout).trans
        (ih (v.setNativeTimeout seconds e.native) htimeout fun ref href =>
          hwithin.isOpened (hopened.2 ref href))
  have hself := transaction_mapTransaction_self htx fun t => { t with timeout := some seconds }
  have hpassed := hfold (w.transaction tx).enlisted
    (w.mapTransaction tx fun t => { t with timeout := some seconds }) (by rw [hself]) hopened
  have hset : w.setTimeout tx seconds = (w.transaction tx).enlisted.foldl
      (fun w e => w.setNativeTimeout seconds e.native)
      (w.mapTransaction tx fun t => { t with timeout := some seconds }) := by
    unfold setTimeout
    simp only [hself]
  rw [hset]
  refine ⟨?_, fun other hne => ?_, fun ref href => ?_, hpassed.others⟩
  · rw [hpassed.transaction, hself]
  · rw [hpassed.transaction, transaction_mapTransaction_ne hne]
  · rw [hpassed.given ref href, hself, Option.some_or]

end Cluster

end ScatterGather
