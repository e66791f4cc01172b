import ScatterGather.Proofs.Session.Closing
import ScatterGather.Proofs.Session.Hookless
import ScatterGather.Proofs.Session.Timekeeping

/-!
# Which timeout a transaction runs with

While a transaction is active its members have its timeout, with two exceptions, since a timeout is
never taken away from a connection. If the transaction has none itself, a member may still have that
of an earlier transaction. And a caller who keeps hold of an earlier transaction can set its timeout at
any time, which reaches the connections that the two have in common.
-/

namespace ScatterGather

/-- At this moment the timeout of a transaction is set while the current one is active. -/
structure Cluster.Moment.Overrides (number other tx : Nat) (m : Cluster.Moment) : Prop where
  sets : ∃ name seconds, m.call = .setTimeout name seconds
    ∧ m.state.named? number name = some other
  current : (m.state.session number).current = some tx
  active : (m.state.transaction tx).status = .active

namespace Cluster

variable {w w' w'' : Cluster} {number : Nat} {shard : Shard} {ref : NativeRef} {tx : Nat}
variable {overrides : Nat → Nat → Prop}

/-- The timeouts of a session are in order. Whatever its handles hold and the current transaction has
as members has a timeout from somewhere, and while that transaction is active, its own timeout counts
unless it was overridden. -/
structure Timely (overrides : Nat → Nat → Prop) (w : Cluster) (number : Nat) : Prop where
  held : ∀ shard ∈ (w.session number).shards, ∀ ref, w.connection? shard = some ref →
    w.Sourced ref
  joined : ∀ tx, (w.session number).current = some tx → ∀ ref ∈ w.natives tx, w.Sourced ref
  last : ∀ tx, (w.session number).current = some tx → ∀ shard ∈ (w.session number).shards,
    Last tx (w.slot shard).events
  obeyed : ∀ tx, (w.session number).current = some tx → (w.transaction tx).status = .active →
    ∀ ref ∈ w.natives tx, w.Obeys tx ref ∨ ∃ other ≠ tx, w.Gives other ref ∧ overrides other tx

/-! ## Steps that set no timeout

Most of what a session does sets no timeout. For the functions below it is known already
(`SameTimeouts`); what has to be said of them is that they bring in no member and begin nothing. -/

/-- A session has the same transaction with the same members, no further connections, and the same
transactions waiting. No transaction was begun. -/
structure Lasting (number : Nat) (w w' : Cluster) : Prop where
  current : (w'.session number).current = (w.session number).current
  shards : (w'.session number).shards = (w.session number).shards
  connection? : ∀ shard ref, w'.connection? shard = some ref → w.connection? shard = some ref
  waiting : ∀ shard, waiting (w'.slot shard).events = waiting (w.slot shard).events
  natives : ∀ tx, w'.natives tx = w.natives tx
  active : ∀ tx, (w'.transaction tx).status = .active → (w.transaction tx).status = .active

namespace Lasting

theorem refl (number : Nat) (w : Cluster) : Lasting number w w :=
  ⟨rfl, rfl, fun _ _ h => h, fun _ => rfl, fun _ => rfl, fun _ h => h⟩

theorem trans (h : Lasting number w w') (h' : Lasting number w' w'') : Lasting number w w'' where
  current := h'.current.trans h.current
  shards := h'.shards.trans h.shards
  connection? := fun shard ref href => h.connection? shard ref (h'.connection? shard ref href)
  waiting := fun shard => (h'.waiting shard).trans (h.waiting shard)
  natives := fun tx => (h'.natives tx).trans (h.natives tx)
  active := fun tx hactive => h.active tx (h'.active tx hactive)

theorem of_within {refs : List NativeRef} (h : Within refs w w') : Lasting number w w' where
  current := by rw [h.session]
  shards := by rw [h.session]
  connection? := fun shard _ href => h.connection? shard ▸ href
  waiting := fun shard => by rw [h.slot]
  natives := h.natives
  active := fun tx hactive => h.status tx ▸ hactive

theorem setStatus (w : Cluster) (tx : Nat) {status : TransactionStatus} (h : status ≠ .active) :
    Lasting number w (w.setStatus tx status) where
  current := rfl
  shards := rfl
  connection? := fun _ _ href => href
  waiting := fun _ => rfl
  natives := fun other => natives_setStatus w tx other status
  active := fun other hactive => by
    by_cases heq : other = tx
    · subst heq
      rcases Nat.lt_or_ge other w.transactions.length with hlt | hge
      · rw [status_setStatus hlt] at hactive
        exact absurd hactive h
      · rw [Cluster.setStatus, transaction_mapTransaction, if_neg fun hand => by omega] at hactive
        exact hactive
    · rwa [status_setStatus_ne heq] at hactive

/-- Work at the end of which a transaction has another status. -/
theorem marked {w₁ : Cluster} {refs : List NativeRef} {status : TransactionStatus}
    (hwithin : Within refs w w₁) (hmarked : Within [] (w₁.setStatus tx status) w')
    (h : status ≠ .active) : Lasting number w w' :=
  ((of_within hwithin).trans (setStatus w₁ tx h)).trans (of_within hmarked)

theorem withEvents (w : Cluster) (shard : Shard) {events : List OpenEvent}
    (h : Cluster.waiting events = Cluster.waiting (w.slot shard).events) :
    Lasting number w (w.withEvents shard events) where
  current := rfl
  shards := rfl
  connection? := fun other _ href => connection?_withEvents w shard other events ▸ href
  waiting := fun _ => waiting_withEvents h
  natives := fun _ => rfl
  active := fun _ h => h

theorem unplug (w : Cluster) (shard : Shard) : Lasting number w (w.unplug shard) where
  current := rfl
  shards := rfl
  connection? := fun _ _ => connection?_of_unplug
  waiting := fun other => by
    rw [Cluster.unplug, slot_setSlot]
    split
    case isTrue h => rw [slot, h.1, slot]
    case isFalse => rfl
  natives := fun _ => rfl
  active := fun _ h => h

end Lasting

/-- Where no timeout is set and nobody joins, a timeout that was given by a transaction is still that
transaction's. -/
theorem Timely.lasting (h : Timely overrides w number) (hlasting : Lasting number w w')
    (htimeouts : SameTimeouts w w') : Timely overrides w' number := by
  have hsourced : ∀ ref, w.Sourced ref → w'.Sourced ref := fun ref hsourced =>
    hsourced.kept (fun tx hmem => (hlasting.natives tx).symm ▸ hmem) (htimeouts.native ref)
      htimeouts.transaction
  refine ⟨?_, ?_, ?_, ?_⟩
  · rw [hlasting.shards]
    exact fun shard hshard ref href =>
      hsourced ref (h.held shard hshard ref (hlasting.connection? shard ref href))
  · simp only [hlasting.current, hlasting.natives]
    exact fun tx htx ref href => hsourced ref (h.joined tx htx ref href)
  · simp only [hlasting.current, hlasting.shards]
    exact fun tx htx shard hshard => (h.last tx htx shard hshard).congr (hlasting.waiting shard)
  · simp only [hlasting.current, hlasting.natives]
    intro tx htx hactive ref href
    refine (h.obeyed tx htx (hlasting.active tx hactive) ref href).imp
      (fun hobeys => hobeys.kept (htimeouts.native ref) (htimeouts.transaction tx)) ?_
    rintro ⟨other, hne, hgives, hover⟩
    refine ⟨other, hne, hgives.kept ?_ (htimeouts.native ref) (htimeouts.transaction other), hover⟩
    rw [hlasting.natives]
    exact hgives.1

/-- No ending makes a transaction active, whether it is the one that was asked for or not. -/
theorem commit_lasting (w : Cluster) (tx number : Nat) : Lasting number w (w.commit tx).2 := by
  rcases w.commit_cases tx with ⟨-, e, hcommit⟩ | ⟨-, done, w₁, w', hdone, -, hend⟩
  · rw [hcommit]
    exact .refl number w
  · rcases hend with ⟨-, hcommit, hafter⟩ | ⟨e, rest, reason, -, hcommit, hafter⟩
    · rw [hcommit]
      exact .marked hdone.within hafter nofun
    · rw [hcommit]
      exact .marked hdone.within hafter nofun

theorem rollback_lasting (w : Cluster) (tx number : Nat) :
    Lasting number w (w.rollback tx).2 := by
  rcases w.rollback_cases tx with ⟨-, e, hrollback⟩ | ⟨-, w₁, w', -, hend⟩
  · rw [hrollback]
    exact .refl number w
  · rcases hend with ⟨hundone, hrollback, hafter⟩ | ⟨failures, -, -, hundone, hrollback, hafter⟩
    · rw [hrollback]
      exact .marked hundone.within hafter nofun
    · rw [hrollback]
      exact (Lasting.of_within hundone.within).trans (.of_within hafter)

theorem closeShard_lasting (w : Cluster) (shard : Shard) (number : Nat) :
    Lasting number w (w.closeShard shard).2 := by
  cases hconnection : w.connection? shard with
  | none =>
    rw [closeShard, hconnection]
    exact .refl number w
  | some ref => exact (Lasting.unplug w shard).trans (.of_within (closeShard_within hconnection))

theorem closeShards_lasting (shards : List Shard) (w : Cluster) (number : Nat) :
    Lasting number w (closeShards shards w).2 := by
  induction shards generalizing w with
  | nil => exact .refl number w
  | cons shard rest ih =>
    have hlasting := w.closeShard_lasting shard number
    rw [closeShards]
    generalize w.closeShard shard = closed at hlasting
    obtain ⟨answer, w₁⟩ := closed
    cases answer with
    | ok done => exact hlasting.trans (ih w₁)
    | error e =>
      have hwarn : Lasting number w₁ (report .warn e.message w₁) :=
        .of_within ((Within.refl [] w₁).report ..)
      exact (hlasting.trans hwarn).trans (ih _)

theorem closeSession_lasting (w : Cluster) (number : Nat) :
    Lasting number w (w.closeSession number).2 := by
  unfold closeSession
  simp only
  split
  · exact .refl number w
  · generalize hw₁ : (w.mapSession number fun session => { session with closed := true }) = w₁
    have hshut : Lasting number w w₁ := by
      have hsession : (w₁.session number).current = (w.session number).current
          ∧ (w₁.session number).shards = (w.session number).shards := by
        rw [← hw₁, session, mapSession, getD_set]
        split
        · exact ⟨rfl, rfl⟩
        · exact ⟨rfl, rfl⟩
      refine ⟨hsession.1, hsession.2, ?_, ?_, ?_, ?_⟩
      all_goals rw [← hw₁]
      · exact fun _ _ href => href
      · exact fun _ => rfl
      · exact fun _ => rfl
      · exact fun _ hactive => hactive
    have hwarn := (w₁.warnUnfinished_work (w.session number).current).quiet rfl
    have hclosed := (hshut.trans (.of_within hwarn)).trans
      (closeShards_lasting (w.session number).shards _ number)
    generalize closeShards (w.session number).shards _ = closed at hclosed ⊢
    obtain ⟨errors, w₂⟩ := closed
    have hreported := hclosed.trans (.of_within ((Within.refl [] w₂).report .info
      ("closed session over " ++ Text.ofNat (w.session number).shards.length ++ " shard(s)")))
    cases errors with
    | nil => exact hreported
    | cons first rest => exact hreported

/-! ## Steps that set timeouts

A begin passes the timeout on to the members of the current transaction, `setTimeout` to those of any
transaction. Only the latter can give a member of the current transaction a timeout that is not its
own. -/

/-- The current transaction passes its timeout on to its members. -/
theorem Timely.passed (h : Timely overrides w number) (htx : (w.session number).current = some tx)
    (hpassed : Passed tx (w.natives tx) w w') (hsession : w'.session number = w.session number)
    (hslots : w'.slots = w.slots) (hnatives : ∀ tx, w'.natives tx = w.natives tx) :
    Timely overrides w' number := by
  have hsourced : ∀ ref, w.Sourced ref → w'.Sourced ref := by
    intro ref hsourced
    have hkept : (w'.native ref).timeout = (w.native ref).timeout → w'.Sourced ref := fun hsame =>
      hsourced.kept (fun tx hmem => (hnatives tx).symm ▸ hmem) hsame hpassed.transaction
    by_cases hmem : ref ∈ w.natives tx
    · have hgiven := hpassed.given ref hmem
      cases htimeout : (w.transaction tx).timeout with
      | none =>
        rw [htimeout, Option.none_or] at hgiven
        exact hkept hgiven
      | some seconds =>
        refine .inr ⟨tx, (hnatives tx).symm ▸ hmem, ?_⟩
        rw [hgiven, hpassed.transaction, htimeout, Option.some_or]
    · exact hkept (hpassed.others ref hmem)
  have hslot := slot_congr hslots
  refine ⟨?_, ?_, ?_, ?_⟩
  · simp only [hsession, Cluster.connection?, hslot]
    exact fun shard hshard ref href => hsourced ref (h.held shard hshard ref href)
  · simp only [hsession, hnatives]
    exact fun other hother ref href => hsourced ref (h.joined other hother ref href)
  · simp only [hsession, hslot]
    exact h.last
  · simp only [hsession, hnatives]
    intro other hother _ ref href
    obtain rfl := Option.some.inj (htx.symm.trans hother)
    have hgiven := hpassed.given ref href
    cases htimeout : (w.transaction tx).timeout with
    | none => exact .inl (.inl ((hpassed.transaction tx).trans htimeout))
    | some seconds =>
      refine .inl (.inr ?_)
      rw [hgiven, hpassed.transaction, htimeout, Option.some_or]

/-- A begin either passes the timeout on, or the transaction had been begun before and nothing is
set. -/
theorem Timely.begin (h : Timely overrides w number) (htidy : Tidy w number)
    (htx : tx < w.transactions.length) : Timely overrides (w.begin tx).2 number := by
  obtain ⟨hslots, henlisted⟩ := (w.begin_work tx).sameMembers rfl
  have hsession := session_congr ((w.begin_work tx).sessions_eq rfl) number
  have hnatives : ∀ other, (w.begin tx).2.natives other = w.natives other := fun other => by
    rw [natives, henlisted, natives]
  rcases begin_passed (htidy.members tx) with ⟨hcreated, hpassed⟩ | ⟨hbegun, htimeouts⟩
  · have hcurrent := htidy.current_of_unended htx (by rw [hcreated]; rfl)
    exact h.passed hcurrent hpassed hsession hslots hnatives
  · refine h.lasting ⟨by rw [hsession], by rw [hsession], fun shard ref href => ?_, fun shard => ?_,
      hnatives, fun other hactive => ?_⟩ htimeouts
    · rwa [Cluster.connection?, slot, hslots] at href
    · rw [slot_congr hslots]
    · rcases w.begin_cases tx with ⟨w', hbegin, -, hwithin, -⟩ |
        ⟨_, _, -, hcreated, -⟩ | ⟨e, w', hbegin, -, hwithin, -⟩
      · rwa [hbegin, hwithin.status] at hactive
      · exact absurd hcreated hbegun
      · rwa [hbegin, hwithin.status] at hactive

/-- The timeout of a transaction is set. What it reaches of an active transaction is overridden,
unless it is the timeout of that one. -/
theorem Timely.set (h : Timely overrides w number) (htidy : Tidy w number) {changed : Nat}
    (hknown : changed < w.transactions.length) (seconds : UInt32)
    (hover : ∀ tx, (w.session number).current = some tx → (w.transaction tx).status = .active →
      overrides changed tx) : Timely overrides (w.setTimeout changed seconds) number := by
  have hwithin := w.setTimeout_within changed seconds
  obtain ⟨hself, hothers, hmembers, hrest⟩ :=
    setTimeout_passed hknown (htidy.members changed) seconds
  generalize w.setTimeout changed seconds = w' at hwithin hself hothers hmembers hrest
  have hgives : ∀ ref ∈ w.natives changed, w'.Gives changed ref := fun ref href =>
    ⟨hwithin.natives changed ▸ href, (hmembers ref href).trans hself.symm⟩
  -- What gave a timeout to a connection that is not reached is another transaction.
  have hkept : ∀ {tx ref}, ref ∉ w.natives changed → w.Gives tx ref → w'.Gives tx ref := by
    intro tx ref hout hgives
    have hne : tx ≠ changed := fun heq => hout (heq ▸ hgives.1)
    exact hgives.kept (hwithin.natives tx ▸ hgives.1) (hrest ref hout) (hothers tx hne)
  have hsourced : ∀ ref, w.Sourced ref → w'.Sourced ref := by
    intro ref hsourced
    by_cases hmem : ref ∈ w.natives changed
    · exact .inr ⟨changed, hgives ref hmem⟩
    · rcases hsourced with hnone | ⟨tx, hsource⟩
      · exact .inl ((hrest ref hmem).trans hnone)
      · exact .inr ⟨tx, hkept hmem hsource⟩
  refine ⟨?_, ?_, ?_, ?_⟩
  · simp only [hwithin.session, hwithin.connection?]
    exact fun shard hshard ref href => hsourced ref (h.held shard hshard ref href)
  · simp only [hwithin.session, hwithin.natives]
    exact fun tx htx ref href => hsourced ref (h.joined tx htx ref href)
  · simp only [hwithin.session, hwithin.slot]
    exact h.last
  · simp only [hwithin.session, hwithin.natives, hwithin.status]
    intro tx htx hactive ref href
    by_cases heq : tx = changed
    · subst heq
      exact .inl (.inr (hgives ref href).2)
    · by_cases hmem : ref ∈ w.natives changed
      · exact .inr ⟨changed, Ne.symm heq, hgives ref hmem, hover tx htx hactive⟩
      · refine (h.obeyed tx htx hactive ref href).imp
          (fun hobeys => hobeys.kept (hrest ref hmem) (hothers tx heq)) ?_
        rintro ⟨other, hne, hsource, hwhy⟩
        exact ⟨other, hne, hkept hmem hsource, hwhy⟩

/-! ## A new transaction

The handles that are connected are members from the start, and the others have the new transaction
waiting behind everything that waited before. -/

/-- Nothing but the new transaction is added to what waits on a handle. -/
theorem enlistShards_waiting (tx : Nat) (shards : List Shard) (w : Cluster) (shard : Shard) :
    ∃ more, (∀ other ∈ more, other = tx)
      ∧ waiting ((enlistShards tx shards w).slot shard).events
        = waiting (w.slot shard).events ++ more := by
  induction shards generalizing w with
  | nil => exact ⟨[], nofun, (List.append_nil _).symm⟩
  | cons first rest ih =>
    rw [enlistShards]
    cases hconnection : w.connection? first with
    | some ref =>
      rw [registerEvent_of_connected hconnection]
      exact ih (w.enlist tx first.physicalId ref)
    | none =>
      rw [registerEvent_of_unconnected hconnection]
      obtain ⟨more, hmore, hsame⟩ :=
        ih (w.withEvents first ((w.slot first).events ++ [.enlist tx]))
      dsimp only
      rw [hsame, withEvents, slot_setSlot]
      split
      case isTrue heq =>
        refine ⟨tx :: more, List.forall_mem_cons.mpr ⟨rfl, hmore⟩, ?_⟩
        have hslot : w.slot first = w.slot shard := by rw [slot, slot, heq.1]
        rw [hslot, waiting_append, List.append_assoc]
        rfl
      case isFalse => exact ⟨more, hmore, rfl⟩

/-- The steps of a renewal, with the recruiting of the members apart. -/
theorem renewTransaction_eq (w : Cluster) (number : Nat) :
    (w.renewTransaction number).2 = (match (w.session number).timeout with
      | some seconds => (w.recruited number).setTimeout w.transactions.length seconds
      | none => w.recruited number).mapSession number fun session =>
        { session with current := some w.transactions.length } :=
  rfl

/-- The members of a new transaction get the session's timeout, if that has one. -/
theorem Tidy.renewTransaction_timeouts (h : Tidy w number) :
    let w' := (w.renewTransaction number).2
    (∀ other, other ≠ w.transactions.length →
        (w'.transaction other).timeout = (w.transaction other).timeout)
      ∧ (∀ ref ∈ w'.natives w.transactions.length, (w'.native ref).timeout
        = (w'.transaction w.transactions.length).timeout.or (w.native ref).timeout)
      ∧ ∀ shard, ∃ more, (∀ other ∈ more, other = w.transactions.length)
        ∧ waiting (w'.slot shard).events = waiting (w.slot shard).events ++ more := by
  have hlength : w.transactions.length < w.withTransaction.transactions.length := by
    simp [withTransaction]
  have hrecruits := enlistShards_recruits (w.session number).shards hlength
  have htime := (enlistShards_work w.transactions.length (w.session number).shards
    w.withTransaction).timeout_eq rfl
  have hwaiting :=
    enlistShards_waiting w.transactions.length (w.session number).shards w.withTransaction
  rw [renewTransaction_eq, recruited]
  generalize enlistShards w.transactions.length (w.session number).shards w.withTransaction = w₁
    at hrecruits htime hwaiting
  have hnative : ∀ ref, w₁.native ref = w.native ref := fun ref => by
    rw [native, backend, hrecruits.backends]
    rfl
  have htime : ∀ other, (w₁.transaction other).timeout = (w.transaction other).timeout := by
    intro other
    rw [htime, transaction_withTransaction]
  have hopened : ∀ ref ∈ w₁.natives w.transactions.length, w₁.IsOpened ref := by
    intro ref href
    rw [natives, hrecruits.enlisted, transaction_withTransaction, enlisted_of_ge (Nat.le_refl _)]
      at href
    obtain ⟨e, he, rfl⟩ := List.mem_map.mp href
    obtain ⟨shard, hshard, hentry⟩ := List.mem_filterMap.mp he
    obtain ⟨ref, hconnected, rfl⟩ := Option.map_eq_some_iff.mp hentry
    rw [IsOpened, backend, hrecruits.backends]
    exact h.opened shard hshard ref hconnected
  cases (w.session number).timeout with
  | none =>
    refine ⟨fun other _ => htime other, fun ref _ => ?_, hwaiting⟩
    have hnone : (w₁.transaction w.transactions.length).timeout = none := by
      rw [htime, enlisted_of_ge (Nat.le_refl _)]
      rfl
    change (w₁.native ref).timeout = (w₁.transaction w.transactions.length).timeout.or _
    rw [hnone, Option.none_or, hnative]
  | some seconds =>
    have hknown : w.transactions.length < w₁.transactions.length :=
      Nat.lt_of_lt_of_eq hlength hrecruits.transactions.symm
    have hwithin := w₁.setTimeout_within w.transactions.length seconds
    obtain ⟨hself, hothers, hmembers, -⟩ := setTimeout_passed hknown hopened seconds
    refine ⟨fun other hne => (hothers other hne).trans (htime other), fun ref href => ?_,
      fun shard => ?_⟩
    · have href : ref ∈ (w₁.setTimeout w.transactions.length seconds).natives
          w.transactions.length := href
      rw [hwithin.natives] at href
      exact (hmembers ref href).trans (by
        change _ = ((w₁.setTimeout w.transactions.length seconds).transaction _).timeout.or _
        rw [hself, Option.some_or])
    · obtain ⟨more, hmore, hsame⟩ := hwaiting shard
      have hslot := congrArg (fun slot => waiting slot.events) (hwithin.slot shard)
      exact ⟨more, hmore, hslot.trans hsame⟩

theorem Tidy.waiting_lt (h : Tidy w number) (hshard : shard ∈ (w.session number).shards) :
    ∀ tx ∈ waiting (w.slot shard).events, tx < w.transactions.length := fun tx htx =>
  h.queued shard hshard tx (mem_waiting.mp htx)

/-- A new transaction takes over connections whose timeouts came from elsewhere. It is not active, so
none of them has to obey it yet. -/
theorem Timely.renew (h : Timely overrides w number) (htidy : Tidy w number) :
    Timely overrides (w.renewTransaction number).2 number := by
  have hrenewed := w.renewTransaction_renewed htidy.here
  obtain ⟨hothers, hgiven, hwaiting⟩ := htidy.renewTransaction_timeouts
  generalize (w.renewTransaction number).2 = w' at hrenewed hothers hgiven hwaiting
  have hcurrent : (w'.session number).current = some w.transactions.length := by
    rw [hrenewed.session]
  have hshards : (w'.session number).shards = (w.session number).shards := by
    rw [hrenewed.session]
  have hold : w.natives w.transactions.length = [] := by
    rw [natives, enlisted_of_ge (Nat.le_refl _)]
    rfl
  -- All members are connections of handles, whose timeouts came from somewhere before.
  have hsourced : ∀ ref ∈ w'.natives w.transactions.length, w'.Sourced ref := by
    intro ref href
    have htimeout := hgiven ref href
    cases hnone : (w'.transaction w.transactions.length).timeout with
    | some seconds =>
      rw [hnone, Option.some_or, ← hnone] at htimeout
      exact .inr ⟨_, href, htimeout⟩
    | none =>
      rw [hnone, Option.none_or] at htimeout
      rw [hrenewed.natives] at href
      obtain ⟨shard, hshard, hconnected⟩ := List.mem_filterMap.mp href
      rcases h.held shard hshard ref hconnected with hbare | ⟨tx, hgives⟩
      · exact .inl (htimeout.trans hbare)
      · have hne : tx ≠ w.transactions.length := by
          rintro rfl
          rw [Gives, hold] at hgives
          exact absurd hgives.1 List.not_mem_nil
        refine .inr ⟨tx, hgives.kept ?_ htimeout (hothers tx hne)⟩
        rw [natives, hrenewed.enlisted tx hne]
        exact hgives.1
  refine ⟨?_, ?_, ?_, ?_⟩
  · rw [hshards]
    intro shard hshard ref hconnected
    rw [hrenewed.connection?] at hconnected
    refine hsourced ref ?_
    rw [hrenewed.natives]
    exact List.mem_filterMap.mpr ⟨shard, hshard, hconnected⟩
  · rw [hcurrent]
    rintro tx ⟨⟩ ref href
    exact hsourced ref href
  · rw [hcurrent, hshards]
    rintro tx ⟨⟩ shard hshard
    obtain ⟨more, hmore, hsame⟩ := hwaiting shard
    have hbefore := htidy.waiting_lt hshard
    rw [Last, hsame]
    refine List.pairwise_append.mpr ⟨?_, ?_, fun _ _ other hother _ => hmore other hother⟩
    · refine List.pairwise_of_forall_mem_list fun one hone other _ heq => ?_
      exact absurd heq (Nat.ne_of_lt (hbefore one hone))
    · exact List.pairwise_of_forall_mem_list fun _ _ other hother _ => hmore other hother
  · rw [hcurrent]
    rintro tx ⟨⟩ hactive
    rw [hrenewed.status, enlisted_of_ge (Nat.le_refl _)] at hactive
    cases hactive

/-! ## Connecting a handle

What an attempt to connect a handle does to its own connection is known (`Punctual`). Here it is
joined with what the attempt does to all others, first for the attempt by itself (`Tried`) and then
for a session. -/

/-- Whether or not it succeeds, an attempt to connect a handle takes no connection out of a
transaction, and if the handle gets one no transaction waits on it any longer. -/
structure Tried (shard : Shard) (w w' : Cluster) : Prop extends Attempt shard w w' where
  kept : ∀ tx ref, ref ∈ w.natives tx → ref ∈ w'.natives tx
  ended : w'.connection? shard = none ∨ waiting (w'.slot shard).events = []

/-- Of the two ways in which an attempt ends, only success leaves events behind, and none of them waits
for a transaction. -/
theorem establish_tried (hslot : shard.handle < w.slots.length)
    (hbackend : shard.backend < w.backends.length) (hnone : w.connection? shard = none)
    (hmembers : ∀ tx, ∀ ref ∈ w.natives tx, w.IsOpened ref) :
    Tried shard w (w.establish shard).2 := by
  rcases establish_attempt hslot hbackend hnone hmembers with
    ⟨ref, w', hestablish, hattached⟩ | ⟨e, w', hestablish, hrefused⟩
  · rw [hestablish]
    refine ⟨hattached.toAttempt, fun other found hfound => ?_, .inr ?_⟩
    · rcases hattached.enlisted_cases other with hsame | hjoined
      · rwa [natives, hsame]
      · rw [natives, hjoined, List.map_append]
        exact List.mem_append_left _ hfound
    · exact List.eq_nil_iff_forall_not_mem.mpr fun tx htx =>
        hattached.drained tx (mem_waiting.mp htx)
  · rw [hestablish]
    refine ⟨hrefused.toAttempt, fun other found hfound => ?_, .inl hrefused.unconnected⟩
    rcases hrefused.enlisted other with hsame | ⟨ref, -, -, -, hjoined, -⟩
    · rwa [natives, hsame]
    · rw [natives, hjoined, List.map_append]
      exact List.mem_append_left _ hfound

namespace Tried

/-- Connections that were open before the attempt keep where their timeouts are from. -/
theorem sourced (h : Tried shard w w')
    (htime : ∀ tx, (w'.transaction tx).timeout = (w.transaction tx).timeout)
    (hopened : w.IsOpened ref) (hsourced : w.Sourced ref) : w'.Sourced ref :=
  hsourced.kept (fun tx => h.kept tx ref) (congrArg Connection.timeout (h.others ref hopened)) htime

/-- An attempt that fails puts the events back in the order in which they waited. -/
theorem last (h : Tried shard w w') (hpunctual : Punctual tx shard w w')
    (hlast : Last tx (w.slot shard).events) : Last tx (w'.slot shard).events :=
  h.ended.elim (fun hunconnected => hlast.congr (hpunctual.requeued hunconnected)) .of_nil

end Tried

/-- If there is no current transaction, nothing is asked of a number that none has. -/
theorem Timely.exists_last (h : Timely overrides w number) (htidy : Tidy w number) :
    ∃ tx, (∀ other, (w.session number).current = some other → other = tx)
      ∧ ∀ shard ∈ (w.session number).shards, Last tx (w.slot shard).events := by
  cases hcurrent : (w.session number).current with
  | some tx => exact ⟨tx, fun other hother => (Option.some.inj hother).symm, h.last tx hcurrent⟩
  | none =>
    refine ⟨w.transactions.length, by simp, fun shard hshard => ?_⟩
    exact List.pairwise_of_forall_mem_list fun one hone _ _ heq =>
      absurd heq (Nat.ne_of_lt (htidy.waiting_lt hshard one hone))

/-- An attempt concerns one handle and the connection it opens, whose timeout is in order. -/
theorem Timely.tried (h : Timely overrides w number) (htidy : Tidy w number)
    (hshard : shard ∈ (w.session number).shards)
    (hcurrent : ∀ other, (w.session number).current = some other → other = tx)
    (hlast : ∀ shard ∈ (w.session number).shards, Last tx (w.slot shard).events)
    (htried : Tried shard w w') (hpunctual : Punctual tx shard w w')
    (htime : ∀ tx, (w'.transaction tx).timeout = (w.transaction tx).timeout) :
    Timely overrides w' number := by
  have hsession : w'.session number = w.session number := by
    rw [session, htried.sessions, session]
  refine ⟨?_, ?_, ?_, ?_⟩
  · rw [hsession]
    intro other hother ref hconnected
    by_cases heq : other = shard
    · subst heq
      exact (hpunctual.clocked ref (.inl hconnected)).sourced
    · rw [htried.connections other (htidy.handle_ne hother hshard heq)] at hconnected
      exact htried.sourced htime (htidy.opened other hother ref hconnected)
        (h.held other hother ref hconnected)
  · rw [hsession]
    intro other hother ref hmem
    obtain rfl := hcurrent other hother
    by_cases hbefore : ref ∈ w.natives other
    · exact htried.sourced htime (htidy.members other ref hbefore) (h.joined other hother ref hbefore)
    · exact (hpunctual.clocked ref (.inr ⟨hmem, hbefore⟩)).sourced
  · rw [hsession]
    intro other hother shard' hshard'
    obtain rfl := hcurrent other hother
    by_cases heq : shard' = shard
    · subst heq
      exact htried.last hpunctual (hlast shard' hshard')
    · rw [htried.events shard' (htidy.handle_ne hshard' hshard heq)]
      exact hlast shard' hshard'
  · rw [hsession]
    intro other hother hactive ref hmem
    obtain rfl := hcurrent other hother
    rw [htried.status] at hactive
    by_cases hbefore : ref ∈ w.natives other
    · have hnative := congrArg Connection.timeout
        (htried.others ref (htidy.members other ref hbefore))
      refine (h.obeyed other hother hactive ref hbefore).imp
        (fun hobeys => hobeys.kept hnative (htime other)) ?_
      rintro ⟨source, hne, hgives, hover⟩
      exact ⟨source, hne, hgives.kept (htried.kept source ref hgives.1) hnative (htime source), hover⟩
    · exact .inl ((hpunctual.clocked ref (.inr ⟨hmem, hbefore⟩)).obeys hmem)

/-- The stages of an attempt put together. -/
theorem Timely.establish (h : Timely overrides w number) (htidy : Tidy w number)
    (hshard : shard ∈ (w.session number).shards) :
    Timely overrides (w.establish shard).2 number := by
  cases hnone : w.connection? shard with
  | some ref =>
    rw [Cluster.establish, hnone]
    exact h
  | none =>
    obtain ⟨tx, hcurrent, hlast⟩ := h.exists_last htidy
    have hslot := htidy.slots shard hshard
    have hbackend := htidy.backends shard hshard
    exact h.tried htidy hshard hcurrent hlast (establish_tried hslot hbackend hnone htidy.members)
      (establish_punctual hslot hbackend hnone htidy.members (hlast shard hshard))
      ((w.establish_work shard).timeout_eq rfl)

/-! ## Calls

Of the calls that are made of several steps each step is one of the above. -/

theorem Timely.quiet (h : Timely overrides w number) (hwithin : Within [] w w')
    (htimeouts : SameTimeouts w w') : Timely overrides w' number :=
  h.lasting (.of_within hwithin) htimeouts

theorem Timely.hand (h : Timely overrides w number) (handed : List (Option Nat)) :
    Timely overrides { w with handed := handed } number :=
  h.lasting (.of_within ((Step.hand w handed).quiet rfl)) ⟨fun _ => rfl, fun _ => rfl⟩

theorem Timely.handOutOk {result : Except ShardError Nat × Cluster}
    (h : Timely overrides result.2 number) : Timely overrides (handOutOk result) number := by
  match result with
  | (.error e, w₁) => exact h
  | (.ok tx, w₁) =>
    simp only [Cluster.handOutOk, handOut]
    split
    · exact h
    · exact h.hand _

theorem Timely.currentTransaction (h : Timely overrides w number) (htidy : Tidy w number) :
    Timely overrides (w.currentTransaction number).2 number := by
  unfold Cluster.currentTransaction
  simp only
  split
  · exact h
  · cases (w.session number).current with
    | none => exact h.renew htidy
    | some tx =>
      simp only
      split
      · generalize hw₁ : report .debug "previous transaction completed, starting a new one" w = w₁
        have hreport : Within [] w w₁ := hw₁ ▸ (Within.refl _ w).report ..
        have htimeouts : SameTimeouts w w₁ := hw₁ ▸ (Step.report ..).sameTimeouts rfl
        exact (h.quiet hreport htimeouts).renew (htidy.within hreport (hw₁ ▸ rfl))
      · exact h

theorem Timely.beginTransaction (h : Timely overrides w number) (htidy : Tidy w number) :
    Timely overrides (w.beginTransaction number).2 number := by
  have htimely := h.currentTransaction htidy
  obtain ⟨hmoves, hcurrent⟩ := htidy.currentTransaction_moves .beginTransaction
  unfold Cluster.beginTransaction
  generalize w.currentTransaction number = asked at htimely hmoves hcurrent
  match asked with
  | (.error e, w₁) => exact htimely
  | (.ok tx, w₁) =>
    have htidy₁ : Tidy w₁ number := htidy.moves hmoves
    have hbegin := Timely.begin htimely htidy₁ (htidy₁.known tx (hcurrent tx rfl))
    simp only
    generalize w₁.begin tx = begun at hbegin
    match begun with
    | (.error e, w₂) => exact hbegin
    | (.ok (), w₂) => exact hbegin

theorem Timely.write (h : Timely overrides w number) (htidy : Tidy w number)
    (hshard : shard ∈ (w.session number).shards) (key : String) (value : Option Json) :
    Timely overrides (w.write shard key value).2 number := by
  have hestablished := h.establish htidy hshard
  unfold Cluster.write onShard
  generalize w.establish shard = established at hestablished
  match established with
  | (.error e, w₁) => exact hestablished
  | (.ok ref, w₁) =>
    have htimeouts := (Step.write w₁ ref key value).sameTimeouts rfl
    have hlasting : Lasting number w₁ (w₁.callBackend ref.backend fun b =>
        b.write ref.connection key value).2 := by
      rcases w₁.writeNative_cases ref key value with ⟨w₂, hwrite, hwithin, -⟩ |
        ⟨w₂, hwrite, -, hwithin, -⟩ | ⟨w₂, hwrite, -, hwithin⟩
      all_goals
        rw [hwrite]
        exact .of_within hwithin
    exact hestablished.lasting hlasting htimeouts

/-- Any call leaves the timeouts of a session in order. -/
theorem Timely.after (h : Timely overrides w number) (htidy : Tidy w number) (call : SessionCall)
    (hover : ∀ other tx, (Moment.mk w call).Overrides number other tx → overrides other tx) :
    Timely overrides (w.after number call) number := by
  have hnamed : ∀ (name : TransactionName) {step : Nat → Cluster},
      (∀ tx, w.named? number name = some tx → Timely overrides (step tx) number) →
      Timely overrides (w.onNamed number name step) number := by
    intro name step hstep
    unfold onNamed
    split
    case h_1 tx htx => exact hstep tx htx
    case h_2 => exact h
  have hhandle : ∀ (index : Nat) {step : Shard → Cluster},
      (∀ shard ∈ (w.session number).shards, Timely overrides (step shard) number) →
      Timely overrides (w.onHandle number index step) number := fun index =>
    htidy.onHandle (P := fun v => Timely overrides v number) h index
  cases call with
  | transaction => exact (h.currentTransaction htidy).handOutOk
  | beginTransaction => exact (h.beginTransaction htidy).handOutOk
  | begin name => exact hnamed name fun tx htx => h.begin htidy (htidy.named_lt htx)
  | commit name =>
    exact hnamed name fun tx _ =>
      h.lasting (w.commit_lasting tx number) ((w.commit_work tx).sameTimeouts rfl)
  | rollback name =>
    exact hnamed name fun tx _ =>
      h.lasting (w.rollback_lasting tx number) ((w.rollback_work tx).sameTimeouts rfl)
  | setTimeout name seconds =>
    refine hnamed name fun changed hchanged => ?_
    exact h.set htidy (htidy.named_lt hchanged) seconds fun tx htx hactive =>
      hover changed tx ⟨⟨name, seconds, rfl, hchanged⟩, htx, hactive⟩
  | register name sync =>
    exact hnamed name fun tx _ =>
      h.quiet ((Step.register w tx sync).quiet rfl) ((Step.register w tx sync).sameTimeouts rfl)
  | letGo n => exact h.hand _
  | establish index => exact hhandle index fun shard hshard => h.establish htidy hshard
  | hook index hook =>
    refine hhandle index fun shard _ => ?_
    cases hconnection : w.connection? shard with
    | some ref =>
      rw [registerEvent_of_connected hconnection]
      exact h
    | none =>
      rw [registerEvent_of_unconnected hconnection]
      have hsame : waiting ((w.slot shard).events ++ [.hook hook])
          = waiting (w.slot shard).events := by
        rw [waiting_append]
        exact List.append_nil _
      exact h.lasting (.withEvents w shard hsame) ⟨fun _ => rfl, fun _ => rfl⟩
  | write index key value =>
    exact hhandle index fun shard hshard => h.write htidy hshard key value
  | closeShard index =>
    exact hhandle index fun shard _ =>
      h.lasting (w.closeShard_lasting shard number) ((w.closeShard_work shard).sameTimeouts rfl)
  | close =>
    exact h.lasting (w.closeSession_lasting number) ((w.closeSession_work number).sameTimeouts rfl)
  | arm i fault =>
    exact h.lasting ⟨rfl, rfl, fun _ _ href => href, fun _ => rfl, fun _ => rfl,
      fun _ hactive => hactive⟩ ((Step.arm w i fault).sameTimeouts rfl)

/-! ## Runs -/

/-- Along a run the exceptions are those for which some call of the run is to blame. -/
theorem Timely.run (h : Timely overrides w number) (htidy : Tidy w number) {calls : List SessionCall}
    (hover : ∀ m ∈ moments number w calls, ∀ other tx, m.Overrides number other tx →
      overrides other tx) : Timely overrides (w.run number calls) number := by
  induction calls generalizing w with
  | nil => exact h
  | cons call rest ih =>
    obtain ⟨hfirst, hrest⟩ := List.forall_mem_cons.mp hover
    exact ih (h.after htidy call hfirst) (htidy.moves (htidy.after_moves call)) hrest

/-- A session that was just opened has nobody in a transaction and nothing connected. -/
theorem openSession_timely {w₀ : Cluster} {factory : SessionFactory} (overrides : Nat → Nat → Prop)
    (h : w₀.openSession factory = (.ok number, w)) : Timely overrides w number := by
  obtain ⟨shards, w₁, hadded, rfl, rfl, hfound⟩ := openSession_spec h
  have hnone : ∀ tx, ((Session.mk shards factory.timeout none false).current = some tx) → False :=
    nofun
  refine ⟨fun shard hshard ref href => ?_, ?_, ?_, ?_⟩
  · rw [hfound] at hshard
    cases (hadded.unconnected hshard).symm.trans href
  · rw [hfound]
    exact fun tx htx => (hnone tx htx).elim
  · rw [hfound]
    exact fun tx htx => (hnone tx htx).elim
  · rw [hfound]
    exact fun tx htx => (hnone tx htx).elim

/-- While the current transaction of a session is active, each of its members has its timeout, or
that of a completed transaction which it had joined as well. The latter happens only if the current
transaction has no timeout, or if that of the completed one was set while the current one was
active. -/
theorem run_active_timeout {w₀ w : Cluster} {factory : SessionFactory}
    (hfresh : w₀.transactions = []) (hfree : w₀.handed = [])
    (hplaces : ∀ physical ∈ factory.shards, physical.backend < w₀.backends.length)
    (hopen : w₀.openSession factory = (.ok number, w)) (calls : List SessionCall) :
    let w' := w.run number calls
    ∀ tx, (w'.session number).current = some tx → (w'.transaction tx).status = .active →
      ∀ ref ∈ w'.natives tx, (w'.native ref).timeout = (w'.transaction tx).timeout ∨
        ∃ other ≠ tx, (w'.transaction other).status.isFinal = true ∧ ref ∈ w'.natives other
          ∧ (w'.native ref).timeout = (w'.transaction other).timeout
          ∧ ((w'.transaction tx).timeout = none ∨
            ∃ m ∈ moments number w calls, m.Overrides number other tx) := by
  intro w' tx htx hactive ref href
  have htidy' : Tidy w' number := (openSession_tidy hfresh hfree hplaces hopen).run calls
  have htimely : Timely (fun other tx => ∃ m ∈ moments number w calls, m.Overrides number other tx)
      w' number :=
    (openSession_timely _ hopen).run (openSession_tidy hfresh hfree hplaces hopen)
      fun m hm other tx hoverrides => ⟨m, hm, hoverrides⟩
  have hfinal : ∀ other, other ≠ tx → ref ∈ w'.natives other →
      (w'.transaction other).status.isFinal = true := by
    intro other hne hmem
    have hknown : other < w'.transactions.length := by
      rcases Nat.lt_or_ge other w'.transactions.length with hlt | hge
      · exact hlt
      · rw [natives, enlisted_of_ge hge] at hmem
        cases hmem
    refine (htidy'.settled other hknown).resolve_left fun hother => hne ?_
    exact Option.some.inj (hother.symm.trans htx)
  rcases htimely.obeyed tx htx hactive ref href with
    (hnone | hsame) | ⟨other, hne, ⟨hmem, hgiven⟩, hoverridden⟩
  · rcases htimely.joined tx htx ref href with hbare | ⟨other, hmem, hgiven⟩
    · exact .inl (hbare.trans hnone.symm)
    · by_cases heq : other = tx
      · exact .inl (heq ▸ hgiven)
      · exact .inr ⟨other, heq, hfinal other heq hmem, hmem, hgiven, .inl hnone⟩
  · exact .inl hsame
  · exact .inr ⟨other, hne, hfinal other hne hmem, hmem, hgiven, .inr hoverridden⟩

/-- A member keeps the timeout of a completed transaction if the current one has none, and it loses
that of the current one when the timeout of the completed one is set once more. -/
theorem completed_timeout_stays :
    let factory : SessionFactory := ⟨[⟨.ofNat 0, .ofList [.ofNat 0], 0⟩], .default, none⟩
    let w := ((ofBackends 1).openSession factory).2
    let again : List SessionCall := [.establish 0, .commit .current, .beginTransaction]
    let kept := w.run 0 ([.beginTransaction, .setTimeout .current 7] ++ again)
    let reached := w.run 0
      (.beginTransaction :: again ++ [.setTimeout .current 5, .setTimeout (.handed 0) 9])
    ((kept.session 0).current = some 1 ∧ (kept.transaction 1).status = .active
        ∧ kept.natives 1 = [⟨0, 0⟩] ∧ (kept.native ⟨0, 0⟩).timeout = some 7
        ∧ (kept.transaction 1).timeout = none)
      ∧ (reached.session 0).current = some 1 ∧ (reached.transaction 1).status = .active
        ∧ reached.natives 1 = [⟨0, 0⟩] ∧ (reached.native ⟨0, 0⟩).timeout = some 9
        ∧ (reached.transaction 1).timeout = some 5 := by
  decide +kernel

/-- A session with a timeout of its own, whose second transaction sets another one. -/
theorem run_active_timeout_set :
    let factory : SessionFactory := ⟨[⟨.ofNat 0, .ofList [.ofNat 0], 0⟩], .default, some 30⟩
    let w := ((ofBackends 1).openSession factory).2
    let calls : List SessionCall := [.beginTransaction, .establish 0, .commit .current,
      .beginTransaction, .setTimeout .current 5]
    let w' := w.run 0 calls
    (ofBackends 1).transactions = [] ∧ (ofBackends 1).handed = []
      ∧ (ofBackends 1).openSession factory = (.ok 0, w)
      ∧ (w'.session 0).current = some 1 ∧ (w'.transaction 1).status = .active
      ∧ ⟨0, 0⟩ ∈ w'.natives 1
      ∧ ((w'.native ⟨0, 0⟩).timeout = (w'.transaction 1).timeout ∨
        ∃ other ≠ 1, (w'.transaction other).status.isFinal = true ∧ ⟨0, 0⟩ ∈ w'.natives other
          ∧ (w'.native ⟨0, 0⟩).timeout = (w'.transaction other).timeout
          ∧ ((w'.transaction 1).timeout = none ∨ ∃ m ∈ moments 0 w calls, m.Overrides 0 other 1)) := by
  intro factory w calls w'
  have hopen : (ofBackends 1).openSession factory = (.ok 0, w) := eq_of_fst (by decide +kernel)
  have hcurrent : (w'.session 0).current = some 1 := by decide +kernel
  have hactive : (w'.transaction 1).status = .active := by decide +kernel
  have hmember : ⟨0, 0⟩ ∈ w'.natives 1 := by decide +kernel
  exact ⟨rfl, rfl, hopen, hcurrent, hactive, hmember,
    run_active_timeout rfl rfl (by decide +kernel) hopen calls 1 hcurrent hactive ⟨0, 0⟩ hmember⟩

end Cluster

end ScatterGather
