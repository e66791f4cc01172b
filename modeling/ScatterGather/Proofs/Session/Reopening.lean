import ScatterGather.Proofs.Session.Chains

/-!
# Handles that are closed and connected again

A connection that is published takes all waiting transactions off the queue of its handle, and
closing the handle does not put them back. So a handle that is closed while a transaction is active
is outside of that transaction from then on: a later connection does not join it, and what is written
there is in the store at once. This stays so through all other calls, until the transaction is over.
-/

namespace ScatterGather.Cluster

variable {w w' : Cluster} {number : Nat} {shard : Shard} {ref : NativeRef} {tx : Nat}
variable {call : SessionCall}

/-- A transaction that was begun, and a handle that it does not wait on. While the transaction is
active, the connection of the handle is no member of it, and is not active. -/
structure Outside (w : Cluster) (shard : Shard) (tx : Nat) : Prop where
  known : tx < w.transactions.length
  begun : (w.transaction tx).status ≠ .created
  unqueued : ¬ w.Waits shard tx
  apart : (w.transaction tx).status = .active → ∀ ref, w.connection? shard = some ref →
    ref ∉ w.natives tx ∧ (w.native ref).isActive = false

namespace Outside

/-- The transaction and what its members are stay the same, and so does the handle. Only members of
the current transaction become active. -/
theorem within {refs : List NativeRef} (h : Tidy w number) (hout : Outside w shard tx)
    (hwithin : Within refs w w')
    (hactive : ∀ ref, (w'.native ref).isActive = true → (w.native ref).isActive = true ∨
      ∃ tx, (w.session number).current = some tx ∧ ref ∈ w.natives tx) :
    Outside w' shard tx where
  known := hwithin.transactions ▸ hout.known
  begun := (hwithin.status tx).symm ▸ hout.begun
  unqueued := by
    rw [Waits, hwithin.slot]
    exact hout.unqueued
  apart := fun hstatus ref href => by
    rw [hwithin.status] at hstatus
    rw [hwithin.connection?] at href
    rw [hwithin.natives]
    obtain ⟨hmem, hidle⟩ := hout.apart hstatus ref href
    refine ⟨hmem, Bool.eq_false_iff.mpr fun hbegun => ?_⟩
    rcases hactive ref hbegun with hbefore | ⟨current, hcurrent, hmember⟩
    · exact Bool.false_ne_true (hidle.symm.trans hbefore)
    · cases (h.current_of_unended hout.known (by rw [hstatus]; rfl)).symm.trans hcurrent
      exact hmem hmember

/-- A transaction that is not active any more has nothing to say about connections. -/
theorem ended {w₁ : Cluster} {refs : List NativeRef} {other : Nat} {status : TransactionStatus}
    (h : Tidy w number) (hout : Outside w shard tx)
    (hcurrent : (w.session number).current = some other) (hwithin : Within refs w w₁)
    (hmarked : Within [] (w₁.setStatus other status) w') (hbegun : status ≠ .created)
    (hbegins : status = .active → (w.transaction other).status = .created) :
    Outside w' shard tx := by
  have hlength : w₁.transactions.length = w.transactions.length := hwithin.transactions
  have hstatus : (w'.transaction tx).status ≠ .created ∧ (w'.transaction tx).status ≠ .active := by
    rw [hmarked.status]
    by_cases heq : tx = other
    · subst heq
      rw [status_setStatus (hlength.symm ▸ hout.known)]
      exact ⟨hbegun, fun hactive => hout.begun (hbegins hactive)⟩
    · rw [status_setStatus_ne heq, hwithin.status]
      refine ⟨hout.begun, fun hactive => heq ?_⟩
      exact Option.some.inj
        ((h.current_of_unended hout.known (by rw [hactive]; rfl)).symm.trans hcurrent)
  refine ⟨?_, hstatus.1, ?_, fun hactive => absurd hactive hstatus.2⟩
  · rw [hmarked.transactions, setStatus, mapTransaction, List.length_set, hlength]
    exact hout.known
  · have hslot : w'.slot shard = w.slot shard := (hmarked.slot shard).trans (hwithin.slot shard)
    rw [Waits, hslot]
    exact hout.unqueued

theorem renew (h : Tidy w number) (hout : Outside w shard tx)
    (hended : ∀ tx, (w.session number).current = some tx →
      (w.transaction tx).status.isFinal = true) (hrenewed : Renewed number w w') :
    Outside w' shard tx where
  known := Nat.lt_trans hout.known (Nat.lt_of_lt_of_eq (Nat.lt_succ_self _)
    hrenewed.transactions.symm)
  begun := (hrenewed.status tx).symm ▸ hout.begun
  unqueued := fun hwaits => (hrenewed.waits shard tx hwaits).elim hout.unqueued
    (Nat.ne_of_lt hout.known)
  apart := fun hstatus => by
    -- The current transaction has come to its end, so this one is not active.
    rw [hrenewed.status] at hstatus
    have hfinal := hended tx (h.current_of_unended hout.known (by rw [hstatus]; rfl))
    rw [hstatus] at hfinal
    cases hfinal

/-- An attempt to connect another handle: what it adds to the transaction is a new connection. -/
theorem attempt {other : Shard} (h : Tidy w number) (hout : Outside w shard tx)
    (hmem : shard ∈ (w.session number).shards) (hhandle : shard.handle ≠ other.handle)
    (hattempt : Attempt other w w')
    (hmembers : ∀ ref ∈ w'.natives tx, ref ∈ w.natives tx ∨ ¬ w.IsOpened ref) :
    Outside w' shard tx where
  known := hattempt.transactions ▸ hout.known
  begun := (hattempt.status tx).symm ▸ hout.begun
  unqueued := by
    rw [Waits, hattempt.events shard hhandle]
    exact hout.unqueued
  apart := fun hstatus ref href => by
    rw [hattempt.status] at hstatus
    rw [hattempt.connections shard hhandle] at href
    obtain ⟨hnew, hidle⟩ := hout.apart hstatus ref href
    have hopened := h.opened shard hmem ref href
    refine ⟨fun hmember => ?_, by rwa [hattempt.others ref hopened]⟩
    exact (hmembers ref hmember).elim hnew fun hunopened => hunopened hopened

/-- The handle gets a connection: no active transaction waits for it, so it joins none and is not
begun. -/
theorem connect (h : Tidy w number) (hout : Outside w shard tx)
    (hmem : shard ∈ (w.session number).shards) (hattached : Attached shard ref w w') :
    Outside w' shard tx where
  known := hattached.transactions ▸ hout.known
  begun := (hattached.status tx).symm ▸ hout.begun
  unqueued := hattached.drained tx
  apart := fun hstatus other hother => by
    rw [hattached.status] at hstatus
    obtain rfl := Option.some.inj (hattached.connected.symm.trans hother)
    have hcurrent := h.current_of_unended hout.known (by rw [hstatus]; rfl)
    have hstands : ¬ w.Stands (w.slot shard).events tx := fun hstands => hout.unqueued hstands.1
    constructor
    · rw [natives, hattached.apart tx hstands]
      exact fun hmember => hattached.new (h.members tx ref hmember)
    · rw [Connection.isActive, hattached.idle]
      · rfl
      · intro other hother hactive
        have hdue := h.current_of_unended (h.queued shard hmem other hother.1)
          (by rw [hactive]; rfl)
        cases hdue.symm.trans hcurrent
        exact hstands hother

theorem disconnect {other : Shard} (h : Tidy w number) (hout : Outside w shard tx)
    (hmem : shard ∈ (w.session number).shards) (hother : other ∈ (w.session number).shards)
    (hconnected : w.connection? other = some ref) (hwithin : Within [ref] (w.unplug other) w') :
    Outside w' shard tx where
  known := by
    rw [hwithin.transactions]
    exact hout.known
  begun := by
    rw [hwithin.status]
    exact hout.begun
  unqueued := by
    rw [Waits, hwithin.slot]
    exact fun hwaits => hout.unqueued (waits_unplug.mp hwaits)
  apart := fun hstatus found hfound => by
    rw [hwithin.status] at hstatus
    rw [hwithin.connection?] at hfound
    rw [hwithin.natives]
    have hbefore := connection?_of_unplug hfound
    obtain ⟨hnew, hidle⟩ := hout.apart hstatus found hbefore
    have hne : found ≠ ref := by
      rintro rfl
      obtain rfl := h.apart shard hmem other hother found hbefore hconnected
      rw [connection?_unplug (h.slots shard hmem)] at hfound
      cases hfound
    refine ⟨hnew, ?_⟩
    rw [hwithin.others found fun hlast => hne (List.mem_singleton.mp hlast)]
    exact hidle

/-- Every move keeps a handle outside. -/
theorem move (h : Tidy w number) (hmove : Move number call w w')
    (hmem : shard ∈ (w.session number).shards) (hout : Outside w shard tx) :
    Outside w' shard tx := by
  cases hmove with
  | work within steady active => exact hout.within h within active
  | mark current within marked steady active begun begins =>
    exact hout.ended h current within marked begun begins
  | hand | shut => exact ⟨hout.known, hout.begun, hout.unqueued, hout.apart⟩
  | renew ended renewed => exact hout.renew h ended renewed
  | queue mem unconnected =>
    refine ⟨hout.known, hout.begun, fun hwaits => hout.unqueued (waits_of_queue hwaits), ?_⟩
    simp only [connection?_withEvents]
    exact hout.apart
  | @connect w' other ref stays mem unconnected attached =>
    by_cases heq : shard = other
    · subst heq
      exact hout.connect h hmem attached
    · refine hout.attempt h hmem (h.handle_ne hmem mem heq) attached.toAttempt fun found hfound => ?_
      rcases attached.natives_cases hfound with hold | rfl
      · exact .inl hold
      · exact .inr attached.new
  | @refuse w' other mem unconnected refused =>
    by_cases heq : shard = other
    · subst heq
      refine ⟨refused.transactions ▸ hout.known, (refused.status tx).symm ▸ hout.begun,
        fun hwaits => hout.unqueued ((refused.waits tx).mp hwaits), fun _ ref href => ?_⟩
      rw [refused.unconnected] at href
      cases href
    · exact hout.attempt h hmem (h.handle_ne hmem mem heq) refused.toAttempt fun found hfound =>
        (refused.natives_cases hfound).imp_right And.left
  | disconnect closes mem connected within => exact hout.disconnect h hmem mem connected within
  | @arm i fault armed =>
    refine ⟨hout.known, hout.begun, hout.unqueued, fun hstatus ref href => ?_⟩
    rw [native_arm]
    exact hout.apart hstatus ref href

/-- A handle is closed that was connected, so nothing waits on it. -/
theorem closeShard (h : Tidy w number) (hmem : shard ∈ (w.session number).shards)
    (hconnected : w.connection? shard ≠ none) (hknown : tx < w.transactions.length)
    (hbegun : (w.transaction tx).status ≠ .created) : Outside (w.closeShard shard).2 shard tx := by
  obtain ⟨ref, href⟩ := Option.ne_none_iff_exists'.mp hconnected
  have hwithin := closeShard_within href
  refine ⟨hwithin.transactions ▸ hknown, ?_, fun hwaits => ?_, fun _ found hfound => ?_⟩
  · rw [hwithin.status]
    exact hbegun
  · rw [Waits, hwithin.slot] at hwaits
    exact h.drained shard hmem hconnected tx (waits_unplug.mp hwaits)
  · rw [hwithin.connection?, connection?_unplug (h.slots shard hmem)] at hfound
    cases hfound

theorem run (h : Tidy w number) (hmem : shard ∈ (w.session number).shards)
    (hout : Outside w shard tx) (calls : List SessionCall) :
    Outside (w.run number calls) shard tx := by
  have hkept : shard ∈ ((w.run number calls).session number).shards
      ∧ Outside (w.run number calls) shard tx :=
    h.run_induction (fun v => shard ∈ (v.session number).shards ∧ Outside v shard tx)
      (fun _ => True)
      (fun _ h hmove hv => ⟨(h.shards_move hmove).symm ▸ hv.1, hv.2.move h hmove hv.1⟩)
      ⟨hmem, hout⟩ fun _ _ => trivial
  exact hkept.2

end Outside

/-- What is written through a connection that is not active is in the store at once. -/
theorem write_through (hbackend : shard.backend < w.backends.length)
    (hconnected : w.connection? shard = some ref) (hidle : (w.native ref).isActive = false)
    {key : String} {value : Option Json} (hwrite : w.write shard key value = (.ok (), w')) :
    (w'.backend shard.backend).store = (w.backend shard.backend).store.write key value := by
  obtain ⟨n, -, rfl⟩ := Option.map_eq_some_iff.mp hconnected
  have hestablish : w.establish shard = (.ok ⟨shard.backend, n⟩, w) := by
    rw [establish, hconnected]
  rw [write, onShard, hestablish] at hwrite
  have hafter := w.backend_callBackend shard.backend shard.backend fun b => b.write n key value
  rw [if_pos ⟨rfl, hbackend⟩] at hafter
  obtain ⟨hanswer, rfl⟩ := Prod.ext_iff.mp hwrite
  refine (congrArg Backend.store hafter).trans ?_
  rcases (w.backend shard.backend).write_cases n key value with hcall |
    ⟨c, b, hc, hactive, -⟩ | ⟨-, hcall⟩
  · simp only [callBackend, hcall] at hanswer
    cases hanswer
  · rw [native_of_connection? hc, hactive] at hidle
    cases hidle
  · rw [hcall]

/-- While a transaction is active, a handle of its session is closed that had a connection. If the
handle has a connection again while the transaction is still active, this is no member of it and is
not active, and every write that it accepts is in the store at once. -/
theorem run_reopened {w₀ w : Cluster} {factory : SessionFactory} {index : Nat}
    (hfresh : w₀.transactions = []) (hfree : w₀.handed = [])
    (hplaces : ∀ physical ∈ factory.shards, physical.backend < w₀.backends.length)
    (hopen : w₀.openSession factory = (.ok number, w))
    (hindex : (w.session number).shards[index]? = some shard) {before later : List SessionCall}
    (hconnected : (w.run number before).connection? shard ≠ none)
    (hcurrent : ((w.run number before).session number).current = some tx)
    (hactive : ((w.run number before).transaction tx).status = .active) :
    let w' := ((w.run number before).after number (.closeShard index)).run number later
    (w'.transaction tx).status = .active → ∀ ref, w'.connection? shard = some ref →
      ref ∉ w'.natives tx ∧ (w'.native ref).isActive = false
        ∧ ∀ key value w'', w'.write shard key value = (.ok (), w'') →
          (w''.backend shard.backend).store
            = (w'.backend shard.backend).store.write key value := by
  have hopened := openSession_tidy hfresh hfree hplaces hopen
  have hstart := hopened.run before
  have hshards := hopened.shards_run before
  have hmem : shard ∈ ((w.run number before).session number).shards := by
    rw [hshards]
    exact List.mem_of_getElem? hindex
  generalize w.run number before = start at *
  intro w' hstatus ref href
  have hclosed : start.after number (.closeShard index) = (start.closeShard shard).2 := by
    rw [after, onHandle, hshards, hindex]
  have hmoves := hstart.after_moves (.closeShard index)
  have htidy : Tidy (start.after number (.closeShard index)) number := hstart.moves hmoves
  have hmem' : shard ∈ ((start.after number (.closeShard index)).session number).shards := by
    rwa [hstart.shards_moves hmoves]
  have hout : Outside (start.after number (.closeShard index)) shard tx := by
    rw [hclosed]
    refine .closeShard hstart hmem hconnected (hstart.known tx hcurrent) fun hcreated => ?_
    rw [hactive] at hcreated
    cases hcreated
  obtain ⟨hmember, hidle⟩ := (hout.run htidy hmem' later).apart hstatus ref href
  refine ⟨hmember, hidle, fun key value w'' hwrite => write_through ?_ href hidle hwrite⟩
  refine (htidy.run later).backends shard ?_
  rwa [htidy.shards_run later]

/-- A write after the only shard was closed and connected again, in the midst of a transaction. -/
theorem run_reopened_write :
    let factory : SessionFactory := ⟨[⟨.ofNat 0, .ofList [.ofNat 0], 0⟩], .default, none⟩
    let w := ((ofBackends 1).openSession factory).2
    let w' := ((w.run 0 [.beginTransaction, .establish 0]).after 0 (.closeShard 0)).run 0
      [.establish 0]
    (w'.transaction 0).status = .active ∧ w'.natives 0 = [⟨0, 0⟩]
      ∧ ∃ shard ∈ (w.session 0).shards, w'.connection? shard = some ⟨0, 1⟩
        ∧ ∃ w'', w'.write shard "k" (some (.string "v")) = (.ok (), w'')
          ∧ (w''.backend 0).store = (w'.backend 0).store.write "k" (some (.string "v")) := by
  intro factory w w'
  have hopen : (ofBackends 1).openSession factory = (.ok 0, w) := eq_of_fst (by decide +kernel)
  have hstatus : (w'.transaction 0).status = .active := by decide +kernel
  refine ⟨hstatus, by decide +kernel, ?_⟩
  have hfirst : (w.session 0).shards[0]? ≠ none := by decide +kernel
  obtain ⟨shard, hindex⟩ := Option.ne_none_iff_exists'.mp hfirst
  have hshard := List.mem_of_getElem? hindex
  obtain ⟨hbackend, hconnected, href, hwrite⟩ : shard.backend = 0
      ∧ (w.run 0 [.beginTransaction, .establish 0]).connection? shard ≠ none
      ∧ w'.connection? shard = some ⟨0, 1⟩
      ∧ (w'.write shard "k" (some (.string "v"))).1 = .ok () :=
    (by decide +kernel : ∀ shard ∈ (w.session 0).shards, shard.backend = 0
      ∧ (w.run 0 [.beginTransaction, .establish 0]).connection? shard ≠ none
      ∧ w'.connection? shard = some ⟨0, 1⟩
      ∧ (w'.write shard "k" (some (.string "v"))).1 = .ok ()) shard hshard
  have hreopened := run_reopened rfl rfl (by decide +kernel) hopen hindex hconnected
    (by decide +kernel) (by decide +kernel) hstatus ⟨0, 1⟩ href
  obtain ⟨-, -, hstore⟩ := hreopened
  refine ⟨shard, hshard, href, _, eq_of_fst hwrite, ?_⟩
  have hsame := hstore _ _ _ (eq_of_fst hwrite)
  rwa [hbackend] at hsame

end ScatterGather.Cluster
