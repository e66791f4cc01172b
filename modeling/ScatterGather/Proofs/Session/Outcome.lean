import ScatterGather.Proofs.Backend.Stores
import ScatterGather.Proofs.Factory
import ScatterGather.Proofs.Session.Calls
import ScatterGather.Proofs.Session.Hookless

/-!
# What a transaction leaves in the stores

While a transaction is active, each connection has staged exactly what was written through its
handle, and no store changes. A commit lays what was staged over the stores, of all shards or of
those in front of the one that refused; a rollback lays nothing.
-/

namespace ScatterGather

/-- A write that was accepted through a handle; a missing value deletes. -/
structure Row where
  shard : Shard
  key : String
  value : Option Json

/-- The writes through one handle, in order. -/
def Row.through (shard : Shard) (rows : List Row) : List (String × Option Json) :=
  (rows.filter fun row => row.shard = shard).map fun row => (row.key, row.value)

theorem Row.through_append (shard : Shard) (rows more : List Row) :
    through shard (rows ++ more) = through shard rows ++ through shard more := by
  rw [through, List.filter_append, List.map_append, through, through]

theorem Row.through_self (shard : Shard) (key : String) (value : Option Json) :
    through shard [⟨shard, key, value⟩] = [(key, value)] := by
  simp [through]

theorem Row.through_ne {shard other : Shard} (h : other ≠ shard) (key : String)
    (value : Option Json) : through shard [⟨other, key, value⟩] = [] := by
  simp [through, h]

namespace Cluster

variable {b w w' : Cluster} {number : Nat} {session : Session} {shard : Shard} {ref : NativeRef}
variable {tx : Nat} {rows : List Row}

/-- What a call writes. -/
def written (number : Nat) (w : Cluster) : SessionCall → List Row
  | .write index key value =>
    match (w.session number).shards[index]? with
    | some shard =>
      match (w.write shard key value).1 with
      | .ok () => [⟨shard, key, value⟩]
      | .error _ => []
    | none => []
  | _ => []

/-- What a run of calls writes. -/
def writtenBy (number : Nat) : Cluster → List SessionCall → List Row
  | _, [] => []
  | w, call :: rest => w.written number call ++ writtenBy number (w.after number call) rest

/-! ## While the transaction is active -/

/-- The current transaction is active since the state `b`, and the given rows were written since. -/
structure Writing (b w : Cluster) (number : Nat) (session : Session) (tx : Nat) (rows : List Row) :
    Prop extends Hookless w number session where
  current : session.current = some tx
  active : (w.transaction tx).status = .active
  stores : SameStores b w
  staged : ∀ shard ∈ session.shards, ∀ ref, w.connection? shard = some ref →
    (w.native ref).staged = .ofList (Row.through shard rows)
  unwritten : ∀ shard ∈ session.shards, w.connection? shard = none → Row.through shard rows = []

namespace Writing

theorem sameWork {refs : List NativeRef} (h : Writing b w number session tx rows)
    (hwithin : Within refs w w') (hstores : SameStores w w') (hwork : SameWork w w') :
    Writing b w' number session tx rows where
  toHookless := h.toHookless.same hwithin.sameMembers (h.toSound.sameWork hwithin hwork)
  current := h.current
  active := (hwithin.status tx).trans h.active
  stores := h.stores.trans hstores
  staged := fun shard hshard ref href => by
    rw [hwithin.connection?] at href
    rw [(hwork ref).2]
    exact h.staged shard hshard ref href
  unwritten := fun shard hshard hnone => by
    rw [hwithin.connection?] at hnone
    exact h.unwritten shard hshard hnone

theorem quietly (h : Writing b w number session tx rows) (hwithin : Within [] w w')
    (hstores : SameStores w w') : Writing b w' number session tx rows := by
  refine h.sameWork hwithin hstores fun ref => ?_
  rw [hwithin.others ref List.not_mem_nil]
  exact ⟨rfl, rfl⟩

theorem isActive (h : Writing b w number session tx rows) (hshard : shard ∈ session.shards)
    (href : w.connection? shard = some ref) : (w.native ref).isActive = true :=
  ((h.covers tx h.current).joined shard hshard ref href).active h.active

theorem establish (h : Writing b w number session tx rows) (hshard : shard ∈ session.shards) :
    Writing b (w.establish shard).2 number session tx rows
      ∧ ∀ ref, (w.establish shard).1 = .ok ref →
        (w.establish shard).2.connection? shard = some ref := by
  have hhookless := h.toHookless.establish hshard
  rcases h.establish_cases hshard with ⟨ref, href, hestablish⟩ |
    ⟨hnone, w', ⟨e, hestablish, hrefused⟩ | ⟨ref, hestablish, hconnected⟩⟩
  · rw [hestablish]
    exact ⟨h, fun found hok => Except.ok.inj hok ▸ href⟩
  · rw [hestablish] at hhookless ⊢
    refine ⟨⟨hhookless, h.current, (hrefused.status tx).trans h.active,
      h.stores.trans hrefused.stores, fun other hother found hfound => ?_,
      fun other hother hother' => ?_⟩, nofun⟩
    · have hfound : w.connection? other = some found :=
        (hrefused.connection? other).symm.trans hfound
      rw [hrefused.natives found (h.opened other hother found hfound)]
      exact h.staged other hother found hfound
    · exact h.unwritten other hother ((hrefused.connection? other).symm.trans hother')
  · rw [hestablish] at hhookless ⊢
    refine ⟨⟨hhookless, h.current, (hconnected.status tx).trans h.active,
      h.stores.trans hconnected.stores, fun other hother found hfound => ?_,
      fun other hother hother' => ?_⟩, fun found hok => Except.ok.inj hok ▸ hconnected.published⟩
    · by_cases heq : other.handle = shard.handle
      · obtain rfl := h.eq_of_handle hother hshard heq
        obtain rfl := Option.some.inj (hconnected.published.symm.trans hfound)
        rw [hconnected.staged, h.unwritten other hother hnone]
        rfl
      · have hfound : w.connection? other = some found :=
          (hconnected.connection? other heq).symm.trans hfound
        rw [hconnected.natives found (h.opened other hother found hfound)]
        exact h.staged other hother found hfound
    · by_cases heq : other.handle = shard.handle
      · obtain rfl := h.eq_of_handle hother hshard heq
        exact nomatch hconnected.published.symm.trans hother'
      · exact h.unwritten other hother ((hconnected.connection? other heq).symm.trans hother')

/-- A write that is accepted is staged on top of what was written through the same handle. -/
theorem write (h : Writing b w number session tx rows) (hshard : shard ∈ session.shards)
    (key : String) (value : Option Json) :
    (∃ e w', w.write shard key value = (.error e, w') ∧ Writing b w' number session tx rows) ∨
    ∃ w', w.write shard key value = (.ok (), w')
      ∧ Writing b w' number session tx (rows ++ [⟨shard, key, value⟩]) := by
  have hhookless := h.toHookless.write hshard key value
  obtain ⟨hestablished, hpublished⟩ := h.establish hshard
  unfold Cluster.write onShard at hhookless ⊢
  generalize w.establish shard = established at hestablished hpublished hhookless
  obtain ⟨answer, w₁⟩ := established
  cases answer with
  | error e => exact .inl ⟨_, w₁, rfl, hestablished⟩
  | ok ref =>
    have href : w₁.connection? shard = some ref := hpublished ref rfl
    simp only at hestablished hhookless ⊢
    rcases w₁.writeNative_cases ref key value with ⟨w₂, hwrite, hwithin, hstores⟩ |
      ⟨w₂, hwrite, -, hwithin, hstores, hnative⟩ | ⟨w₂, -, hidle, -⟩
    · rw [hwrite]
      exact .inl ⟨_, w₂, rfl, hestablished.quietly hwithin hstores⟩
    · rw [hwrite] at hhookless ⊢
      refine .inr ⟨w₂, rfl, hhookless, h.current, (hwithin.status tx).trans hestablished.active,
        hestablished.stores.trans hstores, fun other hother found hfound => ?_,
        fun other hother hnone => ?_⟩
      · have hfound : w₁.connection? other = some found :=
          (hwithin.connection? other).symm.trans hfound
        rw [Row.through_append]
        by_cases heq : other = shard
        · subst heq
          obtain rfl := Option.some.inj (href.symm.trans hfound)
          rw [hnative, Row.through_self, Ordered.Map.ofList, List.foldl_append]
          exact congrArg (fun m => Ordered.Map.insert m key value)
            (hestablished.staged other hother _ hfound)
        · -- Another handle has another connection, which this write is not made through.
          have hne : found ∉ [ref] := by
            intro hmem
            rw [List.mem_singleton.mp hmem] at hfound
            exact heq (hestablished.apart other hother shard hshard ref hfound href)
          rw [hwithin.others found hne, Row.through_ne (Ne.symm heq), List.append_nil]
          exact hestablished.staged other hother found hfound
      · have hnone : w₁.connection? other = none := (hwithin.connection? other).symm.trans hnone
        have hne : shard ≠ other := by
          rintro rfl
          rw [href] at hnone
          cases hnone
        rw [Row.through_append, Row.through_ne hne, List.append_nil]
        exact hestablished.unwritten other hother hnone
    · rw [hestablished.isActive hshard href] at hidle
      cases hidle

theorem currentTransaction (h : Writing b w number session tx rows) :
    (∃ e, w.currentTransaction number = (.error e, w)) ∨
      w.currentTransaction number = (.ok tx, w) := by
  rcases h.currentTransaction_cases with ⟨e, hasked⟩ | ⟨tx', htx', -, hasked⟩ |
    ⟨w₁, hwithin, -, hended, -⟩
  · exact .inl ⟨e, hasked⟩
  · obtain rfl := Option.some.inj (h.current.symm.trans htx')
    exact .inr hasked
  · have hfinal := hended tx h.current
    rw [hwithin.status, h.active] at hfinal
    cases hfinal

theorem begin (h : Writing b w number session tx rows) :
    Writing b (w.begin tx).2 number session tx rows := by
  rcases w.begin_cases tx with ⟨w', hbegin, -, hwithin, hstores⟩ |
    ⟨w₁, w', -, hstatus, -⟩ | ⟨e, w', -, hstatus, -⟩
  · rw [hbegin]
    exact h.quietly hwithin hstores
  · rw [h.active] at hstatus
    cases hstatus
  · exact absurd h.active hstatus

theorem beginTransaction (h : Writing b w number session tx rows) :
    Writing b (w.beginTransaction number).2 number session tx rows := by
  unfold Cluster.beginTransaction
  rcases h.currentTransaction with ⟨e, hasked⟩ | hasked
  · rw [hasked]
    exact h
  · rw [hasked]
    have hbegin := h.begin
    simp only
    generalize w.begin tx = begun at hbegin
    obtain ⟨answer, w₂⟩ := begun
    cases answer with
    | error e => exact hbegin
    | ok => exact hbegin

theorem onNamed (h : Writing b w number session tx rows) (name : TransactionName)
    {step : Nat → Cluster} (hstep : ∀ tx', (name = .current → tx' = tx) →
      Writing b (step tx') number session tx rows) :
    Writing b (w.onNamed number name step) number session tx rows := by
  refine h.toHandles.onNamed (P := fun w => Writing b w number session tx rows) h name ?_
  intro tx' hname
  exact hstep tx' fun heq => Option.some.inj ((hname heq).symm.trans h.current)

/-- A call before the end of the transaction leaves it active; what it writes is staged. -/
theorem after (h : Writing b w number session tx rows) {call : SessionCall}
    (hcall : call.Ongoing) :
    Writing b (w.after number call) number session tx (rows ++ w.written number call) := by
  have hnothing : ∀ {w' : Cluster}, Writing b w' number session tx rows →
      Writing b w' number session tx (rows ++ []) := fun h => (List.append_nil rows).symm ▸ h
  cases call with
  | transaction =>
    have hasked : Writing b (w.currentTransaction number).2 number session tx rows := by
      rcases h.currentTransaction with ⟨e, hasked⟩ | hasked
      · rw [hasked]
        exact h
      · rw [hasked]
        exact h
    have hwork := handOutOk_work (w.currentTransaction number)
    exact hnothing (hasked.quietly (hwork.quiet rfl) (hwork.sameStores rfl))
  | beginTransaction =>
    have hwork := handOutOk_work (w.beginTransaction number)
    exact hnothing (h.beginTransaction.quietly (hwork.quiet rfl) (hwork.sameStores rfl))
  | begin name =>
    cases name with
    | current =>
      refine hnothing (h.onNamed .current fun tx' htx' => ?_)
      obtain rfl := htx' rfl
      exact h.begin
    | handed n => exact hcall.1.elim
  | commit name => exact hcall.elim
  | rollback name => exact hcall.elim
  | setTimeout name seconds =>
    refine hnothing (h.onNamed name fun tx' _ => ?_)
    have hwork := w.setTimeout_work tx' seconds
    exact h.sameWork (w.setTimeout_within tx' seconds) (hwork.sameStores rfl) (hwork.sameWork rfl)
  | register name sync =>
    exact hnothing (h.onNamed name fun tx' _ =>
      h.quietly ((Step.register w tx' sync).quiet rfl) (.refl w))
  | letGo n => exact hnothing (h.quietly ((Step.hand w _).quiet rfl) (.refl w))
  | establish index =>
    refine hnothing (h.toHandles.onHandle (P := fun w => Writing b w number session tx rows) h index
      fun shard hshard => (h.establish hshard).1)
  | hook index hook => exact hcall.2.elim
  | write index key value =>
    simp only [Cluster.after, onHandle, written, h.found]
    cases hshard : session.shards[index]? with
    | none => exact hnothing h
    | some shard =>
      rcases h.write (List.mem_of_getElem? hshard) key value with
        ⟨e, w', hwrite, hwriting⟩ | ⟨w', hwrite, hwriting⟩
      · simp only [hwrite]
        exact hnothing hwriting
      · simp only [hwrite]
        exact hwriting
  | closeShard index => exact hcall.1.elim
  | close => exact hcall.1.elim
  | arm i call =>
    refine hnothing ⟨h.toHookless.same ⟨rfl, fun _ => rfl⟩ (h.toSound.arm i hcall.1), h.current,
      h.active, fun j => ((w.backend_arm i j call).2.1).trans (h.stores j), ?_, h.unwritten⟩
    intro shard hshard ref href
    rw [Cluster.after, native_arm]
    exact h.staged shard hshard ref href

theorem run (h : Writing b w number session tx rows) {calls : List SessionCall}
    (hcalls : ∀ call ∈ calls, call.Ongoing) :
    Writing b (w.run number calls) number session tx (rows ++ w.writtenBy number calls) := by
  induction calls generalizing w rows with
  | nil =>
    rw [writtenBy, List.append_nil]
    exact h
  | cons call rest ih =>
    rw [writtenBy, ← List.append_assoc]
    exact ih (h.after (hcalls call List.mem_cons_self)) fun call hcall =>
      hcalls call (List.mem_cons_of_mem _ hcall)

end Writing

/-- Once a transaction was begun, nothing is staged on any connection. -/
theorem Hookless.begins (h : Hookless w number session)
    (hbegin : w.beginTransaction number = (.ok tx, b))
    (hnew : (w.transaction tx).status ≠ .active) :
    ∃ current, Writing b b number { session with current := current } tx [] := by
  obtain ⟨current, hasked, hcurrent⟩ := h.currentTransaction
  have hstatus : (w.currentTransaction number).1 = .ok tx →
      ((w.currentTransaction number).2.transaction tx).status ≠ .active := by
    intro hok
    rcases h.currentTransaction_cases with ⟨e, hcase⟩ | ⟨tx', -, -, hcase⟩ | ⟨w₁, -, -, -, hcase⟩
    · rw [hcase] at hok
      cases hok
    · rw [hcase]
      exact hnew
    · rw [hcase] at hok ⊢
      obtain rfl := Except.ok.inj hok
      rw [status_renewTransaction]
      exact nofun
  unfold Cluster.beginTransaction at hbegin
  generalize w.currentTransaction number = asked at hbegin hasked hcurrent hstatus
  match asked with
  | (.error e, w₁) => cases hbegin
  | (.ok tx', w₁) =>
    simp only at hbegin
    rcases w₁.begin_cases tx' with ⟨w₂, hbegun, hactive, -⟩ |
      ⟨w₂, w₃, hbegun, hcreated, hwithin, hstores, hall, hafter, hafterStores⟩ |
        ⟨e, w₂, hbegun, -⟩
    · rw [hbegun] at hbegin
      cases hbegin
      exact absurd hactive (hstatus rfl)
    · have hhookless := Hookless.begin hasked (hcurrent tx' rfl)
      rw [hbegun] at hbegin hhookless
      cases hbegin
      have hcovers := hasked.covers tx (hcurrent tx rfl)
      refine ⟨current, hhookless, hcurrent tx rfl, ?_, .refl b, fun shard hshard ref href => ?_,
        fun _ _ _ => rfl⟩
      · rw [hafter.status]
        exact status_setStatus (hwithin.transactions ▸ hcovers.known) _
      · have href : w₁.connection? shard = some ref :=
          ((hafter.connection? shard).trans (hwithin.connection? shard)).symm.trans href
        rw [hafter.others ref List.not_mem_nil]
        exact (hall ref (hcovers.joined shard hshard ref href).mem).2
    · rw [hbegun] at hbegin
      cases hbegin

/-! ## The end of the transaction -/

theorem layOver_of_mem {refs : List NativeRef} (hnodup : refs.Nodup) (hmem : ref ∈ refs)
    (honly : ∀ other ∈ refs, other.backend = ref.backend → other = ref) (store : Store) :
    w.layOver ref.backend refs store = store.overlay (w.native ref).staged := by
  induction refs generalizing store with
  | nil => cases hmem
  | cons first rest ih =>
    obtain ⟨hfirst, hrest⟩ := List.nodup_cons.mp hnodup
    rw [layOver, List.foldl_cons]
    by_cases heq : first = ref
    · subst heq
      rw [if_pos rfl]
      refine layOver_of_not_mem (fun other hother hbackend => hfirst ?_) _
      rw [← honly other (List.mem_cons_of_mem _ hother) hbackend]
      exact hother
    · have hne : ref.backend ≠ first.backend := fun hbackend =>
        heq (honly first List.mem_cons_self hbackend.symm)
      rw [if_neg hne]
      exact ih hrest ((List.mem_cons.mp hmem).resolve_left (Ne.symm heq))
        (fun other hother => honly other (List.mem_cons_of_mem _ hother)) store

theorem backend_of_connection? (h : w.connection? shard = some ref) :
    ref.backend = shard.backend := by
  obtain ⟨connection, -, rfl⟩ := Option.map_eq_some_iff.mp h
  rfl

/-- The store of a shard with the rows laid over it that were written through its handle. -/
def storeWith (b : Cluster) (rows : List Row) (shard : Shard) : Store :=
  (b.backend shard.backend).store.overlay (.ofList (Row.through shard rows))

namespace Writing

/-- After some members have committed, their shards have what was written through them, and the
other stores are as they were. -/
theorem stores_of_committed {done : List Enlisted} (h : Writing b w number session tx rows)
    (hdone : Committed done w w') (hsub : ∀ e ∈ done, e ∈ (w.transaction tx).enlisted) :
    (∀ shard ∈ session.shards, (w'.backend shard.backend).store =
        if shard.physicalId ∈ done.map (·.shard) then b.storeWith rows shard
        else (b.backend shard.backend).store) ∧
      ∀ i, (∀ shard ∈ session.shards, shard.backend ≠ i) →
        (w'.backend i).store = (b.backend i).store := by
  have hmember : ∀ e ∈ done, ∃ shard ∈ session.shards, e.shard = shard.physicalId
      ∧ w.connection? shard = some e.native := fun e he => h.members tx h.current e (hsub e he)
  -- A member whose connection is on the backend of a shard is the member of that shard.
  have hplace : ∀ e ∈ done, ∀ shard ∈ session.shards, e.native.backend = shard.backend →
      e.shard = shard.physicalId ∧ w.connection? shard = some e.native := by
    intro e he shard hshard hbackend
    obtain ⟨other, hother, hid, hconnection⟩ := hmember e he
    obtain rfl : other = shard := by
      refine List.inj_on_of_nodup_map h.places hother hshard ?_
      rw [← hbackend, backend_of_connection? hconnection]
    exact ⟨hid, hconnection⟩
  refine ⟨fun shard hshard => ?_, fun i hi => ?_⟩
  · rw [hdone.stores, h.stores]
    split
    case isTrue hin =>
      obtain ⟨e, he, hid⟩ := List.mem_map.mp hin
      obtain ⟨other, hother, hother', hconnection⟩ := hmember e he
      obtain rfl : other = shard :=
        List.inj_on_of_nodup_map h.ids hother hshard (hother'.symm.trans hid)
      have hbackend := backend_of_connection? hconnection
      -- No other member lays anything over this store.
      have honly : ∀ found ∈ done.map (·.native), found.backend = e.native.backend →
          found = e.native := by
        intro found hfound heq
        obtain ⟨d, hd, rfl⟩ := List.mem_map.mp hfound
        obtain ⟨-, hsame⟩ := hplace d hd other hshard (heq.trans hbackend)
        exact Option.some.inj (hsame.symm.trans hconnection)
      rw [← hbackend, layOver_of_mem hdone.distinct (List.mem_map_of_mem he) honly,
        h.staged other hshard e.native hconnection, storeWith, hbackend]
    case isFalse hout =>
      refine layOver_of_not_mem (fun found hfound hbackend => hout ?_) _
      obtain ⟨d, hd, rfl⟩ := List.mem_map.mp hfound
      obtain ⟨hid, -⟩ := hplace d hd shard hshard hbackend
      exact List.mem_map.mpr ⟨d, hd, hid⟩
  · rw [hdone.stores, h.stores]
    refine layOver_of_not_mem (fun found hfound hbackend => ?_) _
    obtain ⟨d, hd, rfl⟩ := List.mem_map.mp hfound
    obtain ⟨shard, hshard, -, hconnection⟩ := hmember d hd
    exact hi shard hshard ((backend_of_connection? hconnection).symm.trans hbackend)

theorem commit_cases (h : Writing b w number session tx rows) :
    (∃ w', w.commit tx = (.ok (), w')
      ∧ (∀ shard ∈ session.shards, (w'.backend shard.backend).store = b.storeWith rows shard)
      ∧ ∀ i, (∀ shard ∈ session.shards, shard.backend ≠ i) →
        (w'.backend i).store = (b.backend i).store) ∨
    ∃ id committed reason w', w.commit tx = (.error (.commitFailure id committed reason), w')
      ∧ (w'.transaction tx).status = .failedCommit
      ∧ (∃ rest, (w.transaction tx).enlisted.map (·.shard) = committed ++ id :: rest)
      ∧ (∀ shard ∈ session.shards, (w'.backend shard.backend).store =
          if shard.physicalId ∈ committed then b.storeWith rows shard
          else (b.backend shard.backend).store)
      ∧ ∀ i, (∀ shard ∈ session.shards, shard.backend ≠ i) →
        (w'.backend i).store = (b.backend i).store := by
  rcases w.commit_cases tx with ⟨hstatus, -⟩ | ⟨-, done, w₁, w', hdone, hstores, hend⟩
  · exact absurd h.active hstatus
  · rcases hend with ⟨henlisted, hcommit, -⟩ | ⟨e, rest, reason, henlisted, hcommit, hafter⟩
    · obtain ⟨hshards, helse⟩ := h.stores_of_committed hdone fun e he => henlisted ▸ he
      refine .inl ⟨w', hcommit, fun shard hshard => ?_, fun i hi => (hstores i).trans (helse i hi)⟩
      rw [hstores, hshards shard hshard]
      split
      case isTrue => rfl
      case isFalse hout =>
        -- The handle has no connection then, and nothing was written through it.
        cases hconnection : w.connection? shard with
        | none =>
          rw [storeWith, h.unwritten shard hshard hconnection]
          rfl
        | some ref =>
          obtain ⟨e, he, hnative⟩ :=
            mem_natives.mp ((h.covers tx h.current).joined shard hshard ref hconnection).mem
          obtain ⟨other, hother, hid, hother'⟩ := h.members tx h.current e he
          obtain rfl := h.apart other hother shard hshard ref (hnative ▸ hother') hconnection
          exact absurd (List.mem_map.mpr ⟨e, henlisted ▸ he, hid⟩) hout
    · obtain ⟨hshards, helse⟩ := h.stores_of_committed hdone fun d hd => by
        rw [henlisted]
        exact List.mem_append_left _ hd
      refine .inr ⟨e.shard, done.map (·.shard), reason, w', hcommit, ?_, ?_, fun shard hshard => ?_,
        fun i hi => (hstores i).trans (helse i hi)⟩
      · rw [hafter.status]
        exact status_setStatus (hdone.within.transactions ▸ (h.covers tx h.current).known) _
      · exact ⟨rest.map (·.shard), by rw [henlisted, List.map_append, List.map_cons]⟩
      · rw [hstores, hshards shard hshard]

end Writing

/-- Without rollback faults, the rollback of an unfinished transaction is done, changes no store and
leaves no member active. -/
theorem Sound.rollback_ok (h : Sound w number session) (htx : session.current = some tx)
    (hunfinished : (w.transaction tx).status.isUnfinished = true) :
    ∃ w', w.rollback tx = (.ok (), w') ∧ SameStores w w'
      ∧ ∀ ref ∈ w'.natives tx, (w'.native ref).isActive = false := by
  rcases w.rollback_cases tx with ⟨hstatus, -⟩ | ⟨-, w₁, w', hstores, hend⟩
  · rw [hunfinished] at hstatus
    cases hstatus
  · rcases hend with ⟨hundone, hrollback, hafter⟩ | ⟨failures, hfailed, hne, -⟩
    · refine ⟨w', hrollback, hundone.stores.trans hstores, fun ref href => ?_⟩
      rw [hafter.natives, natives_setStatus, hundone.within.natives] at href
      rw [hafter.others ref List.not_mem_nil]
      refine Bool.eq_false_iff.mpr fun hactive => ?_
      obtain ⟨e, he, rfl⟩ := mem_natives.mp href
      obtain ⟨-, source, hfailure⟩ := hundone.left e he hactive
      exact absurd hfailure List.not_mem_nil
    · have hok := rollbackEach_ok (w.transaction tx).enlisted (h.covers tx htx).opened h.quiet
      exact absurd (hfailed.symm.trans hok) hne

/-! ## The whole transaction -/

theorem openSession_hookless {settings : FactorySettings} {factory : SessionFactory}
    (hbuild : SessionFactory.build settings = .ok factory)
    (hplaces : (settings.shards.map (·.2)).Nodup) (hquiet : w.NoRollbackFault)
    (hbackends : ∀ place ∈ settings.shards, place.2 < w.backends.length)
    (hopen : w.openSession factory = (.ok number, w')) :
    Hookless w' number (w'.session number) := by
  obtain ⟨-, hids, hfactory⟩ := SessionFactory.build_spec hbuild
  have hsound : Sound w' number (w'.session number) := by
    refine openSession_sound hquiet (fun physical hphysical => ?_) hopen
    have hmem : physical.backend ∈ settings.shards.map (·.2) :=
      hfactory ▸ List.mem_map_of_mem hphysical
    obtain ⟨place, hplace, heq⟩ := List.mem_map.mp hmem
    exact heq ▸ hbackends place hplace
  obtain ⟨shards, w₁, hadded, rfl, rfl, hfound⟩ := openSession_spec hopen
  rw [hfound] at hsound ⊢
  refine ⟨hsound, ?_, ?_, fun shard hshard event hevent => ?_, by simp⟩
  · exact hadded.physicalIds ▸ hids
  · exact (hadded.places.trans hfactory) ▸ hplaces
  · have hevent : event ∈ (w₁.slot shard).events := hevent
    rw [hadded.slot hshard] at hevent
    exact absurd hevent List.not_mem_nil

/-- A transaction that is begun on a session without hooks, over distinct backends, and written to
in any way before its end. If it is rolled back, all stores are as they were at its begin. If its
commit is done, each store has the writes made through its shard; if the commit fails, exactly the
stores of the shards in front of the one that refused have them, and a rollback then is done, changes
no store and leaves no member active. -/
theorem transaction_outcome {settings : FactorySettings} {factory : SessionFactory}
    {w₀ w₁ : Cluster} (hbuild : SessionFactory.build settings = .ok factory)
    (hplaces : (settings.shards.map (·.2)).Nodup) (hquiet : w₀.NoRollbackFault)
    (hbackends : ∀ place ∈ settings.shards, place.2 < w₀.backends.length)
    (hopen : w₀.openSession factory = (.ok number, w₁)) {before during : List SessionCall}
    (hbefore : ∀ call ∈ before, call.Orderly ∧ call.HookFree)
    (hnew : ((w₁.run number before).transaction tx).status ≠ .active)
    (hbegin : (w₁.run number before).beginTransaction number = (.ok tx, b))
    (hduring : ∀ call ∈ during, call.Ongoing) :
    let w := b.run number during
    let rows := b.writtenBy number during
    let shards := (w₁.session number).shards
    let unchangedElsewhere := fun (w' : Cluster) => ∀ i, (∀ shard ∈ shards, shard.backend ≠ i) →
      (w'.backend i).store = (b.backend i).store
    (∃ w', w.rollback tx = (.ok (), w') ∧ SameStores b w') ∧
    ((∃ w', w.commit tx = (.ok (), w')
        ∧ (∀ shard ∈ shards, (w'.backend shard.backend).store = b.storeWith rows shard)
        ∧ unchangedElsewhere w') ∨
      ∃ id committed reason w', w.commit tx = (.error (.commitFailure id committed reason), w')
        ∧ (∃ rest, (w.transaction tx).enlisted.map (·.shard) = committed ++ id :: rest)
        ∧ (∀ shard ∈ shards, (w'.backend shard.backend).store =
          if shard.physicalId ∈ committed then b.storeWith rows shard
          else (b.backend shard.backend).store)
        ∧ unchangedElsewhere w'
        ∧ ∃ w'', w'.rollback tx = (.ok (), w'') ∧ SameStores w' w''
          ∧ ∀ ref ∈ w''.natives tx, (w''.native ref).isActive = false) := by
  intro w rows shards unchangedElsewhere
  obtain ⟨reached, hreached⟩ :=
    (openSession_hookless hbuild hplaces hquiet hbackends hopen).run hbefore
  obtain ⟨current, hbegun⟩ := hreached.begins hbegin hnew
  have hwriting : Writing b w number _ tx rows := hbegun.run hduring
  refine ⟨?_, ?_⟩
  · obtain ⟨w', hrollback, hstores, -⟩ :=
      hwriting.rollback_ok hwriting.current (by rw [hwriting.active]; rfl)
    exact ⟨w', hrollback, hwriting.stores.trans hstores⟩
  · rcases hwriting.commit_cases with ⟨w', hcommit, hstored, helse⟩ |
      ⟨id, committed, reason, w', hcommit, hstatus, hprefix, hstored, helse⟩
    · exact .inl ⟨w', hcommit, hstored, helse⟩
    · have hsound := hwriting.toSound.commit hwriting.current
      rw [hcommit] at hsound
      exact .inr ⟨id, committed, reason, w', hcommit, hprefix, hstored, helse,
        hsound.rollback_ok hwriting.current (by rw [hstatus]; rfl)⟩

/-- Two shards, of which the second refuses to commit: only the first store has its write. -/
theorem transaction_outcome_partial :
    let settings : FactorySettings := .ofShards [(.ofNat 0, 0), (.ofNat 1, 1)]
    let factory : SessionFactory :=
      ⟨[⟨.ofNat 0, .ofList [.ofNat 0], 0⟩, ⟨.ofNat 1, .ofList [.ofNat 1], 1⟩], .default, none⟩
    let w₁ := ((ofBackends 2).openSession factory).2
    let b := ((w₁.run 0 [.establish 0]).beginTransaction 0).2
    let during : List SessionCall := [.write 0 "a" (some (.string "x")),
      .write 1 "b" (some (.string "y")), .arm 1 .committing]
    let w := b.run 0 during
    SessionFactory.build settings = .ok factory ∧
      ∃ committed reason w', w.commit 0 = (.error (.commitFailure (.ofNat 1) committed reason), w')
        ∧ ∀ shard ∈ (w₁.session 0).shards, (w'.backend shard.backend).store =
          if shard.physicalId = .ofNat 0 then b.storeWith (b.writtenBy 0 during) shard
          else (b.backend shard.backend).store := by
  intro settings factory w₁ b during w
  have hbuild : SessionFactory.build settings = .ok factory := by
    rfl
  refine ⟨hbuild, ?_⟩
  have hduring : ∀ call ∈ during, call.Ongoing := by
    simp [during, SessionCall.Ongoing, SessionCall.Orderly, SessionCall.HookFree]
  have hbefore : ∀ call ∈ [SessionCall.establish 0], call.Orderly ∧ call.HookFree := by
    simp [SessionCall.Orderly, SessionCall.HookFree]
  obtain ⟨-, ⟨w', hcommit, -⟩ | ⟨id, committed, reason, w', hcommit, -, hstored, -⟩⟩ :=
    transaction_outcome hbuild (by decide) (noRollbackFault_ofBackends 2) (by decide)
      (eq_of_fst (by decide +kernel) : (ofBackends 2).openSession factory = (.ok 0, w₁)) hbefore
      (by decide +kernel)
      (eq_of_fst (by decide +kernel) : (w₁.run 0 [.establish 0]).beginTransaction 0 = (.ok 0, b))
      hduring
  · have hfails : (w.commit 0).1 ≠ .ok () := by decide +kernel
    exact absurd (congrArg Prod.fst hcommit) hfails
  · have hanswer : (w.commit 0).1 = .error (.commitFailure (.ofNat 1) [.ofNat 0]
        "Injected fault on commit") := by decide +kernel
    have hsame := hanswer.symm.trans (congrArg Prod.fst hcommit)
    cases hsame
    refine ⟨_, _, w', hcommit, fun shard hshard => ?_⟩
    rw [hstored shard hshard]
    simp only [List.mem_singleton]
    rfl

end Cluster

end ScatterGather
