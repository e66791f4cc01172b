import ScatterGather.Proofs.Cluster.Timeouts
import ScatterGather.Proofs.Session.Chains

/-!
# Connections that are closed, held or left open

A connection is opened for a handle, which holds it or turns it down, and it is let go again by being
closed. The handle is without it then, even if the backend refuses to close it. So from the moment it
was opened a connection is held by its handle, or closed, or its close was refused, and one that is
held by no handle stays as open or as closed as it is.
-/

namespace ScatterGather

/-! ## How many connections there are -/

namespace Backend

/-- A close takes effect or is refused. -/
theorem close_cases {b : Backend} {number : Nat} {c : Connection}
    (h : b.connection? number = some c) (hunclosed : c.closed = false) :
    (∃ b', b.close number = (.ok (), b')
      ∧ b'.connection? number = some { c with closed := true }) ∨
    ∃ b', b.close number = (.error .closeRefused, b') ∧ b.faults.isArmed .closing = true
      ∧ b'.faults.isArmed .closing = false ∧ b'.connections = b.connections := by
  unfold close
  rw [h]
  by_cases harmed : b.faults.closing = true
  · exact .inr ⟨_, if_pos harmed, harmed, rfl, rfl⟩
  · let b' : Backend :=
      { b.setConnection number { c with closed := true } with
        calls := { b.calls with closed := b.calls.closed + 1 } }
    have hset : b'.connections = b.connections.set number { c with closed := true } := rfl
    refine .inl ⟨b', ?_, connection?_set hset h⟩
    simp only [harmed, hunclosed, Bool.false_eq_true, if_false]
    rfl

end Backend

namespace Cluster

variable {w w' w'' : Cluster} {number : Nat} {shard : Shard} {ref : NativeRef} {tx : Nat}
variable {call : SessionCall}

/-- Every backend has as many connections as it had. -/
def SameCount (w w' : Cluster) : Prop :=
  ∀ i, (w'.backend i).connections.length = (w.backend i).connections.length

namespace SameCount

theorem refl (w : Cluster) : SameCount w w :=
  fun _ => rfl

theorem trans (h : SameCount w w') (h' : SameCount w' w'') : SameCount w w'' :=
  fun i => (h' i).trans (h i)

theorem isOpened (h : SameCount w w') : w'.IsOpened ref ↔ w.IsOpened ref := by
  rw [IsOpened, h, IsOpened]

end SameCount

/-- Only where a connection is opened is there one more. -/
theorem Step.sameCount {effect : Effect} (h : Step effect w w')
    (hkind : [.connect].contains effect = false) : SameCount w w' := by
  intro i
  rcases h.asks i with hsame | ⟨call, hasks, hafter⟩
  · rw [hsame]
  · rw [hafter]
    refine (Backend.step_perform _ call).length_connections ?_
    rintro rfl
    cases hasks
    cases hkind

theorem Work.sameCount {effects : List Effect} (h : Work effects w w')
    (hkinds : effects.any [Effect.connect].contains = false) : SameCount w w' :=
  h.keeps hkinds .refl .trans Step.sameCount

/-! ## Connections that no handle holds -/

/-- No handle of a session holds a connection that is closed. -/
def Unclosed (w : Cluster) (number : Nat) : Prop :=
  ∀ shard ∈ (w.session number).shards, ∀ ref, w.connection? shard = some ref →
    (w.native ref).closed = false

/-- A connection that was opened and that no handle of a session holds. -/
structure Loose (w : Cluster) (number : Nat) (ref : NativeRef) : Prop where
  opened : w.IsOpened ref
  unheld : ∀ shard ∈ (w.session number).shards, w.connection? shard ≠ some ref

theorem Unclosed.loose (h : Unclosed w number) (hopened : w.IsOpened ref)
    (hclosed : (w.native ref).closed = true) : Loose w number ref := by
  refine ⟨hopened, ?_⟩
  intro shard hshard href
  have hunclosed := h shard hshard ref href
  rw [hclosed] at hunclosed
  cases hunclosed

theorem Move.opened (h : Move number call w w') (hopened : w.IsOpened ref) : w'.IsOpened ref := by
  cases h with
  | work within => exact within.isOpened hopened
  | mark current within marked => exact marked.isOpened (within.isOpened hopened)
  | hand | queue | shut => exact hopened
  | renew ended renewed => exact Nat.lt_of_lt_of_le hopened (renewed.opened _)
  | connect stays mem unconnected attached => exact Nat.lt_of_lt_of_le hopened (attached.opened _)
  | refuse mem unconnected refused => exact Nat.lt_of_lt_of_le hopened (refused.opened _)
  | disconnect closes mem connected within => exact within.isOpened hopened
  | @arm i fault armed =>
    rw [IsOpened, (w.backend_arm i ref.backend fault).1]
    exact hopened

theorem Moves.opened (h : Moves number call w w') (hopened : w.IsOpened ref) : w'.IsOpened ref := by
  induction h with
  | refl => exact hopened
  | tail _ hmove ih => exact hmove.opened ih

namespace Tidy

/-- A move gives no handle a connection that is closed. -/
theorem unclosed_move (h : Tidy w number) (hmove : Move number call w w')
    (hw : Unclosed w number) : Unclosed w' number := by
  intro other hother found hfound
  rw [h.shards_move hmove] at hother
  cases hmove with
  | work within steady =>
    rw [within.connection?] at hfound
    rw [steady.closed]
    exact hw other hother found hfound
  | mark current within marked steady =>
    have hsame := (marked.connection? other).trans (within.connection? other)
    rw [hsame] at hfound
    rw [steady.closed]
    exact hw other hother found hfound
  | hand | shut => exact hw other hother found hfound
  | renew ended renewed =>
    rw [renewed.connection?] at hfound
    rw [renewed.steady.closed]
    exact hw other hother found hfound
  | queue =>
    rw [connection?_withEvents] at hfound
    exact hw other hother found hfound
  | @connect w' shard ref stays mem unconnected attached =>
    by_cases heq : other = shard
    · subst heq
      obtain rfl := Option.some.inj (attached.connected.symm.trans hfound)
      exact attached.unclosed
    · rw [attached.connections other (h.handle_ne hother mem heq)] at hfound
      rw [attached.others found (h.opened other hother found hfound)]
      exact hw other hother found hfound
  | @refuse w' shard mem unconnected refused =>
    by_cases heq : other = shard
    · subst heq
      rw [refused.unconnected] at hfound
      cases hfound
    · rw [refused.connections other (h.handle_ne hother mem heq)] at hfound
      rw [refused.others found (h.opened other hother found hfound)]
      exact hw other hother found hfound
  | @disconnect w' shard ref closes mem connected within =>
    rw [within.connection?] at hfound
    have hbefore := connection?_of_unplug hfound
    have hne : found ≠ ref := by
      rintro rfl
      obtain rfl := h.apart other hother shard mem found hbefore connected
      rw [connection?_unplug (h.slots other hother)] at hfound
      cases hfound
    have hnative : w'.native found = w.native found :=
      within.others found fun hmem => hne (List.mem_singleton.mp hmem)
    rw [hnative]
    exact hw other hother found hbefore
  | arm =>
    rw [native_arm]
    exact hw other hother found hfound

/-- No move closes a connection that no handle holds, and none makes a handle hold it. -/
theorem loose_move (h : Tidy w number) (hmove : Move number call w w')
    (hloose : Loose w number ref) :
    Loose w' number ref ∧ (w'.native ref).closed = (w.native ref).closed := by
  have hopened := hmove.opened hloose.opened
  have hshards := h.shards_move hmove
  -- Where connections stay with their handles, only the flag is left to be looked at.
  have hheld (hsame : ∀ shard ∈ (w.session number).shards,
      w'.connection? shard = some ref → w.connection? shard = some ref) :
      Loose w' number ref := by
    refine ⟨hopened, ?_⟩
    intro shard hshard href
    rw [hshards] at hshard
    exact hloose.unheld shard hshard (hsame shard hshard href)
  cases hmove with
  | work within steady =>
    refine ⟨hheld ?_, steady.closed ref⟩
    intro shard _ href
    rwa [within.connection?] at href
  | mark current within marked steady =>
    refine ⟨hheld ?_, steady.closed ref⟩
    intro shard _ href
    exact (within.connection? shard).symm.trans ((marked.connection? shard).symm.trans href)
  | hand | shut => exact ⟨hheld fun _ _ href => href, rfl⟩
  | renew ended renewed =>
    refine ⟨hheld ?_, renewed.steady.closed ref⟩
    intro shard _ href
    rwa [renewed.connection?] at href
  | queue =>
    refine ⟨hheld ?_, rfl⟩
    intro shard _ href
    rwa [connection?_withEvents] at href
  | @connect w' other new stays mem unconnected attached =>
    refine ⟨hheld ?_, by rw [attached.others ref hloose.opened]⟩
    intro shard hshard href
    by_cases heq : shard = other
    · subst heq
      obtain rfl := Option.some.inj (attached.connected.symm.trans href)
      exact absurd hloose.opened attached.new
    · rwa [attached.connections shard (h.handle_ne hshard mem heq)] at href
  | @refuse w' other mem unconnected refused =>
    refine ⟨hheld ?_, by rw [refused.others ref hloose.opened]⟩
    intro shard hshard href
    by_cases heq : shard = other
    · subst heq
      rw [refused.unconnected] at href
      cases href
    · rwa [refused.connections shard (h.handle_ne hshard mem heq)] at href
  | @disconnect w' other found closes mem connected within =>
    have hne : ref ∉ [found] := by
      intro hmem
      rw [List.mem_singleton.mp hmem] at hloose
      exact hloose.unheld other mem connected
    refine ⟨hheld ?_, congrArg Connection.closed (within.others ref hne)⟩
    intro shard _ href
    rw [within.connection?] at href
    exact connection?_of_unplug href
  | arm => exact ⟨hheld fun _ _ href => href, by rw [native_arm]⟩

end Tidy

/-- A call that arms no fault lets none be armed. -/
theorem Move.armed (h : Move number call w w') (hcall : ∀ i fault, call ≠ .arm i fault) (i : Nat)
    (fault : NativeCall) (harmed : (w'.backend i).faults.isArmed fault = true) :
    (w.backend i).faults.isArmed fault = true := by
  cases h with
  | work within => exact within.armed i fault harmed
  | mark current within marked => exact within.armed i fault (marked.armed i fault harmed)
  | hand | queue | shut => exact harmed
  | renew ended renewed => exact renewed.armed i fault harmed
  | connect stays mem unconnected attached => exact attached.armed i fault harmed
  | refuse mem unconnected refused => exact refused.armed i fault harmed
  | disconnect closes mem connected within => exact within.armed i fault harmed
  | arm armed => exact absurd armed (hcall _ _)

/-! ## Refused closes -/

/-- The backend refused to close a connection between two states: a fault was used up, and the
connection is not closed. -/
structure CloseRefused (ref : NativeRef) (w w' : Cluster) : Prop where
  armed : (w.backend ref.backend).faults.isArmed .closing = true
  spent : (w'.backend ref.backend).faults.isArmed .closing = false
  unclosed : (w'.native ref).closed = false

/-- A connection is closed, unless the backend refuses it. -/
theorem closeNative_cases (hopened : w.IsOpened ref) (hunclosed : (w.native ref).closed = false) :
    (w.closeNative ref).1 = .ok () ∧ ((w.closeNative ref).2.native ref).closed = true ∨
      (w.closeNative ref).1 = .error .closeRefused ∧ CloseRefused ref w (w.closeNative ref).2 := by
  have hlt : ref.connection < (w.backend ref.backend).connections.length := hopened
  have hfound := List.getElem?_eq_getElem hlt
  generalize (w.backend ref.backend).connections[ref.connection] = c at hfound
  have hfound : (w.backend ref.backend).connection? ref.connection = some c := hfound
  have hanswer : (w.closeNative ref).1 = ((w.backend ref.backend).close ref.connection).1 := rfl
  have hafter : (w.closeNative ref).2.backend ref.backend
      = ((w.backend ref.backend).close ref.connection).2 := by
    rw [closeNative, backend_callBackend, if_pos ⟨rfl, lt_of_connection? hfound⟩]
  rw [native_of_connection? hfound] at hunclosed
  rcases Backend.close_cases hfound hunclosed with
    ⟨b, hclose, hclosed⟩ | ⟨b, hclose, harmed, hspent, hconnections⟩
  · rw [hclose] at hanswer hafter
    refine .inl ⟨hanswer, ?_⟩
    rw [native_eq, hafter, Backend.connection_eq hclosed]
  · rw [hclose] at hanswer hafter
    refine .inr ⟨hanswer, harmed, by rwa [hafter], ?_⟩
    rw [native_eq, hafter, Backend.connection, Backend.connection?, hconnections]
    rw [← Backend.connection?, hfound]
    exact hunclosed

/-- The refusal may have happened in the midst of more. -/
theorem CloseRefused.within {before after : Cluster} (h : CloseRefused ref w w')
    (hbefore : ∀ i fault, (w.backend i).faults.isArmed fault = true →
      (before.backend i).faults.isArmed fault = true)
    (hafter : ∀ i fault, (after.backend i).faults.isArmed fault = true →
      (w'.backend i).faults.isArmed fault = true)
    (hclosed : (after.native ref).closed = (w'.native ref).closed) :
    CloseRefused ref before after where
  armed := hbefore _ _ h.armed
  spent := by
    refine Bool.eq_false_iff.mpr ?_
    intro harmed
    have hstill := hafter _ _ harmed
    rw [h.spent] at hstill
    cases hstill
  unclosed := hclosed.trans h.unclosed

/-! ## Closing handles -/

theorem Tidy.closeShard_cases (h : Tidy w number) (hunclosed : Unclosed w number)
    (hshard : shard ∈ (w.session number).shards) (href : w.connection? shard = some ref) :
    (w.closeShard shard).1 = .ok () ∧ ((w.closeShard shard).2.native ref).closed = true ∨
      (∃ e, (w.closeShard shard).1 = .error e) ∧ CloseRefused ref w (w.closeShard shard).2 := by
  unfold closeShard
  rw [href]
  simp only
  generalize hw₁ : report .debug ("close session on shard " ++ shard.label)
    (w.setSlot shard { w.slot shard with connection := none }) = w₁
  have hbackend : ∀ i, w₁.backend i = w.backend i := fun i => hw₁ ▸ rfl
  have hopened : w₁.IsOpened ref := by
    rw [IsOpened, hbackend]
    exact h.opened shard hshard ref href
  have hnative : w₁.native ref = w.native ref := by rw [native, hbackend, native]
  have hclose := closeNative_cases hopened (hnative ▸ hunclosed shard hshard ref href)
  generalize w₁.closeNative ref = closed at hclose
  obtain ⟨answer, w₂⟩ := closed
  rcases hclose with ⟨hanswer, hclosed⟩ | ⟨hanswer, hrefused⟩
  · obtain rfl : answer = .ok () := hanswer
    exact .inl ⟨rfl, hclosed⟩
  · obtain rfl : answer = .error .closeRefused := hanswer
    refine .inr ⟨⟨_, rfl⟩, hrefused.within ?_ (fun _ _ harmed => harmed) rfl⟩
    intro i fault harmed
    rwa [hbackend] at harmed

/-- Closing a handle concerns no other. -/
theorem closeShard_connection?_ne {other : Shard} (hne : other.handle ≠ shard.handle) :
    (w.closeShard shard).2.connection? other = w.connection? other := by
  cases hconnection : w.connection? shard with
  | none => rw [closeShard, hconnection]
  | some ref =>
    rw [(closeShard_within hconnection).connection?, connection?, unplug, slot_setSlot_ne hne,
      connection?]

/-- A handle that has no connection does not get one by closing. -/
theorem Tidy.unconnected_move (h : Tidy w number) (hcloses : call.Closes)
    (hmove : Move number call w w') (hshard : shard ∈ (w.session number).shards)
    (hnone : w.connection? shard = none) : w'.connection? shard = none := by
  cases hmove with
  | work within => rw [within.connection?, hnone]
  | mark current within marked =>
    exact (marked.connection? shard).trans ((within.connection? shard).trans hnone)
  | hand | shut | arm => exact hnone
  | renew ended renewed => rw [renewed.connection?, hnone]
  | queue => rw [connection?_withEvents, hnone]
  | connect stays => exact absurd hcloses stays
  | @refuse w' other mem unconnected refused =>
    by_cases heq : shard = other
    · rw [heq, refused.unconnected]
    · rw [refused.connections shard (h.handle_ne hshard mem heq), hnone]
  | @disconnect w' other found closes mem connected within =>
    rw [within.connection?]
    refine Option.eq_none_iff_forall_ne_some.mpr ?_
    intro ref href
    rw [connection?_of_unplug href] at hnone
    cases hnone

/-- One handle of several is closed, and then the others are. -/
theorem Tidy.closeShards_cons (h : Tidy w number) (hunclosed : Unclosed w number)
    (hshard : shard ∈ (w.session number).shards) (rest : List Shard) :
    ∃ w₁, Moves number .close w w₁
      ∧ (closeShards (shard :: rest) w).2 = (closeShards rest w₁).2
      ∧ ((closeShards rest w₁).1 ≠ [] → (closeShards (shard :: rest) w).1 ≠ [])
      ∧ w₁.connection? shard = none
      ∧ (∀ other, other.handle ≠ shard.handle → w₁.connection? other = w.connection? other)
      ∧ ∀ ref, w.connection? shard = some ref → (w₁.native ref).closed = true ∨
        (closeShards (shard :: rest) w).1 ≠ [] ∧ CloseRefused ref w w₁ := by
  have hmoves : Moves number .close w (w.closeShard shard).2 := closeShard_moves hshard trivial
  have hslots := h.slots shard hshard
  rw [closeShards]
  cases hconnection : w.connection? shard with
  | none =>
    have hsame : w.closeShard shard = (.ok (), w) := by rw [closeShard, hconnection]
    rw [hsame]
    exact ⟨w, .refl, rfl, id, hconnection, fun _ _ => rfl, fun ref href => by cases href⟩
  | some ref =>
    have hcases := h.closeShard_cases hunclosed hshard hconnection
    have hothers (other : Shard) (hne : other.handle ≠ shard.handle) :=
      closeShard_connection?_ne (w := w) hne
    have hwithin := closeShard_within hconnection
    generalize w.closeShard shard = closed at hmoves hcases hwithin hothers
    obtain ⟨answer, w₁⟩ := closed
    have hnone : w₁.connection? shard = none := by
      rw [hwithin.connection?, connection?_unplug hslots]
    rcases hcases with ⟨hanswer, hclosed⟩ | ⟨⟨e, hanswer⟩, hrefused⟩
    · obtain rfl : answer = .ok () := hanswer
      refine ⟨w₁, hmoves, rfl, id, hnone, hothers, ?_⟩
      rintro _ ⟨⟩
      exact .inl hclosed
    · obtain rfl : answer = .error e := hanswer
      refine ⟨report .warn e.message w₁, hmoves.tail (.quiet ((Within.refl _ _).report ..) rfl),
        rfl, fun _ => List.cons_ne_nil _ _, hnone, hothers, ?_⟩
      rintro _ ⟨⟩
      exact .inr ⟨List.cons_ne_nil _ _, hrefused.within (fun _ _ harmed => harmed)
        (fun _ _ harmed => harmed) rfl⟩

/-- A chain of moves as a whole. -/
theorem Tidy.loose_moves (h : Tidy w number) (hmoves : Moves number call w w')
    (hloose : Loose w number ref) :
    Loose w' number ref ∧ (w'.native ref).closed = (w.native ref).closed := by
  refine h.moves_induction
    (P := fun v => Loose v number ref ∧ (v.native ref).closed = (w.native ref).closed) ?_ hmoves
    ⟨hloose, rfl⟩
  rintro v v' hv hmove ⟨hloose, hsame⟩
  obtain ⟨hloose', hsame'⟩ := hv.loose_move hmove hloose
  exact ⟨hloose', hsame'.trans hsame⟩

theorem Tidy.unclosed_moves (h : Tidy w number) (hmoves : Moves number call w w')
    (hunclosed : Unclosed w number) : Unclosed w' number :=
  h.moves_induction (P := fun v => Unclosed v number) (fun hv hmove => hv.unclosed_move hmove)
    hmoves hunclosed

theorem Moves.armed (hmoves : Moves number call w w') (hcall : ∀ i fault, call ≠ .arm i fault)
    (i : Nat) (fault : NativeCall) (harmed : (w'.backend i).faults.isArmed fault = true) :
    (w.backend i).faults.isArmed fault = true := by
  induction hmoves with
  | refl => exact harmed
  | tail _ hmove ih => exact ih (hmove.armed hcall i fault harmed)

theorem Tidy.unconnected_moves (h : Tidy w number) (hcloses : call.Closes)
    (hmoves : Moves number call w w') (hshard : shard ∈ (w.session number).shards)
    (hnone : w.connection? shard = none) : w'.connection? shard = none := by
  have hkept : shard ∈ (w'.session number).shards ∧ w'.connection? shard = none := by
    refine h.moves_induction
      (P := fun v => shard ∈ (v.session number).shards ∧ v.connection? shard = none) ?_ hmoves
      ⟨hshard, hnone⟩
    rintro v v' hv hmove ⟨hmem, hnone⟩
    exact ⟨hv.shards_move hmove ▸ hmem, hv.unconnected_move hcloses hmove hmem hnone⟩
  exact hkept.2

/-- All of some handles are without a connection when they were closed, and each connection is closed
or was refused, which leaves an error behind. -/
theorem Tidy.closeShards_cases (h : Tidy w number) (hunclosed : Unclosed w number)
    {shards : List Shard} (hshards : ∀ shard ∈ shards, shard ∈ (w.session number).shards) :
    ∀ shard ∈ shards, (closeShards shards w).2.connection? shard = none
      ∧ ∀ ref, w.connection? shard = some ref →
        ((closeShards shards w).2.native ref).closed = true ∨
          (closeShards shards w).1 ≠ [] ∧ CloseRefused ref w (closeShards shards w).2 := by
  induction shards generalizing w with
  | nil => exact fun shard hshard => absurd hshard List.not_mem_nil
  | cons head rest ih =>
    obtain ⟨hhead, hrest⟩ := List.forall_mem_cons.mp hshards
    obtain ⟨w₁, hmoves, hafter, herrors, hnone, hothers, hended⟩ :=
      h.closeShards_cons hunclosed hhead rest
    have hshards₁ : (w₁.session number).shards = (w.session number).shards := h.shards_moves hmoves
    have htidy : Tidy w₁ number := h.moves hmoves
    have hmem₁ : ∀ shard ∈ rest, shard ∈ (w₁.session number).shards :=
      fun shard hshard => hshards₁ ▸ hrest shard hshard
    have hothersClosed := ih htidy (h.unclosed_moves hmoves hunclosed) hmem₁
    have hcloses : SessionCall.close.Closes := trivial
    have hchain : Moves number .close w₁ (closeShards rest w₁).2 :=
      htidy.closeShards_moves hcloses hmem₁
    rw [hafter]
    -- What became of the first connection, it stays so while the others are closed.
    have hfirst : (closeShards rest w₁).2.connection? head = none
        ∧ ∀ ref, w.connection? head = some ref →
          ((closeShards rest w₁).2.native ref).closed = true ∨
            (closeShards (head :: rest) w).1 ≠ []
              ∧ CloseRefused ref w (closeShards rest w₁).2 := by
      refine ⟨htidy.unconnected_moves hcloses hchain (hshards₁ ▸ hhead) hnone, ?_⟩
      intro ref href
      have hloose : Loose w₁ number ref := by
        refine ⟨hmoves.opened (h.opened head hhead ref href), ?_⟩
        intro other hother hheld
        rw [hshards₁] at hother
        by_cases heq : other = head
        · rw [heq, hnone] at hheld
          cases hheld
        · rw [hothers other (h.handle_ne hother hhead heq)] at hheld
          exact heq (h.apart other hother head hhead ref hheld href)
      obtain ⟨-, hsame⟩ := htidy.loose_moves hchain hloose
      refine (hended ref href).imp (fun hclosed => hsame.trans hclosed) ?_
      rintro ⟨hfailed, hrefused⟩
      exact ⟨hfailed, hrefused.within (fun _ _ harmed => harmed) (hchain.armed nofun) hsame⟩
    intro shard hshard
    by_cases heq : shard = head
    · rw [heq]
      exact hfirst
    · have hrested := (List.mem_cons.mp hshard).resolve_left heq
      obtain ⟨hunconnected, hother⟩ := hothersClosed shard hrested
      refine ⟨hunconnected, ?_⟩
      intro ref href
      rw [← hothers shard (h.handle_ne (hrest shard hrested) hhead heq)] at href
      refine (hother ref href).imp_right ?_
      rintro ⟨hfailed, hrefused⟩
      exact ⟨herrors hfailed, hrefused.within (hmoves.armed nofun) (fun _ _ harmed => harmed) rfl⟩

/-- A session that is closed for the first time is left without connections. Each of them is closed
or was refused, which is reported. -/
theorem Tidy.closeSession_cases (h : Tidy w number) (hunclosed : Unclosed w number)
    (hopen : (w.session number).closed = false) :
    ∀ shard ∈ (w.session number).shards, (w.closeSession number).2.connection? shard = none
      ∧ ∀ ref, w.connection? shard = some ref →
        ((w.closeSession number).2.native ref).closed = true ∨
          (∃ e, (w.closeSession number).1 = .error e)
            ∧ CloseRefused ref w (w.closeSession number).2 := by
  unfold closeSession
  simp only [hopen, Bool.false_eq_true, if_false]
  generalize hw₁ : (w.mapSession number fun session => { session with closed := true }) = w₁
  have hshut : Move number .close w w₁ := hw₁ ▸ .shut trivial
  have hwarned := w₁.warnUnfinished_work (w.session number).current
  have hwarn := hwarned.quiet rfl
  have hhanded := hwarned.handed_eq rfl
  generalize w₁.warnUnfinished (w.session number).current = w₂ at hwarn hhanded
  have hmoves : Moves number .close w w₂ := .tail (.single hshut) (.quiet hwarn hhanded)
  have hconnections : ∀ shard, w₂.connection? shard = w.connection? shard := by
    intro shard
    rw [hwarn.connection?, ← hw₁]
    rfl
  have hshards : ∀ shard ∈ (w.session number).shards, shard ∈ (w₂.session number).shards := by
    rw [h.shards_moves hmoves]
    exact fun _ hshard => hshard
  have hclosed := (h.moves hmoves).closeShards_cases (h.unclosed_moves hmoves hunclosed) hshards
  generalize closeShards (w.session number).shards w₂ = closed at hclosed
  obtain ⟨errors, w₃⟩ := closed
  intro shard hshard
  obtain ⟨hnone, hended⟩ := hclosed shard hshard
  simp only [hconnections] at hended
  cases errors with
  | nil =>
    refine ⟨hnone, ?_⟩
    intro ref href
    refine (hended ref href).imp_right ?_
    rintro ⟨hsome, -⟩
    exact absurd rfl hsome
  | cons first errors =>
    refine ⟨hnone, ?_⟩
    intro ref href
    refine (hended ref href).imp_right ?_
    rintro ⟨-, hrefused⟩
    exact ⟨⟨first, rfl⟩, hrefused.within (hmoves.armed nofun) (fun _ _ harmed => harmed) rfl⟩

/-! ## Connecting handles -/

/-- A backend opens one connection at a time, the one that it answers. -/
theorem openConnection_opened (i : Nat) (hnew : ¬ w.IsOpened ref)
    (hopened : (w.callBackend i Backend.openConnection).2.IsOpened ref) :
    i = ref.backend ∧ (w.callBackend i Backend.openConnection).1 = .ok ref.connection
      ∧ ((w.callBackend i Backend.openConnection).2.native ref) = .fresh := by
  have hanswer : (w.callBackend i Backend.openConnection).1 = (w.backend i).openConnection.1 := rfl
  rw [IsOpened, backend_callBackend] at hopened
  rw [hanswer, native_eq, backend_callBackend]
  split at hopened
  case isFalse => exact absurd hopened hnew
  case isTrue hi =>
    rw [if_pos hi]
    obtain ⟨rfl, -⟩ := hi
    have hge : (w.backend ref.backend).connections.length ≤ ref.connection := Nat.not_lt.mp hnew
    unfold Backend.openConnection at hopened ⊢
    split at hopened
    case isTrue => exact absurd hopened hnew
    case isFalse hfault =>
      rw [List.length_append, List.length_singleton] at hopened
      have hlast : ref.connection = (w.backend ref.backend).connections.length := by omega
      rw [if_neg hfault, hlast]
      refine ⟨rfl, rfl, ?_⟩
      simp [Backend.connection, Backend.connection?]

/-- The only connection that an attempt opens is the one it publishes or turns down. -/
theorem settle_cases_closed (hopened : w.IsOpened ref) (hunclosed : (w.native ref).closed = false)
    (hbackend : ref.backend = shard.backend) (hslot : shard.handle < w.slots.length)
    (rounds : Nat) (fired : List OpenEvent) (hrounds : ∀ tx, w.Waits shard tx → rounds ≠ 0) :
    let settled := settle shard ref rounds fired w
    settled.2.connection? shard = some ref ∨ (∃ e, settled.1 = .error e)
      ∧ ((settled.2.native ref).closed = true ∨ CloseRefused ref w settled.2) := by
  intro settled
  rcases settle_cases ref hslot rounds fired hrounds with
    ⟨shown, hshown, -, hsettle⟩ | ⟨shown, events, e, hshown, -, hsettle⟩
  · refine .inl ?_
    rw [show settled = _ from hsettle]
    exact connection?_publish (by rwa [hshown.slots]) hbackend
  · refine .inr ?_
    rw [show settled = _ from hsettle]
    refine ⟨⟨e, rfl⟩, ?_⟩
    unfold reject
    simp only
    generalize hw₁ : (report .warn _ shown).setSlot shard _ = w₁
    have hbackends : ∀ i, w₁.backend i = shown.backend i := fun i => hw₁ ▸ rfl
    have hopened₁ : w₁.IsOpened ref := by
      rw [IsOpened, hbackends]
      exact Nat.lt_of_lt_of_le hopened (hshown.opened ref.backend)
    have hunclosed₁ : (w₁.native ref).closed = false := by
      rw [native, hbackends]
      exact (hshown.steady.closed ref).trans hunclosed
    have hclose := closeNative_cases hopened₁ hunclosed₁
    generalize w₁.closeNative ref = closed at hclose
    obtain ⟨answer, w₂⟩ := closed
    rcases hclose with ⟨hanswer, hclosed⟩ | ⟨hanswer, hrefused⟩
    · obtain rfl : answer = .ok () := hanswer
      exact .inl hclosed
    · obtain rfl : answer = .error .closeRefused := hanswer
      refine .inr (hrefused.within ?_ (fun _ _ harmed => harmed) rfl)
      intro i fault harmed
      rw [hbackends] at harmed
      exact hshown.armed i fault harmed

/-- A connection that was opened in an attempt is held by the handle, or the attempt failed and the
connection is closed or its close was refused. -/
theorem establish_opened (hslot : shard.handle < w.slots.length)
    (hbackend : shard.backend < w.backends.length) (hnew : ¬ w.IsOpened ref)
    (hopened : (w.establish shard).2.IsOpened ref) :
    (w.establish shard).2.connection? shard = some ref ∨ (∃ e, (w.establish shard).1 = .error e)
      ∧ (((w.establish shard).2.native ref).closed = true ∨
        CloseRefused ref w (w.establish shard).2) := by
  unfold establish at hopened ⊢
  cases hconnection : w.connection? shard with
  | some held =>
    rw [hconnection] at hopened
    exact absurd hopened hnew
  | none =>
    rw [hconnection] at hopened
    have hwithin : Within [] w (w.callBackend shard.backend Backend.openConnection).2 := by
      rcases w.openConnection_cases shard.backend hbackend with
        ⟨_, _, hcall, hwithin, -⟩ | ⟨_, _, hcall, hwithin, -⟩
      · rwa [hcall]
      · rwa [hcall]
    have hdialled := openConnection_opened shard.backend hnew
    generalize w.callBackend shard.backend Backend.openConnection = called at *
    obtain ⟨answer, w₁⟩ := called
    cases answer with
    | error reason =>
      obtain ⟨-, hanswer, -⟩ := hdialled hopened
      cases hanswer
    | ok n =>
      simp only at hopened ⊢
      generalize hw₂ : report .info ("open session on shard " ++ shard.label) w₁ = w₂ at hopened ⊢
      have hreported : Within [] w w₂ := hw₂ ▸ hwithin.report ..
      have hwork := settle_work shard ⟨shard.backend, n⟩ (w₂.rounds shard) [] w₂
      have hopened₂ : w₂.IsOpened ref := (hwork.sameCount rfl).isOpened.mp hopened
      have hopened₁ : w₁.IsOpened ref := by
        rw [← hw₂] at hopened₂
        exact hopened₂
      obtain ⟨hplace, hanswer, hfresh⟩ := hdialled hopened₁
      obtain rfl : n = ref.connection := Except.ok.inj hanswer
      rw [hplace]
      have hunclosed : (w₂.native ref).closed = false := by
        rw [← hw₂]
        exact congrArg Connection.closed hfresh
      have hslot₂ : shard.handle < w₂.slots.length := by rwa [hreported.slots]
      refine (settle_cases_closed hopened₂ hunclosed hplace.symm hslot₂ (w₂.rounds shard) []
        fun tx hwaits => rounds_ne_zero hwaits).imp_right ?_
      rintro ⟨hfailed, hended⟩
      refine ⟨hfailed, hended.imp_right ?_⟩
      intro hrefused
      exact hrefused.within hreported.armed (fun _ _ harmed => harmed) rfl

end Cluster

end ScatterGather
