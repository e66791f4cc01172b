import ScatterGather.Proofs.Session.Closing
import ScatterGather.Proofs.Session.Undisturbed

/-!
# What a successful close leaves open

A close that succeeds says nothing of connections that were let go before. A backend is asked only
once to close a connection: if it refuses, the handle is without it, the call ends with an error, and
no later close reaches the connection. Every other connection of a handle is closed once closing the
handle has succeeded, and likewise for a session, of the connections that were opened before it was
closed first.
-/

namespace ScatterGather

/-- An answer that is an error. -/
def SessionAnswer.IsError : SessionAnswer → Prop
  | transaction answer => ∃ e, answer = .error e
  | done answer => ∃ e, answer = .error e
  | connection answer => ∃ e, answer = .error e
  | written answer => ∃ e, answer = .error e

/-- A call that needs a connection of the handle at this place. -/
def SessionCall.Connects (index : Nat) : SessionCall → Prop
  | establish place => place = index
  | write place _ _ => place = index
  | _ => False

namespace Cluster

variable {w w' : Cluster} {number index : Nat} {shard : Shard} {ref : NativeRef}
variable {call : SessionCall} {calls : List SessionCall}

/-- A connection was opened at this moment, through the handle at a place. -/
structure Moment.Opens (number index : Nat) (ref : NativeRef) (m : Moment) : Prop where
  connects : m.call.Connects index
  new : ¬ m.state.IsOpened ref
  opened : (m.after number).IsOpened ref

/-- At this moment the backend refused to close a connection, which no handle holds any more. The
caller got an error. -/
structure Moment.Leaks (number : Nat) (ref : NativeRef) (m : Moment) : Prop where
  refused : CloseRefused ref m.state (m.after number)
  known : ¬ m.state.IsOpened ref ∨
    ∃ shard ∈ (m.state.session number).shards, m.state.connection? shard = some ref
  loose : Loose (m.after number) number ref
  failed : ∃ answer, m.state.answer? number m.call = some answer ∧ answer.IsError

/-! ## One call -/

theorem Tidy.held_move (h : Tidy w number) (hstays : ¬ call.Closes) (hmove : Move number call w w')
    (hshard : shard ∈ (w.session number).shards) (href : w.connection? shard = some ref) :
    w'.connection? shard = some ref := by
  have hne {other : Shard} (hnone : w.connection? other = none) : shard ≠ other := by
    rintro rfl
    rw [href] at hnone
    cases hnone
  cases hmove with
  | work within => rw [within.connection?, href]
  | mark current within marked =>
    exact (marked.connection? shard).trans ((within.connection? shard).trans href)
  | hand | arm => exact href
  | renew ended renewed => rw [renewed.connection?, href]
  | queue => rw [connection?_withEvents, href]
  | connect stays mem unconnected attached =>
    rw [attached.connections shard (h.handle_ne hshard mem (hne unconnected)), href]
  | refuse mem unconnected refused =>
    rw [refused.connections shard (h.handle_ne hshard mem (hne unconnected)), href]
  | disconnect closes | shut closes => exact absurd closes hstays

/-- A call that closes nothing lets every handle keep its connection. -/
theorem Tidy.held_moves (h : Tidy w number) (hstays : ¬ call.Closes)
    (hmoves : Moves number call w w') (hshard : shard ∈ (w.session number).shards)
    (href : w.connection? shard = some ref) : w'.connection? shard = some ref := by
  have hkept : shard ∈ (w'.session number).shards ∧ w'.connection? shard = some ref := by
    refine h.moves_induction
      (P := fun v => shard ∈ (v.session number).shards ∧ v.connection? shard = some ref) ?_ hmoves
      ⟨hshard, href⟩
    rintro v v' hv hmove ⟨hmem, href⟩
    exact ⟨hv.shards_move hmove ▸ hmem, hv.held_move hstays hmove hmem href⟩
  exact hkept.2

/-- The connection of a handle that was closed is held by no other. -/
theorem Tidy.closeShard_loose (h : Tidy w number) (hshard : shard ∈ (w.session number).shards)
    (href : w.connection? shard = some ref) : Loose (w.closeShard shard).2 number ref := by
  have hwithin := closeShard_within href
  refine ⟨hwithin.isOpened (h.opened shard hshard ref href), ?_⟩
  intro other hother hheld
  rw [hwithin.session] at hother
  rw [hwithin.connection?] at hheld
  obtain rfl := h.apart other hother shard hshard ref (connection?_of_unplug hheld) href
  rw [connection?_unplug (h.slots other hshard)] at hheld
  cases hheld

/-- What an attempt opened is held by the handle or by none. If by none, the attempt failed, and the
connection is closed or its close was refused. -/
theorem Tidy.establish_ended (h : Tidy w number) (hshard : shard ∈ (w.session number).shards)
    (hnew : ¬ w.IsOpened ref) (hopened : (w.establish shard).2.IsOpened ref) :
    (w.establish shard).2.connection? shard = some ref ∨
      ((∃ e, (w.establish shard).1 = .error e) ∧ Loose (w.establish shard).2 number ref)
        ∧ (((w.establish shard).2.native ref).closed = true ∨
          CloseRefused ref w (w.establish shard).2) := by
  by_cases hheld : (w.establish shard).2.connection? shard = some ref
  · exact .inl hheld
  obtain ⟨hfailed, hended⟩ := (establish_opened (h.slots shard hshard) (h.backends shard hshard)
    hnew hopened).resolve_left hheld
  refine .inr ⟨⟨hfailed, hopened, ?_⟩, hended⟩
  -- The other handles hold what they held before the connection was opened.
  have hothers : ∀ other ∈ (w.session number).shards, other ≠ shard →
      (w.establish shard).2.connection? other = w.connection? other := by
    intro other hother hne
    have hhandle := h.handle_ne hother hshard hne
    cases hconnection : w.connection? shard with
    | some held => rw [establish, hconnection]
    | none =>
      rcases establish_attempt (h.slots shard hshard) (h.backends shard hshard) hconnection h.members
        with ⟨_, _, hestablish, hattached⟩ | ⟨_, _, hestablish, hrefused⟩
      · rw [hestablish]
        exact hattached.connections other hhandle
      · rw [hestablish]
        exact hrefused.connections other hhandle
  intro other hother
  have hstays : ¬ (SessionCall.establish 0).Closes := id
  rw [h.shards_moves (h.establish_moves hshard hstays)] at hother
  by_cases heq : other = shard
  · rwa [heq]
  · rw [hothers other hother heq]
    intro hheld
    exact hnew (h.opened other hother ref hheld)

/-- A write connects the handle, and then has nothing to do with other connections. -/
theorem write_ended (w : Cluster) (shard : Shard) (key : String) (value : Option Json) :
    (∃ e, (w.establish shard).1 = .error e
      ∧ w.write shard key value = (.error (.shard e), (w.establish shard).2)) ∨
    Steady (w.establish shard).2 (w.write shard key value).2
      ∧ (w.write shard key value).2.connection? shard = (w.establish shard).2.connection? shard
      ∧ SameCount (w.establish shard).2 (w.write shard key value).2
      ∧ ∀ e, (w.establish shard).1 ≠ .error e := by
  unfold write onShard
  generalize w.establish shard = established
  match established with
  | (.error e, w₁) => exact .inl ⟨e, rfl, rfl⟩
  | (.ok ref, w₁) =>
    have hwrite := Step.write w₁ ref key value
    exact .inr ⟨hwrite.steady rfl, rfl, hwrite.sameCount rfl, nofun⟩

/-- What a closing call does with the connection of a handle. -/
theorem Tidy.after_closing (h : Tidy w number) (hunclosed : Unclosed w number)
    (hcloses : call.Closes) (hmem : shard ∈ (w.session number).shards)
    (href : w.connection? shard = some ref) :
    (w.after number call).connection? shard = some ref ∨
      ((w.after number call).native ref).closed = true ∨
      (Moment.mk w call).Leaks number ref := by
  cases call with
  | closeShard place =>
    cases hplace : (w.session number).shards[place]? with
    | none =>
      refine .inl ?_
      rw [after, onHandle, hplace]
      exact href
    | some other =>
      have hafter : w.after number (.closeShard place) = (w.closeShard other).2 := by
        rw [after, onHandle, hplace]
      by_cases heq : shard = other
      · subst heq
        rw [hafter]
        rcases h.closeShard_cases hunclosed hmem href with ⟨-, hclosed⟩ | ⟨⟨e, hfailed⟩, hrefused⟩
        · exact .inr (.inl hclosed)
        · have hloose := h.closeShard_loose hmem href
          rw [← hafter] at hrefused hloose
          refine .inr (.inr ⟨hrefused, .inr ⟨shard, hmem, href⟩, hloose, .done (.error e), ?_, e, rfl⟩)
          simp only [answer?, hplace, Option.map_some, hfailed]
      · refine .inl ?_
        rw [hafter, closeShard_connection?_ne
          (h.handle_ne hmem (List.mem_of_getElem? hplace) heq), href]
  | close =>
    have hafter : w.after number .close = (w.closeSession number).2 := rfl
    cases hclosed : (w.session number).closed with
    | true =>
      refine .inl ?_
      rw [hafter, closeSession, if_pos hclosed, href]
    | false =>
      have hended := h.closeSession_cases hunclosed hclosed
      obtain ⟨-, hended'⟩ := hended shard hmem
      rcases hended' ref href with hshut | ⟨⟨e, hfailed⟩, hrefused⟩
      · exact .inr (.inl hshut)
      · refine .inr (.inr ⟨hrefused, .inr ⟨shard, hmem, href⟩, ⟨?_, ?_⟩, .done (.error e), ?_, e, rfl⟩)
        · exact (h.after_moves .close).opened (h.opened shard hmem ref href)
        · intro other hother hheld
          have hshards := h.shards_moves (h.after_moves .close)
          rw [show (Moment.mk w .close).after number = after number w .close from rfl, hshards]
            at hother
          have hnone := (hended other hother).1
          rw [← hafter] at hnone
          rw [show (Moment.mk w .close).after number = after number w .close from rfl, hnone]
            at hheld
          cases hheld
        · simp only [answer?, hfailed]
  | _ => exact hcloses.elim

/-- A connection that a handle holds, or that is opened for it, is held by it after the call, or
closed, or the call leaks it. -/
theorem Tidy.after_held (h : Tidy w number) (hunclosed : Unclosed w number) (call : SessionCall)
    (hshard : (w.session number).shards[index]? = some shard)
    (hwhere : w.connection? shard = some ref ∨ (Moment.mk w call).Opens number index ref) :
    (w.after number call).connection? shard = some ref ∨
      ((w.after number call).native ref).closed = true ∨
      (Moment.mk w call).Leaks number ref := by
  have hmem := List.mem_of_getElem? hshard
  rcases hwhere with hheld | ⟨hconnects, hnew, hopened⟩
  · by_cases hcloses : call.Closes
    · exact h.after_closing hunclosed hcloses hmem hheld
    · exact .inl (h.held_moves hcloses (h.after_moves call) hmem hheld)
  · change (w.after number call).IsOpened ref at hopened
    cases call with
    | establish place =>
      obtain rfl : place = index := hconnects
      have hafter : w.after number (.establish place) = (w.establish shard).2 := by
        rw [after, onHandle, hshard]
      rw [hafter] at hopened ⊢
      refine (h.establish_ended hmem hnew hopened).imp_right ?_
      rintro ⟨⟨⟨e, hfailed⟩, hloose⟩, hended⟩
      refine hended.imp_right ?_
      intro hrefused
      rw [← hafter] at hrefused hloose
      refine ⟨hrefused, .inl hnew, hloose, .connection (.error e), ?_, e, rfl⟩
      simp only [answer?, hshard, Option.map_some, hfailed]
    | write place key value =>
      obtain rfl : place = index := hconnects
      have hafter : w.after number (.write place key value) = (w.write shard key value).2 := by
        rw [after, onHandle, hshard]
      rw [hafter] at hopened ⊢
      rcases w.write_ended shard key value with
        ⟨e, hfailed, hwrite⟩ | ⟨hsteady, hsame, hcount, hok⟩
      · have hsame : (w.write shard key value).2 = (w.establish shard).2 := by rw [hwrite]
        rw [hsame] at hopened ⊢
        refine (h.establish_ended hmem hnew hopened).imp_right ?_
        rintro ⟨⟨-, hloose⟩, hended⟩
        refine hended.imp_right ?_
        intro hrefused
        rw [← hsame, ← hafter] at hrefused hloose
        refine ⟨hrefused, .inl hnew, hloose, .written (.error (.shard e)), ?_, _, rfl⟩
        simp only [answer?, hshard, Option.map_some, hwrite]
      · rw [hcount.isOpened] at hopened
        rcases h.establish_ended hmem hnew hopened with hheld | ⟨⟨⟨e, hfailed⟩, -⟩, -⟩
        · exact .inl (hsame.trans hheld)
        · exact absurd hfailed (hok e)
    | _ => exact hconnects.elim

/-- Only closing the session marks it as closed. -/
theorem Tidy.closed_after (h : Tidy w number) (hcall : call ≠ .close) :
    ((w.after number call).session number).closed = (w.session number).closed := by
  by_cases hcloses : call.Closes
  · cases call with
    | closeShard place =>
      rw [after, onHandle]
      split
      case h_1 shard hplace =>
        cases hconnection : w.connection? shard with
        | none => rw [closeShard, hconnection]
        | some ref =>
          rw [(closeShard_within hconnection).session]
          rfl
      case h_2 => rfl
    | close => exact absurd rfl hcall
    | _ => exact hcloses.elim
  · refine h.moves_induction (P := fun v => (v.session number).closed = (w.session number).closed)
      ?_ (h.after_moves call) rfl
    intro v v' _ hmove hsame
    rw [← hsame]
    cases hmove with
    | work within => rw [within.session]
    | mark current within marked =>
      rw [marked.session]
      exact congrArg Session.closed (within.session number)
    | hand | queue | arm => rfl
    | renew ended renewed => rw [renewed.session]
    | connect stays mem unconnected attached => rw [session, attached.sessions, session]
    | refuse mem unconnected refused => rw [session, refused.sessions, session]
    | disconnect closes | shut closes => exact absurd closes hcloses

theorem Tidy.closed_kept (h : Tidy w number) (hunclosed : Unclosed w number) (call : SessionCall)
    (hopened : w.IsOpened ref) (hclosed : (w.native ref).closed = true) :
    ((w.after number call).native ref).closed = true := by
  obtain ⟨-, hsame⟩ := h.loose_moves (h.after_moves call) (hunclosed.loose hopened hclosed)
  rw [hsame, hclosed]

/-- While a handle holds a connection, its session is not closed. -/
theorem Tidy.closed_of_held (h : Tidy w number) (hunclosed : Unclosed w number)
    (call : SessionCall) (hshard : shard ∈ (w.session number).shards)
    (hheld : (w.after number call).connection? shard = some ref) :
    ((w.after number call).session number).closed = (w.session number).closed := by
  by_cases hcall : call = .close
  · subst hcall
    have hafter : w.after number .close = (w.closeSession number).2 := rfl
    rw [hafter] at hheld ⊢
    cases hclosed : (w.session number).closed with
    | true => rw [closeSession, if_pos hclosed, hclosed]
    | false =>
      rw [(h.closeSession_cases hunclosed hclosed shard hshard).1] at hheld
      cases hheld
  · exact h.closed_after hcall

/-! ## Runs -/

theorem Tidy.unclosed_run (h : Tidy w number) (hunclosed : Unclosed w number)
    (calls : List SessionCall) : Unclosed (w.run number calls) number :=
  h.run_induction (fun v => Unclosed v number) (fun _ => True)
    (fun _ hv hmove => hv.unclosed_move hmove) hunclosed fun _ _ => trivial

theorem Tidy.closed_run (h : Tidy w number) (hunclosed : Unclosed w number)
    (hopened : w.IsOpened ref) (hclosed : (w.native ref).closed = true) (calls : List SessionCall) :
    ((w.run number calls).native ref).closed = true := by
  induction calls generalizing w with
  | nil => exact hclosed
  | cons call rest ih =>
    have hmoves := h.after_moves call
    exact ih (h.moves hmoves) (h.unclosed_moves hmoves hunclosed) (hmoves.opened hopened)
      (h.closed_kept hunclosed call hopened hclosed)

/-- A connection that a handle holds is held by it to the end of a run in which the session is not
closed, or it is closed, or some call of the run leaks it. -/
theorem Tidy.held_run (h : Tidy w number) (hunclosed : Unclosed w number)
    (hshard : (w.session number).shards[index]? = some shard)
    (hheld : w.connection? shard = some ref) (calls : List SessionCall) :
    (w.run number calls).connection? shard = some ref
        ∧ ((w.run number calls).session number).closed = (w.session number).closed ∨
      ((w.run number calls).native ref).closed = true ∨
      ∃ m ∈ moments number w calls, m.Leaks number ref := by
  induction calls generalizing w with
  | nil => exact .inl ⟨hheld, rfl⟩
  | cons call rest ih =>
    have hmem := List.mem_of_getElem? hshard
    have hmoves := h.after_moves call
    have htidy : Tidy (w.after number call) number := h.moves hmoves
    have hlive := h.unclosed_moves hmoves hunclosed
    rcases h.after_held hunclosed call hshard (.inl hheld) with hheld₁ | hclosed | hleaks
    · have hshard₁ : ((w.after number call).session number).shards[index]? = some shard := by
        rw [h.shards_moves hmoves, hshard]
      have hsame := h.closed_of_held hunclosed call hmem hheld₁
      rcases ih htidy hlive hshard₁ hheld₁ with ⟨hend, hflag⟩ | hclosed | ⟨m, hm, hleaks⟩
      · exact .inl ⟨hend, hflag.trans hsame⟩
      · exact .inr (.inl hclosed)
      · exact .inr (.inr ⟨m, List.mem_cons_of_mem _ hm, hleaks⟩)
    · have hopened := hmoves.opened (h.opened shard hmem ref hheld)
      exact .inr (.inl (htidy.closed_run hlive hopened hclosed rest))
    · exact .inr (.inr ⟨_, List.mem_cons_self, hleaks⟩)

/-- A connection is opened through a handle that there is. -/
theorem Moment.Opens.handle {m : Moment} (h : m.Opens number index ref) :
    ∃ shard, (m.state.session number).shards[index]? = some shard := by
  obtain ⟨state, call⟩ := m
  obtain ⟨hconnects, hnew, hopened⟩ := h
  refine Option.ne_none_iff_exists'.mp ?_
  intro hnone
  -- Without the handle nothing happens.
  refine hnew ?_
  have hsame : (Moment.mk state call).after number = state := by
    cases call with
    | establish place | write place =>
      obtain rfl : place = index := hconnects
      rw [Moment.after, Cluster.after, onHandle, hnone]
    | _ => exact hconnects.elim
  rwa [hsame] at hopened

theorem Tidy.opens_handle (h : Tidy w number) {m : Moment} (hm : m ∈ moments number w calls)
    (hopens : m.Opens number index ref) :
    ∃ shard, (w.session number).shards[index]? = some shard := by
  obtain ⟨before, later, -, hstate⟩ := split_of_mem_moments hm
  have hhandle := hopens.handle
  rwa [hstate, h.shards_run before] at hhandle

/-- What a run has made of a connection that it opened through a handle. -/
theorem Tidy.opened_run (h : Tidy w number) (hunclosed : Unclosed w number)
    (hshard : (w.session number).shards[index]? = some shard) {calls : List SessionCall} {m : Moment}
    (hm : m ∈ moments number w calls) (hopens : m.Opens number index ref) :
    (w.run number calls).IsOpened ref
      ∧ ((w.run number calls).connection? shard = some ref
          ∧ ((w.run number calls).session number).closed = (m.state.session number).closed ∨
        ((w.run number calls).native ref).closed = true ∨
        ∃ m ∈ moments number w calls, m.Leaks number ref) := by
  obtain ⟨before, later, rfl, hstate⟩ := split_of_mem_moments hm
  obtain ⟨state, call⟩ := m
  obtain rfl : state = w.run number before := hstate
  have htidy := h.run before
  have hlive := h.unclosed_run hunclosed before
  have hshard₁ : ((w.run number before).session number).shards[index]? = some shard := by
    rw [h.shards_run before, hshard]
  have hlate : ∀ m ∈ moments number (after number (w.run number before) call) later,
      m ∈ moments number w (before ++ call :: later) := by
    rw [moments_append]
    exact fun m hm => List.mem_append_right _ (List.mem_cons_of_mem _ hm)
  have hrun : w.run number (before ++ call :: later)
      = (after number (w.run number before) call).run number later := by
    rw [Cluster.run, List.foldl_append]
    rfl
  rw [hrun]
  generalize w.run number before = v at *
  have hmoves := htidy.after_moves call
  have htidy₁ : Tidy (v.after number call) number := htidy.moves hmoves
  have hlive₁ := htidy.unclosed_moves hmoves hlive
  have hopened : (v.after number call).IsOpened ref := hopens.opened
  refine ⟨htidy₁.run_induction (fun v => v.IsOpened ref) (fun _ => True)
    (fun _ _ hmove => hmove.opened) hopened fun _ _ => trivial, ?_⟩
  rcases htidy.after_held hlive call hshard₁ (.inr hopens) with hheld | hclosed | hleaks
  · have hshard₂ : ((v.after number call).session number).shards[index]? = some shard := by
      rw [htidy.shards_moves hmoves, hshard₁]
    have hsame := htidy.closed_of_held hlive call (List.mem_of_getElem? hshard₁) hheld
    rcases htidy₁.held_run hlive₁ hshard₂ hheld later with
      ⟨hend, hflag⟩ | hclosed | ⟨m, hm, hleaks⟩
    · exact .inl ⟨hend, hflag.trans hsame⟩
    · exact .inr (.inl hclosed)
    · exact .inr (.inr ⟨m, hlate m hm, hleaks⟩)
  · exact .inr (.inl (htidy₁.closed_run hlive₁ hopened hclosed later))
  · exact .inr (.inr ⟨_, hm, hleaks⟩)

/-- The handles of a session that was just opened hold nothing. -/
theorem openSession_unclosed {w₀ : Cluster} {factory : SessionFactory}
    (h : w₀.openSession factory = (.ok number, w)) : Unclosed w number := by
  obtain ⟨shards, w₁, hadded, rfl, rfl, hfound⟩ := openSession_spec h
  intro shard hshard ref href
  rw [hfound] at hshard
  cases (hadded.unconnected hshard).symm.trans href

/-- Whenever closing a handle succeeds, every connection that was opened through it is closed, and
whenever closing a session succeeds, for the first time or again, every connection is that was opened
through one of its handles before it was closed, except those whose close was refused in an earlier
call, which ended with an error. -/
theorem run_close_releases {w₀ w : Cluster} {factory : SessionFactory}
    (hfresh : w₀.transactions = []) (hfree : w₀.handed = [])
    (hplaces : ∀ physical ∈ factory.shards, physical.backend < w₀.backends.length)
    (hopen : w₀.openSession factory = (.ok number, w)) (calls : List SessionCall) :
    let w' := w.run number calls
    (∀ index shard, (w.session number).shards[index]? = some shard →
        (w'.closeShard shard).1 = .ok () →
        ∀ ref, ∀ m ∈ moments number w calls, m.Opens number index ref →
          ((w'.closeShard shard).2.native ref).closed = true ∨
            ∃ m ∈ moments number w calls, m.Leaks number ref)
      ∧ ((w'.closeSession number).1 = .ok () →
        ∀ index ref, ∀ m ∈ moments number w calls, m.Opens number index ref →
          (m.state.session number).closed = false →
          ((w'.closeSession number).2.native ref).closed = true ∨
            ∃ m ∈ moments number w calls, m.Leaks number ref) := by
  intro w'
  have htidy := openSession_tidy hfresh hfree hplaces hopen
  have hunclosed := openSession_unclosed hopen
  have htidy' := htidy.run calls
  have hlive := htidy.unclosed_run hunclosed calls
  have hshards := htidy.shards_run calls
  constructor
  · intro index shard hshard hok ref m hm hopens
    obtain ⟨hopened, hended⟩ := htidy.opened_run hunclosed hshard hm hopens
    have hmem : shard ∈ (w'.session number).shards := by
      rw [hshards]
      exact List.mem_of_getElem? hshard
    rcases hended with ⟨hheld, -⟩ | hclosed | hleaks
    · rcases htidy'.closeShard_cases hlive hmem hheld with ⟨-, hclosed⟩ | ⟨⟨e, hfailed⟩, -⟩
      · exact .inl hclosed
      · rw [hok] at hfailed
        cases hfailed
    · have hcloses : (SessionCall.closeShard index).Closes := trivial
      obtain ⟨-, hsame⟩ := htidy'.loose_moves (closeShard_moves hmem hcloses)
        (hlive.loose hopened hclosed)
      exact .inl (hsame.trans hclosed)
    · exact .inr hleaks
  · intro hok index ref m hm hopens hbefore
    obtain ⟨shard, hshard⟩ := htidy.opens_handle hm hopens
    obtain ⟨hopened, hended⟩ := htidy.opened_run hunclosed hshard hm hopens
    rcases hended with ⟨hheld, hflag⟩ | hclosed | hleaks
    · have hmem : shard ∈ (w'.session number).shards := by
        rw [hshards]
        exact List.mem_of_getElem? hshard
      obtain ⟨-, hclose⟩ :=
        htidy'.closeSession_cases hlive (hflag.trans hbefore) shard hmem
      rcases hclose ref hheld with hclosed | ⟨⟨e, hfailed⟩, -⟩
      · exact .inl hclosed
      · rw [hok] at hfailed
        cases hfailed
    · exact .inl (htidy'.closed_kept hlive .close hopened hclosed)
    · exact .inr hleaks

/-- A close that is refused and then asked for again succeeds with the connection still open, for the
handle as for the session. -/
theorem close_again_leaves_open :
    let factory : SessionFactory := ⟨[⟨.ofNat 0, .ofList [.ofNat 0], 0⟩], .default, none⟩
    let w := ((ofBackends 1).openSession factory).2
    let opened : List SessionCall := [.establish 0, .arm 0 .closing]
    let session := w.run 0 (opened ++ [.close])
    let handle := w.run 0 (opened ++ [.closeShard 0])
    (session.closeSession 0).1 = .ok ()
      ∧ ((session.closeSession 0).2.native ⟨0, 0⟩).closed = false
      ∧ (∀ shard ∈ (w.session 0).shards, (handle.closeShard shard).1 = .ok ()
        ∧ ((handle.closeShard shard).2.native ⟨0, 0⟩).closed = false)
      ∧ ∃ m ∈ moments 0 w opened, m.Opens 0 0 ⟨0, 0⟩ := by
  intro factory w opened session handle
  refine ⟨by decide +kernel, by decide +kernel, by decide +kernel, ⟨w, .establish 0⟩,
    List.mem_cons_self, rfl, ?_, ?_⟩
  · exact (by decide +kernel : ¬ 0 < (w.backend 0).connections.length)
  · exact (by decide +kernel : 0 < ((w.after 0 (.establish 0)).backend 0).connections.length)

/-- A rejected connection that the backend refused to close, and a later one: of these the session
closes the later one. -/
theorem run_close_releases_rejected :
    let factory : SessionFactory := ⟨[⟨.ofNat 0, .ofList [.ofNat 0], 0⟩], .default, none⟩
    let w := ((ofBackends 1).openSession factory).2
    let calls : List SessionCall := [.hook 0 (.mk "h" (· = 0) none [] 0), .arm 0 .closing,
      .establish 0, .establish 0]
    let w' := w.run 0 calls
    (ofBackends 1).transactions = [] ∧ (ofBackends 1).handed = []
      ∧ (ofBackends 1).openSession factory = (.ok 0, w)
      ∧ (w'.closeSession 0).1 = .ok ()
      ∧ ((w'.closeSession 0).2.native ⟨0, 0⟩).closed = false
      ∧ (((w'.closeSession 0).2.native ⟨0, 1⟩).closed = true ∨
        ∃ m ∈ moments 0 w calls, m.Leaks 0 ⟨0, 1⟩) := by
  intro factory w calls w'
  have hopen : (ofBackends 1).openSession factory = (.ok 0, w) := eq_of_fst (by decide +kernel)
  have hok : (w'.closeSession 0).1 = .ok () := by decide +kernel
  have hleft : ((w'.closeSession 0).2.native ⟨0, 0⟩).closed = false := by decide +kernel
  obtain ⟨-, hsession⟩ := run_close_releases rfl rfl (by decide +kernel) hopen calls
  let before := w.run 0 (calls.take 3)
  have hlast : (⟨before, .establish 0⟩ : Moment) ∈ moments 0 w calls :=
    List.mem_of_getElem? (show (moments 0 w calls)[3]? = some ⟨before, .establish 0⟩ from rfl)
  have hopens : (⟨before, .establish 0⟩ : Moment).Opens 0 0 ⟨0, 1⟩ := by
    refine ⟨rfl, ?_, ?_⟩
    · exact (by decide +kernel : ¬ 1 < (before.backend 0).connections.length)
    · exact (by decide +kernel : 1 < ((before.after 0 (.establish 0)).backend 0).connections.length)
  exact ⟨rfl, rfl, hopen, hok, hleft,
    hsession hok 0 ⟨0, 1⟩ _ hlast hopens (by decide +kernel)⟩

end Cluster

end ScatterGather
