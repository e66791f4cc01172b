import Mathlib.Data.List.Count
import Mathlib.Data.List.Perm.Basic
import ScatterGather.Access.Ordering

/-!
# Dispatch orders rearrange

Whatever the policy and the state of its counter, the shards of a call come out each as often as they
were given, or the call is refused. Only a function of the caller can be refused. What it returned is
checked place by place: each handle takes the first free place that holds it. With as many places as
handles this finds a place for every one exactly if the two lists are rearrangements of each other, so a
handle that is missing, doubled or foreign is always found out, also one that stands for the same shard
as a given one.
-/

namespace ScatterGather

/-- Handles are the same if their numbers are. -/
def Shard.Identified (handles : List Shard) : Prop :=
  ∀ a ∈ handles, ∀ b ∈ handles, a.handle = b.handle → a = b

instance (handles : List Shard) : Decidable (Shard.Identified handles) :=
  inferInstanceAs (Decidable (∀ a ∈ handles, ∀ b ∈ handles, a.handle = b.handle → a = b))

/-- Of identified handles those in two lists can be counted by their numbers. -/
theorem Shard.Identified.perm_iff {given picked : List Shard}
    (h : Shard.Identified (given ++ picked)) :
    picked.Perm given ↔ (picked.map Shard.handle).Perm (given.map Shard.handle) := by
  refine ⟨fun hperm => hperm.map _, fun hperm => List.perm_iff_count.mpr fun shard => ?_⟩
  by_cases hmem : shard ∈ given ++ picked
  · have hcount (handles : List Shard) (hsubset : handles ⊆ given ++ picked) :
        handles.count shard = (handles.map Shard.handle).count shard.handle := by
      rw [List.count, List.count, List.countP_map]
      refine List.countP_congr fun other hother => ?_
      simp only [beq_iff_eq, Function.comp_apply]
      exact ⟨congrArg _, h other (hsubset hother) shard hmem⟩
    rw [hcount picked (List.subset_append_right _ _), hcount given (List.subset_append_left _ _)]
    exact hperm.count_eq shard.handle
  · rw [List.mem_append, not_or] at hmem
    rw [List.count_eq_zero_of_not_mem hmem.1, List.count_eq_zero_of_not_mem hmem.2]

namespace ShardOrdering

/-! ## Places -/

/-- The handles whose places are not taken. -/
def free (places : List (Shard × Bool)) : List Shard :=
  (places.filter fun place => !place.2).map (·.1)

theorem free_map_false (given : List Shard) : free (given.map (·, false)) = given := by
  induction given with
  | nil => rfl
  | cons shard given ih => exact congrArg (shard :: ·) ih

theorem free_cons (held : Shard) (taken : Bool) (places : List (Shard × Bool)) :
    free ((held, taken) :: places) = if taken then free places else held :: free places := by
  cases taken <;> rfl

/-- A handle takes one of the free places that hold it, and finds none only if there is none. -/
theorem take?_cases (shard : Shard) (places : List (Shard × Bool)) :
    (take? shard places = none ∧ shard ∉ free places) ∨
      ∃ left, take? shard places = some left ∧ (free places).Perm (shard :: free left) := by
  induction places with
  | nil => exact .inl ⟨rfl, List.not_mem_nil⟩
  | cons place places ih =>
    obtain ⟨held, taken⟩ := place
    rw [take?]
    by_cases hfits : (!taken && held = shard) = true
    · obtain ⟨rfl, rfl⟩ : taken = false ∧ held = shard := by simpa using hfits
      exact .inr ⟨_, if_pos hfits, .refl _⟩
    · rw [if_neg hfits, free_cons]
      rcases ih with ⟨hnone, hnot⟩ | ⟨left, hsome, hperm⟩
      · refine .inl ⟨by rw [hnone, Option.map_none], ?_⟩
        cases taken with
        | true => exact hnot
        | false =>
          have hother : held ≠ shard := by simpa using hfits
          exact List.not_mem_cons_of_ne_of_not_mem hother.symm hnot
      · refine .inr ⟨(held, taken) :: left, by rw [hsome, Option.map_some], ?_⟩
        rw [free_cons]
        cases taken with
        | true => exact hperm
        | false => exact (hperm.cons held).trans (.swap shard held _)

/-- All picked handles find a place exactly if they are among the free ones, each as often. -/
theorem foldlM_take?_isSome (picked : List Shard) (places : List (Shard × Bool)) :
    (picked.foldlM (fun places shard => take? shard places) places).isSome = true ↔
      picked.Subperm (free places) := by
  induction picked generalizing places with
  | nil => simp
  | cons shard picked ih =>
    rw [List.foldlM_cons]
    rcases take?_cases shard places with ⟨hnone, hnot⟩ | ⟨left, hsome, hperm⟩
    · rw [hnone]
      refine iff_of_false (by simp) fun hsubperm => hnot ?_
      exact hsubperm.subset List.mem_cons_self
    · rw [hsome, hperm.subperm_left, List.subperm_cons]
      exact ih left

/-- The check finds out whether one list rearranges the other. -/
theorem isRearrangement_iff {given picked : List Shard} :
    isRearrangement given picked = true ↔ picked.Perm given := by
  rw [isRearrangement, Bool.and_eq_true, decide_eq_true_eq, foldlM_take?_isSome, free_map_false]
  constructor
  · rintro ⟨hlength, hsubperm⟩
    exact hsubperm.perm_of_length_le (Nat.le_of_eq hlength)
  · intro hperm
    exact ⟨hperm.length_eq.symm, hperm.subperm⟩

/-! ## Orders -/

/-- Whatever the policy, the shards of a call are dispatched each as often as it was given. -/
theorem order_perm {ordering : ShardOrdering} {shards ordered : List Shard}
    (h : (ordering.order shards).1 = .ok ordered) : ordered.Perm shards := by
  cases ordering with
  | input =>
    obtain rfl := Except.ok.inj h
    exact .refl _
  | roundRobin next =>
    rw [order] at h
    split at h
    case isTrue hempty =>
      obtain rfl := Except.ok.inj h
      rw [List.isEmpty_iff.mp hempty]
    case isFalse =>
      obtain rfl := Except.ok.inj h
      unfold List.rotateLeft
      dsimp only
      split
      · exact .refl _
      · refine List.perm_append_comm.trans ?_
        rw [List.take_append_drop]
  | random draw calls =>
    obtain rfl := Except.ok.inj h
    exact (draw calls).perm shards
  | custom pick =>
    simp only [order] at h
    split at h
    case isTrue hpicked =>
      obtain rfl := Except.ok.inj h
      exact isRearrangement_iff.mp hpicked
    case isFalse => cases h

/-- A policy fails only if it is a function of the caller that does not rearrange the shards. -/
theorem order_ok {ordering : ShardOrdering} {shards : List Shard}
    (h : ∀ pick, ordering = .custom pick → (pick shards).Perm shards) :
    ∃ ordered, (ordering.order shards).1 = .ok ordered := by
  cases ordering with
  | input => exact ⟨_, rfl⟩
  | roundRobin next =>
    rw [order]
    split
    · exact ⟨_, rfl⟩
    · exact ⟨_, rfl⟩
  | random draw calls => exact ⟨_, rfl⟩
  | custom pick =>
    have hpicked : isRearrangement shards (pick shards) = true :=
      isRearrangement_iff.mpr (h pick rfl)
    refine ⟨pick shards, ?_⟩
    simp only [order]
    rw [if_pos hpicked]

/-- An order of dispatch is refused only as an argument that does not fit. -/
theorem order_error {ordering : ShardOrdering} {shards : List Shard} {e : ShardError}
    (h : (ordering.order shards).1 = .error e) : ∃ message, e = .invalidArgument message := by
  cases ordering with
  | input => cases h
  | random => cases h
  | roundRobin next =>
    rw [order] at h
    split at h <;> cases h
  | custom pick =>
    simp only [order] at h
    split at h
    · cases h
    · cases h
      exact ⟨_, rfl⟩

/-- The check fails for what is no rearrangement, whatever is missing, doubled or foreign. -/
theorem order_custom_error_iff (pick : List Shard → List Shard) (shards : List Shard) :
    (∃ message, ((custom pick).order shards).1 = .error (.invalidArgument message)) ↔
      ¬ (pick shards).Perm shards := by
  rw [← isRearrangement_iff]
  simp only [order]
  split
  case isTrue hpicked => exact iff_of_false (by simp) (not_not_intro hpicked)
  case isFalse hpicked => exact iff_of_true ⟨_, rfl⟩ hpicked

/-- Every policy, in any state, answers with each handle as often as it was given, or that its argument
does not fit. The latter happens exactly if a function of the caller returned some handle more or less
often than it was given; where numbers identify the handles, some number. -/
theorem order_rearranges (ordering : ShardOrdering) (shards : List Shard) :
    ((∃ ordered, (ordering.order shards).1 = .ok ordered
        ∧ (∀ shard, ordered.count shard = shards.count shard)
        ∧ ∀ number, (ordered.map Shard.handle).count number = (shards.map Shard.handle).count number)
      ∨ ∃ message, (ordering.order shards).1 = .error (.invalidArgument message))
    ∧ ((∃ message, (ordering.order shards).1 = .error (.invalidArgument message)) ↔
      ∃ pick, ordering = .custom pick ∧ ∃ shard, (pick shards).count shard ≠ shards.count shard)
    ∧ ∀ pick, ordering = .custom pick → Shard.Identified (shards ++ pick shards) →
      ((∃ message, (ordering.order shards).1 = .error (.invalidArgument message)) ↔
        ∃ number, ((pick shards).map Shard.handle).count number
          ≠ (shards.map Shard.handle).count number) := by
  refine ⟨?_, ?_, ?_⟩
  · cases hresult : (ordering.order shards).1 with
    | ok ordered =>
      have hperm := order_perm hresult
      exact .inl ⟨ordered, rfl, hperm.count_eq, (hperm.map Shard.handle).count_eq⟩
    | error e =>
      obtain ⟨message, rfl⟩ := order_error hresult
      exact .inr ⟨message, rfl⟩
  · constructor
    · rintro ⟨message, hrefused⟩
      -- Only a function of the caller can be refused, so it is one, and what it returned is at fault.
      by_contra hfits
      have hrearranges : ∀ pick, ordering = .custom pick → (pick shards).Perm shards := by
        intro pick hpick
        refine List.perm_iff_count.mpr fun shard => ?_
        by_contra hcount
        exact hfits ⟨pick, hpick, shard, hcount⟩
      obtain ⟨ordered, hordered⟩ := order_ok hrearranges
      rw [hordered] at hrefused
      cases hrefused
    · rintro ⟨pick, rfl, shard, hcount⟩
      exact (order_custom_error_iff pick shards).mpr fun hperm => hcount (hperm.count_eq shard)
  · rintro pick rfl hidentified
    rw [order_custom_error_iff, hidentified.perm_iff, List.perm_iff_count, not_forall]

/-- A foreign handle with the id of a given one is found out; the given ones may come in any order. -/
theorem order_rearranges_foreign :
    let first := Shard.mk 0 (.ofNat 7) ∅ 0
    let second := Shard.mk 1 (.ofNat 7) ∅ 1
    let foreign := Shard.mk 2 (.ofNat 7) ∅ 1
    let given := [first, second, first]
    let exchange (shards : List Shard) :=
      shards.map fun shard => if shard = second then foreign else shard
    Shard.Identified (given ++ exchange given)
      ∧ (∃ message, ((custom exchange).order given).1 = .error (.invalidArgument message))
      ∧ ∃ ordered, ((custom List.reverse).order given).1 = .ok ordered
        ∧ ∀ number, (ordered.map Shard.handle).count number = (given.map Shard.handle).count number := by
  intro first second foreign given exchange
  have hidentified : Shard.Identified (given ++ exchange given) := by decide
  obtain ⟨-, -, hnumbers⟩ := order_rearranges (.custom exchange) given
  obtain ⟨hanswers, hrefused, -⟩ := order_rearranges (.custom List.reverse) given
  refine ⟨hidentified, (hnumbers exchange rfl hidentified).mpr ⟨1, by decide⟩, ?_⟩
  rcases hanswers with ⟨ordered, hordered, -, hcounts⟩ | herror
  · exact ⟨ordered, hordered, hcounts⟩
  · obtain ⟨pick, hpick, shard, hcount⟩ := hrefused.mp herror
    obtain rfl := ShardOrdering.custom.inj hpick
    exact absurd ((List.reverse_perm given).count_eq shard) hcount

end ShardOrdering

end ScatterGather
