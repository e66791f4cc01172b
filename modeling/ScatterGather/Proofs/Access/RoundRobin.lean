import Mathlib.Data.List.Rotate
import Mathlib.Data.Nat.ModEq
import ScatterGather.Access.Ordering

/-!
# Round robin is fair

The counter of a rotating policy goes up at each call that has shards, whatever their number, and wraps
at 64 bits. So how far a call rotates its shards can be told from the calls before it (`answer_rotates`).
Where calls over the same shards follow each other and the counter does not wrap, the rotations of as
many calls as there are shards run through all residues: a Latin square, in which each shard stands at
each place once.
-/

namespace ScatterGather.ShardOrdering

/-! ## Calls one after the other -/

/-- The policy as some calls leave it. -/
def advance (ordering : ShardOrdering) (calls : List (List Shard)) : ShardOrdering :=
  calls.foldl (fun ordering shards => (ordering.order shards).2) ordering

/-- The answers to calls that are made one after the other. -/
def answers (ordering : ShardOrdering) :
    List (List Shard) → List (Except ShardError (List Shard))
  | [] => []
  | shards :: rest =>
    (ordering.order shards).1 :: answers (ordering.order shards).2 rest

/-- An answer depends on the calls before it only by what they make of the policy. -/
theorem getElem?_answers (ordering : ShardOrdering) (calls : List (List Shard)) (call : Nat) :
    (ordering.answers calls)[call]? = (calls[call]?).map fun shards =>
      ((ordering.advance (calls.take call)).order shards).1 := by
  induction calls generalizing ordering call with
  | nil => rfl
  | cons shards rest ih =>
    cases call with
    | zero => rfl
    | succ call => exact ih (ordering.order shards).2 call

/-! ## The counter -/

/-- How many calls have shards to order. -/
def turns (calls : List (List Shard)) : Nat :=
  calls.countP fun shards => !shards.isEmpty

theorem turns_append (calls more : List (List Shard)) :
    turns (calls ++ more) = turns calls + turns more :=
  List.countP_append

theorem turns_replicate {shards : List Shard} (h : shards ≠ []) (count : Nat) :
    turns (List.replicate count shards) = count := by
  simp [turns, List.countP_replicate, h]

/-- The counter counts the calls that have shards. -/
theorem advance_roundRobin (next : UInt64) (calls : List (List Shard)) :
    (roundRobin next).advance calls = roundRobin (next + .ofNat (turns calls)) := by
  induction calls generalizing next with
  | nil => simp [advance, turns]
  | cons shards rest ih =>
    have hrest : (roundRobin next).advance (shards :: rest)
        = ((roundRobin next).order shards).2.advance rest := rfl
    have hturns : turns (shards :: rest) = turns rest + if shards.isEmpty then 0 else 1 := by
      cases shards <;> simp [turns]
    rw [hrest, hturns, order]
    by_cases hempty : shards.isEmpty = true
    · rw [if_pos hempty, if_pos hempty, ih, Nat.add_zero]
    · rw [if_neg hempty, if_neg hempty, ih, UInt64.ofNat_add, UInt64.add_assoc,
        UInt64.add_comm 1]
      rfl

/-- A rotation takes shards from the front and puts them behind the others. -/
theorem rotateLeft_eq_rotate (shards : List Shard) (count : Nat) :
    shards.rotateLeft count = shards.rotate count := by
  rw [List.rotateLeft, List.rotate_eq_drop_append_take_mod]
  dsimp only
  split
  case isFalse => rfl
  case isTrue hfew =>
    match shards, hfew with
    | [], _ => simp
    | [shard], _ => simp [Nat.mod_one]

theorem order_roundRobin (next : UInt64) (shards : List Shard) :
    ((roundRobin next).order shards).1 = .ok (shards.rotate (next.toNat % shards.length)) := by
  rw [order]
  split
  case isTrue hempty =>
    rw [List.isEmpty_iff.mp hempty, List.rotate_nil]
  case isFalse => rw [rotateLeft_eq_rotate]

/-- Each call rotates its shards by the counter, which went up at each earlier call that had some. -/
theorem answer_rotates (next : UInt64) {calls : List (List Shard)} {call : Nat}
    {shards : List Shard} (h : calls[call]? = some shards) :
    ((roundRobin next).answers calls)[call]? = some (.ok
      (shards.rotate ((next.toNat + turns (calls.take call)) % 2 ^ 64 % shards.length))) := by
  rw [getElem?_answers, h, Option.map_some, advance_roundRobin, order_roundRobin,
    UInt64.toNat_add, UInt64.toNat_ofNat', Nat.add_mod_mod]

/-! ## Fairness -/

/-- Counting on from any number meets each residue once before it comes round. -/
theorem existsUnique_residue (start : Nat) {residue size : Nat} (h : residue < size) :
    ∃! count, count < size ∧ (start + count) % size = residue := by
  have hsize : 0 < size := Nat.zero_lt_of_lt h
  have hstart : start % size < size := Nat.mod_lt start hsize
  have hmeets : (start + (residue + (size - start % size)) % size) % size = residue := by
    rw [Nat.add_mod_mod, ← Nat.mod_add_mod,
      show start % size + (residue + (size - start % size)) = residue + size by omega,
      Nat.add_mod_right, Nat.mod_eq_of_lt h]
  refine ⟨(residue + (size - start % size)) % size, ⟨Nat.mod_lt _ hsize, hmeets⟩, ?_⟩
  rintro count ⟨hcount, hresidue⟩
  have hcancel := Nat.ModEq.add_left_cancel' start (hresidue.trans hmeets.symm)
  rwa [Nat.ModEq, Nat.mod_eq_of_lt hcount, Nat.mod_mod] at hcancel

/-- Among some answers each shard stands at each place exactly once. -/
def EachPlaceOnce (shards : List Shard) (answers : List (Except ShardError (List Shard))) : Prop :=
  ∀ shard ∈ shards, ∀ place < shards.length,
    ∃! call : Nat, ∃ ordered, answers[call]? = some (.ok ordered) ∧ ordered[place]? = some shard

/-- Rotations by as many numbers in turn as there are shards form a Latin square. -/
theorem eachPlaceOnce_rotations {shards : List Shard} (distinct : shards.Nodup) (start : Nat) :
    EachPlaceOnce shards ((List.range shards.length).map fun call =>
      Except.ok (shards.rotate (start + call))) := by
  intro shard hshard place hplace
  have hindex : shards.idxOf shard < shards.length := List.idxOf_lt_length_of_mem hshard
  have hstands (call : Nat) : (shards.rotate (start + call))[place]? = some shard ↔
      (place + start + call) % shards.length = shards.idxOf shard := by
    rw [List.getElem?_rotate hplace, ← Nat.add_assoc]
    constructor
    · intro hget
      obtain ⟨hlt, hget⟩ := List.getElem?_eq_some_iff.mp hget
      rw [← hget, distinct.idxOf_getElem]
    · intro hplaced
      rw [hplaced, List.getElem?_idxOf hshard]
  obtain ⟨call, ⟨hcall, hresidue⟩, hunique⟩ := existsUnique_residue (place + start) hindex
  refine ⟨call, ⟨_, by simp [hcall], (hstands call).mpr hresidue⟩, ?_⟩
  rintro other ⟨ordered, hother, hordered⟩
  obtain ⟨hlt, rfl⟩ : other < shards.length ∧ shards.rotate (start + other) = ordered := by
    simpa [List.getElem?_eq_some_iff] using hother
  exact hunique other ⟨hlt, (hstands other).mp hordered⟩

/-- While the counter does not wrap it goes up by one from call to call. -/
theorem answers_in_row {next : UInt64} {before : List (List Shard)} {shards : List Shard}
    (hwraps : (next.toNat + turns before) % 2 ^ 64 + shards.length ≤ 2 ^ 64)
    (after : List (List Shard)) :
    (((roundRobin next).answers
      (before ++ List.replicate shards.length shards ++ after)).drop before.length).take
        shards.length = (List.range shards.length).map fun call =>
          Except.ok (shards.rotate ((next.toNat + turns before) % 2 ^ 64 + call)) := by
  refine List.ext_getElem? fun call => ?_
  by_cases hcall : call < shards.length
  · have hne : shards ≠ [] := List.ne_nil_of_length_pos (Nat.zero_lt_of_lt hcall)
    have hnext : (before ++ List.replicate shards.length shards ++ after)[before.length + call]?
        = some shards := by
      simp [List.getElem?_append, hcall]
    have hturns : turns ((before ++ List.replicate shards.length shards ++ after).take
        (before.length + call)) = turns before + call := by
      rw [List.append_assoc, List.take_length_add_append, List.take_append_of_le_length (by
        simpa using hcall.le), List.take_replicate, Nat.min_eq_left hcall.le, turns_append,
        turns_replicate hne]
    rw [List.getElem?_take_of_lt hcall, List.getElem?_drop, answer_rotates next hnext, hturns,
      List.getElem?_map, List.getElem?_range hcall, Option.map_some, ← Nat.add_assoc,
      ← Nat.mod_add_mod, Nat.mod_eq_of_lt (show
        (next.toNat + turns before) % 2 ^ 64 + call < 2 ^ 64 by omega), List.rotate_mod]
  · rw [List.getElem?_eq_none (by simp; omega), List.getElem?_eq_none (by simp; omega)]

/-- Each call over some shards rotates them to the left by the counter, which has gone up by one at each
such call before, also over other shards; calls over no shards do not count. Of as many calls in a row as
there are distinct shards, during which the counter does not wrap, each shard comes at each place in
exactly one. -/
theorem round_robin_fair (next : UInt64) (calls : List (List Shard)) :
    (∀ (call : Nat) (shards : List Shard), calls[call]? = some shards →
      ((roundRobin next).answers calls)[call]? = some (.ok
        (shards.rotate ((next.toNat + turns (calls.take call)) % 2 ^ 64 % shards.length))))
    ∧ ∀ before shards after, calls = before ++ List.replicate shards.length shards ++ after →
      shards.Nodup → (next.toNat + turns before) % 2 ^ 64 + shards.length ≤ 2 ^ 64 →
      EachPlaceOnce shards
        ((((roundRobin next).answers calls).drop before.length).take shards.length) := by
  refine ⟨fun call shards hcall => answer_rotates next hcall, ?_⟩
  rintro before shards after rfl hdistinct hwraps
  rw [answers_in_row hwraps after]
  exact eachPlaceOnce_rotations hdistinct _

/-- Three shards called as often in a row, up to the last number before the counter wraps: each comes at
each place once, and the call behind starts with its first shard again. -/
theorem round_robin_fair_up_to_wrap :
    let shard := fun handle => Shard.mk handle (.ofNat handle) ∅ 0
    let three := [shard 0, shard 1, shard 2]
    let last := [shard 2, shard 0, shard 1]
    let calls := [[shard 0, shard 1], [], three, three, three, last]
    let answers := (roundRobin 18446744073709551612).answers calls
    three.Nodup
      ∧ ((18446744073709551612 : UInt64).toNat + turns (calls.take 2)) % 2 ^ 64 + 3 ≤ 2 ^ 64
      ∧ EachPlaceOnce three ((answers.drop 2).take 3) ∧ answers[5]? = some (.ok last) := by
  intro shard three last calls answers
  obtain ⟨hrotates, hfair⟩ := round_robin_fair 18446744073709551612 calls
  have hdistinct : three.Nodup := by decide
  have hwraps : ((18446744073709551612 : UInt64).toNat + turns (calls.take 2)) % 2 ^ 64 + 3
      ≤ 2 ^ 64 := by decide
  have hwrapped : ((18446744073709551612 : UInt64).toNat + turns (calls.take 5)) % 2 ^ 64
      % last.length = 0 := by decide
  have hlast := hrotates 5 last rfl
  rw [hwrapped, List.rotate_zero] at hlast
  exact ⟨hdistinct, hwraps, hfair [[shard 0, shard 1], []] three [last] rfl hdistinct hwraps, hlast⟩

end ScatterGather.ShardOrdering
