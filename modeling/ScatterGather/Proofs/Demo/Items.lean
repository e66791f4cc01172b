import Mathlib.Data.List.Nodup
import Mathlib.Data.List.Perm.Basic
import ScatterGather.Demo
import ScatterGather.Proofs.Backend.Stores
import ScatterGather.Proofs.Collect.Sorting
import ScatterGather.Proofs.Ordered

/-!
# The items of the demonstration

Different items have different keys, all of which begin alike. So a store that has the rows of some
items, and nothing else, lists each of them once when it is scanned. The collector of the demonstration
puts rows of items in descending order of their scores, and returns the first five.
-/

namespace ScatterGather.Demo

/-! ## Keys -/

/-- Zeros in front do not change a number. -/
theorem itemKey_injective {m n : Nat} (h : itemKey m = itemKey n) : m = n := by
  have hpadded : Text.ofNatPadded 4 m = Text.ofNatPadded 4 n := by
    have hlists := congrArg String.toList h
    simp only [itemKey, String.toList_append, List.append_cancel_left_eq] at hlists
    exact String.toList_inj.mp hlists
  have hread := congrArg (fun text => Nat.ofDigitChars 10 text.toList 0) hpadded
  simpa [Text.ofNatPadded, Text.digits, Nat.ofDigitChars_append] using hread

theorem itemStart_isPrefixOf (n : Nat) : itemStart.toList.isPrefixOf (itemKey n).toList = true := by
  rw [itemKey, String.toList_append, List.isPrefixOf_iff_prefix]
  exact List.prefix_append _ _

/-! ## Stores of items -/

/-- A store has the rows of these items, and nothing else. -/
def Stocks (store : Store) (items : List Nat) : Prop :=
  ∀ key row, store.get? key = some row ↔ ∃ n ∈ items, key = itemKey n ∧ row = itemRow n

namespace Stocks

variable {store : Store} {items : List Nat}

/-- An item is found under its key just if it is one of those that the store has. -/
theorem get?_itemKey (h : Stocks store items) (n : Nat) :
    store.get? (itemKey n) = if n ∈ items then some (itemRow n) else none := by
  split
  case isTrue hn => exact (h _ _).mpr ⟨n, hn, rfl, rfl⟩
  case isFalse hn =>
    refine Option.eq_none_iff_forall_ne_some.mpr ?_
    intro row hrow
    obtain ⟨m, hm, hkey, -⟩ := (h _ _).mp hrow
    exact hn (itemKey_injective hkey ▸ hm)

theorem entries_perm (h : Stocks store items) (hdistinct : items.Nodup) :
    store.entries.Perm (items.map fun n => (itemKey n, itemRow n)) := by
  have hentries : store.entries.Nodup := List.Nodup.of_map _ store.nodup_keys
  have hitems : (items.map fun n => (itemKey n, itemRow n)).Nodup := by
    refine hdistinct.map_on ?_
    intro m _ n _ hsame
    exact itemKey_injective (congrArg Prod.fst hsame)
  refine (List.perm_ext_iff_of_nodup hentries hitems).mpr ?_
  rintro ⟨key, row⟩
  rw [Ordered.Map.mem_entries, h]
  simp [eq_comm]

/-- A scan lists the items, each once. -/
theorem scan_perm (h : Stocks store items) (hdistinct : items.Nodup) :
    ((store.scan itemStart).map (·.2)).Perm (items.map itemRow) := by
  have hscan : store.scan itemStart = store.entries := by
    refine List.filter_eq_self.mpr ?_
    rintro ⟨key, row⟩ hentry
    obtain ⟨n, -, rfl, -⟩ := (h key row).mp (Ordered.Map.mem_entries.mp hentry)
    exact itemStart_isPrefixOf n
  rw [hscan]
  have hrows := (h.entries_perm hdistinct).map (·.2)
  rwa [List.map_map] at hrows

end Stocks

/-- Writes of items, laid over an empty store. -/
theorem stocks_overlay (items : List Nat) :
    Stocks ((∅ : Store).overlay (.ofList (items.map fun n => (itemKey n, some (itemRow n)))))
      items := by
  intro key row
  rw [Store.get?_overlay, Ordered.Map.get?_ofList, Ordered.Map.get?_empty]
  cases hfind : (items.map fun n => (itemKey n, some (itemRow n))).reverse.find?
      fun write => compare key write.1 == .eq with
  | none =>
    simp only [Option.map_none, Option.getD_none, reduceCtorEq, false_iff]
    rintro ⟨n, hn, rfl, -⟩
    have hmem : (itemKey n, some (itemRow n))
        ∈ (items.map fun n => (itemKey n, some (itemRow n))).reverse :=
      List.mem_reverse.mpr (List.mem_map_of_mem hn)
    have hmiss := List.find?_eq_none.mp hfind _ hmem
    simp at hmiss
  | some write =>
    have hkey : key = write.1 := by simpa using List.find?_some hfind
    obtain ⟨m, hm, rfl⟩ := List.mem_map.mp (List.mem_reverse.mp (List.mem_of_find?_eq_some hfind))
    simp only [Option.map_some, Option.getD_some, Option.some.injEq]
    constructor
    · rintro rfl
      exact ⟨m, hm, hkey, rfl⟩
    · rintro ⟨n, -, rfl, rfl⟩
      rw [itemKey_injective hkey]

/-! ## The greatest items -/

/-- What items are sorted by. -/
def itemScore (n : Nat) : Nat :=
  n * 37 % 101

theorem itemRow_eq (n : Nat) :
    itemRow n = .object [("key", .string (itemKey n)), ("score", .int (itemScore n))] := by
  have hcompare : compare "score" "key" = .gt := by decide
  simp only [itemRow, Json.ofMembers, Ordered.Map.ofList, List.foldl_cons, List.foldl_nil,
    Ordered.Map.insert, itemScore]
  change Json.object (Ordered.insertEntry _ _ [_]) = _
  simp only [Ordered.insertEntry, hcompare]

theorem itemScore_lt (n : Nat) : itemScore n < 101 :=
  Nat.mod_lt _ (by decide)

theorem key?_itemRow (n : Nat) :
    topFive.accessors.key? "score" (itemRow n) = some (.int (Int64.ofInt (itemScore n))) := by
  have hbounds : Int64.minValue.toInt ≤ (itemScore n : Int)
      ∧ (itemScore n : Int) ≤ Int64.maxValue.toInt := by
    have hlt := itemScore_lt n
    have hmin : Int64.minValue.toInt ≤ 0 := by decide
    have hmax : 101 ≤ Int64.maxValue.toInt := by decide
    omega
  have hkey : topFive.accessors.key? "score" (itemRow n)
      = SortKey.ofJson? (.int (itemScore n)) := by
    rw [itemRow_eq]
    rfl
  rw [hkey, SortKey.ofJson?, if_pos hbounds]

/-- A row that is not put behind another has no smaller score. -/
theorem itemScore_le {a b : Nat} (h : (topFive.compareRows (itemRow a) (itemRow b)).isLE) :
    itemScore b ≤ itemScore a := by
  have hkeys : topFive.compareRows (itemRow a) (itemRow b)
      = (SortKey.compare (.int (Int64.ofInt (itemScore b))) (.int (Int64.ofInt (itemScore a)))).then
        .eq := by
    change (SortDirection.descending.compare (topFive.accessors.key? "score" (itemRow a))
      (topFive.accessors.key? "score" (itemRow b))).then .eq = _
    rw [key?_itemRow, key?_itemRow]
    rfl
  have htoInt (n : Nat) : (Int64.ofInt (itemScore n)).toInt = itemScore n := by
    have hlt := itemScore_lt n
    exact Int64.toInt_ofInt_of_le (by omega) (by omega)
  rw [hkeys, Ordering.then_eq, SortKey.isLE_compare_int, htoInt, htoInt] at h
  exact Int.ofNat_le.mp h

theorem topFive_registered : topFive.Registered := by
  intro order horder
  rw [List.mem_singleton.mp horder]
  exact ⟨_, rfl⟩

/-- An arrangement of images is the image of an arrangement. -/
theorem exists_perm_of_map_perm {α β : Type} {f : α → β} {xs : List α} {ys : List β}
    (h : ys.Perm (xs.map f)) : ∃ zs : List α, zs.Perm xs ∧ ys = zs.map f := by
  have himages : List.Forall₂ (fun y x => y = f x) (xs.map f) xs := by
    rw [List.forall₂_map_left_iff, List.forall₂_same]
    exact fun _ _ => rfl
  obtain ⟨zs, hzs, hperm⟩ := List.perm_comp_forall₂ h himages
  refine ⟨zs, hperm, ?_⟩
  rw [← List.forall₂_eq_eq_eq, List.forall₂_map_right_iff]
  exact hzs

/-- Of the rows of some items the collector returns the first five in an arrangement by descending
score. -/
theorem topFive_items {items : List Nat} {rows : List Json} (h : rows.Perm (items.map itemRow)) :
    ∃ order : List Nat, order.Perm items ∧ order.Pairwise (fun a b => itemScore b ≤ itemScore a)
      ∧ topFive.apply rows = .ok ((order.take 5).map itemRow) := by
  obtain ⟨order, horder, hsorted⟩ := exists_perm_of_map_perm ((Ordered.sortBy_perm rows).trans h)
  refine ⟨order, horder, ?_, ?_⟩
  · have hascending : Ordered.Sorted topFive.compareRows (order.map itemRow) :=
      hsorted ▸ Ordered.sorted_sortBy inferInstance rows
    exact (List.pairwise_map.mp hascending).imp itemScore_le
  · rw [RowCollector.apply_sorts topFive_registered (List.cons_ne_nil _ _) rfl, hsorted,
      RowCollector.slice_eq]
    simp [topFive, List.map_take]

end ScatterGather.Demo
