import ScatterGather.Backend.Connection
import ScatterGather.Proofs.Ordered

/-!
# What an overlaid store looks up

A store with writes laid over it has, for each key, the last value that was written, and what it had
before where nothing was. A deletion counts as a write of no value. A scan lists what is looked up,
in key order.
-/

namespace ScatterGather

namespace Store

theorem get?_write (store : Store) (key k : String) (value : Option Json) :
    (store.write key value).get? k = if compare k key = .eq then value else store.get? k := by
  cases value with
  | some value => exact Ordered.Map.get?_insert store key k value
  | none => exact Ordered.Map.get?_erase store key k

/-- The writes are carried out in key order, and each key has only one of them. -/
theorem get?_overlay (store : Store) (writes : Writes) (key : String) :
    (store.overlay writes).get? key = (writes.get? key).getD (store.get? key) := by
  obtain ⟨entries, hascending⟩ := writes
  have hfold : (entries.foldl (fun store entry => store.write entry.1 entry.2) store).get? key
      = ((entries.find? fun entry => compare key entry.1 == .eq).map (·.2)).getD
        (store.get? key) := by
    induction entries generalizing store with
    | nil => rfl
    | cons first rest ih =>
      obtain ⟨hfirst, hrest⟩ := List.pairwise_cons.mp hascending
      rw [List.foldl_cons, ih (store.write first.1 first.2) hrest, get?_write, List.find?_cons]
      by_cases heq : compare key first.1 = .eq
      · -- The entries behind have greater keys, so they leave this one alone.
        have hnone : rest.find? (fun entry => compare key entry.1 == .eq) = none := by
          refine List.find?_eq_none.mpr fun entry hentry hsame => ?_
          obtain rfl := Std.LawfulEqCmp.eq_of_compare heq
          have hlt := hfirst entry hentry
          rw [eq_of_beq hsame] at hlt
          cases hlt
        simp [heq, hnone]
      · rw [if_neg heq, beq_eq_false_iff_ne.mpr heq]
  exact hfold

/-! ## What a scan shows -/

theorem scan_all (store : Store) : store.scan "" = store.entries := by
  simp [scan]

theorem mem_scan {store : Store} {start key : String} {value : Json} :
    (key, value) ∈ store.scan start ↔
      start.toList <+: key.toList ∧ store.get? key = some value := by
  rw [scan, List.mem_filter, Ordered.Map.mem_entries, List.isPrefixOf_iff_prefix]
  exact and_comm

theorem scan_ascending (store : Store) (start : String) :
    (store.scan start).Pairwise fun a b => a.1 < b.1 := by
  have hentries : store.entries.Pairwise fun a b => a.1 < b.1 :=
    store.ascending.imp compareOfLessAndEq_eq_lt.mp
  exact hentries.filter _

end Store

/-- A connection looks single keys up in what it sees as a whole. -/
theorem Connection.get?_eq_view (c : Connection) (store : Store) (key : String) :
    c.get? store key = (c.view store).get? key := by
  rw [view, Store.get?_overlay, get?]
  cases c.staged.get? key <;> rfl

/-- Of several pairs with one key the last one counts. -/
theorem Ordered.Map.get?_ofList {κ ν : Type} [Ord κ] [Std.TransOrd κ] [Std.LawfulEqOrd κ]
    (pairs : List (κ × ν)) (key : κ) :
    (Ordered.Map.ofList pairs).get? key
      = (pairs.reverse.find? fun pair => compare key pair.1 == .eq).map (·.2) := by
  have hfold : ∀ m : Ordered.Map κ ν,
      (pairs.foldl (fun m pair => m.insert pair.1 pair.2) m).get? key
        = ((pairs.reverse.find? fun pair => compare key pair.1 == .eq).map (·.2)).or
          (m.get? key) := by
    induction pairs with
    | nil => exact fun m => rfl
    | cons first rest ih =>
      intro m
      rw [List.foldl_cons, ih, Ordered.Map.get?_insert, List.reverse_cons, List.find?_append,
        Option.map_or, Option.or_assoc]
      congr 1
      by_cases heq : compare key first.1 = .eq
      · simp [heq]
      · simp [heq]
  rw [Ordered.Map.ofList, hfold, Ordered.Map.get?_empty, Option.or_none]

end ScatterGather
