import ScatterGather.Ordered.Set

/-!
# What maps and sets hold

Looking a key up and finding its entry in the list are the same, since the list has each key once.
From this follow what the keys of a map and the elements of a set are.
-/

namespace ScatterGather.Ordered

variable {κ ν : Type} [Ord κ] [Std.TransOrd κ] [Std.LawfulEqOrd κ]

namespace Map

theorem get?_insert_self (m : Map κ ν) (key : κ) (value : ν) :
    (m.insert key value).get? key = some value := by
  simp [get?_insert]

theorem get?_insert_ne (m : Map κ ν) {key k : κ} (h : k ≠ key) (value : ν) :
    (m.insert key value).get? k = m.get? k := by
  simp [get?_insert, h]

omit [Std.TransOrd κ] in
theorem get?_erase_ne (m : Map κ ν) {key k : κ} (h : k ≠ key) :
    (m.erase key).get? k = m.get? k := by
  simp [get?_erase, h]

omit [Std.TransOrd κ] in
/-- A map looks up what its entries say. -/
theorem mem_entries {m : Map κ ν} {key : κ} {value : ν} :
    (key, value) ∈ m.entries ↔ m.get? key = some value := by
  obtain ⟨entries, hascending⟩ := m
  simp only [get?]
  induction entries with
  | nil => simp
  | cons head rest ih =>
    obtain ⟨hhead, hrest⟩ := List.pairwise_cons.mp hascending
    rw [List.mem_cons, List.find?_cons]
    by_cases heq : key = head.1
    · -- The keys behind are greater, so the entry is not among them.
      have hnot : (key, value) ∉ rest := by
        intro hmem
        have hlt := hhead _ hmem
        simp [heq] at hlt
      subst heq
      simp [hnot, Prod.ext_iff, eq_comm]
    · have hne : (key, value) ≠ head := by
        rintro rfl
        exact heq rfl
      simp [hne, compare_beq_eq_false heq, ih hrest]

omit [Std.TransOrd κ] in
theorem mem_keys {m : Map κ ν} {key : κ} : key ∈ m.keys ↔ ∃ value, m.get? key = some value := by
  simp only [keys, List.mem_map, Prod.exists, mem_entries]
  constructor
  · rintro ⟨k, value, hvalue, rfl⟩
    exact ⟨value, hvalue⟩
  · rintro ⟨value, hvalue⟩
    exact ⟨key, value, hvalue, rfl⟩

omit [Std.TransOrd κ] in
/-- No key is listed twice. -/
theorem nodup_keys (m : Map κ ν) : m.keys.Nodup := by
  refine List.pairwise_map.mpr (m.ascending.imp ?_)
  intro a b hlt hsame
  rw [hsame] at hlt
  simp at hlt

omit [Std.TransOrd κ] [Std.LawfulEqOrd κ] in
theorem isEmpty_iff {m : Map κ ν} : m.isEmpty = true ↔ m.keys = [] := by
  simp [isEmpty, keys]

theorem contains_insert_eq_false {m : Map κ ν} {key k : κ} {value : ν} :
    (m.insert key value).contains k = false ↔ k ≠ key ∧ m.contains k = false := by
  rw [contains, contains, get?_insert]
  by_cases h : k = key <;> simp [h]

/-! ## Entries in any order -/

omit [Std.TransOrd κ] in
theorem insertEntry_perm {key : κ} {entries : List (κ × ν)} (value : ν)
    (h : ∀ entry ∈ entries, entry.1 ≠ key) :
    (insertEntry key value entries).Perm ((key, value) :: entries) := by
  induction entries with
  | nil => exact .refl _
  | cons head rest ih =>
    obtain ⟨hhead, hrest⟩ := List.forall_mem_cons.mp h
    rw [insertEntry]
    split
    case h_1 => exact .refl _
    case h_2 heq => exact absurd (Std.LawfulEqCmp.eq_of_compare heq).symm hhead
    case h_3 => exact ((ih hrest).cons head).trans (.swap _ _ _)

/-- A new key adds its entry. -/
theorem entries_insert_perm {m : Map κ ν} {key : κ} (value : ν) (h : m.contains key = false) :
    (m.insert key value).entries.Perm ((key, value) :: m.entries) := by
  refine insertEntry_perm value ?_
  rintro ⟨k, v⟩ hmem rfl
  have hvalue : m.get? k = some v := mem_entries.mp hmem
  simp [contains, hvalue] at h

/-- Pairs with distinct new keys become the entries. -/
theorem entries_foldl_insert_perm {pairs : List (κ × ν)} {m : Map κ ν}
    (hkeys : (pairs.map Prod.fst).Nodup) (hnew : ∀ pair ∈ pairs, m.contains pair.1 = false) :
    (pairs.foldl (fun m pair => m.insert pair.1 pair.2) m).entries.Perm (pairs ++ m.entries) := by
  induction pairs generalizing m with
  | nil => exact .refl _
  | cons first pairs ih =>
    obtain ⟨hfirst, hrest⟩ := List.forall_mem_cons.mp hnew
    rw [List.map_cons, List.nodup_cons] at hkeys
    have hnew' : ∀ pair ∈ pairs, (m.insert first.1 first.2).contains pair.1 = false := by
      intro pair hpair
      refine contains_insert_eq_false.mpr ⟨?_, hrest pair hpair⟩
      rintro heq
      exact hkeys.1 (heq ▸ List.mem_map_of_mem hpair)
    rw [List.foldl_cons]
    exact (ih hkeys.2 hnew').trans
      (((entries_insert_perm first.2 hfirst).append_left pairs).trans List.perm_middle)

omit [Std.LawfulEqOrd κ] in
/-- The order of the entries is no choice, so maps with the same entries are equal. -/
theorem eq_of_entries_perm {m m' : Map κ ν} (h : m.entries.Perm m'.entries) : m = m' := by
  have hentries : m.entries = m'.entries := by
    refine h.eq_of_pairwise (fun a b _ _ hab hba => ?_) m.ascending m'.ascending
    have hself : compare a.1 a.1 = .lt := Std.TransCmp.lt_trans hab hba
    simp at hself
  cases m
  cases m'
  cases hentries
  rfl

/-- A map is the map of its entries. -/
theorem ofList_entries (m : Map κ ν) : ofList m.entries = m := by
  have hnone : (∅ : Map κ ν).entries = [] := rfl
  have hperm := entries_foldl_insert_perm (m := ∅) m.nodup_keys fun _ _ => rfl
  rw [hnone, List.append_nil] at hperm
  exact eq_of_entries_perm hperm

end Map

namespace Set

omit [Std.TransOrd κ] in
/-- The elements of a set are those it contains. -/
theorem mem_toList {s : Set κ} {element : κ} : element ∈ s.toList ↔ s.contains element = true := by
  simp [toList, Map.mem_keys, Map.contains, Option.isSome_iff_exists]

@[simp]
theorem mem_toList_add {s : Set κ} {element other : κ} :
    other ∈ (s.add element).toList ↔ other = element ∨ other ∈ s.toList := by
  simp only [mem_toList, Map.contains, add, Map.get?_insert]
  by_cases h : other = element <;> simp [h]

omit [Std.TransOrd κ] [Std.LawfulEqOrd κ] in
@[simp]
theorem not_mem_toList_empty {element : κ} : element ∉ (∅ : Set κ).toList :=
  List.not_mem_nil

@[simp]
theorem mem_toList_ofList {elements : List κ} {element : κ} :
    element ∈ (ofList elements).toList ↔ element ∈ elements := by
  have hfold : ∀ s : Set κ, element ∈ (elements.foldl add s).toList ↔
      element ∈ elements ∨ element ∈ s.toList := by
    induction elements with
    | nil => simp
    | cons first rest ih =>
      intro s
      rw [List.foldl_cons, ih, mem_toList_add, List.mem_cons]
      simp only [or_left_comm, or_assoc]
  rw [ofList, hfold]
  simp

omit [Std.TransOrd κ] [Std.LawfulEqOrd κ] in
theorem isEmpty_iff {s : Set κ} : s.isEmpty = true ↔ s.toList = [] :=
  Map.isEmpty_iff

end Set

end ScatterGather.Ordered
