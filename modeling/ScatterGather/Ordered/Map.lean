/-!
# Maps in key order

A finite map kept as the list of its entries in strictly ascending key order. The order is a field
of the type, so two maps are equal as soon as they look up the same, and listing a map never
depends on how it was filled. `get?_insert` and `get?_erase` say what a changed map looks up.
-/

namespace ScatterGather.Ordered

/-- Entries in strictly ascending key order. -/
def Ascending {κ ν : Type} [Ord κ] (entries : List (κ × ν)) : Prop :=
  entries.Pairwise fun a b => compare a.1 b.1 = .lt

section Entries

variable {κ ν : Type} [Ord κ]

/-- Put `key` at its place in a sorted list, over an entry that it already has. -/
def insertEntry (key : κ) (value : ν) : List (κ × ν) → List (κ × ν)
  | [] => [(key, value)]
  | (k, v) :: rest =>
    match compare key k with
    | .lt => (key, value) :: (k, v) :: rest
    | .eq => (key, value) :: rest
    | .gt => (k, v) :: insertEntry key value rest

/-- Take the entry of `key` out of a list. -/
def eraseEntry (key : κ) (entries : List (κ × ν)) : List (κ × ν) :=
  entries.filter fun entry => compare key entry.1 != .eq

theorem mem_insertEntry {key : κ} {value : ν} {entries : List (κ × ν)} {e : κ × ν}
    (h : e ∈ insertEntry key value entries) : e = (key, value) ∨ e ∈ entries := by
  induction entries with
  | nil => exact .inl (by simpa [insertEntry] using h)
  | cons head rest ih =>
    obtain ⟨k, v⟩ := head
    rw [insertEntry] at h
    split at h
    · rcases List.mem_cons.mp h with rfl | h
      · exact .inl rfl
      · exact .inr h
    · rcases List.mem_cons.mp h with rfl | h
      · exact .inl rfl
      · exact .inr (List.mem_cons_of_mem _ h)
    · rcases List.mem_cons.mp h with rfl | h
      · exact .inr List.mem_cons_self
      · exact (ih h).imp id (List.mem_cons_of_mem _)

theorem ascending_insertEntry [Std.TransOrd κ] [Std.LawfulEqOrd κ] (key : κ) (value : ν)
    {entries : List (κ × ν)} (h : Ascending entries) :
    Ascending (insertEntry key value entries) := by
  induction entries with
  | nil => exact List.pairwise_singleton _ _
  | cons head rest ih =>
    obtain ⟨k, v⟩ := head
    obtain ⟨hk, hrest⟩ := List.pairwise_cons.mp h
    rw [insertEntry]
    split
    case h_1 hlt =>
      refine List.pairwise_cons.mpr ⟨fun e he => ?_, h⟩
      rcases List.mem_cons.mp he with rfl | he
      · exact hlt
      · exact Std.TransCmp.lt_trans hlt (hk e he)
    case h_2 heq =>
      obtain rfl := Std.LawfulEqCmp.eq_of_compare heq
      exact List.pairwise_cons.mpr ⟨fun e he => hk e he, hrest⟩
    case h_3 hgt =>
      refine List.pairwise_cons.mpr ⟨fun e he => ?_, ih hrest⟩
      rcases mem_insertEntry he with rfl | he
      · exact Std.OrientedCmp.lt_of_gt hgt
      · exact hk e he

end Entries

/-- A finite map with its entries in ascending key order. -/
structure Map (κ ν : Type) [Ord κ] where
  entries : List (κ × ν)
  ascending : Ascending entries

namespace Map

variable {κ ν : Type} [Ord κ]

instance : EmptyCollection (Map κ ν) := ⟨⟨[], List.Pairwise.nil⟩⟩

instance : Inhabited (Map κ ν) := ⟨∅⟩

instance [DecidableEq κ] [DecidableEq ν] : DecidableEq (Map κ ν) := fun a b =>
  decidable_of_iff (a.entries = b.entries) <| by
    cases a; cases b; simp

def get? (m : Map κ ν) (key : κ) : Option ν :=
  (m.entries.find? fun entry => compare key entry.1 == .eq).map (·.2)

def contains (m : Map κ ν) (key : κ) : Bool :=
  (m.get? key).isSome

def size (m : Map κ ν) : Nat :=
  m.entries.length

def isEmpty (m : Map κ ν) : Bool :=
  m.entries.isEmpty

def keys (m : Map κ ν) : List κ :=
  m.entries.map (·.1)

/-- Set the value of `key`. -/
def insert [Std.TransOrd κ] [Std.LawfulEqOrd κ] (m : Map κ ν) (key : κ) (value : ν) : Map κ ν :=
  ⟨insertEntry key value m.entries, ascending_insertEntry key value m.ascending⟩

def erase (m : Map κ ν) (key : κ) : Map κ ν :=
  ⟨eraseEntry key m.entries, List.Pairwise.filter _ m.ascending⟩

/-- The map of a list of pairs; of two pairs with one key the later counts. -/
def ofList [Std.TransOrd κ] [Std.LawfulEqOrd κ] (pairs : List (κ × ν)) : Map κ ν :=
  pairs.foldl (fun m pair => m.insert pair.1 pair.2) ∅

/-! ## What a map looks up -/

theorem get?_empty (key : κ) : (∅ : Map κ ν).get? key = none :=
  rfl

theorem compare_beq_eq_false [Std.LawfulEqOrd κ] {k l : κ} (h : k ≠ l) :
    (compare k l == .eq) = false :=
  beq_eq_false_iff_ne.mpr fun heq => h (Std.LawfulEqCmp.eq_of_compare heq)

theorem find?_insertEntry [Std.LawfulEqOrd κ] (key k : κ) (value : ν) (entries : List (κ × ν)) :
    (insertEntry key value entries).find? (fun entry => compare k entry.1 == .eq) =
      if compare k key = .eq then some (key, value)
      else entries.find? fun entry => compare k entry.1 == .eq := by
  induction entries with
  | nil =>
    by_cases h : k = key
    · simp [insertEntry, h]
    · simp [insertEntry, h, compare_beq_eq_false h]
  | cons head rest ih =>
    obtain ⟨l, v⟩ := head
    rw [insertEntry]
    split
    case h_1 =>
      by_cases h : k = key
      · simp [h]
      · simp [List.find?_cons, h, compare_beq_eq_false h]
    case h_2 heq =>
      obtain rfl := Std.LawfulEqCmp.eq_of_compare heq
      by_cases h : k = key
      · simp [h]
      · simp [h, compare_beq_eq_false h]
    case h_3 hgt =>
      rw [List.find?_cons, ih]
      by_cases h : k = l
      · subst h
        have hne : k ≠ key := fun h => by
          subst h
          simp at hgt
        simp [hne]
      · simp [compare_beq_eq_false h]

theorem get?_insert [Std.TransOrd κ] [Std.LawfulEqOrd κ] (m : Map κ ν) (key k : κ) (value : ν) :
    (m.insert key value).get? k = if compare k key = .eq then some value else m.get? k := by
  simp only [get?, insert, find?_insertEntry]
  split <;> rfl

theorem get?_erase [Std.LawfulEqOrd κ] (m : Map κ ν) (key k : κ) :
    (m.erase key).get? k = if compare k key = .eq then none else m.get? k := by
  simp only [get?, erase, eraseEntry, List.find?_filter]
  split
  case isTrue h =>
    obtain rfl := Std.LawfulEqCmp.eq_of_compare h
    rw [List.find?_eq_none.mpr (by simp), Option.map_none]
  case isFalse h =>
    congr 2
    funext entry
    by_cases hk : k = entry.1
    · subst hk
      have hne : key ≠ entry.1 := fun heq => h (by simp [heq])
      simp [hne]
    · simp [compare_beq_eq_false hk]

end Map

end ScatterGather.Ordered
