import Mathlib.Data.List.Basic
import ScatterGather.Collect.Collector
import ScatterGather.Proofs.Collect.SortKeys

/-!
# Sorting rows

Keys compare by a total order, so criteria compare rows by one as well, whichever way each of them
sorts and wherever keys are absent. Sorting keeps all rows and puts them in ascending order. Where no
two rows are on a par there is one such arrangement, and it does not matter in which order the rows
came.
-/

namespace ScatterGather

/-! ## The order of rows -/

instance (direction : SortDirection) : Std.TransCmp direction.compare where
  eq_swap := by
    intro a b
    cases a with
    | none => cases b <;> rfl
    | some a =>
      cases b with
      | none => rfl
      | some b =>
        have hswap (a b : SortKey) : SortKey.compare a b = (SortKey.compare b a).swap :=
          Std.OrientedCmp.eq_swap
        cases direction with
        | ascending => exact hswap a b
        | descending => exact hswap b a
  isLE_trans := by
    intro a b c hab hbc
    cases c with
    | none => cases a <;> rfl
    | some c =>
      cases b with
      | none => cases hbc
      | some b =>
        cases a with
        | none => cases hab
        | some a =>
          have htrans {a b c : SortKey} (hab : (SortKey.compare a b).isLE)
              (hbc : (SortKey.compare b c).isLE) : (SortKey.compare a c).isLE :=
            Std.TransCmp.isLE_trans hab hbc
          cases direction with
          | ascending => exact htrans hab hbc
          | descending => exact htrans hbc hab

variable {E : Type}

namespace Accessors

/-- The key of a row at a path. Without an accessor there is none. -/
def key? (accessors : Accessors E) (path : String) (row : E) : Option SortKey :=
  match accessors.get path with
  | .ok accessor => accessor row
  | .error _ => none

/-- How criteria compare two rows: the first that tells them apart decides. -/
def compareRows (accessors : Accessors E) : List SortOrder → E → E → Ordering
  | [], _, _ => .eq
  | order :: orders, a, b =>
    (order.direction.compare (accessors.key? order.path a) (accessors.key? order.path b)).then
      (compareRows accessors orders a b)

theorem transCmp_compareRows (accessors : Accessors E) (orders : List SortOrder) :
    Std.TransCmp (accessors.compareRows orders) := by
  induction orders with
  | nil => exact { eq_swap := rfl, isLE_trans := fun _ _ => rfl }
  | cons order orders ih =>
    have hfirst : Std.TransCmp fun a b =>
        order.direction.compare (accessors.key? order.path a) (accessors.key? order.path b) :=
      transCmp_on inferInstance _
    exact inferInstanceAs (Std.TransCmp (compareLex _ (accessors.compareRows orders)))

/-- Registered paths have accessors, and these find the keys. -/
theorem getAll_ok {accessors : Accessors E} {paths : List String}
    (h : ∀ path ∈ paths, ∃ accessor, accessors.get path = .ok accessor) :
    ∃ found, accessors.getAll paths = .ok found ∧ found.length = paths.length
      ∧ ∀ row, extract found row = paths.map fun path => accessors.key? path row := by
  induction paths with
  | nil => exact ⟨[], rfl, rfl, fun _ => rfl⟩
  | cons path paths ih =>
    obtain ⟨⟨accessor, haccessor⟩, hpaths⟩ := List.forall_mem_cons.mp h
    obtain ⟨found, hfound, hlength, hextract⟩ := ih hpaths
    refine ⟨accessor :: found, by simp [getAll, haccessor, hfound], by simp [hlength], ?_⟩
    intro row
    rw [List.map_cons, ← hextract row]
    simp [extract, key?, haccessor]

theorem compareKeys_eq (accessors : Accessors E) (orders : List SortOrder) (a b : E) :
    compareKeys (orders.map (·.direction))
        ((orders.map (·.path)).map fun path => accessors.key? path a)
        ((orders.map (·.path)).map fun path => accessors.key? path b)
      = accessors.compareRows orders a b := by
  induction orders with
  | nil => rfl
  | cons order orders ih =>
    simp only [List.map_cons, compareKeys, compareRows]
    rw [ih]

end Accessors

/-! ## Sorting -/

namespace Ordered

variable {α : Type} {cmp : α → α → Ordering}

theorem insertFirst_perm (x : α) (xs : List α) : (insertFirst cmp x xs).Perm (x :: xs) := by
  induction xs with
  | nil => exact .refl _
  | cons y rest ih =>
    rw [insertFirst]
    split
    · exact (ih.cons y).trans (.swap x y rest)
    · exact .refl _

/-- Sorting keeps all elements. -/
theorem sortBy_perm (xs : List α) : (sortBy cmp xs).Perm xs := by
  induction xs with
  | nil => exact .refl _
  | cons x rest ih => exact (insertFirst_perm x _).trans (ih.cons x)

/-- Keys that are extracted beforehand lead to the same arrangement. -/
theorem sortBy_map {β : Type} {cmp' : β → β → Ordering} {f : α → β}
    (h : ∀ a b, cmp' (f a) (f b) = cmp a b) (xs : List α) :
    sortBy cmp' (xs.map f) = (sortBy cmp xs).map f := by
  have hinsert (x : α) (ys : List α) :
      insertFirst cmp' (f x) (ys.map f) = (insertFirst cmp x ys).map f := by
    induction ys with
    | nil => rfl
    | cons y rest ih =>
      simp only [List.map_cons, insertFirst, h, ih]
      split
      · rfl
      · rfl
  induction xs with
  | nil => rfl
  | cons x rest ih =>
    have ih : (rest.map f).foldr (insertFirst cmp') [] = (sortBy cmp rest).map f := ih
    simp only [sortBy, List.map_cons, List.foldr_cons, ih]
    exact hinsert x _

/-- No element is greater than a later one. -/
def Sorted (cmp : α → α → Ordering) (xs : List α) : Prop :=
  xs.Pairwise fun a b => (cmp a b).isLE

theorem sorted_insertFirst (hcmp : Std.TransCmp cmp) (x : α) {xs : List α}
    (h : Sorted cmp xs) : Sorted cmp (insertFirst cmp x xs) := by
  induction xs with
  | nil => exact List.pairwise_singleton _ _
  | cons y rest ih =>
    obtain ⟨hy, hrest⟩ := List.pairwise_cons.mp h
    rw [insertFirst]
    split
    case isTrue hlt =>
      refine List.pairwise_cons.mpr ⟨?_, ih hrest⟩
      intro z hz
      rcases List.mem_cons.mp ((insertFirst_perm x rest).subset hz) with rfl | hz
      · rw [hlt]
        rfl
      · exact hy z hz
    case isFalse hnot =>
      have hxy : (cmp x y).isLE := by
        rw [hcmp.eq_swap]
        cases hyx : cmp y x with
        | lt => exact absurd hyx hnot
        | eq => rfl
        | gt => rfl
      refine List.pairwise_cons.mpr ⟨?_, h⟩
      intro z hz
      rcases List.mem_cons.mp hz with rfl | hz
      · exact hxy
      · exact hcmp.isLE_trans hxy (hy z hz)

theorem sorted_sortBy (hcmp : Std.TransCmp cmp) (xs : List α) : Sorted cmp (sortBy cmp xs) := by
  induction xs with
  | nil => exact List.Pairwise.nil
  | cons x rest ih => exact sorted_insertFirst hcmp x ih

theorem ne_symm (hcmp : Std.TransCmp cmp) {a b : α} (h : cmp a b ≠ .eq) : cmp b a ≠ .eq := by
  rw [hcmp.eq_swap]
  simpa using h

/-- Of elements no two of which are on a par, each is less than the later ones. -/
theorem Sorted.strict {xs : List α} (h : Sorted cmp xs)
    (hne : xs.Pairwise fun a b => cmp a b ≠ .eq) : xs.Pairwise fun a b => cmp a b = .lt := by
  refine (h.and hne).imp ?_
  rintro a b ⟨hle, hne⟩
  exact (Ordering.isLE_iff_eq_lt_or_eq_eq.mp hle).resolve_right hne

/-- Such elements have one arrangement in ascending order. -/
theorem Sorted.unique (hcmp : Std.TransCmp cmp) {xs ys : List α} (hperm : xs.Perm ys)
    (hxs : Sorted cmp xs) (hys : Sorted cmp ys) (hne : xs.Pairwise fun a b => cmp a b ≠ .eq) :
    xs = ys := by
  have hne' : ys.Pairwise fun a b => cmp a b ≠ .eq := (hperm.pairwise_iff (ne_symm hcmp)).mp hne
  refine List.Perm.eq_of_pairwise ?_ (hxs.strict hne) (hys.strict hne') hperm
  intro a b _ _ hab hba
  have hgt := Std.OrientedCmp.gt_of_lt hab
  rw [hba] at hgt
  cases hgt

end Ordered

/-! ## Collectors that sort -/

namespace RowCollector

/-- How the criteria of a collector compare two rows. -/
def compareRows (collector : RowCollector E) : E → E → Ordering :=
  collector.accessors.compareRows collector.orders

/-- The criteria sort by paths that have accessors. -/
def Registered (collector : RowCollector E) : Prop :=
  ∀ order ∈ collector.orders, ∃ accessor, collector.accessors.get order.path = .ok accessor

variable {collector : RowCollector E}

instance : Std.TransCmp collector.compareRows :=
  Accessors.transCmp_compareRows collector.accessors collector.orders

theorem sortRows_eq {accessors : List (Accessor E)}
    (h : ∀ row, extract accessors row =
      (collector.orders.map (·.path)).map fun path => collector.accessors.key? path row)
    (rows : List E) :
    collector.sortRows accessors rows = Ordered.sortBy collector.compareRows rows := by
  let keyed := fun row => (extract accessors row, row)
  let compareKeyed := fun a b : List (Option SortKey) × E =>
    compareKeys (collector.orders.map (·.direction)) a.1 b.1
  have hkeyed (a b : E) : compareKeyed (keyed a) (keyed b) = collector.compareRows a b := by
    simp only [compareKeyed, keyed, h]
    exact Accessors.compareKeys_eq collector.accessors collector.orders a b
  change (Ordered.sortBy compareKeyed (rows.map keyed)).map (·.2) = _
  rw [Ordered.sortBy_map hkeyed]
  simp [keyed, Function.comp_def]

/-- The slice as it is asked for: some rows are skipped, and so many of the others are taken. -/
theorem slice_eq (rows : List E) :
    collector.slice rows = (rows.drop (collector.firstResult.getD 0)).take
      (collector.maxResults.getD rows.length) := by
  unfold slice
  cases collector.maxResults with
  | some limit => rfl
  | none =>
    rw [Option.getD_none, List.take_of_length_le]
    rw [List.length_drop]
    exact Nat.sub_le _ _

/-- A collector that drops no row sorts all of them and takes its slice. -/
theorem apply_sorts (hregistered : collector.Registered) (hcriteria : collector.orders ≠ [])
    (hall : collector.distinctOn = []) (rows : List E) :
    collector.apply rows = .ok (collector.slice (Ordered.sortBy collector.compareRows rows)) := by
  have hpaths : ∀ path ∈ collector.orders.map (·.path),
      ∃ accessor, collector.accessors.get path = .ok accessor := by
    intro path hpath
    obtain ⟨order, horder, rfl⟩ := List.mem_map.mp hpath
    exact hregistered order horder
  obtain ⟨found, hfound, hlength, hextract⟩ := Accessors.getAll_ok hpaths
  have hnonempty : found.isEmpty = false := by
    rw [List.isEmpty_eq_false_iff, ← List.length_pos_iff, hlength, List.length_map]
    exact List.length_pos_iff.mpr hcriteria
  have hdistinct : collector.accessors.getAll collector.distinctOn = .ok [] := by
    rw [hall]
    rfl
  unfold apply
  rw [hdistinct, hfound]
  simp only [List.isEmpty_nil, if_true, hnonempty, sortRows_eq hextract]
  rfl

end RowCollector

end ScatterGather
