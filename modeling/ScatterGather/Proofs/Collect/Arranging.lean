import ScatterGather.Proofs.Collect.Sorting

/-!
# Distinct rows in their order

What a collector returns is a slice of one list, which is said here without sets of keys seen and
without a sort: of the rows that agree on some paths only the first one is left, and these stand in the
order of the criteria, rows on a par as they came. There is no other such list. A path without an
accessor is an error whatever the rows are.
-/

namespace ScatterGather

variable {E : Type}

/-! ## Stability -/

namespace Ordered

variable {α : Type} {cmp : α → α → Ordering}

theorem insertFirst_filter (hcmp : Std.TransCmp cmp) (x y : α) (ys : List α) :
    (insertFirst cmp y ys).filter (cmp x · = .eq) = (y :: ys).filter (cmp x · = .eq) := by
  induction ys with
  | nil => rfl
  | cons z rest ih =>
    rw [insertFirst]
    split
    case isFalse => rfl
    case isTrue hlt =>
      rw [List.filter_cons, ih]
      -- What `y` moves behind is less, so not both are on a par with `x`.
      by_cases hz : cmp x z = .eq
      · have hy : cmp x y ≠ .eq := by
          rw [Std.TransCmp.congr_left hz, hlt]
          simp
        simp [hz, hy]
      · simp [List.filter_cons, hz]

/-- Elements on a par keep their order. -/
theorem sortBy_filter (hcmp : Std.TransCmp cmp) (x : α) (xs : List α) :
    (sortBy cmp xs).filter (cmp x · = .eq) = xs.filter (cmp x · = .eq) := by
  induction xs with
  | nil => rfl
  | cons y rest ih =>
    have ih : (rest.foldr (insertFirst cmp) []).filter (cmp x · = .eq)
        = rest.filter (cmp x · = .eq) := ih
    rw [sortBy, List.foldr_cons, insertFirst_filter hcmp, List.filter_cons, ih, List.filter_cons]

/-- There is one ascending arrangement in which elements on a par keep their order. -/
theorem Sorted.unique_of_filter (hcmp : Std.TransCmp cmp) {xs ys : List α} (hperm : xs.Perm ys)
    (hxs : Sorted cmp xs) (hys : Sorted cmp ys)
    (hsame : ∀ x, xs.filter (cmp x · = .eq) = ys.filter (cmp x · = .eq)) : xs = ys := by
  induction xs generalizing ys with
  | nil => exact hperm.nil_eq
  | cons x xs ih =>
    cases ys with
    | nil => exact hperm.eq_nil
    | cons y ys =>
      obtain ⟨hx, hrest⟩ := List.pairwise_cons.mp hxs
      obtain ⟨hy, hrest'⟩ := List.pairwise_cons.mp hys
      have hself (z : α) : cmp z z = .eq := Std.ReflCmp.compare_self
      have hle {z z' : α} {zs : List α} (hz : ∀ z' ∈ zs, (cmp z z').isLE) (hmem : z' ∈ z :: zs) :
          (cmp z z').isLE := by
        rcases List.mem_cons.mp hmem with rfl | hmem
        · rw [hself]
          rfl
        · exact hz z' hmem
      -- Both heads are least, so they are on a par, and their class starts with the same element.
      have hxy : (cmp x y).isLE := hle hx (hperm.mem_iff.mpr List.mem_cons_self)
      have hyx : (cmp y x).isLE := hle hy (hperm.mem_iff.mp List.mem_cons_self)
      have heq : cmp x y = .eq := Std.OrientedCmp.isLE_antisymm hxy hyx
      have hhead := hsame x
      rw [List.filter_cons_of_pos (by simp [hself]), List.filter_cons_of_pos (by simp [heq])] at hhead
      obtain ⟨hfirst, -⟩ := List.cons.inj hhead
      rw [← hfirst] at hperm hsame ⊢
      refine congrArg (x :: ·) (ih hperm.cons_inv hrest hrest' fun z => ?_)
      have hz := hsame z
      rw [List.filter_cons, List.filter_cons] at hz
      split at hz
      · exact (List.cons.inj hz).2
      · exact hz

end Ordered

/-! ## What keys say about rows -/

/-- Two keys do not tell rows apart: both are absent, or they compare equal. -/
def SortKey.OnPar : Option SortKey → Option SortKey → Prop
  | none, none => True
  | some a, some b => SortKey.compare a b = .eq
  | _, _ => False

/-- A row with the first key stands in front of one with the second. Of two keys the lesser comes
first, or the greater, as the direction has it; a row without a key never does. -/
def SortDirection.Before (direction : SortDirection) : Option SortKey → Option SortKey → Prop
  | none, _ => False
  | some _, none => True
  | some a, some b =>
    match direction with
    | .ascending => SortKey.compare a b = .lt
    | .descending => SortKey.compare a b = .gt

theorem SortDirection.compare_eq_iff (direction : SortDirection) {a b : Option SortKey} :
    direction.compare a b = .eq ↔ SortKey.OnPar a b := by
  cases a with
  | none => cases b <;> simp [compare, SortKey.OnPar]
  | some a =>
    cases b with
    | none => simp [compare, SortKey.OnPar]
    | some b =>
      cases direction with
      | ascending => exact .rfl
      | descending => exact Std.OrientedCmp.eq_comm

theorem SortDirection.compare_lt_iff (direction : SortDirection) {a b : Option SortKey} :
    direction.compare a b = .lt ↔ direction.Before a b := by
  cases a with
  | none => cases b <;> simp [compare, Before]
  | some a =>
    cases b with
    | none => simp [compare, Before]
    | some b =>
      cases direction with
      | ascending => exact .rfl
      | descending => exact Std.OrientedCmp.gt_iff_lt.symm

instance (a b : Option SortKey) : Decidable (SortKey.OnPar a b) :=
  decidable_of_iff _ (SortDirection.compare_eq_iff .ascending)

namespace Accessors

/-- Two rows have the same keys at all these paths. -/
def Agree (accessors : Accessors E) (paths : List String) (a b : E) : Prop :=
  ∀ path ∈ paths, SortKey.OnPar (accessors.key? path a) (accessors.key? path b)

instance (accessors : Accessors E) (paths : List String) (a b : E) :
    Decidable (accessors.Agree paths a b) :=
  inferInstanceAs (Decidable (∀ path ∈ paths, _))

@[simp]
theorem agree_nil {accessors : Accessors E} {a b : E} : accessors.Agree [] a b :=
  List.forall_mem_nil _

@[simp]
theorem agree_cons {accessors : Accessors E} {path : String} {paths : List String} {a b : E} :
    accessors.Agree (path :: paths) a b ↔
      SortKey.OnPar (accessors.key? path a) (accessors.key? path b) ∧ accessors.Agree paths a b :=
  List.forall_mem_cons

/-- The first criterion that tells two rows apart puts the one in front of the other. -/
def Precedes (accessors : Accessors E) (orders : List SortOrder) (a b : E) : Prop :=
  ∃ before order after, orders = before ++ order :: after
    ∧ accessors.Agree (before.map (·.path)) a b
    ∧ order.direction.Before (accessors.key? order.path a) (accessors.key? order.path b)

theorem compareRows_eq_iff (accessors : Accessors E) (orders : List SortOrder) {a b : E} :
    accessors.compareRows orders a b = .eq ↔ accessors.Agree (orders.map (·.path)) a b := by
  induction orders with
  | nil => simp [compareRows]
  | cons order orders ih =>
    rw [compareRows, Ordering.then_eq_eq, SortDirection.compare_eq_iff, ih, List.map_cons, agree_cons]

theorem compareRows_lt_iff (accessors : Accessors E) (orders : List SortOrder) {a b : E} :
    accessors.compareRows orders a b = .lt ↔ accessors.Precedes orders a b := by
  induction orders with
  | nil => simp [compareRows, Precedes]
  | cons order orders ih =>
    rw [compareRows, Ordering.then_eq_lt, SortDirection.compare_eq_iff,
      SortDirection.compare_lt_iff, ih]
    constructor
    · rintro (hbefore | ⟨hpar, before, decisive, after, rfl, hagree, hbefore⟩)
      · exact ⟨[], order, orders, rfl, agree_nil, hbefore⟩
      · exact ⟨order :: before, decisive, after, rfl, agree_cons.mpr ⟨hpar, hagree⟩, hbefore⟩
    · rintro ⟨before, decisive, after, hsplit, hagree, hbefore⟩
      cases before with
      | nil =>
        obtain ⟨rfl, rfl⟩ := List.cons.inj hsplit
        exact .inl hbefore
      | cons first before =>
        obtain ⟨rfl, rfl⟩ := List.cons.inj hsplit
        obtain ⟨hpar, hagree⟩ := agree_cons.mp hagree
        exact .inr ⟨hpar, before, decisive, after, rfl, hagree, hbefore⟩

theorem Agree.trans {accessors : Accessors E} {paths : List String} {a b c : E}
    (h : accessors.Agree paths a b) (h' : accessors.Agree paths b c) : accessors.Agree paths a c := by
  intro path hpath
  rw [← SortDirection.compare_eq_iff .ascending]
  exact Std.TransCmp.eq_trans ((SortDirection.compare_eq_iff .ascending).mpr (h path hpath))
    ((SortDirection.compare_eq_iff .ascending).mpr (h' path hpath))

/-! ## Distinct rows -/

/-- The rows that agree with no row in front of them. -/
def firsts (accessors : Accessors E) (paths : List String) (rows : List E) : List E :=
  (rows.zipIdx.filter fun (row : E × Nat) =>
    ∀ earlier ∈ rows.take row.2, ¬ accessors.Agree paths row.1 earlier).map (·.1)

theorem keysAgree_iff (accessors : Accessors E) (paths : List String) (a b : E) :
    keysAgree (paths.map fun path => accessors.key? path a)
        (paths.map fun path => accessors.key? path b) = true ↔ accessors.Agree paths a b := by
  induction paths with
  | nil => simp [keysAgree]
  | cons path paths ih =>
    rw [agree_cons, ← ih, List.map_cons, List.map_cons]
    cases accessors.key? path a with
    | none => cases accessors.key? path b <;> simp [keysAgree, SortKey.OnPar]
    | some a =>
      cases accessors.key? path b with
      | none => simp [keysAgree, SortKey.OnPar]
      | some b => simp [keysAgree, SortKey.OnPar, SortKey.agrees]

/-- Only the keys of the rows that were kept are seen, but a row that was dropped agrees with one of
these. -/
theorem distinctRows_eq {accessors : Accessors E} {paths : List String}
    {found : List (Accessor E)}
    (hextract : ∀ row, extract found row = paths.map fun path => accessors.key? path row)
    (earlier rest : List E) (seen : List (List (Option SortKey)))
    (hseen : ∀ row, seen.any (keysAgree (extract found row)) = true ↔
      ∃ other ∈ earlier, accessors.Agree paths row other) :
    distinctRows found seen rest = ((rest.zipIdx earlier.length).filter fun (row : E × Nat) =>
      ∀ other ∈ (earlier ++ rest).take row.2, ¬ accessors.Agree paths row.1 other).map (·.1) := by
  have hagree (a b : E) : keysAgree (extract found a) (extract found b) = true ↔
      accessors.Agree paths a b := by
    rw [hextract, hextract]
    exact accessors.keysAgree_iff paths a b
  induction rest generalizing earlier seen with
  | nil => rfl
  | cons row rest ih =>
    have hnext (seen' : List (List (Option SortKey)))
        (hseen' : ∀ other, seen'.any (keysAgree (extract found other)) = true ↔
          accessors.Agree paths other row ∨ ∃ first ∈ earlier, accessors.Agree paths other first) :=
      ih (earlier ++ [row]) seen' fun other => by
        simp only [hseen', List.mem_append, List.mem_singleton, or_and_right, exists_or,
          exists_eq_left, or_comm]
    rw [List.append_assoc, List.length_append, List.length_singleton, List.singleton_append] at hnext
    rw [distinctRows, List.zipIdx_cons, List.filter_cons]
    simp only [List.take_left, decide_eq_true_eq]
    split
    case isTrue hmet =>
      obtain ⟨first, hfirst, hsame⟩ := (hseen row).mp hmet
      rw [if_neg fun hnone => hnone first hfirst hsame]
      refine hnext seen fun other => ?_
      rw [hseen]
      refine ⟨.inr, ?_⟩
      rintro (hother | hother)
      · exact ⟨first, hfirst, hother.trans hsame⟩
      · exact hother
    case isFalse hnew =>
      have hnone : ∀ first ∈ earlier, ¬ accessors.Agree paths row first := fun first hfirst hsame =>
        hnew ((hseen row).mpr ⟨first, hfirst, hsame⟩)
      rw [if_pos hnone, List.map_cons]
      congr 1
      refine hnext (extract found row :: seen) fun other => ?_
      rw [List.any_cons, Bool.or_eq_true, hagree, hseen]

/-! ## Registered paths -/

/-- The paths that have an accessor. -/
def paths (accessors : Accessors E) : List String :=
  accessors.map (·.1)

theorem get_of_mem {accessors : Accessors E} {path : String} (h : path ∈ accessors.paths) :
    ∃ accessor, accessors.get path = .ok accessor := by
  obtain ⟨entry, hentry, rfl⟩ := List.mem_map.mp h
  have hfound : (accessors.find? fun other => other.1 == entry.1).isSome :=
    List.find?_isSome.mpr ⟨entry, hentry, beq_self_eq_true _⟩
  obtain ⟨found, hfound⟩ := Option.isSome_iff_exists.mp hfound
  exact ⟨found.2, by rw [get, hfound]⟩

/-- What is answered for a path without an accessor. -/
def unregistered (path : String) : ShardError :=
  .unsupportedCapability ("no accessor registered for property path `" ++ path ++ "`")

theorem get_of_not_mem {accessors : Accessors E} {path : String} (h : path ∉ accessors.paths) :
    accessors.get path = .error (unregistered path) := by
  have hnone : (accessors.find? fun other => other.1 == path) = none := by
    refine List.find?_eq_none.mpr fun entry hentry heq => h ?_
    rw [← eq_of_beq heq]
    exact List.mem_map_of_mem hentry
  rw [get, hnone]
  rfl

/-- The first path without an accessor is the error. -/
theorem getAll_error {accessors : Accessors E} {asked : List String} {path : String}
    (h : asked.find? (· ∉ accessors.paths) = some path) :
    accessors.getAll asked = .error (unregistered path) := by
  induction asked with
  | nil => cases h
  | cons first asked ih =>
    by_cases hfirst : first ∈ accessors.paths
    · rw [List.find?_cons_of_neg (by simpa using hfirst)] at h
      obtain ⟨accessor, haccessor⟩ := get_of_mem hfirst
      rw [getAll, haccessor, ih h]
    · rw [List.find?_cons_of_pos (by simpa using hfirst)] at h
      obtain rfl := Option.some.inj h
      rw [getAll, get_of_not_mem hfirst]

end Accessors

/-! ## Collectors -/

/-- `arranged` has these rows in the order of the criteria. Rows that agree on all of them stand as
they came. -/
structure Accessors.Arranges (accessors : Accessors E) (orders : List SortOrder)
    (rows arranged : List E) : Prop where
  perm : arranged.Perm rows
  ordered : arranged.Pairwise fun a b => ¬ accessors.Precedes orders b a
  stable : ∀ row, arranged.filter (accessors.Agree (orders.map (·.path)) row)
    = rows.filter (accessors.Agree (orders.map (·.path)) row)

namespace RowCollector

variable {collector : RowCollector E}

/-- The paths that the rows are told apart and sorted by. -/
def paths (collector : RowCollector E) : List String :=
  collector.distinctOn ++ collector.orders.map (·.path)

/-- The rows that are sorted. -/
def distinct (collector : RowCollector E) (rows : List E) : List E :=
  if collector.distinctOn = [] then rows
  else collector.accessors.firsts collector.distinctOn rows

theorem distinct_sublist (collector : RowCollector E) (rows : List E) :
    (collector.distinct rows).Sublist rows := by
  rw [distinct]
  split
  · exact .refl rows
  · have hsublist := (List.filter_sublist (p := fun (row : E × Nat) => ∀ earlier ∈ rows.take row.2,
      ¬ collector.accessors.Agree collector.distinctOn row.1 earlier) (l := rows.zipIdx)).map (·.1)
    rwa [List.zipIdx_map_fst] at hsublist

theorem arranges_iff {rows arranged : List E} :
    collector.accessors.Arranges collector.orders rows arranged ↔
      arranged = Ordered.sortBy collector.compareRows rows := by
  have hcmp : Std.TransCmp collector.compareRows := inferInstance
  have hsorted (arranged : List E) :
      arranged.Pairwise (fun a b => ¬ collector.accessors.Precedes collector.orders b a) ↔
        Ordered.Sorted collector.compareRows arranged := by
    refine List.Pairwise.iff fun a b => ?_
    rw [← Accessors.compareRows_lt_iff, ← compareRows, hcmp.eq_swap (a := a)]
    cases collector.compareRows b a <;> simp
  have hfilter (arranged : List E) (row : E) :
      arranged.filter (collector.accessors.Agree (collector.orders.map (·.path)) row)
        = arranged.filter (collector.compareRows row · = .eq) :=
    List.filter_congr fun other _ => by simp only [compareRows, Accessors.compareRows_eq_iff]
  constructor
  · intro harranges
    have hfilters (row : E) := (harranges.stable row).trans (hfilter rows row)
    refine Ordered.Sorted.unique_of_filter hcmp (harranges.perm.trans (Ordered.sortBy_perm rows).symm)
      ((hsorted arranged).mp harranges.ordered) (Ordered.sorted_sortBy hcmp rows) fun row => ?_
    rw [← hfilter, hfilters, Ordered.sortBy_filter hcmp]
  · rintro rfl
    refine ⟨Ordered.sortBy_perm rows, (hsorted _).mpr (Ordered.sorted_sortBy hcmp rows), fun row => ?_⟩
    rw [hfilter, hfilter, Ordered.sortBy_filter hcmp]

/-- Without criteria all rows are on a par. -/
theorem sortBy_eq_self (h : collector.orders = []) (rows : List E) :
    Ordered.sortBy collector.compareRows rows = rows := by
  refine (arranges_iff.mp ?_).symm
  rw [h]
  refine ⟨.refl rows, List.pairwise_of_forall ?_, fun _ => rfl⟩
  rintro a b ⟨before, order, after, hnil, -⟩
  simp at hnil

theorem apply_eq (hpaths : ∀ path ∈ collector.paths, path ∈ collector.accessors.paths)
    (rows : List E) : collector.apply rows
      = .ok (collector.slice (Ordered.sortBy collector.compareRows (collector.distinct rows))) := by
  obtain ⟨hdistinct, horders⟩ := List.forall_mem_append.mp hpaths
  obtain ⟨apart, hapart, hapartLength, hapartKeys⟩ :=
    Accessors.getAll_ok fun path hpath => Accessors.get_of_mem (hdistinct path hpath)
  obtain ⟨sorting, hsorting, hsortingLength, hsortingKeys⟩ :=
    Accessors.getAll_ok fun path hpath => Accessors.get_of_mem (horders path hpath)
  have hrows : (if apart.isEmpty then rows else distinctRows apart [] rows)
      = collector.distinct rows := by
    have hfirsts := Accessors.distinctRows_eq hapartKeys [] rows [] (by simp)
    rw [distinct, hfirsts]
    simp only [List.isEmpty_iff_length_eq_zero, hapartLength, List.length_eq_zero_iff]
    rfl
  have hsorted (rows : List E) : (if sorting.isEmpty then rows else collector.sortRows sorting rows)
      = Ordered.sortBy collector.compareRows rows := by
    rw [sortRows_eq hsortingKeys]
    split
    case isTrue hempty =>
      rw [sortBy_eq_self _ rows]
      rwa [List.isEmpty_iff_length_eq_zero, hsortingLength, List.length_map,
        List.length_eq_zero_iff] at hempty
    case isFalse => rfl
  rw [apply, hapart, hsorting]
  simp only [hrows, hsorted]

theorem apply_error {path : String}
    (h : collector.paths.find? (· ∉ collector.accessors.paths) = some path) (rows : List E) :
    collector.apply rows = .error (Accessors.unregistered path) := by
  rw [paths, List.find?_append] at h
  cases hapart : collector.distinctOn.find? (· ∉ collector.accessors.paths) with
  | some first =>
    rw [hapart, Option.some_or] at h
    rw [apply, Accessors.getAll_error (hapart.trans h)]
  | none =>
    rw [hapart, Option.none_or] at h
    have hregistered : ∀ path ∈ collector.distinctOn, path ∈ collector.accessors.paths := by
      simpa using hapart
    obtain ⟨apart, hfound, -⟩ :=
      Accessors.getAll_ok fun path hpath => Accessors.get_of_mem (hregistered path hpath)
    rw [apply, hfound, Accessors.getAll_error h]

/-- A collector keeps the first rows of their kind, arranges them by the criteria in the only way there
is, and returns the slice that is asked for. If a path has no accessor, the first one without is the
error, for every list of rows. -/
theorem apply_arranges (collector : RowCollector E) (rows : List E) :
    ((∀ path ∈ collector.paths, path ∈ collector.accessors.paths) →
      ∃ arranged,
        (∀ other, collector.accessors.Arranges collector.orders (collector.distinct rows) other ↔
          other = arranged)
        ∧ collector.apply rows = .ok ((arranged.drop (collector.firstResult.getD 0)).take
          (collector.maxResults.getD arranged.length)))
    ∧ ((∃ path ∈ collector.paths, path ∉ collector.accessors.paths) →
      ∃ path, collector.paths.find? (· ∉ collector.accessors.paths) = some path
        ∧ collector.apply rows = .error (Accessors.unregistered path)) := by
  constructor
  · intro hpaths
    exact ⟨_, fun _ => arranges_iff, by rw [apply_eq hpaths, slice_eq]⟩
  · rintro ⟨path, hpath, hunregistered⟩
    have hfound : (collector.paths.find? (· ∉ collector.accessors.paths)).isSome :=
      List.find?_isSome.mpr ⟨path, hpath, decide_eq_true hunregistered⟩
    obtain ⟨first, hfirst⟩ := Option.isSome_iff_exists.mp hfound
    exact ⟨first, hfirst, apply_error hfirst rows⟩

/-- Of two rows that agree the first is kept, rows on a par stand as they came, and those without a key
come last although the criterion is descending. The same collector that sorts by `name` as well does
not get as far. -/
theorem apply_arranges_descending :
    let accessors : Accessors (Option Int64 × Bool) :=
      [("size", fun row => row.1.map .int), ("open", fun row => some (.bool row.2))]
    let collector : RowCollector (Option Int64 × Bool) :=
      ⟨accessors, ["size", "open"], [⟨"size", .descending⟩], some 1, some 3⟩
    let unready : RowCollector (Option Int64 × Bool) :=
      ⟨accessors, ["size", "open"], [⟨"size", .descending⟩, ⟨"name", .ascending⟩], some 1, some 3⟩
    let rows := [(none, true), (some 1, true), (some 2, false), (some 1, true), (some 1, false)]
    (∀ path ∈ collector.paths, path ∈ collector.accessors.paths)
      ∧ collector.accessors.Arranges collector.orders (collector.distinct rows)
        [(some 2, false), (some 1, true), (some 1, false), (none, true)]
      ∧ collector.apply rows = .ok [(some 1, true), (some 1, false), (none, true)]
      ∧ (∃ path ∈ unready.paths, path ∉ unready.accessors.paths)
      ∧ unready.apply rows = .error (Accessors.unregistered "name") := by
  intro accessors collector unready rows
  have hpaths : ∀ path ∈ collector.paths, path ∈ collector.accessors.paths := by decide +kernel
  have harranges : collector.accessors.Arranges collector.orders (collector.distinct rows)
      [(some 2, false), (some 1, true), (some 1, false), (none, true)] :=
    arranges_iff.mpr (by decide +kernel)
  have hmissing : ∃ path ∈ unready.paths, path ∉ unready.accessors.paths :=
    ⟨"name", by decide +kernel, by decide +kernel⟩
  obtain ⟨hready, -⟩ := apply_arranges collector rows
  obtain ⟨-, hunready⟩ := apply_arranges unready rows
  obtain ⟨arranged, hunique, happly⟩ := hready hpaths
  obtain rfl := (hunique _).mp harranges
  obtain ⟨path, hfirst, herror⟩ := hunready hmissing
  have hname : unready.paths.find? (· ∉ unready.accessors.paths) = some "name" := by decide +kernel
  obtain rfl := Option.some.inj (hname.symm.trans hfirst)
  exact ⟨hpaths, harranges, happly, hmissing, herror⟩

end RowCollector

end ScatterGather
