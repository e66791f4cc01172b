import ScatterGather.Proofs.Binary.Rounding
import ScatterGather.Proofs.Collect.Arranging

/-!
# Integers as sort keys

A JSON integer fits a signed or an unsigned word. Only a signed word is kept as it is; a greater integer
becomes a float, and so the nearest multiple of 2048 stands for it. Keys compare as what they keep of the
integers. That is exact unless both integers are beyond the signed words, and even then it is never the
wrong way round, but neighbours may be on a par: then only the first of them is distinct, and sorting
leaves them as they came.
-/

namespace ScatterGather

open Format (double)

/-- An integer that fits a word of 64 bits, signed or unsigned. -/
def IsWord (n : Int) : Prop :=
  -2 ^ 63 ≤ n ∧ n < 2 ^ 64

namespace SortKey

/-- What a key keeps of an integer: a signed word as it is, and of a greater integer the nearest
multiple of 2048, of two the one that is even. -/
def kept (n : Int) : Int :=
  if n < 2 ^ 63 then n else (roundHalfEven n.toNat 2048 : Int) * 2048

variable {m n : Int}

theorem kept_of_lt (h : n < 2 ^ 63) : kept n = n :=
  if_pos h

theorem le_kept (h : 2 ^ 63 ≤ n) : 2 ^ 63 ≤ kept n := by
  have hleast : roundHalfEven (2 ^ 52 * 2048) 2048 ≤ roundHalfEven n.toNat 2048 :=
    roundHalfEven_mono (by omega) 2048
  rw [roundHalfEven_mul_self _ (by decide)] at hleast
  rw [kept, if_neg (by omega)]
  omega

/-- What is kept is close. -/
theorem kept_close (n : Int) : kept n - 1024 ≤ n ∧ n ≤ kept n + 1024 := by
  rw [kept]
  split
  · omega
  · have hstep : 0 < 2048 := by decide
    have := roundHalfEven_close n.toNat hstep
    omega

theorem kept_mono (h : m ≤ n) : kept m ≤ kept n := by
  rcases lt_or_ge m (2 ^ 63) with hm | hm
  · rw [kept_of_lt hm]
    rcases lt_or_ge n (2 ^ 63) with hn | hn
    · rwa [kept_of_lt hn]
    · have := le_kept hn
      omega
  · have hround : roundHalfEven m.toNat 2048 ≤ roundHalfEven n.toNat 2048 :=
      roundHalfEven_mono (by omega) 2048
    rw [kept, if_neg (by omega), kept, if_neg (by omega)]
    omega

/-- Two integers that keys tell apart if they differ: one is a signed word, or they are not close. -/
def Discernible (m n : Int) : Prop :=
  m < 2 ^ 63 ∨ n < 2 ^ 63 ∨ 2048 < (m - n).natAbs

theorem compare_kept (h : Discernible m n) : Ord.compare (kept m) (kept n) = Ord.compare m n := by
  have hm := kept_close m
  have hn := kept_close n
  have hm' : m < 2 ^ 63 ∧ kept m = m ∨ 2 ^ 63 ≤ m ∧ 2 ^ 63 ≤ kept m :=
    (lt_or_ge m (2 ^ 63)).imp (fun hm => ⟨hm, kept_of_lt hm⟩) fun hm => ⟨hm, le_kept hm⟩
  have hn' : n < 2 ^ 63 ∧ kept n = n ∨ 2 ^ 63 ≤ n ∧ 2 ^ 63 ≤ kept n :=
    (lt_or_ge n (2 ^ 63)).imp (fun hn => ⟨hn, kept_of_lt hn⟩) fun hn => ⟨hn, le_kept hn⟩
  rw [Discernible] at h
  exact Binary.compare_congr (by omega) (by omega)

/-! ## The keys of integers -/

theorem ofInt_great (hlow : 2 ^ 63 ≤ n) (hhigh : n < 2 ^ 64) :
    (Binary.ofInt n : Double).isNaN = false
      ∧ (Binary.ofInt n : Double).units = kept n * (double.one : Int) := by
  obtain ⟨k, rfl⟩ := Int.eq_ofNat_of_zero_le (a := n) (by omega)
  have hk : k ≠ 0 := by omega
  have hlog : k.log2 = 63 := (Nat.log2_eq_iff hk).mpr ⟨by omega, by omega⟩
  obtain ⟨hnumber, hunits⟩ := Binary.ofInt_spec (f := double) (n := k) (by rw [hlog]; decide) hk
    (by rw [hlog]; decide)
  have hstep : 2 ^ (k.log2 - double.fractionBits) = 2048 := by rw [hlog]; rfl
  rw [hstep] at hunits
  refine ⟨hnumber, hunits.trans ?_⟩
  rw [kept, if_neg (by omega), Int.toNat_natCast, Int.natCast_mul]
  rfl

theorem position_ofJson? (h : IsWord n) : ∃ key, ofJson? (.int n) = some key
    ∧ key.position = ⟨1, 1, kept n * double.one, ""⟩ := by
  obtain ⟨hlow, hhigh⟩ := h
  have hgreatest : Int64.maxValue.toInt = 2 ^ 63 - 1 := rfl
  have hleast : Int64.minValue.toInt = -2 ^ 63 := rfl
  rw [ofJson?, hgreatest, hleast]
  rcases lt_or_ge n (2 ^ 63) with hsigned | hgreat
  · rw [if_pos (by omega)]
    refine ⟨_, rfl, ?_⟩
    rw [position, Int64.toInt_ofInt_of_le hlow hsigned, kept_of_lt hsigned]
  · rw [if_neg (by omega)]
    obtain ⟨hnumber, hunits⟩ := ofInt_great hgreat hhigh
    refine ⟨_, rfl, ?_⟩
    rw [position, Binary.side_eq_one_iff.mpr hnumber, hnumber, if_neg Bool.false_ne_true, hunits]

/-- Keys of integers compare as what they keep of them. -/
theorem compare_ofJson? (hm : IsWord m) (hn : IsWord n) : ∃ a b, ofJson? (.int m) = some a
    ∧ ofJson? (.int n) = some b ∧ compare a b = Ord.compare (kept m) (kept n) := by
  obtain ⟨a, ha, hpositionA⟩ := position_ofJson? hm
  obtain ⟨b, hb, hpositionB⟩ := position_ofJson? hn
  refine ⟨a, b, ha, hb, ?_⟩
  rw [compare_eq_position, hpositionA, hpositionB, Position.compare_number,
    Nat.compare_eq_eq.mpr rfl, Ordering.eq_then]
  have hpos : (0 : Int) < double.one := Int.natCast_pos.mpr double.one_pos
  exact Binary.compare_congr (Int.mul_lt_mul_right hpos) (Int.mul_lt_mul_right hpos)

end SortKey

/-! ## Rows with integers -/

open SortKey

/-- Two integers stand as the direction has it. -/
def SortDirection.InOrder : SortDirection → Int → Int → Prop
  | .ascending, m, n => m ≤ n
  | .descending, m, n => n ≤ m

/-- Integers whose kept ones are in order are so themselves, if they can be told apart. -/
theorem SortDirection.InOrder.of_kept {direction : SortDirection} {m n : Int}
    (h : direction.InOrder (kept m) (kept n)) (hdiscernible : Discernible m n) :
    direction.InOrder m n := by
  have hcompare := compare_kept hdiscernible
  cases direction with
  | ascending =>
    have h : kept m ≤ kept n := h
    rwa [← Int.isLE_compare, hcompare, Int.isLE_compare] at h
  | descending =>
    have h : kept n ≤ kept m := h
    rwa [← Int.isGE_compare, hcompare, Int.isGE_compare] at h

namespace RowCollector

variable {E : Type} {collector : RowCollector E} {rows : List E} {path : String} {number : E → Int}

/-- Each of these rows has the key of an integer at a path. -/
structure Numbered (collector : RowCollector E) (path : String) (number : E → Int) (rows : List E) :
    Prop where
  word : ∀ row ∈ rows, IsWord (number row)
  key : ∀ row ∈ rows, collector.accessors.key? path row = ofJson? (.int (number row))

namespace Numbered

theorem keys (h : collector.Numbered path number rows) {a b : E} (ha : a ∈ rows) (hb : b ∈ rows) :
    ∃ x y, collector.accessors.key? path a = some x ∧ collector.accessors.key? path b = some y
      ∧ SortKey.compare x y = Ord.compare (kept (number a)) (kept (number b)) := by
  rw [h.key a ha, h.key b hb]
  exact compare_ofJson? (h.word a ha) (h.word b hb)

theorem onPar_iff (h : collector.Numbered path number rows) {a b : E} (ha : a ∈ rows)
    (hb : b ∈ rows) :
    SortKey.OnPar (collector.accessors.key? path a) (collector.accessors.key? path b) ↔
      kept (number a) = kept (number b) := by
  obtain ⟨x, y, hx, hy, hcompare⟩ := h.keys ha hb
  rw [hx, hy, SortKey.OnPar, hcompare, Int.compare_eq_eq]

theorem inOrder (h : collector.Numbered path number rows) {direction : SortDirection} {a b : E}
    (ha : a ∈ rows) (hb : b ∈ rows)
    (hle : (direction.compare (collector.accessors.key? path a)
      (collector.accessors.key? path b)).isLE) :
    direction.InOrder (kept (number a)) (kept (number b)) := by
  obtain ⟨x, y, hx, hy, hcompare⟩ := h.keys ha hb
  rw [hx, hy] at hle
  cases direction with
  | ascending =>
    have hle : (SortKey.compare x y).isLE := hle
    rwa [hcompare, Int.isLE_compare] at hle
  | descending =>
    have hle : (SortKey.compare y x).isLE := hle
    have hswap : SortKey.compare y x = (SortKey.compare x y).swap := Std.OrientedCmp.eq_swap
    rwa [hswap, hcompare, Ordering.isLE_swap, Int.isGE_compare] at hle

/-- The distinct rows are those whose integer is kept as none in front of it is. -/
theorem distinct_eq (h : collector.Numbered path number rows) (hpath : collector.distinctOn = [path]) :
    collector.distinct rows = (rows.zipIdx.filter fun (row : E × Nat) =>
      ∀ earlier ∈ rows.take row.2, kept (number row.1) ≠ kept (number earlier)).map (·.1) := by
  rw [distinct, hpath, if_neg (List.cons_ne_nil _ _), Accessors.firsts]
  refine congrArg (List.map _) (List.filter_congr fun row hrow => ?_)
  have hmem : row.1 ∈ rows := List.fst_mem_of_mem_zipIdx hrow
  refine decide_eq_decide.mpr (forall₂_congr fun earlier hearlier => not_congr ?_)
  rw [Accessors.agree_cons, h.onPar_iff hmem (List.mem_of_mem_take hearlier)]
  exact and_iff_left Accessors.agree_nil

/-- A row is among them if its integer is new and can be told from those in front of it. -/
theorem mem_distinct (h : collector.Numbered path number rows) (hpath : collector.distinctOn = [path])
    {place : Nat} {row : E} (hrow : rows[place]? = some row)
    (hnew : ∀ earlier ∈ rows.take place,
      number row ≠ number earlier ∧ Discernible (number row) (number earlier)) :
    row ∈ collector.distinct rows := by
  rw [h.distinct_eq hpath]
  refine List.mem_map.mpr ⟨(row, place), List.mem_filter.mpr ⟨?_, decide_eq_true ?_⟩, rfl⟩
  · exact List.mk_mem_zipIdx_iff_getElem?.mpr hrow
  · intro earlier hearlier hsame
    obtain ⟨hne, hdiscernible⟩ := hnew earlier hearlier
    have hcompare := compare_kept hdiscernible
    rw [hsame, Int.compare_eq_eq.mpr rfl] at hcompare
    exact hne (Int.compare_eq_eq.mp hcompare.symm)

theorem pairwise_inOrder (h : collector.Numbered path number rows) {direction : SortDirection}
    {others : List SortOrder} (horders : collector.orders = ⟨path, direction⟩ :: others) :
    (Ordered.sortBy collector.compareRows (collector.distinct rows)).Pairwise fun a b =>
      direction.InOrder (kept (number a)) (kept (number b)) := by
  have hsorted : Ordered.Sorted collector.compareRows _ :=
    Ordered.sorted_sortBy inferInstance (collector.distinct rows)
  have hmem {row : E} (hrow : row ∈ Ordered.sortBy collector.compareRows (collector.distinct rows)) :
      row ∈ rows :=
    (collector.distinct_sublist rows).subset ((Ordered.sortBy_perm _).subset hrow)
  refine List.Pairwise.imp_of_mem (fun ha hb hle => h.inOrder (hmem ha) (hmem hb) ?_) hsorted
  rw [compareRows, horders, Accessors.compareRows] at hle
  exact Ordering.isLE_left_of_isLE_then hle

end Numbered

/-- Keys of integers compare as the integers do, unless both integers are beyond the signed words and
close; then they compare as what is kept of them, which is the nearest multiple of 2048. So of rows with
an integer at a path none is dropped as indistinct whose integer is not close to an earlier one beyond
the signed words, and no other rows are left out of order. -/
theorem integer_keys_discern (registered : ∀ path ∈ collector.paths, path ∈ collector.accessors.paths)
    (numbered : collector.Numbered path number rows) :
    (∀ m n, IsWord m → IsWord n → ∃ a b, ofJson? (.int m) = some a ∧ ofJson? (.int n) = some b
      ∧ SortKey.compare a b = Ord.compare (kept m) (kept n)
      ∧ (Discernible m n → SortKey.compare a b = Ord.compare m n)
      ∧ (m ≤ n → (SortKey.compare a b).isLE))
    ∧ ∃ result, collector.apply rows = .ok result
      ∧ (collector.distinctOn = [path] → collector.firstResult = none → collector.maxResults = none →
        result.Perm ((rows.zipIdx.filter fun (row : E × Nat) =>
          ∀ earlier ∈ rows.take row.2, kept (number row.1) ≠ kept (number earlier)).map (·.1))
        ∧ ∀ place row, rows[place]? = some row →
          (∀ earlier ∈ rows.take place,
            number row ≠ number earlier ∧ Discernible (number row) (number earlier)) → row ∈ result)
      ∧ (∀ direction others, collector.orders = ⟨path, direction⟩ :: others →
        result.Pairwise fun a b => direction.InOrder (kept (number a)) (kept (number b))
          ∧ (Discernible (number a) (number b) → direction.InOrder (number a) (number b))) := by
  refine ⟨fun m n hm hn => ?_, _, apply_eq registered rows, fun hpath hfirst hmax => ?_,
    fun direction others horders => ?_⟩
  · obtain ⟨a, b, ha, hb, hcompare⟩ := compare_ofJson? hm hn
    refine ⟨a, b, ha, hb, hcompare, fun hdiscernible => ?_, fun hle => ?_⟩
    · rw [hcompare, compare_kept hdiscernible]
    · rw [hcompare, Int.isLE_compare]
      exact kept_mono hle
  · have hwhole (rows : List E) : collector.slice rows = rows := by simp [slice, hfirst, hmax]
    have hperm : (Ordered.sortBy collector.compareRows (collector.distinct rows)).Perm
        (collector.distinct rows) := Ordered.sortBy_perm _
    rw [hwhole, ← numbered.distinct_eq hpath]
    exact ⟨hperm, fun place row hrow hnew =>
      hperm.mem_iff.mpr (numbered.mem_distinct hpath hrow hnew)⟩
  · rw [slice_eq]
    refine ((numbered.pairwise_inOrder horders).sublist ?_).imp fun h => ⟨h, h.of_kept⟩
    exact (List.take_sublist _ _).trans (List.drop_sublist _ _)

/-- Two to the power of 63 and its successor have one key, so the second to come is dropped. All other
integers are told apart and sorted as they are. -/
theorem integer_keys_discern_neighbours :
    let accessors : Accessors Int := [("id", fun n => ofJson? (.int n))]
    let collector : RowCollector Int := ⟨accessors, ["id"], [⟨"id", .ascending⟩], none, none⟩
    let rows : List Int := [2 ^ 63 + 2049, 2 ^ 63 + 1, 7, 2 ^ 63, -1]
    (∀ path ∈ collector.paths, path ∈ collector.accessors.paths)
      ∧ collector.Numbered "id" id rows ∧ IsWord 7 ∧ IsWord (2 ^ 63) ∧ Discernible 7 (2 ^ 63)
      ∧ collector.apply rows = .ok [-1, 7, 2 ^ 63 + 1, 2 ^ 63 + 2049]
      ∧ [-1, 7, 2 ^ 63 + 1, 2 ^ 63 + 2049].Pairwise fun m n : Int =>
        Discernible m n → SortDirection.ascending.InOrder m n := by
  intro accessors collector rows
  have hregistered : ∀ path ∈ collector.paths, path ∈ collector.accessors.paths := by decide +kernel
  have hnumbered : collector.Numbered "id" id rows := by
    refine ⟨fun n hn => ?_, fun n _ => by rfl⟩
    simp only [rows, List.mem_cons, List.not_mem_nil, or_false] at hn
    rw [id, IsWord]
    omega
  have happly : collector.apply rows = .ok [-1, 7, 2 ^ 63 + 1, 2 ^ 63 + 2049] := by decide +kernel
  obtain ⟨-, result, hresult, -, horder⟩ := integer_keys_discern hregistered hnumbered
  obtain rfl := Except.ok.inj (happly.symm.trans hresult)
  exact ⟨hregistered, hnumbered, ⟨by decide, by decide⟩, ⟨by decide, by decide⟩, .inl (by decide),
    happly, (horder .ascending [] rfl).imp And.right⟩

end RowCollector

end ScatterGather
