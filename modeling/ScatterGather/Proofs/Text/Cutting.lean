import ScatterGather.Text.Blank
import ScatterGather.Text.Split

/-!
# Cutting and trimming undone

What the pieces of a text are is said the other way round: splitting finds the pieces of which the text
is put together, cutting the two sides of its first separator, and trimming what stands between blanks
without a blank at its own ends.
-/

namespace ScatterGather.Text

/-! ## Separators -/

theorem splitOn_eq (separator : Char) (text : List Char) :
    splitOn separator text = text.splitOn separator := by
  induction text with
  | nil => rfl
  | cons c text ih =>
    rw [splitOn, List.splitOn_cons_eq_if_modifyHead, ih]
    by_cases hc : c = separator
    · simp [hc]
    · obtain ⟨piece, pieces, hpieces⟩ :=
        List.exists_cons_of_ne_nil (List.splitOn_ne_nil separator text)
      simp [hc, hpieces]

theorem toList_join (separator : String) (pieces : List String) :
    (join separator pieces).toList
      = separator.toList.intercalate (pieces.map String.toList) := by
  fun_induction join separator pieces with
  | case1 => simp
  | case2 piece => simp
  | case3 piece pieces hne ih =>
    obtain ⟨second, rest, rfl⟩ := List.exists_cons_of_ne_nil (by simpa using hne)
    rw [String.toList_append, String.toList_append, ih]
    simp [List.intercalate]

/-- A cut is made at the first separator. -/
theorem cut?_eq_some_iff {separator : Char} {text left right : List Char} :
    cut? separator text = some (left, right) ↔
      text = left ++ separator :: right ∧ separator ∉ left := by
  induction text generalizing left with
  | nil => simp [cut?]
  | cons c text ih =>
    rw [cut?]
    split
    case isTrue hc =>
      subst hc
      simp only [Option.some.injEq, Prod.mk.injEq]
      constructor
      · rintro ⟨rfl, rfl⟩
        exact ⟨rfl, List.not_mem_nil⟩
      · rintro ⟨htext, hnot⟩
        cases left with
        | nil => exact ⟨rfl, (List.cons.inj htext).2⟩
        | cons first left =>
          obtain ⟨rfl, -⟩ := List.cons.inj htext
          exact absurd List.mem_cons_self hnot
    case isFalse hc =>
      simp only [Option.map_eq_some_iff, Prod.exists, Prod.mk.injEq]
      constructor
      · rintro ⟨before, after, hcut, rfl, rfl⟩
        obtain ⟨rfl, hnot⟩ := ih.mp hcut
        exact ⟨rfl, List.not_mem_cons_of_ne_of_not_mem (Ne.symm hc) hnot⟩
      · rintro ⟨htext, hnot⟩
        cases left with
        | nil => exact absurd (List.cons.inj htext).1 hc
        | cons first left =>
          obtain ⟨rfl, hrest⟩ := List.cons.inj htext
          exact ⟨left, right, ih.mpr ⟨hrest, fun hmem => hnot (List.mem_cons_of_mem _ hmem)⟩, rfl, rfl⟩

/-! ## Blanks -/

/-- White space only. -/
def Blanks (text : List Char) : Prop :=
  ∀ c ∈ text, isBlank c = true

instance (text : List Char) : Decidable (Blanks text) :=
  inferInstanceAs (Decidable (∀ c ∈ text, isBlank c = true))

theorem Blanks.append {before after : List Char} (hbefore : Blanks before) (hafter : Blanks after) :
    Blanks (before ++ after) :=
  List.forall_mem_append.mpr ⟨hbefore, hafter⟩

/-- A text does not start with white space. -/
def StartsTight (text : List Char) : Prop :=
  ∀ c ∈ text.head?, isBlank c = false

/-- What is left when the blanks in front are dropped. -/
theorem dropWhile_eq_iff {text core : List Char} :
    text.dropWhile isBlank = core ↔
      StartsTight core ∧ ∃ before, Blanks before ∧ text = before ++ core := by
  constructor
  · rintro rfl
    refine ⟨fun c hc => ?_, text.takeWhile isBlank, fun c hc => ?_, List.takeWhile_append_dropWhile.symm⟩
    · have hhead := List.head?_dropWhile_not isBlank text
      simpa [Option.mem_def.mp hc] using hhead
    · exact (List.all_eq_true.mp List.all_takeWhile) c hc
  · rintro ⟨htight, before, hbefore, rfl⟩
    rw [List.dropWhile_append_of_pos hbefore]
    cases core with
    | nil => rfl
    | cons c core =>
      have hc : isBlank c = false := htight c rfl
      simp [hc]

/-- Trimming finds the part of a text between two stretches of blanks. -/
theorem trim_eq_iff {text core : List Char} :
    trim text = core ↔ (StartsTight core ∧ StartsTight core.reverse)
      ∧ ∃ before after, Blanks before ∧ Blanks after ∧ text = before ++ core ++ after := by
  rw [trim, List.reverse_eq_iff, dropWhile_eq_iff]
  constructor
  · rintro ⟨hend, after, hafter, hrest⟩
    rw [List.reverse_eq_iff, List.reverse_append, List.reverse_reverse] at hrest
    obtain ⟨hstart, before, hbefore, rfl⟩ := dropWhile_eq_iff.mp hrest
    refine ⟨⟨fun c hc => ?_, hend⟩, before, after.reverse, hbefore, ?_, ?_⟩
    · cases core with
      | nil => cases hc
      | cons first core => exact hstart c hc
    · exact fun c hc => hafter c (List.mem_reverse.mp hc)
    · rw [List.append_assoc]
  · rintro ⟨⟨hstart, hend⟩, before, after, hbefore, hafter, rfl⟩
    refine ⟨hend, ?_⟩
    cases core with
    | nil =>
      -- Nothing but blanks: all are dropped from the front already.
      have hnone : (before ++ [] ++ after).dropWhile isBlank = [] :=
        dropWhile_eq_iff.mpr ⟨hstart, before ++ after, hbefore.append hafter, by simp⟩
      refine ⟨[], fun c hc => absurd hc List.not_mem_nil, ?_⟩
      rw [hnone]
      rfl
    | cons first core =>
      refine ⟨after.reverse, fun c hc => hafter c (List.mem_reverse.mp hc), ?_⟩
      rw [← List.reverse_append, List.reverse_inj, dropWhile_eq_iff]
      exact ⟨fun c hc => hstart c hc, before, hbefore, List.append_assoc ..⟩

/-- A text does not start with a blank if a first part of it has none. -/
theorem startsTight_append {front : List Char} (hne : front ≠ [])
    (h : ∀ c ∈ front, isBlank c = false) (back : List Char) : StartsTight (front ++ back) := by
  obtain ⟨c, front, rfl⟩ := List.exists_cons_of_ne_nil hne
  rintro _ ⟨⟩
  exact h c List.mem_cons_self

theorem trim_eq_nil_iff {text : List Char} : trim text = [] ↔ Blanks text := by
  rw [trim_eq_iff]
  constructor
  · rintro ⟨-, before, after, hbefore, hafter, rfl⟩
    simpa using hbefore.append hafter
  · intro hblank
    have htight : StartsTight [] := fun _ hc => by cases hc
    exact ⟨⟨htight, htight⟩, text, [], hblank, List.forall_mem_nil _, by simp⟩

end ScatterGather.Text
