import ScatterGather.Text.Decimal

/-!
# Written numbers

What a decimal number may look like: an optional plus sign and one or more digits, with any number of
zeros in front. Reading accepts exactly these as long as the value stays below the bound. Overflow is
noticed digit by digit, which comes to the same, since a further digit never makes a number less.
-/

namespace ScatterGather.Text

/-- One or more digits that stand for `n`. -/
structure Digits (text : List Char) (n : Nat) : Prop where
  ne_nil : text ≠ []
  isDigit : ∀ c ∈ text, c.isDigit = true
  value : Nat.ofDigitChars 10 text 0 = n

/-- The ways to write `n`: its digits, with or without a plus sign. -/
inductive Numeral : List Char → Nat → Prop
  | plain {text : List Char} {n : Nat} (h : Digits text n) : Numeral text n
  | signed {text : List Char} {n : Nat} (h : Digits text n) : Numeral ('+' :: text) n

theorem digit?_eq (c : Char) :
    digit? c = if c.isDigit = true then some (c.toNat - '0'.toNat) else none := by
  unfold digit? Char.isDigit
  simp only [Bool.and_eq_true, decide_eq_true_eq, ge_iff_le, Char.le_def]

/-- A digit more never makes a number less. -/
theorem le_ofDigitChars (text : List Char) (value : Nat) : value ≤ Nat.ofDigitChars 10 text value := by
  rw [Nat.ofDigitChars_eq_ofDigitChars_zero]
  have hpow : 0 < 10 ^ text.length := Nat.pow_pos (by decide)
  exact Nat.le_add_right_of_le (Nat.le_mul_of_pos_left value hpow)

/-- Reading on from `value` succeeds for digits that keep the number below the bound. -/
theorem readDigits_ok_iff {bound value n : Nat} (hvalue : value < bound) (text : List Char) :
    readDigits bound value text = .ok n ↔
      (∀ c ∈ text, c.isDigit = true) ∧ Nat.ofDigitChars 10 text value = n ∧ n < bound := by
  induction text generalizing value with
  | nil =>
    simp only [readDigits, Except.ok.injEq, List.not_mem_nil, false_implies, implies_true, true_and,
      Nat.ofDigitChars_nil, iff_self_and]
    rintro rfl
    exact hvalue
  | cons c text ih =>
    rw [readDigits, digit?_eq, List.forall_mem_cons, Nat.ofDigitChars_cons]
    by_cases hdigit : c.isDigit = true
    · simp only [hdigit, if_true, true_and]
      split
      case isTrue hfits => exact ih hfits
      case isFalse hbeyond =>
        refine iff_of_false (by simp) ?_
        rintro ⟨-, rfl, hbound⟩
        exact hbeyond (Nat.lt_of_le_of_lt (le_ofDigitChars _ _) hbound)
    · simp [hdigit]

theorem Digits.head {c : Char} {text : List Char} {n : Nat} (h : Digits (c :: text) n) :
    c.isDigit = true :=
  h.isDigit c List.mem_cons_self

theorem readDigits_zero_iff {bound n : Nat} (hbound : 0 < bound) {text : List Char}
    (htext : text ≠ []) :
    readDigits bound 0 text = .ok n ↔ Digits text n ∧ n < bound := by
  rw [readDigits_ok_iff hbound]
  exact ⟨fun ⟨hdigits, hvalue, hn⟩ => ⟨⟨htext, hdigits, hvalue⟩, hn⟩,
    fun ⟨h, hn⟩ => ⟨h.isDigit, h.value, hn⟩⟩

/-- Exactly the numerals of the numbers below the bound can be read. -/
theorem readNat_ok_iff {bound n : Nat} (hbound : 0 < bound) (text : List Char) :
    readNat bound text = .ok n ↔ Numeral text n ∧ n < bound := by
  have hplus : '+'.isDigit = false := rfl
  unfold readNat
  split
  case h_1 =>
    refine iff_of_false (by simp) ?_
    rintro ⟨⟨h⟩, -⟩
    exact h.ne_nil rfl
  case h_2 =>
    refine iff_of_false (by simp) ?_
    rintro ⟨h | h, -⟩
    · simp [h.head] at hplus
    · exact h.ne_nil rfl
  case h_3 digits hne =>
    have hdigits : digits ≠ [] := fun hnil => hne (by rw [hnil])
    rw [readDigits_zero_iff hbound hdigits]
    refine and_congr_left fun _ => ⟨.signed, ?_⟩
    rintro (h | h)
    · simp [h.head] at hplus
    · exact h
  case h_4 hnil hone hsigned =>
    rw [readDigits_zero_iff hbound hnil]
    refine and_congr_left fun _ => ⟨.plain, ?_⟩
    rintro (h | h)
    · exact h
    · exact absurd rfl (hsigned _)

theorem Numeral.chars {text : List Char} {n : Nat} (h : Numeral text n) :
    ∀ c ∈ text, c.isDigit = true ∨ c = '+' := by
  cases h with
  | plain h => exact fun c hc => .inl (h.isDigit c hc)
  | @signed text _ h =>
    exact List.forall_mem_cons.mpr ⟨.inr rfl, fun c hc => .inl (h.isDigit c hc)⟩

theorem Numeral.ne_nil {text : List Char} {n : Nat} (h : Numeral text n) : text ≠ [] := by
  cases h with
  | plain h => exact h.ne_nil
  | signed h => exact List.cons_ne_nil _ _

/-- The digits that are written for a number are digits of it. -/
theorem digits_spec (n : Nat) : Digits (digits n) n where
  ne_nil := Nat.toDigits_ne_nil
  isDigit := fun _ hc => Nat.isDigit_of_mem_toDigits (by decide) (by decide) hc
  value := Nat.ofDigitChars_ten_toDigits

/-- Nothing but zero is written with a zero in front. -/
theorem digits_zero_cons {n : Nat} {rest : List Char} (h : digits n = '0' :: rest) : rest = [] := by
  induction n using Nat.strongRecOn generalizing rest with
  | ind n ih =>
    rcases Nat.lt_or_ge n 10 with hsmall | hlarge
    · rw [digits, Nat.toDigits_of_lt_base hsmall] at h
      exact (List.cons.inj h).2.symm
    · have hsplit : digits n = digits (n / 10) ++ [(n % 10).digitChar] :=
        Nat.toDigits_of_base_le (by decide) hlarge
      obtain ⟨first, front, hfront⟩ := List.exists_cons_of_ne_nil (digits_spec (n / 10)).ne_nil
      rw [hsplit, hfront] at h
      obtain ⟨rfl, -⟩ := List.cons.inj h
      have hvalue := (digits_spec (n / 10)).value
      rw [hfront, ih (n / 10) (by omega) hfront] at hvalue
      have hzero : 0 = n / 10 := hvalue
      omega

end ScatterGather.Text
