import Mathlib.Tactic.IntervalCases
import ScatterGather.Json.Document
import ScatterGather.Text.Decimal

/-!
# Objects of natural numbers

A JSON object with plain keys and natural numbers as values, written without white space, is parsed as
the document with just these members in their order. Lexer and parser both take their input one piece at
a time, so that what they make of a text is put together from what they make of its parts: digits, a
quoted key, a member, and members with commas between them.
-/

namespace ScatterGather.Json

/-! ## Runs of a machine -/

section

variable {σ ι : Type} {step? : σ → ι → Option σ} {start next stop : σ}

/-- A machine comes from one state to another by its input. -/
def Runs (step? : σ → ι → Option σ) (start : σ) (input : List ι) (stop : σ) : Prop :=
  input.foldlM step? start = some stop

theorem Runs.nil : Runs step? start [] start :=
  rfl

theorem Runs.cons {first : ι} {input : List ι} (h : step? start first = some next)
    (hrest : Runs step? next input stop) : Runs step? start (first :: input) stop := by
  rw [Runs, List.foldlM_cons, h]
  exact hrest

theorem Runs.append {input input' : List ι} (h : Runs step? start input next)
    (h' : Runs step? next input' stop) : Runs step? start (input ++ input') stop := by
  rw [Runs, List.foldlM_append, h]
  exact h'

end

/-! ## Numbers -/

/-- A natural number, as it is written with digits alone. -/
def Numeral.natural (n : Nat) : Numeral :=
  ⟨false, n, 0, 0, true⟩

/-- A natural number of which the last digit was read. -/
def PartialNumber.natural (n : Nat) : PartialNumber :=
  ⟨if n = 0 then .zero else .whole, .natural n, false⟩

theorem digitValue?_digitChar {d : Nat} (h : d < 10) : digitValue? d.digitChar = some d := by
  interval_cases d <;> rfl

theorem begin?_digitChar {d : Nat} (h : d < 10) (tokens : List Token) :
    Lexer.begin? tokens d.digitChar = some ⟨tokens, .number (.natural d)⟩ := by
  interval_cases d <;> rfl

/-- Another digit of a number that does not start with a zero. -/
theorem extend?_natural {n d : Nat} (hn : n ≠ 0) (hd : d < 10) :
    (PartialNumber.natural n).extend? d.digitChar = some (.natural (10 * n + d)) := by
  have hpart : (PartialNumber.natural n).part = .whole := if_neg hn
  unfold PartialNumber.extend?
  rw [hpart, digitValue?_digitChar hd]
  simp [PartialNumber.withDigit, PartialNumber.natural, Numeral.natural, hn]

theorem lex_digits (n : Nat) (tokens : List Token) :
    Runs Lexer.step? ⟨tokens, .between⟩ (Text.digits n) ⟨tokens, .number (.natural n)⟩ := by
  induction n using Nat.strongRecOn with
  | ind n ih =>
    rw [Text.digits]
    rcases Nat.lt_or_ge n 10 with hsmall | hlarge
    · rw [Nat.toDigits_of_lt_base hsmall]
      exact .cons (begin?_digitChar hsmall tokens) .nil
    · -- All digits but the last are those of a tenth of the number, which is not zero.
      have htenth : n / 10 ≠ 0 := by omega
      have hlast : n % 10 < 10 := Nat.mod_lt n (by decide)
      have hextend := extend?_natural htenth hlast
      rw [Nat.div_add_mod] at hextend
      rw [Nat.toDigits_of_base_le (by decide) hlarge]
      refine (ih (n / 10) (by omega)).append (.cons ?_ .nil)
      simp only [Lexer.step?, hextend]

/-- A comma or a brace ends a number and is a token of its own. -/
theorem step?_natural {c : Char} (hc : c = ',' ∨ c = '\x7d') (n : Nat) (tokens : List Token) :
    Lexer.step? ⟨tokens, .number (.natural n)⟩ c
      = Lexer.begin? (.number (.natural n) :: tokens) c := by
  have hpart : (PartialNumber.natural n).part = .zero ∨ (PartialNumber.natural n).part = .whole := by
    unfold PartialNumber.natural
    by_cases hn : n = 0 <;> simp [hn]
  have hends : (PartialNumber.natural n).extend? c = none := by
    unfold PartialNumber.extend?
    rcases hc with rfl | rfl <;> rcases hpart with hpart | hpart <;> rw [hpart] <;> rfl
  have hfinish : (PartialNumber.natural n).finish? = some (.number (.natural n)) := by
    unfold PartialNumber.finish?
    rcases hpart with hpart | hpart <;> rw [hpart] <;> rfl
  simp only [Lexer.step?, hends, hfinish, Option.bind_some]

/-! ## Members -/

/-- A character that stands for itself between quotes. -/
def Plain (c : Char) : Prop :=
  c ≠ '"' ∧ c ≠ '\\' ∧ 0x20 ≤ c.toNat

theorem lex_plain {key : List Char} (h : ∀ c ∈ key, Plain c) (raw : List Char)
    (tokens : List Token) :
    Runs Lexer.step? ⟨tokens, .string raw⟩ key ⟨tokens, .string (key.reverse ++ raw)⟩ := by
  induction key generalizing raw with
  | nil => exact .nil
  | cons c key ih =>
    obtain ⟨⟨hquote, hescape, hcontrol⟩, hrest⟩ := List.forall_mem_cons.mp h
    refine .cons ?_ (by simpa using ih hrest (c :: raw))
    simp [Lexer.step?, hquote, hescape, Nat.not_lt.mpr hcontrol]

/-- The text of a member. -/
def memberText (member : List Char × Nat) : List Char :=
  '"' :: member.1 ++ '"' :: ':' :: Text.digits member.2

/-- The tokens of a member. -/
def memberTokens (member : List Char × Nat) : List Token :=
  [.string member.1, .colon, .number (.natural member.2)]

/-- The document of a member. -/
def memberDocument (member : List Char × Nat) : List Char × Document :=
  (member.1, .number (.natural member.2))

theorem lex_member {member : List Char × Nat} (h : ∀ c ∈ member.1, Plain c) (tokens : List Token) :
    Runs Lexer.step? ⟨tokens, .between⟩ (memberText member)
      ⟨.colon :: .string member.1 :: tokens, .number (.natural member.2)⟩ := by
  refine .cons rfl ((lex_plain h [] tokens).append (.cons rfl (.cons ?_ (lex_digits _ _))))
  simp [Lexer.begin?, Lexer.step?, isGap]

/-- Members up to the closing brace. -/
theorem lex_members {members : List (List Char × Nat)} (hne : members ≠ [])
    (h : ∀ member ∈ members, ∀ c ∈ member.1, Plain c) (tokens : List Token) :
    Runs Lexer.step? ⟨tokens, .between⟩ ([','].intercalate (members.map memberText) ++ ['\x7d'])
      ⟨([Token.comma].intercalate (members.map memberTokens) ++ [Token.closeBrace]).reverse ++ tokens,
        .between⟩ := by
  induction members generalizing tokens with
  | nil => exact absurd rfl hne
  | cons member members ih =>
    obtain ⟨hplain, hrest⟩ := List.forall_mem_cons.mp h
    cases members with
    | nil =>
      simpa [memberTokens] using
        (lex_member hplain tokens).append (.cons (step?_natural (.inr rfl) _ _) .nil)
    | cons second members =>
      rw [List.map_cons, List.map_cons, List.intercalate_cons_cons, List.map_cons, List.map_cons,
        List.intercalate_cons_cons]
      have hnext := ih (List.cons_ne_nil _ _) hrest (.comma :: .number (.natural member.2) :: .colon
        :: .string member.1 :: tokens)
      simpa [memberTokens] using
        (lex_member hplain tokens).append (.cons (step?_natural (.inl rfl) _ _) hnext)

/-- The members of an object that is open, up to the closing brace. The first of them is taken right
after the opening brace, all others after a comma. -/
theorem build_members {members : List (List Char × Nat)} (hne : members ≠ []) {start : Builder}
    {frames : List Frame} {read : List (List Char × Document)}
    (hstart : ∀ key, start.step? (.string key) = some ⟨frames, .colon read key⟩) :
    Runs Builder.step? start
      ([Token.comma].intercalate (members.map memberTokens) ++ [Token.closeBrace])
      ⟨frames, .more (.object (read.reverse ++ members.map memberDocument))⟩ := by
  induction members generalizing start read with
  | nil => exact absurd rfl hne
  | cons member members ih =>
    have hmember : Runs Builder.step? start (memberTokens member)
        ⟨.object read member.1 :: frames, .more (.number (.natural member.2))⟩ :=
      .cons (hstart member.1) (.cons rfl (.cons rfl .nil))
    cases members with
    | nil => exact hmember.append (.cons (by simp [Builder.step?, memberDocument]) .nil)
    | cons second members =>
      have hcomma : ∀ key, (Builder.mk frames (.key (memberDocument member :: read))).step? (.string key)
          = some ⟨frames, .colon (memberDocument member :: read) key⟩ := fun _ => rfl
      rw [List.map_cons, List.map_cons, List.intercalate_cons_cons]
      simpa using hmember.append (.cons rfl (ih (List.cons_ne_nil _ _) hcomma))

/-! ## Objects -/

/-- The text of an object. -/
def objectText (members : List (List Char × Nat)) : List Char :=
  '\x7b' :: ([','].intercalate (members.map memberText) ++ ['\x7d'])

/-- The tokens of an object. -/
def objectTokens (members : List (List Char × Nat)) : List Token :=
  .openBrace :: ([Token.comma].intercalate (members.map memberTokens) ++ [.closeBrace])

theorem tokens?_objectText {members : List (List Char × Nat)}
    (h : ∀ member ∈ members, ∀ c ∈ member.1, Plain c) :
    tokens? (objectText members) = some (objectTokens members) := by
  have hruns : Runs Lexer.step? ⟨[], .between⟩ (objectText members)
      ⟨(objectTokens members).reverse, .between⟩ := by
    by_cases hne : members = []
    · subst hne
      rfl
    · have hopen : Lexer.step? ⟨[], .between⟩ '\x7b' = some ⟨[.openBrace], .between⟩ := rfl
      simpa [objectText, objectTokens] using Runs.cons hopen (lex_members hne h [.openBrace])
  rw [tokens?, hruns]
  simp [Lexer.finish?]

theorem ofTokens?_objectTokens (members : List (List Char × Nat)) :
    Document.ofTokens? (objectTokens members) = some (.object (members.map memberDocument)) := by
  have hruns : Runs Builder.step? ⟨[], .value⟩ (objectTokens members)
      ⟨[], .more (.object (members.map memberDocument))⟩ := by
    by_cases hne : members = []
    · subst hne
      rfl
    · have hopen : ∀ key, (Builder.mk [] (.keyOrClose [])).step? (.string key)
          = some ⟨[], .colon [] key⟩ := fun _ => rfl
      exact .cons rfl (build_members hne hopen)
  rw [Document.ofTokens?, hruns]
  rfl

/-- The text of an object is parsed as the document with its members. -/
theorem parse?_objectText {members : List (List Char × Nat)}
    (h : ∀ member ∈ members, ∀ c ∈ member.1, Plain c) :
    Document.parse? (objectText members) = some (.object (members.map memberDocument)) := by
  rw [Document.parse?, tokens?_objectText h]
  exact ofTokens?_objectTokens members

end ScatterGather.Json
