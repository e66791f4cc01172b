import ScatterGather.Text.Hexadecimal

/-!
# JSON tokens

The lexical level of JSON: punctuation, the three words, numbers and strings. The lexer is a
machine that takes one character at a time, so a text is lexed by folding over it. Tokens keep what
was written: a string keeps its escapes, and a number its digits as one natural number together
with the place of the point and the exponent, since `2`, `2.0` and `20e-1` are different tokens of
one value.
-/

namespace ScatterGather.Json

/-- A number as it is written: its value is `digits * 10 ^ (exponent - places)`. -/
structure Numeral where
  negative : Bool
  /-- The digits before and after the point, read as one number. -/
  digits : Nat
  /-- How many digits stand after the point. -/
  places : Nat
  exponent : Int
  /-- Whether there is neither a point nor an exponent. -/
  integral : Bool
deriving DecidableEq, Repr

inductive Token where
  | openBrace
  | closeBrace
  | openBracket
  | closeBracket
  | colon
  | comma
  | null
  | bool (value : Bool)
  | number (numeral : Numeral)
  /-- The text between the quotes, with its escapes as written. -/
  | string (raw : List Char)
deriving DecidableEq, Repr

/-- How far a number has been read. -/
inductive NumberPart where
  | sign
  | zero
  | whole
  | point
  | fraction
  | mark
  | markSign
  | exponent
deriving DecidableEq, Repr

/-- A number under way. -/
structure PartialNumber where
  part : NumberPart
  numeral : Numeral
  /-- Whether the exponent has a minus sign. -/
  descending : Bool
deriving DecidableEq, Repr

/-- What the lexer is in the middle of; strings and words under way are kept backwards. -/
inductive LexMode where
  | between
  | word (letters : List Char)
  | number (under : PartialNumber)
  | string (raw : List Char)
  | escape (raw : List Char)
  | hex (missing : Nat) (raw : List Char)
deriving DecidableEq, Repr

/-- The lexer: the finished tokens, last one first, and the one under way. -/
structure Lexer where
  tokens : List Token
  mode : LexMode
deriving DecidableEq, Repr

def digitValue? (c : Char) : Option Nat :=
  if '0' ≤ c ∧ c ≤ '9' then some (c.toNat - '0'.toNat) else none

/-- Whether JSON allows `c` between tokens. -/
def isGap (c : Char) : Bool :=
  c = ' ' || c = '\t' || c = '\n' || c = '\r'

def wordToken? (letters : List Char) : Option Token :=
  if letters = ['n', 'u', 'l', 'l'] then some .null
  else if letters = ['t', 'r', 'u', 'e'] then some (.bool true)
  else if letters = ['f', 'a', 'l', 's', 'e'] then some (.bool false)
  else none

namespace PartialNumber

/-- Append a digit before or after the point. -/
def withDigit (n : PartialNumber) (part : NumberPart) (d places : Nat) : PartialNumber :=
  { n with
    part := part
    numeral := { n.numeral with
      digits := 10 * n.numeral.digits + d
      places := n.numeral.places + places } }

def withExponentDigit (n : PartialNumber) (d : Nat) : PartialNumber :=
  let step : Int := if n.descending then -(d : Int) else d
  { n with
    part := .exponent
    numeral := { n.numeral with exponent := 10 * n.numeral.exponent + step } }

/-- Move on to another part; a point or an exponent mark ends the integers. -/
def moveTo (n : PartialNumber) (part : NumberPart) : PartialNumber :=
  { n with part := part, numeral := { n.numeral with integral := false } }

/-- The number with one more character, if that can follow. -/
def extend? (n : PartialNumber) (c : Char) : Option PartialNumber :=
  match n.part, digitValue? c with
  | .sign, some d => some (n.withDigit (if d = 0 then .zero else .whole) d 0)
  | .whole, some d => some (n.withDigit .whole d 0)
  | .point, some d => some (n.withDigit .fraction d 1)
  | .fraction, some d => some (n.withDigit .fraction d 1)
  | .mark, some d => some (n.withExponentDigit d)
  | .markSign, some d => some (n.withExponentDigit d)
  | .exponent, some d => some (n.withExponentDigit d)
  | .zero, some _ => none
  | part, none =>
    if c = '.' ∧ (part = .zero ∨ part = .whole) then some (n.moveTo .point)
    else if (c = 'e' ∨ c = 'E') ∧ (part = .zero ∨ part = .whole ∨ part = .fraction) then
      some (n.moveTo .mark)
    else if part = .mark ∧ c = '+' then some (n.moveTo .markSign)
    else if part = .mark ∧ c = '-' then some { n.moveTo .markSign with descending := true }
    else none

/-- The number, if it can end here. -/
def finish? (n : PartialNumber) : Option Token :=
  match n.part with
  | .zero | .whole | .fraction | .exponent => some (.number n.numeral)
  | .sign | .point | .mark | .markSign => none

/-- A number of which nothing has been read. -/
def start (negative : Bool) : PartialNumber :=
  ⟨.sign, ⟨negative, 0, 0, 0, true⟩, false⟩

end PartialNumber

namespace Lexer

/-- Begin with the character `c` when no token is under way. -/
def begin? (tokens : List Token) (c : Char) : Option Lexer :=
  if isGap c then some ⟨tokens, .between⟩
  else if c = '\x7b' then some ⟨.openBrace :: tokens, .between⟩
  else if c = '\x7d' then some ⟨.closeBrace :: tokens, .between⟩
  else if c = '[' then some ⟨.openBracket :: tokens, .between⟩
  else if c = ']' then some ⟨.closeBracket :: tokens, .between⟩
  else if c = ':' then some ⟨.colon :: tokens, .between⟩
  else if c = ',' then some ⟨.comma :: tokens, .between⟩
  else if c = '"' then some ⟨tokens, .string []⟩
  else if c = '-' then some ⟨tokens, .number (.start true)⟩
  else if 'a' ≤ c ∧ c ≤ 'z' then some ⟨tokens, .word [c]⟩
  else ((PartialNumber.start false).extend? c).map fun n => ⟨tokens, .number n⟩

/-- Take one more character. A word or a number ends at the first character that does not belong
to it, and that character begins the next token. -/
def step? (lexer : Lexer) (c : Char) : Option Lexer :=
  match lexer.mode with
  | .between => begin? lexer.tokens c
  | .word letters =>
    if 'a' ≤ c ∧ c ≤ 'z' then some { lexer with mode := .word (c :: letters) }
    else (wordToken? letters.reverse).bind fun token => begin? (token :: lexer.tokens) c
  | .number n =>
    match n.extend? c with
    | some n => some { lexer with mode := .number n }
    | none => n.finish?.bind fun token => begin? (token :: lexer.tokens) c
  | .string raw =>
    if c = '"' then some ⟨.string raw.reverse :: lexer.tokens, .between⟩
    else if c.toNat < 0x20 then none
    else if c = '\\' then some { lexer with mode := .escape (c :: raw) }
    else some { lexer with mode := .string (c :: raw) }
  | .escape raw =>
    if c = 'u' then some { lexer with mode := .hex 4 (c :: raw) }
    else if c ∈ ['"', '\\', '/', 'b', 'f', 'n', 'r', 't'] then
      some { lexer with mode := .string (c :: raw) }
    else none
  | .hex missing raw =>
    (Text.hexValue? c).map fun _ =>
      { lexer with mode := if missing ≤ 1 then .string (c :: raw) else .hex (missing - 1) (c :: raw) }

/-- The tokens, once the text has ended. -/
def finish? (lexer : Lexer) : Option (List Token) :=
  match lexer.mode with
  | .between => some lexer.tokens.reverse
  | .word letters => (wordToken? letters.reverse).map fun token => (token :: lexer.tokens).reverse
  | .number n => n.finish?.map fun token => (token :: lexer.tokens).reverse
  | .string _ | .escape _ | .hex _ _ => none

end Lexer

def tokens? (text : List Char) : Option (List Token) :=
  (text.foldlM Lexer.step? ⟨[], .between⟩).bind Lexer.finish?

end ScatterGather.Json
