import ScatterGather.Json.Token

/-!
# JSON documents

The syntax tree of a JSON text. A document keeps all that was written, in order: repeated members,
strings with their escapes, numbers of any size. What is made of it is up to the reader of a
particular type, which is why a decoder takes a document and not a value.
-/

namespace ScatterGather.Json

/-- The syntax tree of a JSON text. -/
inductive Document where
  | null
  | bool (value : Bool)
  | number (numeral : Numeral)
  | string (raw : List Char)
  | array (items : List Document)
  | object (members : List (List Char × Document))
deriving Inhabited

/-- A container that is still open, with what it holds so far, last one first. -/
inductive Frame where
  | array (items : List Document)
  | object (members : List (List Char × Document)) (key : List Char)

/-- What may come next. -/
inductive Expect where
  | value
  | valueOrClose
  | keyOrClose (members : List (List Char × Document))
  | key (members : List (List Char × Document))
  | colon (members : List (List Char × Document)) (key : List Char)
  | more (last : Document)

/-- A document under way: the open containers, innermost first, and what may come next. -/
structure Builder where
  frames : List Frame
  expect : Expect

namespace Builder

/-- Take the beginning of a value. -/
def openValue? (frames : List Frame) : Token → Option Builder
  | .null => some ⟨frames, .more .null⟩
  | .bool value => some ⟨frames, .more (.bool value)⟩
  | .number numeral => some ⟨frames, .more (.number numeral)⟩
  | .string raw => some ⟨frames, .more (.string raw)⟩
  | .openBracket => some ⟨.array [] :: frames, .valueOrClose⟩
  | .openBrace => some ⟨frames, .keyOrClose []⟩
  | _ => none

def step? (builder : Builder) (token : Token) : Option Builder :=
  match builder.expect, token with
  | .value, token => openValue? builder.frames token
  | .valueOrClose, .closeBracket =>
    match builder.frames with
    | .array items :: frames => some ⟨frames, .more (.array items.reverse)⟩
    | _ => none
  | .valueOrClose, token => openValue? builder.frames token
  | .keyOrClose members, .closeBrace =>
    some ⟨builder.frames, .more (.object members.reverse)⟩
  | .keyOrClose members, .string key => some ⟨builder.frames, .colon members key⟩
  | .key members, .string key => some ⟨builder.frames, .colon members key⟩
  | .colon members key, .colon => some ⟨.object members key :: builder.frames, .value⟩
  | .more last, .comma =>
    match builder.frames with
    | .array items :: frames => some ⟨.array (last :: items) :: frames, .value⟩
    | .object members key :: frames => some ⟨frames, .key ((key, last) :: members)⟩
    | [] => none
  | .more last, .closeBracket =>
    match builder.frames with
    | .array items :: frames => some ⟨frames, .more (.array (last :: items).reverse)⟩
    | _ => none
  | .more last, .closeBrace =>
    match builder.frames with
    | .object members key :: frames =>
      some ⟨frames, .more (.object ((key, last) :: members).reverse)⟩
    | _ => none
  | _, _ => none

/-- The document, once all tokens are taken. -/
def finish? (builder : Builder) : Option Document :=
  match builder.frames, builder.expect with
  | [], .more document => some document
  | _, _ => none

end Builder

/-- The document that a list of tokens spells. -/
def Document.ofTokens? (tokens : List Token) : Option Document :=
  (tokens.foldlM Builder.step? ⟨[], .value⟩).bind Builder.finish?

def Document.parse? (text : List Char) : Option Document :=
  (tokens? text).bind ofTokens?

/-- The characters that a string stands for. Characters beyond the basic plane are escaped as a
high and a low surrogate; `high` is a high surrogate that waits for its low one. A surrogate
without its other half stands for no character. -/
def unescape? (high : Option Nat) : List Char → Option (List Char)
  | [] => if high.isNone then some [] else none
  | '\\' :: 'u' :: a :: b :: c :: d :: rest =>
    match Text.readHex? [a, b, c, d], high with
    | none, _ => none
    | some unit, none =>
      if 0xD800 ≤ unit ∧ unit < 0xDC00 then unescape? (some unit) rest
      else if 0xDC00 ≤ unit ∧ unit < 0xE000 then none
      else (unescape? none rest).map (Char.ofNat unit :: ·)
    | some unit, some high =>
      if 0xDC00 ≤ unit ∧ unit < 0xE000 then
        (unescape? none rest).map
          (Char.ofNat (0x10000 + (high - 0xD800) * 0x400 + (unit - 0xDC00)) :: ·)
      else none
  | '\\' :: c :: rest =>
    if high.isSome then none
    else
      let meant :=
        if c = 'b' then '\x08' else if c = 'f' then '\x0c' else if c = 'n' then '\n'
        else if c = 'r' then '\r' else if c = 't' then '\t' else c
      (unescape? none rest).map (meant :: ·)
  | c :: rest => if high.isSome then none else (unescape? none rest).map (c :: ·)

/-- The text of a string with its escapes resolved. -/
def text? (raw : List Char) : Option String :=
  (unescape? none raw).map String.ofList

/-- The number as a natural number below `bound`, if it is an integer in that range. Minus zero is
no integer. -/
def Numeral.nat? (bound : Nat) (n : Numeral) : Option Nat :=
  if n.integral ∧ ¬n.negative ∧ n.digits < bound then some n.digits else none

end ScatterGather.Json
