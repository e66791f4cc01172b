import ScatterGather.Binary.Arithmetic
import ScatterGather.Binary.Text
import ScatterGather.Json.Document
import ScatterGather.Ordered.Map
import ScatterGather.Text.Split

/-!
# JSON values

The values that rows and keys are made of. A number is an integer or a float by how it is written:
an integral token in the range of a signed or an unsigned 64-bit word is an integer, and every
other number, minus zero included, is the nearest float. Objects list their members by key, and of
a repeated key the last value counts.
-/

namespace ScatterGather

inductive Json where
  | null
  | bool (value : Bool)
  | int (value : Int)
  | float (value : Double)
  | string (value : String)
  | array (items : List Json)
  | object (members : List (String × Json))
deriving Inhabited

namespace Json

/-- The value of a number, unless it is too great for a float. -/
def ofNumeral? (n : Numeral) : Option Json :=
  let value : Int := if n.negative then -(n.digits : Int) else n.digits
  let isMinusZero := n.negative && n.digits = 0
  if n.integral ∧ ¬isMinusZero ∧ Int64.minValue.toInt ≤ value ∧ value < UInt64.size then
    some (.int value)
  else
    let nearest : Double := Binary.ofDecimal n.negative n.digits (n.exponent - n.places)
    if nearest.isInfinite then none else some (.float nearest)

mutual

/-- The value of a document, unless a number is too great or a string is malformed. -/
def ofDocument? : Document → Option Json
  | .null => some .null
  | .bool value => some (.bool value)
  | .number numeral => ofNumeral? numeral
  | .string raw => (text? raw).map .string
  | .array items => (ofItems? items).map .array
  | .object members =>
    (ofMembers? members).map fun members => .object (Ordered.Map.ofList members).entries

def ofItems? : List Document → Option (List Json)
  | [] => some []
  | item :: rest =>
    match ofDocument? item, ofItems? rest with
    | some value, some values => some (value :: values)
    | _, _ => none

/-- The keys and values of the members of an object, as they are written. -/
def ofMembers? : List (List Char × Document) → Option (List (String × Json))
  | [] => some []
  | (key, document) :: rest =>
    match text? key, ofDocument? document, ofMembers? rest with
    | some key, some value, some values => some ((key, value) :: values)
    | _, _, _ => none

end

def parse? (text : List Char) : Option Json :=
  (Document.parse? text).bind ofDocument?

def ofMembers (members : List (String × Json)) : Json :=
  .object (Ordered.Map.ofList members).entries

/-- The member of an object, `none` for every other value. -/
def member? (value : Json) (key : String) : Option Json :=
  match value with
  | .object members => (members.find? fun entry => entry.1 == key).map (·.2)
  | _ => none

/-- A character inside a string literal. Quotes, backslashes and control characters are escaped,
and nothing else. -/
def escape (c : Char) : List Char :=
  if c = '"' then ['\\', '"']
  else if c = '\\' then ['\\', '\\']
  else if c = '\x08' then ['\\', 'b']
  else if c = '\x0c' then ['\\', 'f']
  else if c = '\n' then ['\\', 'n']
  else if c = '\r' then ['\\', 'r']
  else if c = '\t' then ['\\', 't']
  else if c.toNat < 0x20 then
    ['\\', 'u', '0', '0', Nat.digitChar (c.toNat / 16), Nat.digitChar (c.toNat % 16)]
  else [c]

def quote (text : String) : String :=
  "\"" ++ String.ofList (text.toList.flatMap escape) ++ "\""

mutual

/-- The compact text of a value. -/
def render : Json → String
  | .null => "null"
  | .bool value => if value then "true" else "false"
  | .int value => Text.ofInt value
  | .float value => value.write .json
  | .string value => quote value
  | .array items => "[" ++ Text.join "," (renderItems items) ++ "]"
  | .object members => "\x7b" ++ Text.join "," (renderMembers members) ++ "\x7d"

def renderItems : List Json → List String
  | [] => []
  | item :: rest => render item :: renderItems rest

def renderMembers : List (String × Json) → List String
  | [] => []
  | (key, value) :: rest => (quote key ++ ":" ++ render value) :: renderMembers rest

end

end Json

end ScatterGather
