import ScatterGather.Text.Hidden

/-!
# Quoted texts

A text as it is inspected: between quotes, on one line, with every character visible. A character
that does not show as itself is written as its code point.
-/

namespace ScatterGather.Text

/-- A character inside a quoted text. -/
def inspectChar (c : Char) : List Char :=
  if c = '\x00' then ['\\', '0']
  else if c = '\t' then ['\\', 't']
  else if c = '\r' then ['\\', 'r']
  else if c = '\n' then ['\\', 'n']
  else if c = '"' then ['\\', '"']
  else if c = '\\' then ['\\', '\\']
  else if isHidden c then ['\\', 'u', '\x7b'] ++ Nat.toDigits 16 c.toNat ++ ['\x7d']
  else [c]

def inspect (text : String) : String :=
  String.ofList ('"' :: text.toList.flatMap inspectChar ++ ['"'])

end ScatterGather.Text
