/-!
# Blanks

Which characters count as white space around a name or a number, and how a text is trimmed of
them. The set is Unicode's `White_Space` property: 25 code points, among them the no-break space
and the ideographic space, but neither the zero-width space nor the byte order mark.
-/

namespace ScatterGather.Text

/-- The code points of `White_Space`, as closed ranges in ascending order. -/
def blankRanges : List (Nat × Nat) :=
  [(0x09, 0x0D), (0x20, 0x20), (0x85, 0x85), (0xA0, 0xA0), (0x1680, 0x1680), (0x2000, 0x200A),
   (0x2028, 0x2029), (0x202F, 0x202F), (0x205F, 0x205F), (0x3000, 0x3000)]

def isBlank (c : Char) : Bool :=
  blankRanges.any fun range => range.1 ≤ c.toNat && c.toNat ≤ range.2

/-- The text without the blanks at its two ends. -/
def trim (text : List Char) : List Char :=
  ((text.dropWhile isBlank).reverse.dropWhile isBlank).reverse

/-- What a name is compared by: trimmed, and with the letters `A` to `Z` in lower case. Other
letters keep their case. -/
def canonicalName (text : List Char) : List Char :=
  (trim text).map Char.toLower

end ScatterGather.Text
