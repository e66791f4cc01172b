import ScatterGather.Ordered.Map

/-!
# Sets in ascending order

A finite set is an ordered map that carries no values; its listing is the ascending list of its
elements.
-/

namespace ScatterGather.Ordered

/-- A finite set, listed in ascending order. -/
abbrev Set (κ : Type) [Ord κ] := Map κ Unit

namespace Set

variable {κ : Type} [Ord κ]

def toList (s : Set κ) : List κ :=
  Map.keys s

def add [Std.TransOrd κ] [Std.LawfulEqOrd κ] (s : Set κ) (element : κ) : Set κ :=
  Map.insert s element ()

def ofList [Std.TransOrd κ] [Std.LawfulEqOrd κ] (elements : List κ) : Set κ :=
  elements.foldl add ∅

end Set

end ScatterGather.Ordered
