/-!
# Stable sorting

Insertion sort by a comparison. The elements are inserted from the last to the first, each in front
of all that are not less than it, so elements that compare equal keep their order.
-/

namespace ScatterGather.Ordered

variable {α : Type}

/-- Put `x` in front of the first element that is not less than it. -/
def insertFirst (cmp : α → α → Ordering) (x : α) : List α → List α
  | [] => [x]
  | y :: rest => if cmp y x = .lt then y :: insertFirst cmp x rest else x :: y :: rest

/-- The elements in ascending order; equal ones keep their order. -/
def sortBy (cmp : α → α → Ordering) (xs : List α) : List α :=
  xs.foldr (insertFirst cmp) []

end ScatterGather.Ordered
