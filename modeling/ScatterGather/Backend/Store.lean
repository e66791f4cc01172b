import ScatterGather.Json.Equality
import ScatterGather.Ordered.Map

/-!
# Stores and staged writes

A store maps keys to JSON values. Writes that are not yet committed are kept apart, as a value or a
deletion per key, and are laid over a store: to show what their transaction sees, and at commit to
become part of the store.
-/

namespace ScatterGather

/-- The committed rows of one backend. -/
abbrev Store := Ordered.Map String Json

/-- Staged writes: the new value of each written key, `none` where it is deleted. -/
abbrev Writes := Ordered.Map String (Option Json)

namespace Store

def write (store : Store) (key : String) (value : Option Json) : Store :=
  match value with
  | some value => store.insert key value
  | none => store.erase key

/-- Carry out all staged writes. -/
def overlay (store : Store) (writes : Writes) : Store :=
  writes.entries.foldl (fun store entry => store.write entry.1 entry.2) store

/-- The rows whose key begins with `start`, in key order. -/
def scan (store : Store) (start : String) : List (String × Json) :=
  store.entries.filter fun row => start.toList.isPrefixOf row.1.toList

end Store

end ScatterGather
