import ScatterGather.Collect.SortKey
import ScatterGather.Exit.Strategy
import ScatterGather.Ordered.Sort

/-!
# Collecting rows

What happens to the concatenated rows of all shards: rows that agree with an earlier one on some
keys are dropped, the rest are sorted, and a slice of the result is returned, always in this order.
Keys are extracted by accessors that are registered under a path; a path without an accessor is an
error whatever the rows are.
-/

namespace ScatterGather

/-- How to extract a key from a row. -/
abbrev Accessor (E : Type) := E → Option SortKey

/-- Accessors by path, the latest registered first. -/
abbrev Accessors (E : Type) := List (String × Accessor E)

namespace Accessors

variable {E : Type}

/-- Register an accessor, in place of an earlier one of the same path. -/
def register (accessors : Accessors E) (path : String) (accessor : Accessor E) : Accessors E :=
  (path, accessor) :: accessors

def get (accessors : Accessors E) (path : String) : Except ShardError (Accessor E) :=
  match accessors.find? fun entry => entry.1 == path with
  | some (_, accessor) => .ok accessor
  | none =>
    .error (.unsupportedCapability
      ("no accessor registered for property path `" ++ path ++ "`"))

/-- The accessors of several paths, or the error of the first that has none. -/
def getAll (accessors : Accessors E) : List String → Except ShardError (List (Accessor E))
  | [] => .ok []
  | path :: rest =>
    match get accessors path with
    | .error e => .error e
    | .ok accessor =>
      match getAll accessors rest with
      | .error e => .error e
      | .ok accessors => .ok (accessor :: accessors)

end Accessors

/-- What a row shows at a path through its members. -/
def Json.at? : List String → Json → Option Json
  | [], value => some value
  | segment :: rest, value =>
    match value.member? segment with
    | some inner => inner.at? rest
    | none => none

/-- The accessor of a dotted path through JSON objects. -/
def Accessor.ofPath (path : String) : Accessor Json :=
  let segments := (Text.splitOn '.' path.toList).map String.ofList
  fun row => (row.at? segments).bind SortKey.ofJson?

/-- The accessor of a member that spells the bit pattern of a float in hexadecimal. -/
def Accessor.ofPattern (key : String) : Accessor Json := fun row =>
  match row.member? key with
  | some (.string digits) => (Binary.ofHex? digits.toList).map .float
  | _ => none

/-- The accessor that finds the same key in every row. -/
def Accessor.constant {E : Type} (key : Option SortKey) : Accessor E :=
  fun _ => key

/-- Accessors for several dotted paths. -/
def Accessors.ofPaths (paths : List String) : Accessors Json :=
  paths.foldl (fun accessors path => accessors.register path (.ofPath path)) []

inductive SortDirection where
  | ascending
  | descending
deriving DecidableEq, Repr

def SortDirection.inspect : SortDirection → String
  | .ascending => "Ascending"
  | .descending => "Descending"

structure SortOrder where
  path : String
  direction : SortDirection
deriving DecidableEq, Repr

/-- Compare two keys under a direction. A row without the key comes last either way. -/
def SortDirection.compare (direction : SortDirection) (a b : Option SortKey) : Ordering :=
  match a, b with
  | none, none => .eq
  | none, some _ => .gt
  | some _, none => .lt
  | some a, some b =>
    match direction with
    | .ascending => SortKey.compare a b
    | .descending => SortKey.compare b a

/-- Compare two rows by criteria, each with the keys of both rows: the first that tells them apart
decides. -/
def compareKeys : List SortDirection → List (Option SortKey) → List (Option SortKey) → Ordering
  | direction :: directions, a :: as, b :: bs =>
    (direction.compare a b).then (compareKeys directions as bs)
  | _, _, _ => .eq

/-- Whether two rows agree on all keys of a vector, absent keys included. -/
def keysAgree : List (Option SortKey) → List (Option SortKey) → Bool
  | [], [] => true
  | none :: as, none :: bs => keysAgree as bs
  | some a :: as, some b :: bs => a.agrees b && keysAgree as bs
  | _, _ => false

def extract {E : Type} (accessors : List (Accessor E)) (row : E) : List (Option SortKey) :=
  accessors.map fun accessor => accessor row

/-- Keep each row whose keys agree with those of no row before it; `seen` holds the keys so far. -/
def distinctRows {E : Type} (accessors : List (Accessor E)) :
    List (List (Option SortKey)) → List E → List E
  | _, [] => []
  | seen, row :: rest =>
    let keys := extract accessors row
    if seen.any (keysAgree keys) then distinctRows accessors seen rest
    else row :: distinctRows accessors (keys :: seen) rest

/-- What is done to the rows. -/
structure RowCollector (E : Type) where
  accessors : Accessors E
  distinctOn : List String
  orders : List SortOrder
  firstResult : Option Nat
  maxResults : Option Nat

namespace RowCollector

variable {E : Type}

/-- The rows sorted by the criteria, `accessors` being those of the criteria's paths. -/
def sortRows (collector : RowCollector E) (accessors : List (Accessor E)) (rows : List E) :
    List E :=
  -- The keys of a row are extracted once, not at every comparison.
  let directions := collector.orders.map (·.direction)
  (Ordered.sortBy (fun a b => compareKeys directions a.1 b.1)
    (rows.map fun row => (extract accessors row, row))).map (·.2)

def slice (collector : RowCollector E) (rows : List E) : List E :=
  let rows := rows.drop (collector.firstResult.getD 0)
  match collector.maxResults with
  | some limit => rows.take limit
  | none => rows

/-- Distinct rows, then sorted, then sliced. -/
def apply (collector : RowCollector E) : Collector (List E) := fun rows =>
  match collector.accessors.getAll collector.distinctOn with
  | .error e => .error e
  | .ok distinct =>
    match collector.accessors.getAll (collector.orders.map (·.path)) with
    | .error e => .error e
    | .ok order =>
      let rows := if distinct.isEmpty then rows else distinctRows distinct [] rows
      let rows := if order.isEmpty then rows else collector.sortRows order rows
      .ok (collector.slice rows)

end RowCollector

end ScatterGather
