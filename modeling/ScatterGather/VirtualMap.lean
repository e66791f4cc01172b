import ScatterGather.ShardError

/-!
# Virtual shard maps

A map from virtual shard ids to the physical shards that host them. An empty map means that every
physical shard serves its own id. The written form lists `virtual=physical` pairs, separated by
commas and in ascending order of the virtual ids; on reading, blanks, empty entries, leading zeros
and the order of the entries do not matter.
-/

namespace ScatterGather

/-- The physical shard of each virtual shard. -/
structure VirtualMap where
  map : Ordered.Map ShardId ShardId
deriving DecidableEq

namespace VirtualMap

def empty : VirtualMap :=
  ⟨∅⟩

def insert (m : VirtualMap) (virtualId physicalId : ShardId) : VirtualMap :=
  ⟨m.map.insert virtualId physicalId⟩

/-- The map of a list of pairs; of two pairs with one virtual id the later counts. -/
def ofList (pairs : List (ShardId × ShardId)) : VirtualMap :=
  ⟨.ofList pairs⟩

/-- The pairs in ascending order of the virtual ids. -/
def toList (m : VirtualMap) : List (ShardId × ShardId) :=
  m.map.entries

def physicalOf? (m : VirtualMap) (virtualId : ShardId) : Option ShardId :=
  m.map.get? virtualId

/-- The virtual shards of each physical one. -/
def inverse (m : VirtualMap) : Ordered.Map ShardId IdSet :=
  m.toList.foldl
    (fun hosted pair => hosted.insert pair.2 (((hosted.get? pair.2).getD ∅).add pair.1)) ∅

def text (m : VirtualMap) : String :=
  Text.join "," (m.toList.map fun pair => pair.1.text ++ "=" ++ pair.2.text)

/-- An id in an entry, or what is wrong with it. -/
def readId (text : List Char) : Except ShardError ShardId :=
  match ShardId.read text with
  | .ok id => .ok id
  | .error reason =>
    .error (.configuration ("invalid shard id `" ++ String.ofList (Text.trim text) ++ "`: "
      ++ reason.message))

/-- Read one entry and add it to the map. -/
def readEntry (m : VirtualMap) (entry : List Char) : Except ShardError VirtualMap := do
  match Text.cut? '=' entry with
  | none =>
    .error (.configuration ("virtual shard entry `" ++ String.ofList entry
      ++ "` is not `virtual=physical`"))
  | some (left, right) =>
    let virtualId ← readId left
    let physicalId ← readId right
    if m.map.contains virtualId then
      .error (.configuration ("virtual shard " ++ virtualId.text ++ " is mapped twice"))
    else .ok (m.insert virtualId physicalId)

/-- The entries of a text, trimmed and without the empty ones. -/
def entries (text : List Char) : List (List Char) :=
  ((Text.splitOn ',' text).map Text.trim).filter fun entry => !entry.isEmpty

/-- Read a map; the first entry that is wrong decides the error. -/
def read (text : List Char) : Except ShardError VirtualMap :=
  (entries text).foldlM readEntry empty

/-- The JSON text: an object from virtual to physical ids. -/
def json (m : VirtualMap) : String :=
  "\x7b" ++ Text.join ","
    (m.toList.map fun pair => "\"" ++ pair.1.text ++ "\":" ++ pair.2.text) ++ "\x7d"

/-- A virtual id as the key of a JSON object: its plain decimal digits, without an escape and
without a leading zero. -/
def ofKey? (key : List Char) : Option ShardId :=
  match key with
  | '0' :: _ :: _ => none
  | '+' :: _ => none
  | key => (Text.readNat ShardId.bound key).toOption.map ShardId.ofNat

def ofDocument? : Json.Document → Option VirtualMap
  | .object members =>
    members.foldlM (fun m member =>
      match ofKey? member.1, ShardId.ofDocument? member.2 with
      | some virtualId, some physicalId => some (m.insert virtualId physicalId)
      | _, _ => none) empty
  | _ => none

def inspect (m : VirtualMap) : String :=
  "VirtualShardMap \x7b map: \x7b" ++ Text.join ", "
    (m.toList.map fun pair => pair.1.inspect ++ ": " ++ pair.2.inspect) ++ "\x7d \x7d"

end VirtualMap

end ScatterGather
