import ScatterGather.Access.Strategy
import ScatterGather.VirtualMap

/-!
# Configuration

The settings that an environment can give. A variable that is not set leaves its default; one that
is set and cannot be read is an error, and of several such variables the first in the order of the
settings is reported.
-/

namespace ScatterGather

/-- Whether shards are visited one after the other or several at once. -/
inductive AccessKind where
  | sequential
  | parallel
deriving DecidableEq, Repr

namespace AccessKind

def inspect : AccessKind → String
  | sequential => "Sequential"
  | parallel => "Parallel"

/-- The kind of a given name, in any case and with blanks around it. -/
def read (text : List Char) : Except ShardError AccessKind :=
  let name := String.ofList (Text.canonicalName text)
  match name with
  | "sequential" => .ok sequential
  | "parallel" | "concurrent" => .ok parallel
  | _ => .error (.configuration ("unknown access strategy `" ++ name ++ "`"))

end AccessKind

/-- The dispatch orders that can be configured. -/
inductive OrderingKind where
  | input
  | roundRobin
  | random
deriving DecidableEq, Repr

namespace OrderingKind

def inspect : OrderingKind → String
  | input => "Input"
  | roundRobin => "RoundRobin"
  | random => "Random"

/-- The kind of a given name, in any case and with blanks around it. -/
def read (text : List Char) : Except ShardError OrderingKind :=
  let name := String.ofList (Text.canonicalName text)
  match name with
  | "input" | "input_order" => .ok input
  | "round_robin" | "round-robin" => .ok roundRobin
  | "random" => .ok random
  | _ => .error (.configuration ("unknown shard ordering `" ++ name ++ "`"))

def ordering : OrderingKind → ShardOrdering
  | input => .input
  | roundRobin => .roundRobin 0
  | random => .seeded

end OrderingKind

structure Config where
  accessStrategy : AccessKind
  shardOrdering : OrderingKind
  maxConcurrency : Nat
  mergeOrder : MergeOrder
  /-- The timeout of transactions, in seconds. -/
  txnTimeout : Option UInt32
  virtualShards : Option VirtualMap
deriving DecidableEq

/-- The values of environment variables. -/
abbrev Environment := List (String × String)

namespace Environment

def get? (env : Environment) (name : String) : Option String :=
  (env.find? fun entry => entry.1 == name).map (·.2)

end Environment

/-- A variable that is set but cannot be read. -/
structure EnvError where
  variableName : String
deriving DecidableEq, Repr

def EnvError.message (e : EnvError) : String :=
  "Failed to parse environment variable " ++ e.variableName

namespace Environment

/-- Read a variable, if it is set. -/
def read? {ε α : Type} (env : Environment) (name : String)
    (reader : List Char → Except ε α) : Except EnvError (Option α) :=
  match env.get? name with
  | none => .ok none
  | some value =>
    match reader value.toList with
    | .ok setting => .ok (some setting)
    | .error _ => .error ⟨name⟩

/-- Read a variable that has a default. -/
def readD {ε α : Type} (env : Environment) (name : String)
    (reader : List Char → Except ε α) (fallback : α) : Except EnvError α :=
  (env.read? name reader).map (·.getD fallback)

end Environment

namespace Config

def default : Config :=
  ⟨.sequential, .input, 0, .shardOrder, none, none⟩

def read (env : Environment) : Except EnvError Config := do
  let accessStrategy ← env.readD "FANSHARD_ACCESS_STRATEGY" AccessKind.read .sequential
  let shardOrdering ← env.readD "FANSHARD_SHARD_ORDERING" OrderingKind.read .input
  let maxConcurrency ← env.readD "FANSHARD_MAX_CONCURRENCY" (Text.readNat UInt64.size) 0
  let mergeOrder ← env.readD "FANSHARD_MERGE_ORDER" MergeOrder.read .shardOrder
  let txnTimeout ← env.read? "FANSHARD_TXN_TIMEOUT_SECS" (Text.readNat UInt32.size)
  let virtualShards ← env.read? "FANSHARD_VIRTUAL_SHARDS" VirtualMap.read
  return ⟨accessStrategy, shardOrdering, maxConcurrency, mergeOrder, txnTimeout.map UInt32.ofNat,
    virtualShards⟩

/-- The access strategy that the settings ask for. -/
def strategy [Machine] (config : Config) : AccessStrategy :=
  match config.accessStrategy with
  | .sequential => .sequential config.shardOrdering.ordering
  | .parallel =>
    .parallel ⟨config.shardOrdering.ordering, config.maxConcurrency, config.mergeOrder⟩

end Config

end ScatterGather
