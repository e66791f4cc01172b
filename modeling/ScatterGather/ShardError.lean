import ScatterGather.ShardId

/-!
# Errors

What can go wrong in a call over several shards. A failure that came from a shard is kept as the
text it gave; which shards had completed their part is kept with the errors that abort a call part
way, so that a caller can tell what was done.
-/

namespace ScatterGather

/-- A failure on one shard. -/
structure ShardFailure where
  shard : ShardId
  source : String
deriving DecidableEq, Repr

/-- The failure with the shard it happened on. -/
def ShardFailure.message (failure : ShardFailure) : String :=
  "shard " ++ failure.shard.text ++ ": " ++ failure.source

inductive ShardError where
  | invalidArgument (reason : String)
  | beginFailure (failed : List ShardId) (source : Option String)
  | operationFailure (operation : String) (failures : List ShardFailure)
      (completed : List ShardId)
  | commitFailure (shard : ShardId) (committed : List ShardId) (source : String)
  | rollbackFailure (failures : List ShardFailure)
  | overflow (reason : String)
  | unsupportedCapability (reason : String)
  | transaction (reason : String)
  | configuration (reason : String)
  | session (shard : ShardId) (source : String)
deriving DecidableEq, Repr

namespace ShardError

/-- The failures of several shards in one line. -/
def joinFailures (failures : List ShardFailure) : String :=
  Text.join ", " (failures.map ShardFailure.message)

def message : ShardError → String
  | invalidArgument reason => "Invalid: " ++ reason
  | beginFailure failed _ => "Begin failed on shards " ++ inspectIds failed
  | operationFailure operation failures completed =>
    "Operation `" ++ operation ++ "` failed on " ++ Text.ofNat failures.length ++ " shard(s) ["
      ++ joinFailures failures ++ "]; completed on " ++ inspectIds completed
  | commitFailure shard committed source =>
    "Commit failed on shard " ++ shard.text ++ " (already committed: " ++ inspectIds committed
      ++ "): " ++ source
  | rollbackFailure failures => "Rollback failed [" ++ joinFailures failures ++ "]"
  | overflow reason => "Overflow: " ++ reason
  | unsupportedCapability reason => "Unsupported: " ++ reason
  | transaction reason => "Transaction error: " ++ reason
  | configuration reason => "Configuration error: " ++ reason
  | session shard source => "Session error on shard " ++ shard.text ++ ": " ++ source

/-- What caused the error, where one underlying failure did. -/
def source? : ShardError → Option String
  | beginFailure _ source => source
  | commitFailure _ _ source => some source
  | session _ source => some source
  | _ => none

/-- The shards that had done their part when the call was aborted. -/
def completedShards : ShardError → List ShardId
  | operationFailure _ _ completed => completed
  | commitFailure _ committed _ => committed
  | _ => []

end ShardError

end ScatterGather
