import ScatterGather.Demo

/-!
# The command line

Runs the demonstration with the settings of the process environment, and prints what it says.
-/

namespace ScatterGather.Demo

/-- The variables that the demonstration reads. -/
def variableNames : List String :=
  ["FANSHARD_DEV_SHARDS", "FANSHARD_DEV_KEYS", "FANSHARD_ACCESS_STRATEGY",
   "FANSHARD_SHARD_ORDERING", "FANSHARD_MAX_CONCURRENCY", "FANSHARD_MERGE_ORDER",
   "FANSHARD_TXN_TIMEOUT_SECS", "FANSHARD_VIRTUAL_SHARDS"]

/-- The message of an error that ended a call. -/
def errorText : CallError → String
  | .shard e => e.message
  | .panicked payload => payload.getD "the call was cut off"

/-- The text of an entry that is printed: debug events are not. -/
def line? : Entry → Option String
  | .event .debug _ => none
  | entry => entry.eventLine?

/-- Run the demonstration and print its lines. -/
def main : IO UInt32 := do
  let mut env : Environment := []
  for name in variableNames do
    if let some value ← IO.getEnv name then
      env := env ++ [(name, value)]
  match Settings.read env with
  | .error e =>
    IO.eprintln ("Error: " ++ e.message)
    return 1
  | .ok settings =>
    let outcome := run settings
    for line in outcome.lines.filterMap line? do
      IO.println line
    match outcome.result with
    | .ok _ => return 0
    | .error e =>
      IO.eprintln ("Error: " ++ errorText e)
      return 1

end ScatterGather.Demo

def main : IO UInt32 :=
  ScatterGather.Demo.main
