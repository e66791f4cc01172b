import ScatterGather.Access.Merger

/-!
# Concurrent dispatch

At most `permits` operations run at once. The machine here runs in virtual time: shards are started
in dispatch order while there is a permit, an operation without delay ends at once, and only when
nothing more can be started does the merger read what has arrived. Then time moves on to the next
end of a running operation. A failure, a request to stop and a refused result all cancel the call:
nothing more is started, but what runs is left to end, and its effects stand.
-/

namespace ScatterGather.Parallel

/-- An operation that was started and has not ended. -/
structure Ongoing where
  endsAt : Nat
  position : Nat
  shard : Shard

/-- A concurrent call under way. -/
structure Flight (ω σ T : Type) where
  now : Nat
  /-- Shards not started yet, with their positions. -/
  queue : List (Nat × Shard)
  running : List Ongoing
  /-- Outcomes that the merger has not read. -/
  arrived : List (Arrival T)
  cancelled : Bool
  merger : Merger T
  /-- What ended the merger: the exit strategy asked to stop, or refused a result. -/
  verdict : Option (Except ShardError Unit)
  exit : σ
  world : ω
  trace : List Mark

section

variable {ω σ T O : Type} [Journaled ω]

/-- An operation ends: it acts, and its outcome is on its way to the merger. -/
def Flight.finish (operation : Operation ω T) (flight : Flight ω σ T) (position : Nat)
    (shard : Shard) : Flight ω σ T :=
  let (outcome, world) := operation.run shard flight.world
  { flight with
    world := world
    arrived := flight.arrived ++ [⟨position, shard, outcome⟩]
    trace := flight.trace ++ [.ended position shard.physicalId] }

/-- Start the shards of a queue while there are permits. -/
def Flight.launch (operation : Operation ω T) (permits : Nat) (flight : Flight ω σ T) :
    List (Nat × Shard) → Flight ω σ T
  | [] => { flight with queue := [] }
  | (position, shard) :: rest =>
    if flight.cancelled ∨ permits ≤ flight.running.length then
      { flight with queue := (position, shard) :: rest }
    else
      let flight := { flight with
        trace := flight.trace ++ [Mark.started position shard.physicalId] }
      -- Without a delay the operation is over before the next shard is looked at.
      if operation.delay shard = 0 then
        (flight.finish operation position shard).launch operation permits rest
      else
        let running : Ongoing := ⟨flight.now + operation.delay shard, position, shard⟩
        { flight with running := flight.running ++ [running] }.launch operation permits rest

def Flight.cancel (flight : Flight ω σ T) : Flight ω σ T :=
  { flight with cancelled := true, trace := flight.trace ++ [.cancelled] }

/-- The merger reads one outcome. Once there is a verdict, outcomes are dropped. -/
def Flight.read (strategy : ExitStrategy σ T O) (operation : String) (dispatched : Nat)
    (flight : Flight ω σ T) (arrival : Arrival T) : Flight ω σ T :=
  if flight.verdict.isSome then flight
  else
    match arrival.outcome with
    | .error mishap =>
      { flight.cancel with
        world := report .warn ("Operation " ++ operation ++ " failed on shard "
          ++ arrival.shard.label ++ ": " ++ mishap.source) flight.world
        merger := flight.merger.fail arrival.position
          ⟨arrival.shard.physicalId, mishap.source⟩ }
    | .ok result =>
      let (answer, merger, exit, world) := flight.merger.accept strategy operation
        arrival.position arrival.shard result flight.exit flight.world
      let flight := { flight with merger := merger, exit := exit, world := world }
      match answer with
      | .ok false => flight
      | .ok true =>
        { flight.cancel with
          verdict := some (.ok ())
          world := report .debug ("Discarding results of up to " ++ Text.ofNat dispatched
            ++ " in-flight operations") flight.world }
      | .error e => { flight.cancel with verdict := some (.error e) }

def Flight.readAll (strategy : ExitStrategy σ T O) (operation : String) (dispatched : Nat)
    (flight : Flight ω σ T) : Flight ω σ T :=
  flight.arrived.foldl (fun flight arrival => flight.read strategy operation dispatched arrival)
    { flight with arrived := [] }

/-- The running operation that ends first; of several the one started first. -/
def earliest? : List Ongoing → Option Ongoing
  | [] => none
  | running :: rest =>
    match earliest? rest with
    | none => some running
    | some other => if other.endsAt < running.endsAt then some other else some running

/-- Run until nothing runs. Each round ends one operation, so as many rounds as there are shards
are enough. -/
def Flight.settle (operation : Operation ω T) (strategy : ExitStrategy σ T O) (permits : Nat)
    (dispatched : Nat) : Nat → Flight ω σ T → Flight ω σ T
  | rounds, flight =>
    let flight := (flight.launch operation permits flight.queue).readAll strategy operation.name
      dispatched
    match rounds, earliest? flight.running with
    | _, none => flight
    | 0, some _ => flight
    | rounds + 1, some next =>
      let flight := { flight with
        now := next.endsAt
        running := flight.running.filter fun running => running.position != next.position }
      -- Its permit is free now, so the next shard starts before the merger reads this outcome.
      (flight.finish operation next.position next.shard).settle operation strategy permits
        dispatched rounds

def Flight.start (order : MergeOrder) (shards : List Shard) (exit : σ) (world : ω) :
    Flight ω σ T where
  now := 0
  queue := shards.mapIdx fun position shard => (position, shard)
  running := []
  arrived := []
  cancelled := false
  merger := .start order
  verdict := none
  exit := exit
  world := world
  trace := []

/-- A whole concurrent call over shards in dispatch order. -/
def dispatch (operation : Operation ω T) (strategy : ExitStrategy σ T O)
    (collector : Option (Collector O)) (permits : Nat) (order : MergeOrder) (shards : List Shard)
    (exit : σ) (world : ω) : Outcome ω σ O :=
  let flight := (Flight.start order shards exit world).settle operation strategy permits
    shards.length shards.length
  match flight.verdict with
  | some (.error e) => .failed e flight.exit flight.world flight.trace
  | some (.ok ()) => .compiled strategy collector flight.exit flight.world flight.trace
  | none =>
    match flight.merger.error? operation.name with
    | some e => .failed e flight.exit flight.world flight.trace
    | none => .compiled strategy collector flight.exit flight.world flight.trace

end

end ScatterGather.Parallel
