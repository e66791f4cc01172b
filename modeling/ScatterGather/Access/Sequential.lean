import ScatterGather.Access.Operation

/-!
# Sequential dispatch

One shard after the other. The first failure ends the call, and so does the exit strategy when it
asks to stop or refuses a result; no later shard is touched then.
-/

namespace ScatterGather.Sequential

variable {ω σ T O : Type} [Journaled ω]

/-- Visit the shards in order, `completed` being those that were visited before. -/
def visit (operation : Operation ω T) (strategy : ExitStrategy σ T O)
    (collector : Option (Collector O)) :
    List Shard → List ShardId → σ → ω → Outcome ω σ O
  | [], _, exit, world => .compiled strategy collector exit world []
  | shard :: rest, completed, exit, world =>
    let position := completed.length
    let marks := [.started position shard.physicalId, .ended position shard.physicalId]
    match operation.run shard world with
    | (.error (.panicked payload), world) => ⟨.error (.panicked payload), exit, world, marks⟩
    | (.error (.failed source), world) =>
      .failed (.operationFailure operation.name [⟨shard.physicalId, source⟩] completed)
        exit world marks
    | (.ok result, world) =>
      match feed strategy operation.name shard result exit world with
      | (.error e, exit, world) => .failed e exit world marks
      | (.ok true, exit, world) => .compiled strategy collector exit world marks
      | (.ok false, exit, world) =>
        (visit operation strategy collector rest (completed ++ [shard.physicalId]) exit world).after
          marks

end ScatterGather.Sequential
