import ScatterGather.Proofs.Cluster.Work

/-!
# Steps that close nothing and hand nothing out

The work on transactions, whatever becomes of it, closes no connection, and the transactions that
callers have in hand stay the same. So only the few steps that really close a connection or hand out a
transaction have to be looked at.
-/

namespace ScatterGather.Cluster

variable {w w' w'' : Cluster}

/-- Callers have the same transactions in hand, and the same connections are closed. -/
structure Steady (w w' : Cluster) : Prop where
  handed : w'.handed = w.handed
  closed : ∀ ref, (w'.native ref).closed = (w.native ref).closed

namespace Steady

theorem refl (w : Cluster) : Steady w w :=
  ⟨rfl, fun _ => rfl⟩

theorem trans (h : Steady w w') (h' : Steady w' w'') : Steady w w'' :=
  ⟨h'.handed.trans h.handed, fun ref => (h'.closed ref).trans (h.closed ref)⟩

/-- A step that leaves the connections alone. -/
theorem of_quiet (hhanded : w'.handed = w.handed) (h : Within [] w w') : Steady w w' :=
  ⟨hhanded, fun ref => by rw [h.others ref List.not_mem_nil]⟩

end Steady

/-- A connection that is opened is not closed, just as nothing is under its number before. -/
theorem Step.steady {effect : Effect} (h : Step effect w w')
    (hkind : [.close, .hand].contains effect = false) : Steady w w' := by
  refine ⟨h.handed_eq (Effect.not_contains_mono hkind rfl), fun ref => ?_⟩
  rw [native_eq, native_eq]
  rcases h.asks ref.backend with hsame | ⟨call, hasks, hafter⟩
  · rw [hsame]
  · rw [hafter]
    refine (Backend.step_perform _ call).closed_eq ?_ ref.connection
    rintro number rfl
    cases hasks
    cases hkind

theorem Work.steady {effects : List Effect} (h : Work effects w w')
    (hkinds : effects.any [.close, .hand].contains = false) : Steady w w' :=
  h.keeps hkinds .refl .trans Step.steady

end ScatterGather.Cluster
