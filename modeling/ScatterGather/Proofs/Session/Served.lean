import ScatterGather.Proofs.Backend.Counters
import ScatterGather.Proofs.Backend.Transactions
import ScatterGather.Proofs.Cluster.Faults
import ScatterGather.Proofs.Cluster.Work
import ScatterGather.Proofs.Session.Calls

/-!
# What sessions ask of the backends

Sessions change a backend through its calls and in no other way, so each backend of a cluster has gone
through a run of its own (`Served`), whatever the cluster was asked to do. What is known of all runs of
a backend then holds of every backend that sessions work on: its counters balance, and its callers may
rely on its transactions.
-/

namespace ScatterGather

/-- What callers ask of a cluster: another session, or a call of one that they have. -/
inductive ClusterRequest where
  | session (factory : SessionFactory)
  | call (number : Nat) (call : SessionCall)

namespace Cluster

variable {w w' w'' : Cluster}

/-- Carry out one request. -/
def carryOut (w : Cluster) : ClusterRequest → Cluster
  | .session factory => (w.openSession factory).2
  | .call number call => after number w call

/-- The state after these requests. -/
def carryOutAll (w : Cluster) (requests : List ClusterRequest) : Cluster :=
  requests.foldl carryOut w

/-- From one state to the other each backend went through a run of its own. -/
structure Served (w w' : Cluster) : Prop where
  backend : ∀ i, ∃ calls, w'.backend i = (w.backend i).run calls

namespace Served

theorem refl (w : Cluster) : Served w w :=
  ⟨fun _ => ⟨[], rfl⟩⟩

theorem trans (h : Served w w') (h' : Served w' w'') : Served w w'' := by
  refine ⟨fun i => ?_⟩
  obtain ⟨calls, hcalls⟩ := h.backend i
  obtain ⟨later, hlater⟩ := h'.backend i
  refine ⟨calls ++ later, ?_⟩
  rw [hlater, hcalls, Backend.run, Backend.run, Backend.run, List.foldl_append]

end Served

theorem Step.served {effect : Effect} (h : Step effect w w') : Served w w' := by
  refine ⟨fun i => ?_⟩
  rcases h.asks i with hsame | ⟨call, -, hafter⟩
  · exact ⟨[], hsame⟩
  · exact ⟨[call], hafter⟩

theorem Work.served {effects : List Effect} (h : Work effects w w') : Served w w' := by
  have hnone : effects.any ([] : List Effect).contains = false :=
    List.any_eq_false.mpr fun _ _ => Bool.false_ne_true
  exact h.keeps hnone .refl .trans fun hstep _ => hstep.served

/-! ## What becomes of the backends -/

theorem carryOut_served (w : Cluster) (request : ClusterRequest) : Served w (w.carryOut request) := by
  cases request with
  | session factory => exact (w.openSession_work factory).served
  | call number call => exact (after_work number w call).served

/-- Whatever a cluster is asked to do, each of its backends goes through a run of its own. -/
theorem carryOutAll_served (w : Cluster) (requests : List ClusterRequest) :
    Served w (w.carryOutAll requests) := by
  induction requests generalizing w with
  | nil => exact .refl w
  | cons request rest ih => exact (w.carryOut_served request).trans (ih _)

theorem Served.balanced (h : Served w w') (hw : ∀ i, (w.backend i).Balanced) (i : Nat) :
    (w'.backend i).Balanced := by
  obtain ⟨calls, hcalls⟩ := h.backend i
  exact hcalls ▸ (hw i).run calls

theorem Served.stagesInTransactions (h : Served w w')
    (hw : ∀ i, (w.backend i).StagesInTransactions) (i : Nat) :
    (w'.backend i).StagesInTransactions := by
  obtain ⟨calls, hcalls⟩ := h.backend i
  exact hcalls ▸ Backend.run_invariant Backend.Step.stagesInTransactions (hw i) calls

/-- However many sessions work on new backends, and whichever calls are made to fail meanwhile, the
counters of every backend balance and its callers may rely on its transactions. -/
theorem carryOutAll_balanced_transactional (count : Nat) (requests : List ClusterRequest) (i : Nat) :
    (((ofBackends count).carryOutAll requests).backend i).Balanced
      ∧ (((ofBackends count).carryOutAll requests).backend i).Transactional := by
  have hserved := (ofBackends count).carryOutAll_served requests
  constructor
  · refine hserved.balanced (fun j => ?_) i
    rw [backend_ofBackends]
    exact ⟨rfl, rfl⟩
  · refine (hserved.stagesInTransactions (fun j => ?_) i).transactional
    rw [backend_ofBackends]
    exact fun _ _ => rfl

end Cluster

end ScatterGather
