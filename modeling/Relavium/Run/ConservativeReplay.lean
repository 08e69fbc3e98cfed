import Relavium.Run.Checkpoint

/-!
# Replay of conservative commitments

Folding committed estimates into a checkpoint adds them up, in any order.
-/

namespace Relavium.Run

open Library

namespace Reconstructor

theorem apply_estimate
    (acc : Reconstructor) {event : RunEvent} {estimate : Int}
    (body : event.body = .budgetEstimateCommitted estimate) :
    ∃ next, acc.apply event = .ok next ∧
      next.conservativeCostMicrocents =
        addNumbers acc.conservativeCostMicrocents estimate := by
  unfold apply applyStores RunSuspensionReducer.apply
  simp [body, applyCoverage, applyCost, applyRunEvent, applyNodeEvent,
    applyMediaJobEvent, applyGateEvent, applyPauseCost, applyUnpriced,
    Except.mapError, bind, Except.bind, pure, Except.pure]

/-- A log of committed estimates adds them all, as long as the sum is safe. -/
theorem foldlM_estimates {events : List RunEvent} {estimates : List Int}
    (bodies : events.map RunEvent.body = estimates.map EventBody.budgetEstimateCommitted)
    (nonneg : ∀ estimate ∈ estimates, 0 ≤ estimate)
    {acc : Reconstructor}
    (accNonneg : 0 ≤ acc.conservativeCostMicrocents)
    (safe : acc.conservativeCostMicrocents + estimates.sum ≤ maxSafeInteger) :
    ∃ restored, events.foldlM apply acc = .ok restored ∧
      restored.conservativeCostMicrocents =
        acc.conservativeCostMicrocents + estimates.sum := by
  induction estimates generalizing events acc with
  | nil =>
    obtain rfl := List.map_eq_nil_iff.mp bodies
    exact ⟨acc, rfl, by simp⟩
  | cons estimate rest ih =>
    cases events with
    | nil => simp at bodies
    | cons event events =>
      simp only [List.map_cons, List.cons.injEq] at bodies
      simp only [List.mem_cons, forall_eq_or_imp] at nonneg
      rw [List.sum_cons] at safe ⊢
      have restNonneg : 0 ≤ rest.sum := List.sum_nonneg nonneg.2
      obtain ⟨next, applied, added⟩ := acc.apply_estimate bodies.1
      rw [addNumbers_of_safe accNonneg nonneg.1 (by omega)] at added
      have nextNonneg : 0 ≤ next.conservativeCostMicrocents := by omega
      obtain ⟨restored, folded, total⟩ :=
        ih bodies.2 nonneg.2 nextNonneg (by omega)
      refine ⟨restored, ?_, by omega⟩
      rw [List.foldlM_cons, applied]
      exact folded

/-- The estimate that a body commits. -/
def estimateOf : EventBody → Int
  | .budgetEstimateCommitted estimate => estimate
  | _ => 0

/-- The order of the log does not matter. -/
theorem foldlM_estimates_perm {events : List RunEvent} {estimates : List Int}
    (bodies : (events.map RunEvent.body).Perm (estimates.map EventBody.budgetEstimateCommitted))
    (nonneg : ∀ estimate ∈ estimates, 0 ≤ estimate)
    {acc : Reconstructor}
    (accNonneg : 0 ≤ acc.conservativeCostMicrocents)
    (safe : acc.conservativeCostMicrocents + estimates.sum ≤ maxSafeInteger) :
    ∃ restored, events.foldlM apply acc = .ok restored ∧
      restored.conservativeCostMicrocents =
        acc.conservativeCostMicrocents + estimates.sum := by
  have logged : (events.map fun event => estimateOf event.body).Perm estimates := by
    have extracted := bodies.map estimateOf
    rw [List.map_map, List.map_map] at extracted
    simpa [Function.comp_def, estimateOf] using extracted
  have committed : events.map RunEvent.body =
      (events.map fun event => estimateOf event.body).map
        EventBody.budgetEstimateCommitted := by
    rw [List.map_map]
    refine List.map_congr_left ?_
    intro event member
    obtain ⟨estimate, -, isBody⟩ := List.mem_map.mp
      (bodies.mem_iff.mp (List.mem_map_of_mem member))
    rw [Function.comp_apply, ← isBody]
    rfl
  rw [← logged.sum_eq] at safe ⊢
  exact foldlM_estimates committed
    (fun estimate member => nonneg estimate (logged.mem_iff.mp member))
    accNonneg safe

end Reconstructor

end Relavium.Run
