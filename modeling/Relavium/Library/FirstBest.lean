import Mathlib.Data.List.Induction
import Mathlib.Order.Nat

/-!
# The first of the best

A scan over candidates that keeps the one with the greatest score.  A later
candidate takes over only with a strictly greater score, and one without a score
never does.
-/

namespace Relavium.Library
namespace FirstBest

variable
  {α : Type u}
  (score : α → Nat)

/-- Keep the candidate if its score is greater. -/
def step (best : Option α × Nat)
    (candidate : α) : Option α × Nat :=
  if best.2 < score candidate then (some candidate, score candidate) else best

/-- The best of the candidates, the first of equals, has a score. -/
structure IsFirstBest (candidates : List α)
    (best : α) : Prop where
  positive : 0 < score best
  split : ∃ before after,
    candidates = before ++ best :: after ∧
      (∀ other ∈ before, score other < score best) ∧
      ∀ other ∈ after, score other ≤ score best

variable {score}

theorem IsFirstBest.le
    {candidates : List α} {best : α} (first : IsFirstBest score candidates best) {other : α}
    (listed : other ∈ candidates) :
    score other ≤ score best := by
  obtain ⟨before, after, rfl, earlier, later⟩ := first.split
  rcases List.mem_append.mp listed with inside | inside
  · exact (earlier other inside).le
  · rcases List.mem_cons.mp inside with rfl | behind
    · exact Nat.le_refl _
    · exact later other behind

theorem foldl_step (score : α → Nat) (candidates : List α) :
    (candidates.foldl (step score) (none, 0) = (none, 0) ∧
        ∀ candidate ∈ candidates, score candidate = 0) ∨
      ∃ best,
        candidates.foldl (step score) (none, 0) = (some best, score best) ∧
          IsFirstBest score candidates best := by
  induction candidates using List.reverseRecOn with
  | nil => exact .inl ⟨rfl, by simp⟩
  | append_singleton candidates last ih =>
    rw [List.foldl_append, List.foldl_cons, List.foldl_nil]
    rcases ih with ⟨scanned, empty⟩ | ⟨best, scanned, first⟩
    · rw [scanned]
      by_cases better : 0 < score last
      · refine .inr ⟨last, if_pos better, better, candidates, [], rfl, ?_, by simp⟩
        intro other listed
        rw [empty other listed]
        exact better
      · refine .inl ⟨if_neg better, ?_⟩
        intro candidate listed
        rcases List.mem_append.mp listed with inside | rest
        · exact empty candidate inside
        · obtain rfl := List.mem_singleton.mp rest
          exact Nat.eq_zero_of_not_pos better
    · rw [scanned]
      by_cases better : score best < score last
      · refine .inr ⟨last, if_pos better, ?_, candidates, [], rfl, ?_, by simp⟩
        · exact first.positive.trans better
        · intro other listed
          exact (first.le listed).trans_lt better
      · refine .inr ⟨best, if_neg better, first.positive, ?_⟩
        obtain ⟨before, after, rfl, earlier, later⟩ := first.split
        refine ⟨before, after ++ [last], by simp, earlier, ?_⟩
        intro other listed
        rcases List.mem_append.mp listed with inside | rest
        · exact later other inside
        · obtain rfl := List.mem_singleton.mp rest
          exact Nat.le_of_not_lt better

end FirstBest
end Relavium.Library
