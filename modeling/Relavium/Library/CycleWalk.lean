import Mathlib.Data.List.Chain
import Mathlib.Data.List.Nodup
import Mathlib.Order.Nat

/-!
# A walk against the edges that comes back

A walk steps from a node to one of its predecessors.  When it meets a node
again, what it walked since then, read backwards and closed, is a directed
cycle.
-/

namespace Relavium.Library

/-- The list goes along the edges, from a node back to it, and visits no other
node twice. -/
structure IsCycle (edge : κ → κ → Prop) (cycle : List κ) : Prop where
  long : 2 ≤ cycle.length
  closed : cycle.head? = cycle.getLast?
  distinct : cycle.dropLast.Nodup
  edges : cycle.IsChain edge

namespace IsCycle

variable {edge : κ → κ → Prop}

/-- A node of a cycle reaches itself. -/
theorem transGen {cycle : List κ} (isCycle : IsCycle edge cycle) :
    ∃ node, Relation.TransGen edge node node := by
  obtain ⟨long, closed, _, edges⟩ := isCycle
  match cycle with
  | [] | [_] => simp at long
  | node :: next :: rest =>
    obtain ⟨first, later⟩ := List.isChain_cons_cons.mp edges
    have last : (next :: rest).getLast (List.cons_ne_nil _ _) = node := by
      rw [List.head?_cons, List.getLast?_eq_some_getLast (by simp),
        List.getLast_cons (List.cons_ne_nil _ _)] at closed
      exact (Option.some.inj closed).symm
    exact ⟨node, .head' first (List.relationReflTransGen_of_exists_isChain_cons rest later last)⟩

/-- A walk of distinct nodes that meets one of them again closes a cycle. -/
theorem of_walk
    [BEq κ] [LawfulBEq κ] (edge : κ → κ → Prop) {path : List κ} {current : κ}
    (distinct : path.Nodup)
    (walk : (path ++ [current]).IsChain fun node predecessor =>
      edge predecessor node)
    (again : current ∈ path) :
    let loop := (path.drop (path.idxOf current)).reverse
    IsCycle edge (loop ++ loop.head?.toList) := by
  have position := List.idxOf_lt_length_of_mem again
  have split : path.drop (path.idxOf current) =
      current :: path.drop (path.idxOf current + 1) := by
    rw [List.drop_eq_getElem_cons position, List.getElem_idxOf position]
  have walked : (path.drop (path.idxOf current) ++ [current]).IsChain
      fun node predecessor => edge predecessor node := by
    have dropped := walk.drop (path.idxOf current)
    rwa [List.drop_append_of_le_length position.le] at dropped
  have backwards : (current ::
      (path.drop (path.idxOf current)).reverse).IsChain edge := by
    rw [← List.isChain_reverse] at walked
    simpa using walked
  have looped : (path.drop (path.idxOf current)).reverse.Nodup :=
    List.nodup_reverse.mpr (distinct.sublist (List.drop_sublist _ _))
  have last : (path.drop (path.idxOf current)).reverse.getLast? =
      some current := by
    rw [split, List.getLast?_reverse, List.head?_cons]
  intro loop
  change (current :: loop).IsChain edge at backwards
  change loop.Nodup at looped
  change loop.getLast? = some current at last
  clear_value loop
  cases loop with
  | nil => simp at last
  | cons head rest =>
    obtain ⟨first, chain⟩ := List.isChain_cons_cons.mp backwards
    change IsCycle edge ((head :: rest) ++ [head])
    refine ⟨by simp, ?_, ?_, ?_⟩
    · rw [List.getLast?_concat]
      rfl
    · rwa [List.dropLast_concat]
    · refine chain.append (List.isChain_singleton head) ?_
      intro final finalLast next nextHead
      rw [last] at finalLast
      cases finalLast
      cases nextHead
      exact first

end IsCycle

end Relavium.Library
