import Mathlib.Data.List.Induction
import Relavium.Library.GreedyOrder

/-!
# Live paths in a dependency graph

A node runs after its dependencies, and each dependency that has completed lets
some of its dependents through.  A node is live when a path of completed nodes,
each of which lets the next one through, leads to it from a node without
dependencies.

Liveness is a property of whole paths.  Looking only at the last edge decides it
as long as nothing has completed that is not live, which is shown along a
topological order of the nodes.
-/

namespace Relavium.Library

namespace GreedyOrder

/-- What holds of a node as soon as it holds of all of its dependencies holds of
every node in topological order. -/
theorem Topological.induction
    {dependsOn : κ → κ → Prop} {nodes order : List κ}
    (topological : Topological dependsOn nodes order)
    (closed : ∀ node dependency, dependsOn node dependency → dependency ∈ nodes)
    {property : κ → Prop}
    (step : ∀ node ∈ order,
      (∀ dependency, dependsOn node dependency → property dependency) →
        property node) :
    ∀ node ∈ order, property node := by
  have initial : ∀ before after,
      order = before ++ after → ∀ node ∈ before, property node := by
    intro before
    induction before using List.reverseRecOn with
    | nil => simp
    | append_singleton before last ih =>
      intro after split
      rw [List.append_assoc, List.singleton_append] at split
      have earlier := ih (last :: after) split
      intro node member
      obtain inside | atEnd := List.mem_append.mp member
      · exact earlier node inside
      · obtain rfl := List.mem_singleton.mp atEnd
        have present : node ∈ order := by rw [split]; simp
        refine step node present fun dependency depends => earlier dependency ?_
        exact topological before node after split dependency
          (closed node dependency depends) depends
  exact initial order [] (List.append_nil order).symm

/-- Where some node lacks a property, some node lacks it while all of its
dependencies have it. -/
theorem Topological.exists_first_without
    {dependsOn : κ → κ → Prop} {nodes order : List κ}
    (topological : Topological dependsOn nodes order)
    (closed : ∀ node dependency, dependsOn node dependency → dependency ∈ nodes)
    {property : κ → Prop} {node : κ} (present : node ∈ order) (without : ¬property node) :
    ∃ first ∈ order,
      ¬property first ∧
        ∀ dependency, dependsOn first dependency → property dependency := by
  by_contra none
  push Not at none
  refine without (topological.induction closed (fun first listed settled => ?_) node present)
  by_contra lacking
  obtain ⟨dependency, depends, unsettled⟩ := none first listed lacking
  exact unsettled (settled dependency depends)

end GreedyOrder

namespace LivePath

section Definitions

variable
  (dependsOn : κ → κ → Prop)
  (completed : κ → Prop)
  (passes : κ → κ → Prop)

/-- A path of completed nodes leads to the node from one without dependencies,
and each lets the next one through. -/
inductive Live : κ → Prop
  | root {node : κ} :
      (∀ dependency, ¬dependsOn node dependency) →
      Live node
  | step {node dependency : κ} :
      Live dependency →
      dependsOn node dependency →
      completed dependency →
      passes dependency node →
      Live node

/-- The node has no dependencies, or a completed one lets it through. -/
def LiveEdge (node : κ) : Prop :=
  (∀ dependency, ¬dependsOn node dependency) ∨
    ∃ dependency,
      dependsOn node dependency ∧ completed dependency ∧ passes dependency node

end Definitions

variable
  {dependsOn : κ → κ → Prop}
  {completed : κ → Prop}
  {passes : κ → κ → Prop}

theorem Live.liveEdge {node : κ} (live : Live dependsOn completed passes node) :
    LiveEdge dependsOn completed passes node := by
  cases live with
  | root free => exact Or.inl free
  | step _ depends finished passed => exact Or.inr ⟨_, depends, finished, passed⟩

/-- As long as every completed node had a live edge, a live edge is the end of a
live path. -/
theorem live_iff_liveEdge
    {nodes order : List κ} (topological : GreedyOrder.Topological dependsOn nodes order)
    (closed : ∀ node dependency, dependsOn node dependency → dependency ∈ nodes)
    (completedLive : ∀ node,
      completed node → LiveEdge dependsOn completed passes node)
    {node : κ}
    (present : node ∈ order) :
    Live dependsOn completed passes node ↔
      LiveEdge dependsOn completed passes node := by
  have liveOfEdge : ∀ node ∈ order,
      LiveEdge dependsOn completed passes node →
        Live dependsOn completed passes node := by
    refine topological.induction closed fun node _ ih => ?_
    rintro (free | ⟨dependency, depends, finished, passed⟩)
    · exact .root free
    · have dependencyEdge := completedLive dependency finished
      exact .step (ih dependency depends dependencyEdge) depends finished passed
  exact ⟨Live.liveEdge, liveOfEdge node present⟩

end LivePath
end Relavium.Library
