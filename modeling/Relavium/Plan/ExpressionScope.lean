import Relavium.Plan.CycleVerdict

/-!
# The scope of an expression

The closure of a vertex is folded along the order of the plan.  What a vertex
waits for stands before it, so the closures it takes over are final, and its own
is the transitive closure of the dependencies.
-/

namespace Relavium.Plan

open Library
open Shared

/-- The closure of a vertex from those of what it waits for. -/
def inheritedClosure
    (graph : DependencyGraph JsString) (sets : OrderedMap JsString (OrderedSet JsString))
    (id : JsString) : OrderedSet JsString :=
  (graph.dependenciesOf id).elements.foldl
    (fun closure dependency =>
      ((sets.get dependency).getD .empty).elements.foldl OrderedSet.add (closure.add dependency))
    OrderedSet.empty

theorem mem_foldl_inherit
    (inherited : JsString → OrderedSet JsString) (dependencies : List JsString)
    (closure : OrderedSet JsString) (ancestor : JsString) :
    ancestor ∈ dependencies.foldl
        (fun closure dependency =>
          (inherited dependency).elements.foldl OrderedSet.add (closure.add dependency))
        closure ↔
      ancestor ∈ closure ∨ ∃ dependency ∈ dependencies,
        ancestor = dependency ∨ ancestor ∈ inherited dependency := by
  induction dependencies generalizing closure with
  | nil => simp
  | cons dependency rest ih =>
    rw [List.foldl_cons, ih, OrderedSet.mem_foldl_add,
      OrderedSet.mem_add, OrderedSet.mem_elements]
    constructor
    · rintro ((inside | rfl | before) | ⟨other, listed, reached⟩)
      · exact .inr ⟨dependency, List.mem_cons_self, .inr inside⟩
      · exact .inr ⟨ancestor, List.mem_cons_self, .inl rfl⟩
      · exact .inl before
      · exact .inr ⟨other, List.mem_cons_of_mem _ listed, reached⟩
    · rintro (before | ⟨other, listed, reached⟩)
      · exact .inl (.inr (.inr before))
      · rcases List.mem_cons.mp listed with rfl | later
        · rcases reached with rfl | inside
          · exact .inl (.inr (.inl rfl))
          · exact .inl (.inl inside)
        · exact .inr ⟨other, later, reached⟩

theorem mem_inheritedClosure
    (graph : DependencyGraph JsString) (sets : OrderedMap JsString (OrderedSet JsString))
    (id ancestor : JsString) :
    ancestor ∈ inheritedClosure graph sets id ↔
      ∃ dependency, graph.DependsOn id dependency ∧
        (ancestor = dependency ∨
          ancestor ∈ (sets.get dependency).getD .empty) := by
  unfold inheritedClosure
  rw [mem_foldl_inherit fun dependency =>
    (sets.get dependency).getD OrderedSet.empty]
  simp only [OrderedSet.not_mem_empty, false_or]
  rfl

/-- The map holds the closure of the node. -/
def HasClosure
    (graph : DependencyGraph JsString) (sets : OrderedMap JsString (OrderedSet JsString))
    (id : JsString) : Prop :=
  ∃ closure, sets.get id = some closure ∧
    ∀ ancestor, ancestor ∈ closure ↔
      Relation.TransGen (fun producer consumer => graph.DependsOn consumer producer) ancestor id

section Fold

variable
  {nodeIds : List JsString}
  {graph : DependencyGraph JsString}

/-- One turn of the fold: with the closures of what a node waits for, its own is
final. -/
theorem hasClosure_set {sets : OrderedMap JsString (OrderedSet JsString)} {id : JsString}
    (final : ∀ dependency, graph.DependsOn id dependency →
      HasClosure graph sets dependency) :
    HasClosure graph (sets.set id (inheritedClosure graph sets id)) id := by
  refine ⟨_, OrderedMap.get_set_self .., fun ancestor => ?_⟩
  rw [mem_inheritedClosure]
  constructor
  · rintro ⟨dependency, depends, rfl | inside⟩
    · exact .single depends
    · obtain ⟨closure, found, reaches⟩ := final dependency depends
      rw [found, Option.getD_some, reaches] at inside
      exact inside.tail depends
  · intro path
    cases path with
    | single depends => exact ⟨ancestor, depends, .inl rfl⟩
    | tail earlier depends =>
      rename_i dependency
      obtain ⟨closure, found, reaches⟩ := final dependency depends
      refine ⟨dependency, depends, .inr ?_⟩
      rw [found, Option.getD_some, reaches]
      exact earlier

theorem hasClosure_foldl
    (wired : graph.WellWired nodeIds) (rest before : List JsString)
    (sets : OrderedMap JsString (OrderedSet JsString))
    (topological : GreedyOrder.Topological graph.DependsOn nodeIds (before ++ rest))
    (distinct : (before ++ rest).Nodup)
    (final : ∀ id ∈ before, HasClosure graph sets id) :
    ∀ id ∈ before ++ rest, HasClosure graph
      (rest.foldl (fun sets id =>
        sets.set id (inheritedClosure graph sets id)) sets) id := by
  induction rest generalizing before sets with
  | nil =>
    intro id member
    exact final id (by simpa using member)
  | cons head rest ih =>
    have shifted : before ++ head :: rest = (before ++ [head]) ++ rest := by
      simp
    have fresh : ∀ id ∈ before, id ≠ head := by
      rintro id earlier rfl
      exact (List.nodup_append.mp distinct).2.2 id earlier id List.mem_cons_self rfl
    rw [List.foldl_cons, shifted]
    refine ih (before ++ [head]) _ (shifted ▸ topological) (shifted ▸ distinct) ?_
    intro id member
    rcases List.mem_append.mp member with earlier | last
    · obtain ⟨closure, found, reaches⟩ := final id earlier
      refine ⟨closure, ?_, reaches⟩
      rw [OrderedMap.get_set_of_ne _ (fresh id earlier)]
      exact found
    · obtain rfl := List.mem_singleton.mp last
      refine hasClosure_set fun dependency depends => final dependency ?_
      exact topological before id rest rfl dependency (wired.producer_mem depends) depends

theorem get_computeAncestors
    (wired : graph.WellWired nodeIds) {order : List JsString}
    (topological : GreedyOrder.Topological graph.DependsOn nodeIds order) (distinct : order.Nodup)
    {id : JsString} (listed : id ∈ order) :
    ∃ closure : OrderedSet JsString,
      (computeAncestors order graph).get id =
          some (sortByCodeUnit closure.elements) ∧
        ∀ ancestor, ancestor ∈ closure ↔
          Relation.TransGen (fun producer consumer => graph.DependsOn consumer producer)
            ancestor id := by
  obtain ⟨closure, found, reaches⟩ := hasClosure_foldl wired order [] .empty
    topological distinct (by simp) id listed
  refine ⟨closure, ?_, reaches⟩
  have entry := (OrderedMap.mem_entries_iff _ _ _).mpr found
  exact OrderedMap.get_foldl_set_of_mem Prod.fst (fun entry => sortByCodeUnit entry.2.elements)
    (OrderedMap.nodupKeys _) entry .empty

end Fold

theorem pairwise_sortByCodeUnit (ids : List JsString) :
    (sortByCodeUnit ids).Pairwise fun left right => left ≤ right := by
  have total : Std.Total fun left right : JsString =>
      compareCodeUnits left right ≤ 0 :=
    ⟨fun left right => by
      simp only [compareCodeUnits_le_iff]
      exact List.le_total left right⟩
  have transitive : IsTrans JsString fun left right =>
      compareCodeUnits left right ≤ 0 :=
    ⟨fun first second third => by
      simp only [compareCodeUnits_le_iff]
      exact List.le_trans⟩
  refine (List.pairwise_insertionSort _ ids).imp ?_
  intro left right ordered
  exact (compareCodeUnits_le_iff left right).mp ordered

theorem sortByCodeUnit_perm (ids : List JsString) :
    (sortByCodeUnit ids).Perm ids :=
  List.perm_insertionSort _ ids

/-- The scope of a vertex: the ids with a path to it, in code unit order. -/
structure RunPlan.Scopes (plan : RunPlan) (id : JsString)
    (ancestors : List JsString) : Prop where
  mem_iff : ∀ ancestor, ancestor ∈ ancestors ↔
    Relation.TransGen (fun producer consumer => plan.DependsOn consumer producer) ancestor id
  nodup : ancestors.Nodup
  ascending : ancestors.Pairwise fun left right => left < right
  not_self : id ∉ ancestors

/-- In every plan, the ancestors of a vertex are the ids with a path to it, each
once, in code unit order; the vertex is never its own ancestor. -/
theorem ancestors_eq_closure
    (checks : AuthoringChecks) (spec : WorkflowSpec) (registry : Option AgentTable)
    (plan : RunPlan) (built : buildRunPlan checks spec registry = .ok plan) (id : JsString)
    (vertex : PlanVertex) (found : plan.vertices.get id = some vertex) :
    plan.Scopes id vertex.ancestors := by
  have assembled := assembled_of_buildRunPlan built
  have permutation := assembled.order_perm spec.distinctIds
  have topological := assembled.order_topological spec.distinctIds
  have distinct := permutation.nodup_iff.mpr spec.distinctIds
  have along := (topological_congr assembled.dependsOn_iff _).mp topological
  obtain ⟨node, listed, rfl, same⟩ :=
    (assembly_of_buildRunPlan built).vertices id vertex |>.mp found
  have present : node.id ∈ plan.order :=
    permutation.mem_iff.mpr (List.mem_map_of_mem listed)
  obtain ⟨closure, sorted, reaches⟩ :=
    get_computeAncestors assembled.wired along distinct present
  have rearranged := sortByCodeUnit_perm closure.elements
  have ancestors : vertex.ancestors = sortByCodeUnit closure.elements := by
    rw [← same, buildVertex, sorted, Option.getD_some]
  have edges : (fun producer consumer : JsString =>
      plan.DependsOn consumer producer) =
        fun producer consumer =>
          (planGraph checks spec registry).DependsOn consumer producer := by
    funext producer consumer
    exact propext (assembled.dependsOn_iff consumer producer)
  have reached : ∀ ancestor,
      ancestor ∈ sortByCodeUnit closure.elements ↔
        Relation.TransGen (fun producer consumer => plan.DependsOn consumer producer)
          ancestor node.id := by
    intro ancestor
    rw [rearranged.mem_iff, OrderedSet.mem_elements, reaches, edges]
  have distinctIds : (sortByCodeUnit closure.elements).Nodup :=
    rearranged.nodup_iff.mpr closure.nodup
  refine ⟨fun ancestor => ?_, ?_, ?_, ?_⟩
  · rw [← reached, ancestors]
  · rw [ancestors]
    exact distinctIds
  · rw [ancestors]
    refine ((pairwise_sortByCodeUnit closure.elements).and distinctIds).imp ?_
    rintro left right ⟨ordered, different⟩
    exact Decidable.byContradiction fun later =>
      different (List.le_antisymm ordered (List.not_lt.mp later))
  · intro own
    rw [ancestors] at own
    have looped := (reached node.id).mp own
    exact assembled.acyclic spec.distinctIds node.id (Relation.transGen_swap.mp looped)

/-- In the reversed workflow, the output is behind the input and the step. -/
theorem ancestors_eq_closure_reversed :
    ∃ plan vertex,
      buildRunPlan noChecks reversedWorkflow none = .ok plan ∧
      plan.vertices.get (jsText "c") = some vertex ∧
      vertex.ancestors = [jsText "a", jsText "b"] ∧
      plan.Scopes (jsText "c") vertex.ancestors := by
  have evaluated :
      ((buildRunPlan noChecks reversedWorkflow none).toOption.bind
        fun plan => (plan.vertices.get (jsText "c")).map PlanVertex.ancestors) =
          some [jsText "a", jsText "b"] := by
    decide +kernel
  obtain ⟨plan, isPlan, evaluated⟩ := Option.bind_eq_some_iff.mp evaluated
  have built := toOption_eq_some.mp isPlan
  obtain ⟨vertex, found, ancestors⟩ := Option.map_eq_some_iff.mp evaluated
  exact ⟨plan, vertex, built, found, ancestors,
    ancestors_eq_closure noChecks reversedWorkflow none plan built _ vertex found⟩

end Relavium.Plan
