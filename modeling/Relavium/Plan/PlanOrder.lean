import Relavium.Plan.BuildRunPlan

/-!
# The order of a run plan

A plan that `buildRunPlan` returns orders the nodes of the workflow so that each
comes after what it waits for, in the order that comes first among these.
-/

namespace Relavium.Plan

open Library
open Shared

/-- The vertex of the consumer waits for the producer. -/
def RunPlan.DependsOn (plan : RunPlan)
    (consumer producer : JsString) : Prop :=
  ∃ vertex,
    plan.vertices.get consumer = some vertex ∧ producer ∈ vertex.dependencies

/-- The facts about a plan that is assembled from a wired graph. -/
structure RunPlan.AssembledFrom (plan : RunPlan) (nodeIds : List JsString)
    (graph : DependencyGraph JsString) : Prop where
  wired : graph.WellWired nodeIds
  /-- The order is that of the graph. -/
  order : plan.order = planOrder nodeIds graph
  /-- The order leaves no node out. -/
  complete : nodeIds.length ≤ plan.order.length
  /-- There is a vertex for each node. -/
  vertexIds : ∀ id, (plan.vertices.get id).isSome ↔ id ∈ nodeIds
  vertexId : ∀ id vertex, plan.vertices.get id = some vertex → vertex.id = id
  /-- A vertex waits for what its node is wired to. -/
  dependencies :
    ∀ id vertex, plan.vertices.get id = some vertex →
      ∀ producer, producer ∈ vertex.dependencies ↔ graph.DependsOn id producer

section Assembly

theorem mem_sortAuthored
    (authoredIndex : OrderedMap JsString Nat) (ids : List JsString) (id : JsString) :
    id ∈ sortAuthored authoredIndex ids ↔ id ∈ ids :=
  (List.perm_insertionSort _ ids).mem_iff

theorem planOrder_eq_greedyOrder
    {nodeIds : List JsString} {graph : DependencyGraph JsString} (wired : graph.WellWired nodeIds)
    (nodup : nodeIds.Nodup) :
    planOrder nodeIds graph =
      GreedyOrder.greedyOrder graph.DependsOn nodeIds := by
  unfold planOrder
  rw [kahnOrder_eq_greedyOrder wired nodup (Nat.lt_succ_self _), Option.getD_some]

/-- The graph that `buildRunPlan` wires. -/
def planGraph (checks : AuthoringChecks) (spec : WorkflowSpec)
    (registry : Option AgentTable) : DependencyGraph JsString :=
  wiredGraph spec (validateAndWireEdges checks spec (indexNodes spec.nodes)
    (resolveAgents spec registry) registry.isSome)

/-- An order without a cycle issue leaves no node out. -/
theorem length_le_of_cycleIssues
    {nodeIds order : List JsString} {graph : DependencyGraph JsString}
    {authoredIndex : OrderedMap JsString Nat}
    (sound : cycleIssues nodeIds order graph authoredIndex = []) :
    nodeIds.length ≤ order.length := by
  unfold cycleIssues at sound
  split at sound
  · dsimp only at sound
    split at sound
    · exact absurd sound (List.cons_ne_nil _ _)
    · exact absurd sound (List.cons_ne_nil _ _)
  · omega

variable
  {spec : WorkflowSpec}

theorem get_vertices_iff
    (vertexOf : WorkflowNode → PlanVertex) (id : JsString) (vertex : PlanVertex) :
    (spec.nodes.foldl (fun vertices node => vertices.set node.id (vertexOf node))
        OrderedMap.empty).get id = some vertex ↔
      ∃ node ∈ spec.nodes, node.id = id ∧ vertexOf node = vertex := by
  constructor
  · intro found
    by_cases listed : ∃ node ∈ spec.nodes, node.id = id
    · obtain ⟨node, present, rfl⟩ := listed
      rw [OrderedMap.get_foldl_set_of_mem WorkflowNode.id vertexOf
        spec.distinctIds present, Option.some.injEq] at found
      exact ⟨node, present, rfl, found⟩
    · rw [OrderedMap.get_foldl_set_of_not_mem WorkflowNode.id vertexOf
        (fun node present same => listed ⟨node, present, same⟩),
        OrderedMap.get_empty] at found
      exact absurd found (Option.some_ne_none vertex).symm
  · rintro ⟨node, present, rfl, rfl⟩
    exact OrderedMap.get_foldl_set_of_mem WorkflowNode.id vertexOf spec.distinctIds present _

/-- What a returned plan is made of: an order that leaves no node out, and the
vertices of the nodes, with the closures along it. -/
structure RunPlan.Assembly (plan : RunPlan) (spec : WorkflowSpec) (agentsById : AgentTable)
    (graph : DependencyGraph JsString) : Prop where
  order : plan.order = planOrder spec.nodeIds graph
  complete : spec.nodeIds.length ≤ plan.order.length
  vertices : ∀ id vertex, plan.vertices.get id = some vertex ↔
    ∃ node ∈ spec.nodes, node.id = id ∧
      buildVertex spec (indexNodes spec.nodes) agentsById graph
          (authoredPositions spec.nodeIds) (computeAncestors plan.order graph)
          node =
        vertex

theorem assembly_of_buildRunPlan
    {checks : AuthoringChecks} {registry : Option AgentTable} {plan : RunPlan}
    (built : buildRunPlan checks spec registry = .ok plan) :
    plan.Assembly spec (resolveAgents spec registry)
      (planGraph checks spec registry) := by
  unfold buildRunPlan at built
  dsimp only at built
  split at built
  · cases built
  rw [show wiredGraph spec (validateAndWireEdges checks spec
    (indexNodes spec.nodes) (resolveAgents spec registry) registry.isSome) =
      planGraph checks spec registry from rfl] at built
  split at built
  · cases built
  next noIssues =>
    cases built
    simp only [ne_eq, not_not, List.append_eq_nil_iff] at noIssues
    obtain ⟨⟨⟨⟨noCeiling, noWiring⟩, acyclic⟩, _⟩, _⟩ := noIssues
    have complete := length_le_of_cycleIssues acyclic
    have bounded : (planOrder spec.nodeIds
        (planGraph checks spec registry)).length ≤ spec.nodeIds.length := by
      have wired : (planGraph checks spec registry).WellWired spec.nodeIds :=
        (DependencyGraph.wellWired_ofNodes spec.nodeIds).addEdges _
      rw [planOrder_eq_greedyOrder wired spec.distinctIds]
      exact ((GreedyOrder.greedyOrder_nodup _ _).subperm
        (GreedyOrder.greedyOrder_subset _ _)).length_le
    have sound : soundAncestors spec.nodeIds
        (planOrder spec.nodeIds (planGraph checks spec registry))
        (planGraph checks spec registry)
        (checks.ceilingIssues spec (resolveAgents spec registry) ++
          (validateAndWireEdges checks spec (indexNodes spec.nodes)
            (resolveAgents spec registry) registry.isSome).issues ++
          cycleIssues spec.nodeIds (planOrder spec.nodeIds (planGraph checks spec registry))
            (planGraph checks spec registry)
            (authoredPositions spec.nodeIds)) =
        some (computeAncestors (planOrder spec.nodeIds (planGraph checks spec registry))
          (planGraph checks spec registry)) := by
      refine if_pos ⟨Nat.le_antisymm bounded complete, ?_⟩
      have silent : cycleIssues spec.nodeIds
          (planOrder spec.nodeIds (planGraph checks spec registry))
          (planGraph checks spec registry)
          (authoredPositions spec.nodeIds) = [] := acyclic
      simp [noCeiling, noWiring, silent]
    refine ⟨rfl, complete, fun id vertex => ?_⟩
    have vertices := @get_vertices_iff spec
      (buildVertex spec (indexNodes spec.nodes) (resolveAgents spec registry)
        (planGraph checks spec registry) (authoredPositions spec.nodeIds)
        (computeAncestors (planOrder spec.nodeIds (planGraph checks spec registry))
          (planGraph checks spec registry))) id vertex
    dsimp only
    rw [sound, Option.getD_some]
    exact vertices

/-- The facts about a plan that only speak of its graph. -/
theorem assembled_of_buildRunPlan
    {checks : AuthoringChecks} {registry : Option AgentTable} {plan : RunPlan}
    (built : buildRunPlan checks spec registry = .ok plan) :
    plan.AssembledFrom spec.nodeIds (planGraph checks spec registry) := by
  have assembly := assembly_of_buildRunPlan built
  refine ⟨(DependencyGraph.wellWired_ofNodes spec.nodeIds).addEdges _,
    assembly.order, assembly.complete, ?_, ?_, ?_⟩
  · intro id
    simp only [Option.isSome_iff_exists, assembly.vertices]
    unfold WorkflowSpec.nodeIds
    rw [List.mem_map]
    constructor
    · rintro ⟨_, node, present, same, _⟩
      exact ⟨node, present, same⟩
    · rintro ⟨node, present, same⟩
      exact ⟨_, node, present, same, rfl⟩
  · intro id vertex found
    obtain ⟨node, _, rfl, rfl⟩ := (assembly.vertices id vertex).mp found
    rfl
  · intro id vertex found producer
    obtain ⟨node, _, rfl, rfl⟩ := (assembly.vertices id vertex).mp found
    exact mem_sortAuthored _ _ producer

end Assembly

section Order

variable
  {plan : RunPlan}
  {nodeIds : List JsString}
  {graph : DependencyGraph JsString}

/-- A vertex waits for what its node is wired to. -/
theorem RunPlan.AssembledFrom.dependsOn_iff
    (assembled : plan.AssembledFrom nodeIds graph) (consumer producer : JsString) :
    plan.DependsOn consumer producer ↔ graph.DependsOn consumer producer := by
  constructor
  · rintro ⟨vertex, found, waits⟩
    exact (assembled.dependencies consumer vertex found producer).mp waits
  · intro depends
    obtain ⟨vertex, found⟩ := Option.isSome_iff_exists.mp
      ((assembled.vertexIds consumer).mpr (assembled.wired.consumer_mem depends))
    exact ⟨vertex, found, (assembled.dependencies consumer vertex found producer).mpr depends⟩

theorem topological_congr {dependsOn waitsOn : JsString → JsString → Prop}
    (agree : ∀ consumer producer,
      dependsOn consumer producer ↔ waitsOn consumer producer)
    (order : List JsString) :
    GreedyOrder.Topological dependsOn nodeIds order ↔
      GreedyOrder.Topological waitsOn nodeIds order := by
  unfold GreedyOrder.Topological
  simp only [agree]

theorem RunPlan.AssembledFrom.order_perm
    (assembled : plan.AssembledFrom nodeIds graph) (nodup : nodeIds.Nodup) :
    plan.order.Perm nodeIds := by
  have complete := assembled.complete
  rw [assembled.order, planOrder_eq_greedyOrder assembled.wired nodup] at complete ⊢
  exact GreedyOrder.greedyOrder_perm _ _ complete

theorem RunPlan.AssembledFrom.order_topological
    (assembled : plan.AssembledFrom nodeIds graph) (nodup : nodeIds.Nodup) :
    GreedyOrder.Topological plan.DependsOn nodeIds plan.order := by
  rw [topological_congr assembled.dependsOn_iff, assembled.order,
    planOrder_eq_greedyOrder assembled.wired nodup]
  exact GreedyOrder.greedyOrder_topological _ _

/-- No vertex of a plan waits for itself. -/
theorem RunPlan.AssembledFrom.acyclic
    (assembled : plan.AssembledFrom nodeIds graph) (nodup : nodeIds.Nodup) (id : JsString) :
    ¬Relation.TransGen plan.DependsOn id id := by
  have permutation := assembled.order_perm nodup
  refine (assembled.order_topological nodup).not_transGen
    (fun id member => permutation.mem_iff.mpr member) ?_ id
  intro consumer producer depends
  have wiredTo := (assembled.dependsOn_iff consumer producer).mp depends
  exact ⟨assembled.wired.consumer_mem wiredTo, assembled.wired.producer_mem wiredTo⟩

theorem RunPlan.AssembledFrom.order_least
    (assembled : plan.AssembledFrom nodeIds graph) (nodup : nodeIds.Nodup) {other : List JsString}
    (permutation : other.Perm nodeIds)
    (topological : GreedyOrder.Topological plan.DependsOn nodeIds other) :
    GreedyOrder.LexLe nodeIds plan.order other := by
  rw [topological_congr assembled.dependsOn_iff] at topological
  rw [assembled.order, planOrder_eq_greedyOrder assembled.wired nodup]
  exact GreedyOrder.greedyOrder_least _ _ nodup permutation topological

end Order

/-- What a run relies on: each vertex is listed once, after all that it waits
for. -/
structure RunPlan.Ordered (plan : RunPlan) : Prop where
  nodup : plan.order.Nodup
  vertexIds : ∀ id, (plan.vertices.get id).isSome ↔ id ∈ plan.order
  vertexId : ∀ id vertex, plan.vertices.get id = some vertex → vertex.id = id
  /-- A vertex waits for vertices of the plan. -/
  closed : ∀ consumer producer,
    plan.DependsOn consumer producer → producer ∈ plan.order
  topological : GreedyOrder.Topological plan.DependsOn plan.order plan.order

theorem ordered_of_buildRunPlan
    {checks : AuthoringChecks} {spec : WorkflowSpec} {registry : Option AgentTable}
    {plan : RunPlan} (built : buildRunPlan checks spec registry = .ok plan) :
    plan.Ordered := by
  have assembled := assembled_of_buildRunPlan built
  have permutation := assembled.order_perm spec.distinctIds
  have closed : ∀ consumer producer,
      plan.DependsOn consumer producer → producer ∈ plan.order := by
    intro consumer producer depends
    rw [permutation.mem_iff]
    exact assembled.wired.producer_mem ((assembled.dependsOn_iff consumer producer).mp depends)
  refine ⟨permutation.nodup_iff.mpr spec.distinctIds, fun id => ?_,
    assembled.vertexId, closed, ?_⟩
  · rw [permutation.mem_iff, assembled.vertexIds]
  · intro before consumer after split producer present depends
    exact assembled.order_topological spec.distinctIds before consumer after split
      producer (permutation.mem_iff.mp present) depends

/-- However the dependencies among distinct ids are wired, `kahnOrder` emits the
authored-first ready id until none is ready.  The order of a plan lists the node
ids, each after everything its vertex waits for, and no such list comes before it
by authored position. -/
theorem plan_order_eq_reference :
    (∀ (nodeIds : List JsString)
        (dependsOn : JsString → JsString → Prop)
        [DecidableRel dependsOn]
        (edges : List (JsString × JsString))
        (fuel : Nat),
      nodeIds.Nodup →
      (∀ consumer ∈ nodeIds, ∀ producer ∈ nodeIds,
        (producer, consumer) ∈ edges ↔ dependsOn consumer producer) →
      nodeIds.length < fuel →
      kahnOrder fuel nodeIds ((DependencyGraph.ofNodes nodeIds).addEdges edges)
          (authoredPositions nodeIds) =
        some (GreedyOrder.greedyOrder dependsOn nodeIds)) ∧
    ∀ (checks : AuthoringChecks) (spec : WorkflowSpec) (registry : Option AgentTable)
        (plan : RunPlan),
      buildRunPlan checks spec registry = .ok plan →
      plan.order.Perm spec.nodeIds ∧
      GreedyOrder.Topological plan.DependsOn spec.nodeIds plan.order ∧
      ∀ other : List JsString,
        other.Perm spec.nodeIds →
        GreedyOrder.Topological plan.DependsOn spec.nodeIds other →
        GreedyOrder.LexLe spec.nodeIds plan.order other := by
  constructor
  · intro nodeIds dependsOn _ edges fuel nodup agree enough
    have wired := (DependencyGraph.wellWired_ofNodes nodeIds).addEdges edges
    rw [kahnOrder_eq_greedyOrder wired nodup enough]
    congr 1
    refine GreedyOrder.greedyOrder_congr fun consumer consumes producer produces => ?_
    rw [(DependencyGraph.wellWired_ofNodes nodeIds).dependsOn_addEdges,
      agree consumer consumes producer produces]
    simp [DependencyGraph.not_dependsOn_ofNodes, consumes, produces]
  · intro checks spec registry plan built
    have assembled := assembled_of_buildRunPlan built
    exact ⟨assembled.order_perm spec.distinctIds, assembled.order_topological spec.distinctIds,
      fun other permutation topological =>
        assembled.order_least spec.distinctIds permutation topological⟩

/-- Checks that find nothing. -/
def noChecks : AuthoringChecks where
  agentLeaks _ _ := []
  ceilingIssues _ _ := []
  handleIssues _ _ _ _ _ := []
  toolGrantIssues _ _ := []
  unorderedReadIssues _ _ := []
  outputSchemaIssues _ _ := []

/-- An output and a step, authored before what they wait for. -/
def reversedWorkflow : WorkflowSpec where
  id := jsText "reversed"
  inputs := []
  context := []
  agents := []
  nodes := [ .output (jsText "c"),
    .transform { id := jsText "b", transform := jsText "1" },
    .input (jsText "a")]
  edges := [
    { source := jsText "b", target := jsText "c" },
    { source := jsText "a", target := jsText "b" }]
  maxParallel := none
  distinctIds := by decide

/-- Two ids that wait for each other are never emitted, a third one is; and the
reversed workflow has a plan. -/
theorem plan_order_eq_reference_reversed :
    (let nodeIds := [jsText "a", jsText "b", jsText "c"]
      let edges := [(jsText "a", jsText "b"), (jsText "b", jsText "a")]
      kahnOrder 4 nodeIds ((DependencyGraph.ofNodes nodeIds).addEdges edges)
          (authoredPositions nodeIds) =
        some [jsText "c"]) ∧
    ∃ plan,
      buildRunPlan noChecks reversedWorkflow none = .ok plan ∧
      plan.order.Perm reversedWorkflow.nodeIds := by
  constructor
  · exact plan_order_eq_reference.1 [jsText "a", jsText "b", jsText "c"]
      (fun consumer producer => (producer, consumer) ∈
        [(jsText "a", jsText "b"), (jsText "b", jsText "a")]) _ 4
      (by decide) (fun _ _ _ _ => Iff.rfl) (by decide)
  · have returned :
        (buildRunPlan noChecks reversedWorkflow none).toBool = true := by
      decide +kernel
    cases built : buildRunPlan noChecks reversedWorkflow none with
    | error error => simp [built, Except.toBool] at returned
    | ok plan =>
      exact ⟨plan, rfl, (plan_order_eq_reference.2 _ _ _ plan built).1⟩

end Relavium.Plan
