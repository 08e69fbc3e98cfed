import Relavium.Library.CycleWalk
import Relavium.Plan.PlanOrder

/-!
# The cycle verdict

A plan is refused for a cycle exactly when the dependencies of the workflow are
cyclic.  Every node that the order leaves out has a predecessor that it leaves
out too, so the walk from the authored-first of them comes back, and what it
names is a cycle.
-/

namespace Relavium.Plan

open Library
open Shared
open Interpolation

/-! ## The dependencies of a workflow -/

/-- The edges that are wired, producer first.  A handled edge is wired by the
branch it names, and a plain edge out of a condition is refused. -/
inductive WiredEdge (spec : WorkflowSpec)
    (agentsById : AgentTable) : JsString → JsString → Prop
  | structural (edge : Edge) :
      edge ∈ spec.edges →
      sourceHandle edge.source = none →
      (∀ node : ConditionNode, .condition node ∈ spec.nodes →
        node.id ≠ sourceBase edge.source) →
      WiredEdge spec agentsById (sourceBase edge.source) edge.target
  | member (node : ParallelNode) (member : JsString) :
      .parallel node ∈ spec.nodes →
      member ∈ node.parallelOf →
      WiredEdge spec agentsById node.id member
  | branch (node : ConditionNode) (branch : ConditionBranch) :
      .condition node ∈ spec.nodes →
      branch ∈ node.branches →
      WiredEdge spec agentsById node.id branch.targetNode
  | default (node : ConditionNode) (target : JsString) :
      .condition node ∈ spec.nodes →
      node.default = some target →
      WiredEdge spec agentsById node.id target
  | reference (node : WorkflowNode) (site : ReferenceSite) (producer : JsString) :
      node ∈ spec.nodes →
      site ∈ nodeReferenceSites node →
      producer ∈ referencedProducers site.references →
      WiredEdge spec agentsById producer node.id
  | prompt (node : AgentNode) (agent : Agent) (producer : JsString) :
      .agent node ∈ spec.nodes →
      agentsById.get node.agentRef = some agent →
      producer ∈ referencedProducers (templateReferences agent.systemPrompt) →
      WiredEdge spec agentsById producer node.id

/-- A wired edge between two nodes. -/
def Dependency (spec : WorkflowSpec) (agentsById : AgentTable)
    (producer consumer : JsString) : Prop :=
  producer ∈ spec.nodeIds ∧ consumer ∈ spec.nodeIds ∧
    WiredEdge spec agentsById producer consumer

section Wired

variable {spec : WorkflowSpec}

theorem get_indexNodes_iff (id : JsString) (node : WorkflowNode) :
    (indexNodes spec.nodes).get id = some node ↔
      node ∈ spec.nodes ∧ node.id = id := by
  constructor
  · intro found
    by_cases listed : ∃ other ∈ spec.nodes, other.id = id
    · obtain ⟨other, present, rfl⟩ := listed
      have stored := OrderedMap.get_foldl_set_of_mem WorkflowNode.id
        (fun node => node) spec.distinctIds present .empty
      unfold indexNodes at found
      rw [stored, Option.some.injEq] at found
      exact ⟨found ▸ present, found ▸ rfl⟩
    · unfold indexNodes at found
      rw [OrderedMap.get_foldl_set_of_not_mem WorkflowNode.id (fun node => node)
        (fun node present same => listed ⟨node, present, same⟩),
        OrderedMap.get_empty] at found
      cases found
  · rintro ⟨present, rfl⟩
    exact OrderedMap.get_foldl_set_of_mem WorkflowNode.id (fun node => node)
      spec.distinctIds present .empty

theorem has_indexNodes_iff (id : JsString) :
    (indexNodes spec.nodes).has id = true ↔ id ∈ spec.nodeIds := by
  rw [OrderedMap.has_iff]
  simp only [get_indexNodes_iff, WorkflowSpec.nodeIds, List.mem_map]

theorem any_isCondition_iff (id : JsString) :
    ((indexNodes spec.nodes).get id).any isCondition = true ↔
      ∃ node : ConditionNode, .condition node ∈ spec.nodes ∧ node.id = id := by
  rw [Option.any_eq_true]
  constructor
  · rintro ⟨node, found, condition⟩
    obtain ⟨present, sameId⟩ := (get_indexNodes_iff id node).mp found
    cases node with
    | condition node => exact ⟨node, present, sameId⟩
    | _ => cases condition
  · rintro ⟨node, present, sameId⟩
    exact ⟨.condition node, (get_indexNodes_iff id _).mpr ⟨present, sameId⟩, rfl⟩

variable
  {producer consumer : JsString}

theorem mem_validateStructuralEdge
    (checks : AuthoringChecks) (edge : Edge) (index : Nat) (listed : consumer ∈ spec.nodeIds) :
    (producer, consumer) ∈
        (validateStructuralEdge checks (indexNodes spec.nodes) edge
          index).edges ↔
      producer = sourceBase edge.source ∧ consumer = edge.target ∧
        sourceHandle edge.source = none ∧
        ∀ node : ConditionNode, .condition node ∈ spec.nodes →
          node.id ≠ sourceBase edge.source := by
  unfold validateStructuralEdge
  dsimp only
  cases handled : sourceHandle edge.source with
  | some handle => simp
  | none =>
    dsimp only
    split
    case isTrue refused =>
      obtain ⟨condition, _⟩ := refused
      obtain ⟨node, present, sameId⟩ :=
        (any_isCondition_iff _).mp condition
      simp only [List.not_mem_nil, false_iff, not_and]
      intro _ _ _ plain
      exact plain node present sameId
    case isFalse accepted =>
      simp only [List.mem_singleton, Prod.mk.injEq, true_and, and_congr_right_iff]
      intro _
      constructor
      · intro target
        refine ⟨target, fun node present sameId => accepted ⟨?_, ?_⟩⟩
        · exact (any_isCondition_iff _).mpr ⟨node, present, sameId⟩
        · exact (has_indexNodes_iff _).mpr (target ▸ listed)
      · exact And.left

theorem mem_wireDataEdges (text consumer producer user : JsString) :
    (producer, user) ∈ wireDataEdges (indexNodes spec.nodes) text consumer ↔
      user = consumer ∧ producer ∈ spec.nodeIds ∧
        producer ∈ referencedProducers (templateReferences text) := by
  simp only [wireDataEdges, List.mem_map, List.mem_filter, Prod.mk.injEq, has_indexNodes_iff]
  constructor
  · rintro ⟨_, ⟨referenced, listed⟩, rfl, rfl⟩
    exact ⟨rfl, listed, referenced⟩
  · rintro ⟨rfl, listed, referenced⟩
    exact ⟨producer, ⟨referenced, listed⟩, rfl, rfl⟩

theorem mem_wireOwnDataEdges (node : WorkflowNode) (producer user : JsString) :
    (producer, user) ∈ wireOwnDataEdges node ↔
      user = node.id ∧ ∃ site ∈ nodeReferenceSites node,
        producer ∈ referencedProducers site.references := by
  simp only [wireOwnDataEdges, List.mem_flatMap, List.mem_map, Prod.mk.injEq]
  constructor
  · rintro ⟨site, listed, _, referenced, rfl, rfl⟩
    exact ⟨rfl, site, listed, referenced⟩
  · rintro ⟨rfl, site, listed, referenced⟩
    exact ⟨site, listed, producer, referenced, rfl, rfl⟩

theorem mem_wireNode
    (checks : AuthoringChecks) (agentsById : AgentTable) (registrySupplied : Bool)
    {node : WorkflowNode} (present : node ∈ spec.nodes)
    (wired : (producer, consumer) ∈ (wireNode checks (indexNodes spec.nodes)
      agentsById registrySupplied node).edges) :
    WiredEdge spec agentsById producer consumer := by
  unfold wireNode Wiring.andThen at wired
  dsimp only at wired
  rcases List.mem_append.mp wired with routed | referenced
  · cases node with
    | parallel node =>
      simp only [wireParallelNode, List.mem_map, Prod.mk.injEq] at routed
      obtain ⟨member, listed, rfl, rfl⟩ := routed
      exact .member node member present listed
    | condition node =>
      simp only [wireConditionNode, List.mem_append, List.mem_map,
        Prod.mk.injEq, Option.mem_toList] at routed
      rcases routed with ⟨branch, listed, rfl, rfl⟩ | ⟨target, listed, rfl, rfl⟩
      · exact .branch node branch present listed
      · exact .default node target present listed
    | agent node =>
      simp only [validateAgentNode] at routed
      split at routed
      · cases routed
      case h_2 agent found =>
        obtain ⟨rfl, _, inPrompt⟩ := (mem_wireDataEdges _ _ _ _).mp routed
        exact .prompt node agent producer present found inPrompt
    | input | humanGate | transform | merge | output => cases routed
  · obtain ⟨rfl, site, listed, inSite⟩ :=
      (mem_wireOwnDataEdges _ _ _).mp referenced
    exact .reference node site producer present listed inSite

theorem mem_of_wireNode
    (checks : AuthoringChecks) (agentsById : AgentTable) (registrySupplied : Bool)
    {node : WorkflowNode} (present : node ∈ spec.nodes) {edge : JsString × JsString}
    (wired : edge ∈ (wireNode checks (indexNodes spec.nodes) agentsById
      registrySupplied node).edges) :
    edge ∈ (validateAndWireEdges checks spec (indexNodes spec.nodes)
      agentsById registrySupplied).edges := by
  refine List.mem_append.mpr (.inr (List.mem_flatMap.mpr ⟨_, List.mem_map_of_mem present, wired⟩))

theorem mem_validateAndWireEdges_iff
    (checks : AuthoringChecks) (agentsById : AgentTable) (registrySupplied : Bool)
    (produces : producer ∈ spec.nodeIds) (consumes : consumer ∈ spec.nodeIds) :
    (producer, consumer) ∈ (validateAndWireEdges checks spec
        (indexNodes spec.nodes) agentsById registrySupplied).edges ↔
      WiredEdge spec agentsById producer consumer := by
  constructor
  · intro wired
    rcases List.mem_append.mp wired with structural | noded
    · obtain ⟨_, listed, inside⟩ := List.mem_flatMap.mp structural
      obtain ⟨⟨edge, index⟩, indexed, rfl⟩ := List.mem_map.mp listed
      obtain ⟨rfl, rfl, plain, unconditional⟩ :=
        (mem_validateStructuralEdge checks edge index consumes).mp inside
      exact .structural edge (List.fst_mem_of_mem_zipIdx indexed) plain unconditional
    · obtain ⟨_, listed, inside⟩ := List.mem_flatMap.mp noded
      obtain ⟨node, present, rfl⟩ := List.mem_map.mp listed
      exact mem_wireNode checks agentsById registrySupplied present inside
  · intro wired
    cases wired with
    | structural edge listed plain unconditional =>
      obtain ⟨index, found⟩ := List.mem_iff_getElem?.mp listed
      have indexed : (edge, index) ∈ spec.edges.zipIdx :=
        List.mk_mem_zipIdx_iff_getElem?.mpr found
      refine List.mem_append.mpr (.inl (List.mem_flatMap.mpr
        ⟨_, List.mem_map_of_mem indexed, ?_⟩))
      exact (mem_validateStructuralEdge checks edge index consumes).mpr
        ⟨rfl, rfl, plain, unconditional⟩
    | member node member present listed =>
      refine mem_of_wireNode checks agentsById registrySupplied present
        (List.mem_append_left _ ?_)
      exact List.mem_map_of_mem listed
    | branch node branch present listed =>
      refine mem_of_wireNode checks agentsById registrySupplied present
        (List.mem_append_left _ (List.mem_append_left _ ?_))
      exact List.mem_map_of_mem listed
    | default node target present isDefault =>
      refine mem_of_wireNode checks agentsById registrySupplied present
        (List.mem_append_left _ (List.mem_append_right _ ?_))
      rw [isDefault]
      exact List.mem_singleton_self _
    | reference node site producer present listed inSite =>
      refine mem_of_wireNode checks agentsById registrySupplied present
        (List.mem_append_right _ ?_)
      exact (mem_wireOwnDataEdges node producer node.id).mpr ⟨rfl, site, listed, inSite⟩
    | prompt node agent producer present found inPrompt =>
      refine mem_of_wireNode checks agentsById registrySupplied present
        (List.mem_append_left _ ?_)
      simp only [validateAgentNode, found]
      exact (mem_wireDataEdges _ _ _ _).mpr ⟨rfl, produces, inPrompt⟩

/-- The graph of a workflow holds its dependencies. -/
theorem dependsOn_wiredGraph
    (checks : AuthoringChecks) (agentsById : AgentTable) (registrySupplied : Bool)
    (consumer producer : JsString) :
    (wiredGraph spec (validateAndWireEdges checks spec (indexNodes spec.nodes)
        agentsById registrySupplied)).DependsOn consumer producer ↔
      Dependency spec agentsById producer consumer := by
  unfold wiredGraph Dependency
  rw [(DependencyGraph.wellWired_ofNodes spec.nodeIds).dependsOn_addEdges]
  constructor
  · rintro (before | ⟨wired, produces, consumes⟩)
    · exact absurd before (DependencyGraph.not_dependsOn_ofNodes _ _ _)
    · exact ⟨produces, consumes, (mem_validateAndWireEdges_iff checks agentsById
        registrySupplied produces consumes).mp wired⟩
  · rintro ⟨produces, consumes, wired⟩
    exact .inr ⟨(mem_validateAndWireEdges_iff checks agentsById
      registrySupplied produces consumes).mpr wired, produces, consumes⟩

end Wired

/-! ## The walk -/

section Walk

variable
  {nodeIds order : List JsString}
  {graph : DependencyGraph JsString}

/-- A node that the order leaves out waits for another one. -/
theorem exists_stuck_predecessor
    (wired : graph.WellWired nodeIds) (nodup : nodeIds.Nodup) {id : JsString}
    (listed : id ∈ nodeIds) (stuck : id ∉ planOrder nodeIds graph) :
    ∃ producer, graph.DependsOn id producer ∧
      producer ∉ planOrder nodeIds graph := by
  rw [planOrder_eq_greedyOrder wired nodup] at stuck ⊢
  have unready := GreedyOrder.nextReady_eq_none.mp
    (GreedyOrder.nextReady_greedyOrder graph.DependsOn nodeIds) id listed
  by_contra free
  refine unready ⟨stuck, ?_⟩
  intro producer _ depends
  by_contra absent
  exact free ⟨producer, depends, absent⟩

/-- The walk among stuck nodes comes back before it has taken more steps than
there are nodes. -/
theorem walkCycle_isCycle
    (authoredIndex : OrderedMap JsString Nat) (wired : graph.WellWired nodeIds)
    (predecessors : ∀ id ∈ nodeIds, id ∉ order →
      ∃ producer, graph.DependsOn id producer ∧ producer ∉ order)
    (fuel : Nat)
    (path : List JsString)
    (current : JsString)
    (distinct : path.Nodup)
    (inside : ∀ id ∈ current :: path, id ∈ nodeIds ∧ id ∉ order)
    (walk : (path ++ [current]).IsChain fun id producer =>
      graph.DependsOn id producer)
    (enough : nodeIds.length < path.length + fuel) :
    IsCycle (fun producer consumer => graph.DependsOn consumer producer)
        (walkCycle (fun id => decide (id ∉ order)) graph authoredIndex fuel
          path current) ∧
      ∀ more, walkCycle (fun id => decide (id ∉ order)) graph authoredIndex
          (fuel + more) path current =
        walkCycle (fun id => decide (id ∉ order)) graph authoredIndex fuel
          path current := by
  induction fuel generalizing path current with
  | zero =>
    have bounded := (distinct.subperm fun id member =>
      (inside id (List.mem_cons_of_mem _ member)).1).length_le
    omega
  | succ fuel ih =>
    rw [walkCycle]
    have turns : ∀ more, fuel + 1 + more = (fuel + more) + 1 := by
      intro more
      omega
    simp only [turns]
    by_cases again : current ∈ path
    · rw [if_pos again]
      refine ⟨IsCycle.of_walk (fun producer consumer =>
        graph.DependsOn consumer producer) distinct walk again,
        fun more => ?_⟩
      rw [walkCycle, if_pos again]
    · rw [if_neg again]
      obtain ⟨member, stuck⟩ := inside current List.mem_cons_self
      obtain ⟨producer, depends, producerStuck⟩ :=
        predecessors current member stuck
      have listed : producer ∈ sortAuthored authoredIndex
          ((graph.dependenciesOf current).elements.filter fun id =>
            decide (id ∉ order)) := by
        rw [mem_sortAuthored, List.mem_filter]
        exact ⟨depends, decide_eq_true producerStuck⟩
      cases found : (sortAuthored authoredIndex
          ((graph.dependenciesOf current).elements.filter fun id =>
            decide (id ∉ order))).head? with
      | none =>
        rw [List.head?_eq_none_iff] at found
        rw [found] at listed
        cases listed
      | some next =>
        have nextListed := List.mem_of_head? found
        rw [mem_sortAuthored, List.mem_filter] at nextListed
        obtain ⟨nextDepends, nextStuck⟩ := nextListed
        have waits : graph.DependsOn current next := nextDepends
        have step := ih (path ++ [current]) next (GreedyOrder.nodup_snoc distinct again) ?_ ?_ ?_
        · refine ⟨step.1, fun more => ?_⟩
          rw [walkCycle, if_neg again, found]
          exact step.2 more
        · intro id member
          rcases List.mem_cons.mp member with rfl | member
          · exact ⟨wired.producer_mem waits, of_decide_eq_true nextStuck⟩
          · rcases List.mem_append.mp member with earlier | last
            · exact inside id (List.mem_cons_of_mem _ earlier)
            · rw [List.mem_singleton.mp last]
              exact inside current List.mem_cons_self
        · refine walk.append (List.isChain_singleton next) ?_
          intro last lastFound head headFound
          rw [List.getLast?_concat] at lastFound
          cases lastFound
          cases headFound
          exact waits
        · rw [List.length_append, List.length_singleton]
          omega

/-- Once an order leaves a node out, what is extracted is a cycle, whatever the
number of steps the walk is allowed. -/
theorem extractCycle_isCycle
    (authoredIndex : OrderedMap JsString Nat) (wired : graph.WellWired nodeIds)
    (nodup : nodeIds.Nodup) (short : (planOrder nodeIds graph).length < nodeIds.length) :
    IsCycle (fun producer consumer => graph.DependsOn consumer producer)
        (extractCycle nodeIds (planOrder nodeIds graph) graph authoredIndex) ∧
      ∃ start, nodeIds.find? (fun id =>
          decide (id ∉ planOrder nodeIds graph)) = some start ∧
        ∀ fuel, nodeIds.length < fuel →
          walkCycle (fun id => decide (id ∉ planOrder nodeIds graph)) graph
              authoredIndex fuel [] start =
            extractCycle nodeIds (planOrder nodeIds graph) graph
              authoredIndex := by
  unfold extractCycle
  dsimp only
  cases first : nodeIds.find? (fun id =>
      decide (id ∉ planOrder nodeIds graph)) with
  | none =>
    have all : nodeIds ⊆ planOrder nodeIds graph := by
      intro id member
      simpa using List.find?_eq_none.mp first id member
    have bounded := (nodup.subperm all).length_le
    omega
  | some start =>
    have startFound := List.find?_some first
    have startStuck : start ∉ planOrder nodeIds graph :=
      of_decide_eq_true startFound
    have walked := walkCycle_isCycle authoredIndex wired
      (fun id member stuck =>
        exists_stuck_predecessor wired nodup member stuck)
      (nodeIds.length + 1) [] start .nil
      (fun id member => by
        obtain rfl := List.mem_singleton.mp member
        exact ⟨List.mem_of_find?_eq_some first, startStuck⟩)
      (List.isChain_singleton start) (by simp)
    refine ⟨walked.1, start, rfl, fun fuel enough => ?_⟩
    obtain ⟨more, rfl⟩ := Nat.exists_eq_add_of_le enough
    exact walked.2 more

theorem length_lt_iff_cyclic (wired : graph.WellWired nodeIds) (nodup : nodeIds.Nodup) :
    (planOrder nodeIds graph).length < nodeIds.length ↔
      ∃ id, Relation.TransGen
        (fun producer consumer => graph.DependsOn consumer producer) id id := by
  constructor
  · intro short
    exact (extractCycle_isCycle (authoredPositions nodeIds) wired nodup short).1.transGen
  · rintro ⟨id, cycle⟩
    by_contra complete
    have permutation : (planOrder nodeIds graph).Perm nodeIds := by
      rw [planOrder_eq_greedyOrder wired nodup] at complete ⊢
      exact GreedyOrder.greedyOrder_perm _ _ (Nat.le_of_not_lt complete)
    have topological : GreedyOrder.Topological graph.DependsOn nodeIds
        (planOrder nodeIds graph) := by
      rw [planOrder_eq_greedyOrder wired nodup]
      exact GreedyOrder.greedyOrder_topological _ _
    refine topological.not_transGen (fun _ member => permutation.mem_iff.mpr member)
      (fun _ _ depends => ⟨wired.consumer_mem depends, wired.producer_mem depends⟩) id ?_
    exact (Relation.transGen_swap).mp cycle

end Walk

/-! ## The verdict -/

/-- The kinds of issue that each of the other checks records. -/
structure AuthoringChecks.Named (checks : AuthoringChecks) : Prop where
  ceiling : ∀ spec agentsById, ∀ issue ∈ checks.ceilingIssues spec agentsById,
    issue.kind = .ceilingExceeded
  handle : ∀ node handle target locator index,
    ∀ issue ∈ checks.handleIssues node handle target locator index,
    issue.kind = .invalidHandle ∨ issue.kind = .mismatchedBranchTarget
  toolGrant : ∀ node agent, ∀ issue ∈ checks.toolGrantIssues node agent,
    issue.kind = .toolGrantWidened
  unorderedRead : ∀ spec closures,
    ∀ issue ∈ checks.unorderedReadIssues spec closures,
    issue.kind = .unorderedOutputRead
  outputSchema : ∀ spec agentsById,
    ∀ issue ∈ checks.outputSchemaIssues spec agentsById,
    issue.kind = .invalidOutputSchema

/-- A cycle issue is recorded. -/
def RecordsCycle (checks : AuthoringChecks) (spec : WorkflowSpec)
    (registry : Option AgentTable) : Prop :=
  ∃ issues, buildRunPlan checks spec registry = .error (.graph issues) ∧
    ∃ issue ∈ issues, issue.kind = .cycle

section Kinds

variable
  {checks : AuthoringChecks}
  {spec : WorkflowSpec}

variable
  {nodesById : NodeTable}
  {issue : GraphIssue}

theorem kind_of_mem_unknownTarget
    {field message : JsString} {id : JsString}
    (member : issue ∈ unknownTarget field message nodesById id) :
    issue.kind = .unknownEdgeTarget := by
  unfold unknownTarget at member
  split at member
  · cases member
  · rw [List.mem_singleton.mp member]

theorem ne_cycle_of_mem_validateStructuralEdge (named : checks.Named) {edge : Edge} {index : Nat}
    (member : issue ∈ (validateStructuralEdge checks nodesById edge index).issues) :
    issue.kind ≠ .cycle := by
  have unknown : ∀ {field message id},
      issue ∈ unknownTarget field message nodesById id →
      issue.kind ≠ .cycle := by
    intro field message id inside
    rw [kind_of_mem_unknownTarget inside]
    decide
  unfold validateStructuralEdge at member
  dsimp only at member
  split at member
  · rcases List.mem_append.mp member with endpoint | handled
    · rcases List.mem_append.mp endpoint with source | target
      · exact unknown source
      · exact unknown target
    · split at handled
      · rcases named.handle _ _ _ _ _ issue handled with kind | kind
        · rw [kind]
          decide
        · rw [kind]
          decide
      · cases handled
  · split at member
    · rcases List.mem_append.mp member with endpoint | refused
      · rcases List.mem_append.mp endpoint with source | target
        · exact unknown source
        · exact unknown target
      · rw [List.mem_singleton.mp refused]
        simp
    · rcases List.mem_append.mp member with source | target
      · exact unknown source
      · exact unknown target

theorem ne_cycle_of_mem_wireNode
    (named : checks.Named) {agentsById : AgentTable} {registrySupplied : Bool}
    {node : WorkflowNode}
    (member : issue ∈ (wireNode checks nodesById agentsById registrySupplied node).issues) :
    issue.kind ≠ .cycle := by
  have unknown : ∀ {field message id},
      issue ∈ unknownTarget field message nodesById id →
      issue.kind ≠ .cycle := by
    intro field message id inside
    rw [kind_of_mem_unknownTarget inside]
    decide
  unfold wireNode Wiring.andThen at member
  dsimp only at member
  rw [List.append_nil] at member
  cases node with
  | parallel node =>
    obtain ⟨_, _, inside⟩ := List.mem_flatMap.mp member
    exact unknown inside
  | condition node =>
    rcases List.mem_append.mp member with branches | isDefault
    · obtain ⟨_, _, inside⟩ := List.mem_flatMap.mp branches
      exact unknown inside
    · obtain ⟨_, _, inside⟩ := List.mem_flatMap.mp isDefault
      exact unknown inside
  | agent node =>
    rcases List.mem_append.mp member with dangling | granted
    · split at dangling
      · rw [List.mem_singleton.mp dangling]
        simp
      · cases dangling
    · split at granted
      · cases granted
      · rw [named.toolGrant _ _ issue granted]
        decide
  | input | humanGate | transform | merge | output => cases member

theorem ne_cycle_of_mem_wiring
    (named : checks.Named) {agentsById : AgentTable} {registrySupplied : Bool}
    (member : issue ∈ (validateAndWireEdges checks spec nodesById agentsById
      registrySupplied).issues) :
    issue.kind ≠ .cycle := by
  rcases List.mem_append.mp member with structural | noded
  · obtain ⟨_, listed, inside⟩ := List.mem_flatMap.mp structural
    obtain ⟨_, _, rfl⟩ := List.mem_map.mp listed
    exact ne_cycle_of_mem_validateStructuralEdge named inside
  · obtain ⟨_, listed, inside⟩ := List.mem_flatMap.mp noded
    obtain ⟨_, _, rfl⟩ := List.mem_map.mp listed
    exact ne_cycle_of_mem_wireNode named inside

theorem exists_mem_cycleIssues
    {nodeIds order : List JsString} (graph : DependencyGraph JsString)
    (authoredIndex : OrderedMap JsString Nat) (short : order.length < nodeIds.length) :
    ∃ issue ∈ cycleIssues nodeIds order graph authoredIndex,
      issue.kind = .cycle := by
  unfold cycleIssues
  rw [if_pos short]
  dsimp only
  split
  · exact ⟨_, List.mem_singleton_self _, rfl⟩
  · exact ⟨_, List.mem_singleton_self _, rfl⟩

theorem cycleIssues_eq_nil
    {nodeIds order : List JsString} {graph : DependencyGraph JsString}
    {authoredIndex : OrderedMap JsString Nat} (complete : ¬order.length < nodeIds.length) :
    cycleIssues nodeIds order graph authoredIndex = [] :=
  if_neg complete

/-- A cycle issue is recorded where the order leaves a node out. -/
theorem recordsCycle_iff
    (named : checks.Named) (registry : Option AgentTable)
    (clean : checks.agentLeaks spec registry = []) :
    RecordsCycle checks spec registry ↔
      (planOrder spec.nodeIds (wiredGraph spec (validateAndWireEdges checks
        spec (indexNodes spec.nodes) (resolveAgents spec registry)
        registry.isSome))).length < spec.nodeIds.length := by
  unfold RecordsCycle buildRunPlan
  dsimp only
  rw [if_neg (by simp [clean])]
  generalize wiredGraph spec _ = graph
  constructor
  · rintro ⟨issues, built, issue, member, kind⟩
    split at built
    case isFalse => cases built
    case isTrue =>
      obtain rfl := PlanError.graph.inj (Except.error.inj built)
      by_contra complete
      rw [cycleIssues_eq_nil complete, List.append_nil] at member
      rcases List.mem_append.mp member with member | schema
      · rcases List.mem_append.mp member with member | unordered
        · rcases List.mem_append.mp member with ceiling | wired
          · rw [named.ceiling _ _ issue ceiling] at kind
            cases kind
          · exact ne_cycle_of_mem_wiring named wired kind
        · cases closures : soundAncestors spec.nodeIds _ _ _ with
          | none =>
            rw [closures] at unordered
            cases unordered
          | some ancestors =>
            rw [closures] at unordered
            rw [named.unorderedRead _ _ issue unordered] at kind
            cases kind
      · rw [named.outputSchema _ _ issue schema] at kind
        cases kind
  · intro short
    obtain ⟨issue, member, kind⟩ :=
      exists_mem_cycleIssues graph (authoredPositions spec.nodeIds) short
    split
    case isTrue =>
      refine ⟨_, rfl, issue, ?_, kind⟩
      exact List.mem_append_left _ (List.mem_append_left _ (List.mem_append_right _ member))
    case isFalse silent =>
      rw [not_not, List.append_eq_nil_iff, List.append_eq_nil_iff,
        List.append_eq_nil_iff] at silent
      rw [silent.1.1.2] at member
      cases member

end Kinds

/-- Past the gate of secret leaks, a cycle is recorded exactly when the
dependencies are cyclic.  What is then named starts and ends at one node, visits
no other one twice and goes along dependencies, and any walk that may take more
steps than there are nodes ends with it. -/
theorem cycle_verdict
    (checks : AuthoringChecks) (spec : WorkflowSpec) (registry : Option AgentTable)
    (named : checks.Named) (clean : checks.agentLeaks spec registry = []) :
    let dependency := Dependency spec (resolveAgents spec registry)
    let graph := planGraph checks spec registry
    let order := planOrder spec.nodeIds graph
    let authoredIndex := authoredPositions spec.nodeIds
    let cycle := extractCycle spec.nodeIds order graph authoredIndex
    (RecordsCycle checks spec registry ↔
        ∃ id, Relation.TransGen dependency id id) ∧
      ((∃ id, Relation.TransGen dependency id id) →
        IsCycle dependency cycle ∧
          ∃ start, spec.nodeIds.find? (fun id => decide (id ∉ order)) =
              some start ∧
            ∀ fuel, spec.nodeIds.length < fuel →
              walkCycle (fun id => decide (id ∉ order)) graph authoredIndex
                fuel [] start = cycle) := by
  intro dependency graph order authoredIndex cycle
  have wired : graph.WellWired spec.nodeIds :=
    (DependencyGraph.wellWired_ofNodes spec.nodeIds).addEdges _
  have edges : (fun producer consumer => graph.DependsOn consumer producer) =
      dependency := by
    funext producer consumer
    exact propext (dependsOn_wiredGraph checks _ _ consumer producer)
  have cyclic := length_lt_iff_cyclic wired spec.distinctIds
  rw [edges] at cyclic
  refine ⟨(recordsCycle_iff named registry clean).trans cyclic, fun exists_ => ?_⟩
  have extracted := extractCycle_isCycle authoredIndex wired spec.distinctIds (cyclic.mpr exists_)
  rwa [edges] at extracted

/-- Checks that find nothing record no cycle. -/
theorem noChecks_named : noChecks.Named := by
  constructor <;> simp [noChecks]

/-- A step that reads what follows it, and a node behind the two. -/
def loopedWorkflow : WorkflowSpec where
  id := jsText "looped"
  inputs := []
  context := []
  agents := []
  nodes := [ .output (jsText "c"),
    .transform { id := jsText "a", transform := jsText "1" },
    .transform { id := jsText "b", transform := jsText "2" }]
  edges := [
    { source := jsText "b", target := jsText "c" },
    { source := jsText "a", target := jsText "b" },
    { source := jsText "b", target := jsText "a" }]
  maxParallel := none
  distinctIds := by decide

/-- The node behind the cycle is left out of what is named. -/
theorem cycle_verdict_looped :
    RecordsCycle noChecks loopedWorkflow none ∧
      IsCycle (Dependency loopedWorkflow (resolveAgents loopedWorkflow none))
        [jsText "a", jsText "b", jsText "a"] := by
  have verdict := cycle_verdict noChecks loopedWorkflow none noChecks_named rfl
  have recorded : RecordsCycle noChecks loopedWorkflow none :=
    (recordsCycle_iff noChecks_named none rfl).mpr (by decide)
  have extracted : extractCycle loopedWorkflow.nodeIds
      (planOrder loopedWorkflow.nodeIds (planGraph noChecks loopedWorkflow none))
      (planGraph noChecks loopedWorkflow none)
      (authoredPositions loopedWorkflow.nodeIds) =
        [jsText "a", jsText "b", jsText "a"] := by
    decide
  exact ⟨recorded, extracted ▸ (verdict.2 (verdict.1.mp recorded)).1⟩

/-! ## A refused edge -/

/-- Every edge of the file, whether it is wired or refused. -/
inductive AuthoredEdge (spec : WorkflowSpec)
    (agentsById : AgentTable) : JsString → JsString → Prop
  | structural (edge : Edge) :
      edge ∈ spec.edges →
      AuthoredEdge spec agentsById (sourceBase edge.source) edge.target
  | wired {producer consumer : JsString} :
      WiredEdge spec agentsById producer consumer →
      AuthoredEdge spec agentsById producer consumer

/-- Every authored endpoint is a node. -/
def EndpointsResolve (spec : WorkflowSpec) : Prop :=
  (∀ edge ∈ spec.edges, sourceBase edge.source ∈ spec.nodeIds ∧
      edge.target ∈ spec.nodeIds) ∧
    ∀ node ∈ spec.nodes, match node with
      | .parallel node => ∀ member ∈ node.parallelOf, member ∈ spec.nodeIds
      | .condition node =>
        (∀ branch ∈ node.branches, branch.targetNode ∈ spec.nodeIds) ∧
          ∀ target ∈ node.default, target ∈ spec.nodeIds
      | _ => True

/-- A plain edge out of a condition, and one back to it. -/
def refusedWorkflow : WorkflowSpec where
  id := jsText "refused"
  inputs := []
  context := []
  agents := []
  nodes := [
    .condition {
      id := jsText "check"
      expression := jsText "true"
      branches := [{ when := .boolean true, targetNode := jsText "done" }]
      default := none },
    .transform { id := jsText "step", transform := jsText "1" },
    .output (jsText "done")]
  edges := [
    { source := jsText "check", target := jsText "step" },
    { source := jsText "step", target := jsText "check" }]
  maxParallel := none
  distinctIds := by decide

/-- An edge that is refused closes no cycle that is recorded. -/
theorem refused_edge_not_recorded :
    ¬ ∀ spec : WorkflowSpec, EndpointsResolve spec →
      (RecordsCycle noChecks spec none ↔
        ∃ id, Relation.TransGen
          (AuthoredEdge spec (resolveAgents spec none)) id id) := by
  intro claimed
  have resolves : EndpointsResolve refusedWorkflow := by
    refine ⟨by decide, ?_⟩
    intro node listed
    have which := listed
    simp only [refusedWorkflow, List.mem_cons, List.not_mem_nil, or_false] at which
    rcases which with rfl | rfl | rfl
    · exact ⟨by decide, fun _ target => by cases target⟩
    · exact trivial
    · exact trivial
  have there : AuthoredEdge refusedWorkflow (resolveAgents refusedWorkflow none)
      (jsText "check") (jsText "step") :=
    .structural { source := jsText "check", target := jsText "step" }
      List.mem_cons_self
  have back : AuthoredEdge refusedWorkflow (resolveAgents refusedWorkflow none)
      (jsText "step") (jsText "check") :=
    .structural { source := jsText "step", target := jsText "check" }
      (List.mem_cons_of_mem _ List.mem_cons_self)
  have recorded := (claimed refusedWorkflow resolves).mpr
    ⟨jsText "check", .tail (.single there) back⟩
  have short := (recordsCycle_iff noChecks_named none rfl).mp recorded
  revert short
  decide +kernel

end Relavium.Plan
