import Mathlib.Data.List.Sort
import Relavium.Interpolation.ReferenceSites
import Relavium.Plan.KahnOrder
import Relavium.Shared.CanonicalJson
import Relavium.Shared.Constants

/-!
# Building a run plan

Model of `buildRunPlan` in `packages/core/src/dag.ts`: the endpoints of a
workflow are validated and wired into a dependency graph, the graph is ordered,
and a plan with one vertex for each node is assembled when no issue was found.
-/

namespace Relavium.Plan

open Library
open Shared
open Interpolation

/-! ## Issues -/

inductive GraphIssueKind
  | cycle
  | unknownEdgeTarget
  | invalidHandle
  | mismatchedBranchTarget
  | danglingRef
  | ceilingExceeded
  | toolGrantWidened
  | unorderedOutputRead
  | invalidOutputSchema
  deriving DecidableEq

structure GraphIssue where
  kind : GraphIssueKind
  field : JsString
  message : JsString

/-- Agents by id. -/
abbrev AgentTable : Type := OrderedMap JsString Agent

/-- The checks that only record issues, each with what it reads: they never
touch the graph. -/
structure AuthoringChecks where
  /-- `referencedAgentLeaks`: the locations of secrets in resolved prompts. -/
  agentLeaks : WorkflowSpec → Option AgentTable → List JsString
  /-- `collectCeilingIssues`. -/
  ceilingIssues : WorkflowSpec → AgentTable → List GraphIssue
  /-- `validateHandle`, for a source node, a handle, a target, the locator and
  the position of the edge. -/
  handleIssues : WorkflowNode → JsString → JsString → JsString → Nat →
    List GraphIssue
  /-- `collectToolGrantIssues`. -/
  toolGrantIssues : AgentNode → Agent → List GraphIssue
  /-- `collectUnorderedReadIssues`, over the closures. -/
  unorderedReadIssues : WorkflowSpec → OrderedMap JsString (List JsString) →
    List GraphIssue
  /-- `collectOutputSchemaIssues`. -/
  outputSchemaIssues : WorkflowSpec → AgentTable → List GraphIssue

/-! ## Wiring -/

/-- The edges that a wiring function adds, producer first, and the issues it
records, each in order. -/
structure Wiring where
  edges : List (JsString × JsString)
  issues : List GraphIssue

namespace Wiring

def none : Wiring where
  edges := []
  issues := []

/-- One wiring function after the other. -/
def andThen (first second : Wiring) : Wiring where
  edges := first.edges ++ second.edges
  issues := first.issues ++ second.issues

/-- All of them, one after the other. -/
def all (wirings : List Wiring) : Wiring where
  edges := wirings.flatMap Wiring.edges
  issues := wirings.flatMap Wiring.issues

end Wiring

/-- Nodes by id. -/
abbrev NodeTable : Type := OrderedMap JsString WorkflowNode

/-- `nodesById`. -/
def indexNodes (nodes : List WorkflowNode) : NodeTable :=
  nodes.foldl (fun table node => table.set node.id node) .empty

/-- The issue of an endpoint that is not a node. -/
def unknownTarget (field message : JsString) (nodesById : NodeTable)
    (id : JsString) : List GraphIssue :=
  if nodesById.has id then []
  else [{ kind := .unknownEdgeTarget, field, message }]

/-- A name in back quotes. -/
def quoted (name : JsString) : JsString :=
  jsText "`" ++ name ++ jsText "`"

/-- Whether a node is a condition. -/
def isCondition : WorkflowNode → Bool
  | .condition _ => true
  | _ => false

/-- The node id of an edge source, before the first colon. -/
def sourceBase (source : JsString) : JsString :=
  source.takeWhile (fun unit => unit ≠ 0x3A)

/-- The handle of an edge source, after the first colon. -/
def sourceHandle (source : JsString) : Option JsString :=
  match source.dropWhile (fun unit => unit ≠ 0x3A) with
  | [] => none
  | _ :: handle => some handle

/-- `validateStructuralEdge`: a handled edge adds nothing, a plain edge out of a
condition is rejected, every other one is wired. -/
def validateStructuralEdge (checks : AuthoringChecks) (nodesById : NodeTable) (edge : Edge)
    (index : Nat) : Wiring :=
  let fromBase := sourceBase edge.source
  let locator := jsText "edge " ++ quoted fromBase ++ jsText "→" ++ quoted edge.target
  let endpoints :=
    unknownTarget locator (jsText "edge source " ++ quoted fromBase ++ jsText " is not a node")
        nodesById fromBase ++
      unknownTarget locator
        (jsText "edge target " ++ quoted edge.target ++ jsText " is not a node")
        nodesById edge.target
  match sourceHandle edge.source with
  | some handle => {
      edges := []
      issues := endpoints ++
        match nodesById.get fromBase with
        | some fromNode =>
          checks.handleIssues fromNode handle edge.target locator index
        | none => [] }
  | none =>
    if (nodesById.get fromBase).any isCondition ∧ nodesById.has edge.target then
      { edges := []
        issues := endpoints ++ [{
          kind := .invalidHandle
          field := locator
          message :=
            jsText "a plain edge from condition " ++ quoted fromBase ++
              jsText " is not allowed — route via `branches[].target_node` or the `" ++
              fromBase ++ jsText ":<when>` handle form" }] }
    else
      { edges := [(fromBase, edge.target)], issues := endpoints }

/-- The digits of an index, as they stand in a field path. -/
def indexText (index : Nat) : JsString :=
  (decimalDigits index).map digitUnit

/-- `wireParallelNode`: each member depends on the split. -/
def wireParallelNode (nodesById : NodeTable)
    (node : ParallelNode) : Wiring where
  edges := node.parallelOf.map fun member => (node.id, member)
  issues := node.parallelOf.zipIdx.flatMap fun member =>
    unknownTarget (nodeField node.id "parallel_of[" ++ indexText member.2 ++ jsText "]")
      (quoted member.1 ++ jsText " is not a node")
      nodesById member.1

/-- `wireConditionNode`: each branch target and the default depend on the
condition. -/
def wireConditionNode (nodesById : NodeTable)
    (node : ConditionNode) : Wiring where
  edges :=
    (node.branches.map fun branch => (node.id, branch.targetNode)) ++
      node.default.toList.map fun target => (node.id, target)
  issues :=
    (node.branches.zipIdx.flatMap fun branch =>
      unknownTarget
        (nodeField node.id "branches[" ++ indexText branch.2 ++ jsText "].target_node")
        (jsText "branch target " ++ quoted branch.1.targetNode ++ jsText " is not a node")
        nodesById branch.1.targetNode) ++
    node.default.toList.flatMap fun target =>
      unknownTarget (nodeField node.id "default")
        (jsText "default target " ++ quoted target ++ jsText " is not a node")
        nodesById target

/-- The producers that the references of a text name. -/
def referencedProducers
    (references : List InterpolationReference) : List JsString :=
  references.filterMap fun reference =>
    if reference.kind = .node then some reference.identifier else none

/-- `wireDataEdges`: an edge from every referenced producer that is a node. -/
def wireDataEdges (nodesById : NodeTable)
    (text consumer : JsString) : List (JsString × JsString) :=
  ((referencedProducers (templateReferences text)).filter nodesById.has).map
    fun producer => (producer, consumer)

/-- `wireOwnDataEdges`: an edge from every producer that a template field of the
node references. -/
def wireOwnDataEdges (node : WorkflowNode) : List (JsString × JsString) :=
  (nodeReferenceSites node).flatMap fun site =>
    (referencedProducers site.references).map fun producer =>
      (producer, node.id)

/-- `validateAgentNode`: the prompt of the resolved agent orders the node too. -/
def validateAgentNode
    (checks : AuthoringChecks) (nodesById : NodeTable) (agentsById : AgentTable)
    (registrySupplied : Bool)
    (node : AgentNode) : Wiring where
  edges :=
    match agentsById.get node.agentRef with
    | none => []
    | some agent => wireDataEdges nodesById agent.systemPrompt node.id
  issues :=
    (if registrySupplied ∧ agentsById.get node.agentRef = none then
      [{
        kind := .danglingRef
        field := nodeField node.id "agent_ref"
        message := jsText "agent_ref " ++ quoted node.agentRef ++
          jsText " resolves to no agent" }]
    else []) ++
    match agentsById.get node.agentRef with
    | none => []
    | some agent => checks.toolGrantIssues node agent

/-- The wiring of one node. -/
def wireNode
    (checks : AuthoringChecks) (nodesById : NodeTable) (agentsById : AgentTable)
    (registrySupplied : Bool)
    (node : WorkflowNode) : Wiring :=
  let routing :=
    match node with
    | .parallel node => wireParallelNode nodesById node
    | .condition node => wireConditionNode nodesById node
    | .agent node =>
      validateAgentNode checks nodesById agentsById registrySupplied node
    | _ => .none
  routing.andThen { edges := wireOwnDataEdges node, issues := [] }

/-- `validateAndWireEdges`. -/
def validateAndWireEdges
    (checks : AuthoringChecks) (spec : WorkflowSpec) (nodesById : NodeTable)
    (agentsById : AgentTable)
    (registrySupplied : Bool) : Wiring :=
  (Wiring.all (spec.edges.zipIdx.map fun edge =>
      validateStructuralEdge checks nodesById edge.1 edge.2)).andThen
    (Wiring.all (spec.nodes.map (wireNode checks nodesById agentsById registrySupplied)))

/-- `resolveAgents`: the inline agents, and those of the registry under ids that
are still free. -/
def resolveAgents (spec : WorkflowSpec)
    (registry : Option AgentTable) : AgentTable :=
  let inlineAgents := spec.agents.foldl
    (fun table entry =>
      match entry with
      | .inline agent => table.set agent.id agent
      | .ref _ => table)
    OrderedMap.empty
  match registry with
  | none => inlineAgents
  | some registry =>
    registry.entries.foldl
      (fun table entry =>
        if table.has entry.1 then table else table.set entry.1 entry.2)
      inlineAgents

/-! ## The plan -/

/-- `engineType`. -/
def engineType : WorkflowNode → EngineNodeType
  | .input _ => .input
  | .agent _ => .agent
  | .humanGate _ => .humanInTheLoop
  | .condition _ => .condition
  | .transform _ => .transform
  | .parallel _ => .fanOut
  | .merge _ => .fanIn
  | .output _ => .output

/-- `producesValue`: conditions and splits gate what follows but carry no
value. -/
def producesValue : WorkflowNode → Bool
  | .condition _ => false
  | .parallel _ => false
  | _ => true

inductive JoinStrategy
  | waitAll
  | waitFirst
  deriving DecidableEq

/-- The configuration of a vertex by its type. -/
inductive PlanConfig
  | input
  | output (feederNodeIds : List JsString)
  | transform (node : TransformNode)
  | condition (node : ConditionNode)
  | humanInTheLoop (node : HumanGateNode)
  | fanOut (node : ParallelNode) (branchNodeIds : List JsString)
  | fanIn (node : MergeNode) (requestedJoinStrategy : JoinStrategy)
      (branchNodeIds : List JsString)
  | agent (node : AgentNode) (resolvedAgent : Option Agent)
  deriving DecidableEq

structure PlanVertex where
  id : JsString
  type : EngineNodeType
  /-- What the vertex waits for. -/
  dependencies : List JsString
  dependents : List JsString
  /-- Everything the vertex is ordered after. -/
  ancestors : List JsString
  inputSites : List ReferenceSite
  config : PlanConfig

structure RunPlan where
  workflowId : JsString
  order : List JsString
  vertices : OrderedMap JsString PlanVertex
  maxParallel : Option Nat

/-- Sort ids by authored position. -/
def sortAuthored (authoredIndex : OrderedMap JsString Nat)
    (ids : List JsString) : List JsString :=
  ids.insertionSort fun left right => byAuthored authoredIndex left right ≤ 0

/-- Sort ids by code unit. -/
def sortByCodeUnit (ids : List JsString) : List JsString :=
  ids.insertionSort fun left right => compareCodeUnits left right ≤ 0

/-- `computeAncestors`: over the order, each vertex inherits the closures of its
dependencies. -/
def computeAncestors (order : List JsString)
    (graph : DependencyGraph JsString) : OrderedMap JsString (List JsString) :=
  let sets : OrderedMap JsString (OrderedSet JsString) := order.foldl
    (fun sets id =>
      sets.set id
        ((graph.dependenciesOf id).elements.foldl
          (fun closure dependency =>
            ((sets.get dependency).getD .empty).elements.foldl OrderedSet.add
              (closure.add dependency))
          OrderedSet.empty))
    .empty
  sets.entries.foldl (fun sorted entry => sorted.set entry.1 (sortByCodeUnit entry.2.elements))
    .empty

/-- Whether the output of an id counts; an id without a node does. -/
def producing (nodesById : NodeTable)
    (id : JsString) : Bool :=
  match nodesById.get id with
  | none => true
  | some node => producesValue node

/-- The splits of a workflow. -/
def parallels (nodes : List WorkflowNode) : List ParallelNode :=
  nodes.filterMap fun node =>
    match node with
    | .parallel node => some node
    | _ => none

/-- The split that supplies the most branches of a merge, the first of equals;
one that supplies none never pairs. -/
def pairedParallel (spec : WorkflowSpec) (nodesById : NodeTable) (merge : JsString)
    (preds : OrderedSet JsString) : Option ParallelNode :=
  ((parallels spec.nodes).foldl
    (fun (best : Option ParallelNode × Nat) candidate =>
      if candidate.parallelOf = [] ∨
          ¬candidate.parallelOf.all (fun member =>
            member = merge ∨ member ∈ preds) then best
      else
        let cover := (candidate.parallelOf.filter fun member =>
          member ≠ merge ∧ producing nodesById member).length
        if best.2 < cover then (some candidate, cover) else best)
    (none, 0)).1

/-- `computeMergeBranchOrder`, for one merge. -/
def mergeBranches
    (spec : WorkflowSpec) (nodesById : NodeTable) (graph : DependencyGraph JsString)
    (authoredIndex : OrderedMap JsString Nat)
    (merge : JsString) : List JsString :=
  let preds := graph.dependenciesOf merge
  let ordered :=
    match pairedParallel spec nodesById merge preds with
    | none => sortAuthored authoredIndex preds.elements
    | some paired =>
      paired.parallelOf.filter (fun member => member ≠ merge) ++
        sortAuthored authoredIndex
          (preds.elements.filter fun member => member ∉ paired.parallelOf)
  ordered.filter (producing nodesById)

/-- `computeOutputFeeders`, for one output. -/
def outputFeeders (nodesById : NodeTable) (graph : DependencyGraph JsString)
    (output : JsString) : List JsString :=
  sortByCodeUnit ((graph.dependenciesOf output).elements.filter (producing nodesById))

/-- `buildConfig`. -/
def buildConfig
    (spec : WorkflowSpec) (nodesById : NodeTable) (agentsById : AgentTable)
    (graph : DependencyGraph JsString)
    (authoredIndex : OrderedMap JsString Nat) : WorkflowNode → PlanConfig
  | .input _ => .input
  | .output id => .output (outputFeeders nodesById graph id)
  | .transform node => .transform node
  | .condition node => .condition node
  | .humanGate node => .humanInTheLoop node
  | .parallel node => .fanOut node node.parallelOf
  | .merge node =>
    .fanIn node (if node.mergeStrategy = .first then .waitFirst else .waitAll)
      (mergeBranches spec nodesById graph authoredIndex node.id)
  | .agent node => .agent node (agentsById.get node.agentRef)

/-- The vertex of a node. -/
def buildVertex
    (spec : WorkflowSpec) (nodesById : NodeTable) (agentsById : AgentTable)
    (graph : DependencyGraph JsString) (authoredIndex : OrderedMap JsString Nat)
    (ancestors : OrderedMap JsString (List JsString))
    (node : WorkflowNode) : PlanVertex where
  id := node.id
  type := engineType node
  dependencies :=
    sortAuthored authoredIndex (graph.dependenciesOf node.id).elements
  dependents := sortAuthored authoredIndex (graph.dependentsOf node.id).elements
  ancestors := (ancestors.get node.id).getD []
  inputSites := nodeReferenceSites node
  config := buildConfig spec nodesById agentsById graph authoredIndex node

/-- `extractCycle`'s walk: from a stuck node to its authored-first stuck
predecessor, until one comes again. -/
def walkCycle
    (stuck : JsString → Bool) (graph : DependencyGraph JsString)
    (authoredIndex : OrderedMap JsString Nat) :
    Nat → List JsString → JsString → List JsString
  | 0, path, _ => path
  | fuel + 1, path, current =>
    if current ∈ path then
      let loop := (path.drop (path.idxOf current)).reverse
      loop ++ loop.head?.toList
    else
      match (sortAuthored authoredIndex
          ((graph.dependenciesOf current).elements.filter stuck)).head? with
      | none => path ++ [current]
      | some next => walkCycle stuck graph authoredIndex fuel (path ++ [current]) next

/-- `extractCycle`. -/
def extractCycle (nodeIds order : List JsString) (graph : DependencyGraph JsString)
    (authoredIndex : OrderedMap JsString Nat) : List JsString :=
  let stuck := fun id => decide (id ∉ order)
  match nodeIds.find? stuck with
  | none => []
  | some start =>
    walkCycle stuck graph authoredIndex (nodeIds.length + 1) [] start

/-- Names joined by arrows. -/
def arrowText : List JsString → JsString
  | [] => []
  | [name] => name
  | name :: rest => name ++ jsText " → " ++ arrowText rest

/-- The issue of an order that leaves nodes out. -/
def cycleIssues (nodeIds order : List JsString) (graph : DependencyGraph JsString)
    (authoredIndex : OrderedMap JsString Nat) : List GraphIssue :=
  if order.length < nodeIds.length then
    let cycle := extractCycle nodeIds order graph authoredIndex
    if cycle = [] then
      [{
        kind := .cycle
        field := jsText "workflow.nodes"
        message := jsText "the workflow has a dependency cycle" }]
    else
      [{
        kind := .cycle
        field := arrowText cycle
        message :=
          jsText "the workflow has a dependency cycle: " ++ arrowText cycle }]
  else []

/-- Why no plan is built. -/
inductive PlanError
  | secretLeak (leaks : List JsString)
  | graph (issues : List GraphIssue)

/-- The graph that a workflow is wired into. -/
def wiredGraph (spec : WorkflowSpec)
    (wiring : Wiring) : DependencyGraph JsString :=
  (DependencyGraph.ofNodes spec.nodeIds).addEdges wiring.edges

/-- The order of a graph; the loop takes a turn for each node. -/
def planOrder (nodeIds : List JsString)
    (graph : DependencyGraph JsString) : List JsString :=
  (kahnOrder (nodeIds.length + 1) nodeIds graph (authoredPositions nodeIds)).getD []

/-- `collectClosureIssues`: the closures, where the graph is sound. -/
def soundAncestors (nodeIds order : List JsString) (graph : DependencyGraph JsString)
    (issues : List GraphIssue) : Option (OrderedMap JsString (List JsString)) :=
  if order.length = nodeIds.length ∧
      ¬issues.any (fun issue => issue.kind = .ceilingExceeded) then
    some (computeAncestors order graph)
  else none

/-- `buildRunPlan`, with the registry of resolved agents if there is one. -/
def buildRunPlan (checks : AuthoringChecks) (spec : WorkflowSpec)
    (registry : Option AgentTable) : Except PlanError RunPlan :=
  let nodesById := indexNodes spec.nodes
  let authoredIndex := authoredPositions spec.nodeIds
  let agentsById := resolveAgents spec registry
  let leaks := checks.agentLeaks spec registry
  if leaks ≠ [] then .error (.secretLeak leaks)
  else
    let wiring :=
      validateAndWireEdges checks spec nodesById agentsById registry.isSome
    let graph := wiredGraph spec wiring
    let order := planOrder spec.nodeIds graph
    let found := checks.ceilingIssues spec agentsById ++ wiring.issues ++
      cycleIssues spec.nodeIds order graph authoredIndex
    let closures := soundAncestors spec.nodeIds order graph found
    let issues := found ++ (closures.map (checks.unorderedReadIssues spec)).getD [] ++
      checks.outputSchemaIssues spec agentsById
    if issues ≠ [] then .error (.graph issues)
    else
      .ok {
        workflowId := spec.id
        order
        vertices := spec.nodes.foldl
          (fun vertices node =>
            vertices.set node.id
              (buildVertex spec nodesById agentsById graph authoredIndex
                (closures.getD .empty) node))
          .empty
        maxParallel := spec.maxParallel }

end Relavium.Plan
