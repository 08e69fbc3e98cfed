import Relavium.Library.JsValue
import Relavium.Shared.Constants

/-!
# Workflow definitions

The authored workflow of `packages/shared/src/workflow.ts`, `node.ts` and
`edge.ts`, as it stands after validation, with the fields that planning, the
run loop and interpolation read.
-/

namespace Relavium.Shared

open Library

/-- The declared type of an input. -/
inductive InputType
  | string
  | number
  | boolean
  | filePath
  | codeDiff
  | secret
  deriving DecidableEq

/-- The checks on a declared input. -/
structure InputValidation where
  format : Option JsString
  /-- The source of a regular expression. -/
  pattern : Option JsString
  enum : Option (List JsValue)
  min : Option JsNumber
  max : Option JsNumber
  minLength : Option Nat
  maxLength : Option Nat

structure WorkflowInput where
  name : JsString
  type : InputType
  default : Option JsValue
  required : Option Bool := none
  validation : Option InputValidation := none

/-- A shared variable. -/
structure ContextEntry where
  key : JsString
  value : JsString

/-- A retry budget: attempts including the first, and the codes that use it. -/
structure Retry where
  max : Nat
  retryOn : Option (List ErrorCode)
  deriving DecidableEq

/-- An agent, inline or resolved from the registry. -/
structure Agent where
  id : JsString
  systemPrompt : JsString
  retry : Option Retry := none
  deriving DecidableEq

/-- An entry of the `agents` section. -/
inductive AgentEntry
  | inline (agent : Agent)
  /-- A `$ref` to an agent file. -/
  | ref (path : JsString)

structure AgentNode where
  id : JsString
  agentRef : JsString
  systemPromptAppend : Option JsString
  promptTemplate : Option JsString
  retry : Option Retry := none
  deriving DecidableEq

structure HumanGateNode where
  id : JsString
  assignee : Option JsString
  messageTemplate : Option JsString
  deriving DecidableEq

/-- The value a branch of a condition is taken on. -/
inductive BranchValue
  | boolean (value : Bool)
  | string (value : JsString)
  | number (value : JsNumber)
  deriving DecidableEq

structure ConditionBranch where
  when : BranchValue
  targetNode : JsString
  deriving DecidableEq

structure ConditionNode where
  id : JsString
  expression : JsString
  branches : List ConditionBranch
  default : Option JsString
  retry : Option Retry := none
  deriving DecidableEq

structure TransformNode where
  id : JsString
  transform : JsString
  retry : Option Retry := none
  deriving DecidableEq

/-- `parallelOf` names each member once. -/
structure ParallelNode where
  id : JsString
  parallelOf : List JsString
  distinctMembers : parallelOf.Nodup
  deriving DecidableEq

/-- `MERGE_STRATEGIES`. -/
inductive MergeStrategy
  | concat
  | objectMerge
  | first
  | custom
  deriving DecidableEq

structure MergeNode where
  id : JsString
  mergeStrategy : MergeStrategy
  mergeFn : Option JsString
  retry : Option Retry := none
  deriving DecidableEq

inductive WorkflowNode
  | input (id : JsString)
  | agent (node : AgentNode)
  | humanGate (node : HumanGateNode)
  | condition (node : ConditionNode)
  | transform (node : TransformNode)
  | parallel (node : ParallelNode)
  | merge (node : MergeNode)
  | output (id : JsString)

namespace WorkflowNode

/-- The authored id of a node. -/
def id : WorkflowNode → JsString
  | .input id => id
  | .agent node => node.id
  | .humanGate node => node.id
  | .condition node => node.id
  | .transform node => node.id
  | .parallel node => node.id
  | .merge node => node.id
  | .output id => id

end WorkflowNode

/-- An edge, from a node id that may carry a `:handle`, to a node id. -/
structure Edge where
  source : JsString
  target : JsString

/-- A validated workflow: no two of its nodes share an id. -/
structure WorkflowSpec where
  id : JsString
  inputs : List WorkflowInput
  context : List ContextEntry
  agents : List AgentEntry
  nodes : List WorkflowNode
  edges : List Edge
  maxParallel : Option Nat
  distinctIds : (nodes.map WorkflowNode.id).Nodup

/-- The ids of the nodes, in authored order. -/
def WorkflowSpec.nodeIds (spec : WorkflowSpec) : List JsString :=
  spec.nodes.map WorkflowNode.id

end Relavium.Shared
