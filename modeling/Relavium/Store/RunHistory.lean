import Relavium.Library.DoubleInteger
import Relavium.Library.Json
import Relavium.Library.Transaction
import Relavium.Shared.Constants
import Relavium.Store.RunLease

/-!
# The run-history store

Model of the writing half of `packages/db/src/run-history-store.ts` for one
run: every durable event is folded in one transaction, which checks the append
guard, the fence and the terminal rule, applies the derived writes and appends
the event row.
-/

namespace Relavium.Store

open Library
open Library.Statements

/-! ## Events -/

/-- Tokens of a node or a run. -/
structure TokensUsed where
  input : Nat
  output : Nat
  deriving DecidableEq

/-- The types of durable events without derived writes. -/
inductive UnderivedEventType
  | nodeSkipped
  | mediaJobSubmitted
  | runTimeout
  | budgetWarning
  | budgetEstimateCommitted
  | costUpdated
  | costCoverageStarted
  | costUsagePending
  | costUsageDisposition
  | agentToken
  | agentReasoning
  | agentToolCall
  | agentToolResult
  | agentApprovalRequested
  | agentFilePatchProposed
  deriving DecidableEq

/-- The discriminator of a run event. -/
inductive EventType
  | runStarted
  | nodeStarted
  | nodeCompleted
  | nodeRetrying
  | nodeFailed
  | costAttemptSettled
  | humanGatePaused
  | budgetPaused
  | runPaused
  | budgetAuthorization
  | humanGateResumed
  | runCompleted
  | runFailed
  | runCancelled
  | underived (type : UnderivedEventType)
  deriving DecidableEq

/-- `TERMINAL_EVENT_TYPES`: a log holds at most one of these. -/
def EventType.isTerminal : EventType → Bool
  | .runCompleted => true
  | .runFailed => true
  | .runCancelled => true
  | _ => false

/-- What the store reads of an event beyond its envelope. -/
inductive EventBody
  | runStarted (workflowId : String) (inputs : Json) (executionMode : ExecutionMode)
  | nodeStarted (nodeId : String) (nodeType : EngineNodeType) (attemptNumber : Option Nat)
  | nodeCompleted (nodeId : String) (output : Option Json) (tokensUsed : TokensUsed)
      (durationMs : Nat)
      (cumulativeCostMicrocents : Option Nat)
      (attemptNumber : Option Nat)
  | nodeRetrying (nodeId : String) (error : Json) (attemptNumber : Nat)
  | nodeFailed (nodeId : String) (error : Json) (cumulativeCostMicrocents : Option Nat)
      (attemptNumber : Option Nat)
  | costAttemptSettled (nodeId : String) (inputTokens outputTokens : Nat) (costMicrocents : Nat)
      (cumulativeCostMicrocents : Nat)
  | humanGatePaused (nodeId : String)
  | budgetPaused (nodeId : String)
  | runPaused
  | budgetAuthorization (nodeId : String) (paused : Bool)
  | humanGateResumed (nodeId : String)
  | runCompleted (outputs : Json) (totalTokensUsed : TokensUsed) (totalCostMicrocents : Nat)
  | runFailed (error : Json) (partialOutputs : Json) (cumulativeCostMicrocents : Option Nat)
  | runCancelled (cumulativeCostMicrocents : Option Nat)
  | underived (type : UnderivedEventType) (nodeId : Option String)
  deriving DecidableEq

namespace EventBody

/-- `event.type`. -/
def type : EventBody → EventType
  | .runStarted _ _ _ => .runStarted
  | .nodeStarted _ _ _ => .nodeStarted
  | .nodeCompleted _ _ _ _ _ _ => .nodeCompleted
  | .nodeRetrying _ _ _ => .nodeRetrying
  | .nodeFailed _ _ _ _ => .nodeFailed
  | .costAttemptSettled _ _ _ _ _ => .costAttemptSettled
  | .humanGatePaused _ => .humanGatePaused
  | .budgetPaused _ => .budgetPaused
  | .runPaused => .runPaused
  | .budgetAuthorization _ _ => .budgetAuthorization
  | .humanGateResumed _ => .humanGateResumed
  | .runCompleted _ _ _ => .runCompleted
  | .runFailed _ _ _ => .runFailed
  | .runCancelled _ => .runCancelled
  | .underived type _ => .underived type

/-- The node that an event names. -/
def nodeId : EventBody → Option String
  | .nodeStarted nodeId _ _ => some nodeId
  | .nodeCompleted nodeId _ _ _ _ _ => some nodeId
  | .nodeRetrying nodeId _ _ => some nodeId
  | .nodeFailed nodeId _ _ _ => some nodeId
  | .costAttemptSettled nodeId _ _ _ _ => some nodeId
  | .humanGatePaused nodeId => some nodeId
  | .budgetPaused nodeId => some nodeId
  | .budgetAuthorization nodeId _ => some nodeId
  | .humanGateResumed nodeId => some nodeId
  | .underived _ nodeId => nodeId
  | _ => none

end EventBody

/-- A validated event of the run.  `timestamp` is in epoch ms. -/
structure DurableEvent where
  sequenceNumber : Nat
  timestamp : Int
  body : EventBody
  deriving DecidableEq

/-- `DurableWriteContext`: what the writer believes about the log and the fence
it holds. -/
structure DurableWriteContext where
  expectedLastSequenceNumber : Option Int
  fence : Option Fence

/-! ## Tables -/

inductive RunStatus
  | pending
  | running
  | paused
  | completed
  | failed
  | cancelled
  deriving DecidableEq

inductive StepStatus
  | pending
  | running
  | completed
  | failed
  | skipped
  deriving DecidableEq

/-- A row of `runs`.  A JSON column holds the value that was written out. -/
structure RunRow where
  workflowId : String
  projectRoot : Option String
  workflowDefinitionSnapshot : String
  status : RunStatus
  executionMode : ExecutionMode
  triggerType : String
  inputJson : Json
  outputJson : Option Json
  errorJson : Option Json
  startedAt : Option Int
  completedAt : Option Int
  totalInputTokens : Nat
  totalOutputTokens : Nat
  totalCostMicrocents : Nat
  createdAt : Int
  updatedAt : Int
  deriving DecidableEq

/-- A row of `step_executions`. -/
structure StepExecutionRow where
  nodeId : String
  nodeType : EngineNodeType
  attemptNumber : Nat
  status : StepStatus
  outputJson : Option Json
  errorJson : Option Json
  startedAt : Option Int
  completedAt : Option Int
  durationMs : Option Nat
  inputTokens : Nat
  outputTokens : Nat
  costMicrocents : Nat
  createdAt : Int
  updatedAt : Int
  deriving DecidableEq

/-- A row of `run_costs`. -/
structure RunCostRow where
  nodeId : String
  inputTokens : Nat
  outputTokens : Nat
  costMicrocents : Nat
  createdAt : Int
  deriving DecidableEq

/-- A row of `run_events`, with the event as its payload. -/
structure RunEventRow where
  seq : Nat
  eventType : EventType
  nodeId : Option String
  payload : DurableEvent
  ts : Int
  deriving DecidableEq

/-- What the database holds for a run.  `workflowIds` are the catalogued
workflows. -/
structure RunTables where
  workflowIds : List String
  run : Option RunRow
  steps : List StepExecutionRow
  costs : List RunCostRow
  events : List RunEventRow
  lease : Option RunLeaseRow
  deriving DecidableEq

/-- A database that knows nothing of the run. -/
def RunTables.empty (workflowIds : List String) : RunTables where
  workflowIds
  run := none
  steps := []
  costs := []
  events := []
  lease := none

/-- `SUM(run_costs.cost_microcents)`. -/
def RunTables.settledCost (tables : RunTables) : Nat :=
  (tables.costs.map RunCostRow.costMicrocents).sum

/-- `runs.total_cost_microcents`, or zero without a row. -/
def RunTables.currentRunCost (tables : RunTables) : Nat :=
  (tables.run.map RunRow.totalCostMicrocents).getD 0

/-- `max(seq)`, or -1 for an empty log. -/
def RunTables.lastSequenceNumber (tables : RunTables) : Int :=
  ((tables.events.map RunEventRow.seq).max?.map Int.ofNat).getD (-1)

/-- Why a durable write is refused. -/
inductive PersistError
  /-- `AppendConflictError`; the event's own number is named when it is what
  was wrong. -/
  | appendConflict (expected actual : Int) (incoming : Option Nat)
  | leaseFenced (error : LeaseFencedError)
  | runAlreadyTerminal
  /-- A row that the statement refers to is missing. -/
  | foreignKey
  /-- The key of the row is taken. -/
  | uniqueness
  deriving DecidableEq

/-! ## Statements -/

/-- Statements of a durable write. -/
abbrev DurableWrite : Type :=
  Statements RunTables PersistError Unit

/-- Refuses a statement whose row refers to a run that is not there. -/
def requireRun : DurableWrite := do
  let run ← select RunTables.run
  require run.isSome .foreignKey

/-- `UPDATE runs … WHERE id = :runId`. -/
def updateRun (set : RunRow → RunRow) : DurableWrite :=
  update fun tables => { tables with run := tables.run.map set }

/-- `INSERT INTO run_costs`. -/
def insertRunCost (row : RunCostRow) : DurableWrite := do
  requireRun
  update fun tables => { tables with costs := tables.costs ++ [row] }

/-- `UPDATE step_executions … WHERE` run, node and attempt match. -/
def updateStep (nodeId : String) (attemptNumber : Option Nat)
    (set : StepExecutionRow → StepExecutionRow) : DurableWrite :=
  update fun tables => {
    tables with
    steps := tables.steps.map fun row =>
      if row.nodeId = nodeId ∧ row.attemptNumber = attemptNumber.getD 1 then
        set row
      else row }

/-- `INSERT INTO run_events`. -/
def insertRunEvent (row : RunEventRow) : DurableWrite := do
  requireRun
  let taken ← select fun tables => tables.events.map RunEventRow.seq
  require (row.seq ∉ taken) .uniqueness
  update fun tables => { tables with events := tables.events ++ [row] }

/-! ## Derived writes -/

/-- `Math.max(0, cumulative - prev)`. -/
def chargedSince (cumulative : Nat)
    (prev : Nat) : Nat :=
  nearestDouble (cumulative - prev)

/-- The micro-cents that `run_costs` holds for one node. -/
def nodeSettledCost (tables : RunTables)
    (nodeId : String) : Nat :=
  nearestDouble
    ((tables.costs.filter fun row => row.nodeId = nodeId).map RunCostRow.costMicrocents).sum

/-- Closes an attempt's row as failed. -/
def failStepRow (nodeId : String) (error : Json) (attemptNumber : Option Nat)
    (ts : Int) : DurableWrite :=
  updateStep nodeId attemptNumber fun row => {
    row with
    status := .failed
    errorJson := some error
    completedAt := some ts
    updatedAt := ts }

/-- Books what a cumulative snapshot adds to the money of record: a row of
`run_costs` and the new total of the run, or nothing where it adds nothing. -/
def foldCumulative (cumulative : Option Nat) (ts : Int)
    (nodeId : String) : DurableWrite := do
  match cumulative with
  | none => pure ()
  | some cumulative =>
    let prev ← select RunTables.currentRunCost
    let delta := chargedSince cumulative prev
    if delta = 0 then pure ()
    else
      insertRunCost {
        nodeId
        inputTokens := 0
        outputTokens := 0
        costMicrocents := delta
        createdAt := ts }
      updateRun fun row => {
        row with
        totalCostMicrocents := nearestDouble (prev + delta)
        updatedAt := ts }

/-- The node id of a run-level addend: no authored node has the empty one. -/
def runLevelCostNodeId : String := ""

/-- `run:started` inserts the `runs` row. -/
def applyRunStarted
    (snapshot : String) (projectRoot : Option String) (workflowId : String) (inputs : Json)
    (executionMode : ExecutionMode)
    (ts : Int) : DurableWrite := do
  let workflowIds ← select RunTables.workflowIds
  require (workflowId ∈ workflowIds) .foreignKey
  let run ← select RunTables.run
  require (run = none) .uniqueness
  update fun tables => {
    tables with
    run := some {
      workflowId
      projectRoot
      workflowDefinitionSnapshot := snapshot
      status := .running
      executionMode
      triggerType := "manual"
      inputJson := inputs
      outputJson := none
      errorJson := none
      startedAt := some ts
      completedAt := none
      totalInputTokens := 0
      totalOutputTokens := 0
      totalCostMicrocents := 0
      createdAt := ts
      updatedAt := ts } }

/-- `node:started` inserts the row of an attempt. -/
def applyNodeStarted (nodeId : String) (nodeType : EngineNodeType) (attemptNumber : Option Nat)
    (ts : Int) : DurableWrite := do
  requireRun
  update fun tables => {
    tables with
    steps := tables.steps ++ [{
      nodeId
      nodeType
      attemptNumber := attemptNumber.getD 1
      status := .running
      outputJson := none
      errorJson := none
      startedAt := some ts
      completedAt := none
      durationMs := none
      inputTokens := 0
      outputTokens := 0
      costMicrocents := 0
      createdAt := ts
      updatedAt := ts }] }

/-- `node:completed` books the charge since the last boundary, even an empty
one, and closes the step row with everything booked for the node. -/
def applyNodeCompleted
    (nodeId : String) (output : Option Json) (tokensUsed : TokensUsed) (durationMs : Nat)
    (cumulativeCostMicrocents : Option Nat) (attemptNumber : Option Nat)
    (ts : Int) : DurableWrite := do
  let prev ← select RunTables.currentRunCost
  let nodeCost := chargedSince (cumulativeCostMicrocents.getD prev) prev
  insertRunCost {
    nodeId
    inputTokens := tokensUsed.input
    outputTokens := tokensUsed.output
    costMicrocents := nodeCost
    createdAt := ts }
  let settled ← select fun tables => nodeSettledCost tables nodeId
  updateStep nodeId attemptNumber fun row => {
    row with
    status := .completed
    -- An undefined output sets no column.
    outputJson := output.or row.outputJson
    inputTokens := tokensUsed.input
    outputTokens := tokensUsed.output
    costMicrocents := settled
    durationMs := some durationMs
    completedAt := some ts
    updatedAt := ts }
  updateRun fun row => {
    row with
    totalInputTokens := row.totalInputTokens + tokensUsed.input
    totalOutputTokens := row.totalOutputTokens + tokensUsed.output
    totalCostMicrocents := nearestDouble (prev + nodeCost)
    updatedAt := ts }

/-- `node:failed` closes the step row and books its snapshot. -/
def applyNodeFailed
    (nodeId : String) (error : Json) (cumulativeCostMicrocents : Option Nat)
    (attemptNumber : Option Nat)
    (ts : Int) : DurableWrite := do
  failStepRow nodeId error attemptNumber ts
  foldCumulative cumulativeCostMicrocents ts nodeId
  let settled ← select fun tables => nodeSettledCost tables nodeId
  updateStep nodeId attemptNumber fun row => {
    row with
    costMicrocents := settled
    updatedAt := ts }

/-- `cost:attempt_settled` books the charge since the last total, even an empty
one, for the tokens of its row are real. -/
def applyAttemptSettled
    (nodeId : String) (inputTokens outputTokens : Nat) (cumulativeCostMicrocents : Nat)
    (ts : Int) : DurableWrite := do
  let prev ← select RunTables.currentRunCost
  let attemptCost := chargedSince cumulativeCostMicrocents prev
  insertRunCost {
    nodeId
    inputTokens
    outputTokens
    costMicrocents := attemptCost
    createdAt := ts }
  updateRun fun row => {
    row with
    totalCostMicrocents := nearestDouble (prev + attemptCost)
    updatedAt := ts }

/-- An event that only moves the status of the run. -/
def applyStatus (status : RunStatus)
    (ts : Int) : DurableWrite :=
  updateRun fun row => { row with status, updatedAt := ts }

/-- `run:completed` sets the closing totals that the event carries. -/
def applyRunCompleted (outputs : Json) (totalTokensUsed : TokensUsed) (totalCostMicrocents : Nat)
    (ts : Int) : DurableWrite :=
  updateRun fun row => {
    row with
    status := .completed
    outputJson := some outputs
    totalInputTokens := totalTokensUsed.input
    totalOutputTokens := totalTokensUsed.output
    totalCostMicrocents
    completedAt := some ts
    updatedAt := ts }

/-- `run:failed` books its snapshot for no node and closes the run. -/
def applyRunFailed (error : Json) (partialOutputs : Json) (cumulativeCostMicrocents : Option Nat)
    (ts : Int) : DurableWrite := do
  foldCumulative cumulativeCostMicrocents ts runLevelCostNodeId
  updateRun fun row => {
    row with
    status := .failed
    errorJson := some error
    outputJson := some partialOutputs
    completedAt := some ts
    updatedAt := ts }

/-- `run:cancelled` books its snapshot for no node and closes the run. -/
def applyRunCancelled (cumulativeCostMicrocents : Option Nat)
    (ts : Int) : DurableWrite := do
  foldCumulative cumulativeCostMicrocents ts runLevelCostNodeId
  updateRun fun row => {
    row with
    status := .cancelled
    completedAt := some ts
    updatedAt := ts }

/-- What a store is opened with. -/
structure RunHistoryStoreDeps where
  /-- `workflow.definitionJson`. -/
  definitionJson : String
  projectRoot : Option String

/-- `applyDerived`. -/
def applyDerived (deps : RunHistoryStoreDeps)
    (ts : Int) : EventBody → DurableWrite
  | .runStarted workflowId inputs executionMode =>
    applyRunStarted deps.definitionJson deps.projectRoot workflowId inputs executionMode ts
  | .nodeStarted nodeId nodeType attemptNumber =>
    applyNodeStarted nodeId nodeType attemptNumber ts
  | .nodeCompleted nodeId output tokensUsed durationMs cumulative attemptNumber =>
    applyNodeCompleted nodeId output tokensUsed durationMs cumulative attemptNumber ts
  | .nodeRetrying nodeId error attemptNumber =>
    failStepRow nodeId error (some attemptNumber) ts
  | .nodeFailed nodeId error cumulative attemptNumber =>
    applyNodeFailed nodeId error cumulative attemptNumber ts
  | .costAttemptSettled nodeId inputTokens outputTokens _ cumulative =>
    applyAttemptSettled nodeId inputTokens outputTokens cumulative ts
  | .humanGatePaused _ => applyStatus .paused ts
  | .budgetPaused _ => applyStatus .paused ts
  | .runPaused => applyStatus .paused ts
  | .budgetAuthorization _ paused =>
    applyStatus (if paused then .paused else .running) ts
  | .humanGateResumed _ => applyStatus .running ts
  | .runCompleted outputs totalTokensUsed totalCostMicrocents =>
    applyRunCompleted outputs totalTokensUsed totalCostMicrocents ts
  | .runFailed error partialOutputs cumulative =>
    applyRunFailed error partialOutputs cumulative ts
  | .runCancelled cumulative => applyRunCancelled cumulative ts
  -- An estimate, a skip or a submission moves no money of record.
  | .underived _ _ => pure ()

/-! ## Persisting an event -/

/-- The append guard: the log ends where the writer expects, and the event is
ahead of it. -/
def checkAppend (expected : Option Int)
    (sequenceNumber : Nat) : DurableWrite := do
  match expected with
  | none => pure ()
  | some expected =>
    let actual ← select RunTables.lastSequenceNumber
    require (actual = expected) (.appendConflict expected actual none)
    require (actual < sequenceNumber) (.appendConflict expected actual (some sequenceNumber))

/-- The fence check, against the lease row of the same transaction. -/
def checkWriteFence (fence : Option Fence) : DurableWrite := do
  let lease ← select RunTables.lease
  match checkFence fence lease with
  | .ok () => pure ()
  | .error fenced => refuse (.leaseFenced fenced)

/-- A terminal is refused when the log already holds one. -/
def checkTerminal (type : EventType) : DurableWrite := do
  if type.isTerminal then
    let prior ← select fun tables =>
      tables.events.any fun row => row.eventType.isTerminal
    require (prior = false) .runAlreadyTerminal
  else pure ()

/-- `fold`: the checks, the derived writes and the append of one event. -/
def fold (deps : RunHistoryStoreDeps) (event : DurableEvent)
    (ctx : Option DurableWriteContext) : DurableWrite := do
  checkAppend (ctx.bind DurableWriteContext.expectedLastSequenceNumber) event.sequenceNumber
  checkWriteFence (ctx.bind DurableWriteContext.fence)
  checkTerminal event.body.type
  applyDerived deps event.timestamp event.body
  insertRunEvent {
    seq := event.sequenceNumber
    eventType := event.body.type
    nodeId := event.body.nodeId
    payload := event
    ts := event.timestamp }

/-- `persistEvent`: one immediate transaction around the fold. -/
def persistEvent
    (deps : RunHistoryStoreDeps) (event : DurableEvent) (ctx : Option DurableWriteContext)
    (tables : RunTables) : Except PersistError Unit × RunTables :=
  transaction (fold deps event ctx) tables

end Relavium.Store
