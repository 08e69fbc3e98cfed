import Relavium.Library.DoubleInteger
import Relavium.Run.NodeLifeClock

/-!
# Checkpoint reconstruction

Model of `packages/core/src/engine/checkpoint.ts`: the fold over the persisted
events of a run, and the checkpoint it derives.
-/

namespace Relavium.Run

open Library
open Relavium.Usage (UsageCoverageFold UsageCoverageInvariantError
  UsageCoverageSnapshot)

inductive CheckpointStatus
  | completed
  | failed
  | skipped
  | paused
  deriving DecidableEq

structure CheckpointNodeState where
  status : CheckpointStatus
  output : Option Json
  error : Option NodeFailure
  selectedTargets : Option (List String)

inductive RunStatus
  | pending
  | running
  | paused
  | completed
  | failed
  | cancelled

/-- Why a log is refused. -/
inductive ReconstructionError
  | corruptRunEvent (sequenceNumber : Nat) (cause : UsageCoverageInvariantError)
  | corruptSuspension (code : RunSuspensionCorruption)

/-- The accumulator of the fold. -/
structure Reconstructor where
  coverage : UsageCoverageFold
  started : Bool
  runId : String
  workflowId : String
  startedAtMs : Option Int
  admittedInputs : List (JsString × Json)
  executionMode : ExecutionMode
  runStatus : RunStatus
  lastSequenceNumber : Int
  totalInputTokens : Int
  totalOutputTokens : Int
  nodeDispatches : Nat
  cumulativeCostMicrocents : Int
  conservativeCostMicrocents : Int
  nodeStates : OrderedMap String CheckpointNodeState
  suspensions : RunSuspensionReducer
  nodeLife : NodeLifeClockReducer
  ledgerUnpricedCalls : Nat
  snapshotUnpricedCalls : Nat

namespace CheckpointNodeState

/-- A node state with a status and nothing else. -/
def bare (status : CheckpointStatus) : CheckpointNodeState where
  status
  output := none
  error := none
  selectedTargets := none

/-- Whether the node has settled. -/
def settled (state : CheckpointNodeState) : Bool :=
  state.status != .paused

end CheckpointNodeState

/-- The part of the coverage fold that reads run events. -/
def applyCoverage (coverage : UsageCoverageFold) :
    EventBody → Except UsageCoverageInvariantError UsageCoverageFold
  | .costCoverageStarted basis => coverage.start basis
  | .costUsagePending model invocation => coverage.recordPending model invocation
  | .costUsageDisposition model invocation disposition receiptPending =>
    .ok (coverage.disposition model invocation disposition receiptPending).2
  | .costUpdated model (some invocation) _ =>
    .ok (coverage.complete model invocation).2
  | .costAttemptSettled model (some invocation) _ _ =>
    .ok (coverage.complete model invocation).2
  | _ => .ok coverage

/-- The object `{ decision }`, which stands for a missing gate payload. -/
def decisionOutput (decision : GateDecisionValue) : Json :=
  let text :=
    match decision with
    | .approved => "approved"
    | .rejected => "rejected"
    | .inputProvided => "input_provided"
  .object [("decision".toList.map fun char => char.toNat.toUInt16,
    .string (text.toList.map fun char => char.toNat.toUInt16))]

namespace Reconstructor

def fresh : Reconstructor where
  coverage := .fresh
  started := false
  runId := ""
  workflowId := ""
  startedAtMs := some 0
  admittedInputs := []
  executionMode := .local'
  runStatus := .running
  lastSequenceNumber := -1
  totalInputTokens := 0
  totalOutputTokens := 0
  nodeDispatches := 0
  cumulativeCostMicrocents := 0
  conservativeCostMicrocents := 0
  nodeStates := .empty
  suspensions := .fresh
  nodeLife := .fresh
  ledgerUnpricedCalls := 0
  snapshotUnpricedCalls := 0

/-- Raise the realized cost to an absolute total, when there is one. -/
def raiseCost (acc : Reconstructor) (total : Option Int) : Reconstructor :=
  match total with
  | none => acc
  | some total =>
    { acc with
      cumulativeCostMicrocents := max acc.cumulativeCostMicrocents total }

def setNode (acc : Reconstructor) (nodeId : String)
    (state : CheckpointNodeState) : Reconstructor :=
  { acc with nodeStates := acc.nodeStates.set nodeId state }

/-- The unpriced calls, by both of their sources. -/
def applyUnpriced (acc : Reconstructor) (event : RunEvent) : Reconstructor :=
  { acc with
    ledgerUnpricedCalls :=
      match event.body with
      | .costAttemptSettled _ _ _ true => acc.ledgerUnpricedCalls + 1
      | _ => acc.ledgerUnpricedCalls
    snapshotUnpricedCalls :=
      max acc.snapshotUnpricedCalls (event.envelope.cumulativeUnpricedCalls.getD 0) }

/-- The cost events. -/
def applyCost (acc : Reconstructor) : EventBody → Reconstructor
  | .costUpdated _ _ total => { acc with cumulativeCostMicrocents := total }
  | .budgetEstimateCommitted estimate =>
    { acc with
      conservativeCostMicrocents :=
        addNumbers acc.conservativeCostMicrocents estimate }
  | .costAttemptSettled _ _ total _ => acc.raiseCost (some total)
  | _ => acc

def applyRunEvent (acc : Reconstructor) (event : RunEvent) : Reconstructor :=
  match event.body with
  | .runStarted workflowId inputs executionMode =>
    { acc with
      started := true
      runId := event.runId
      workflowId
      startedAtMs := event.envelope.timestampMs
      admittedInputs := inputs
      executionMode
      runStatus := .running }
  | .runPaused => { acc with runStatus := .paused }
  | .runCompleted => { acc with runStatus := .completed }
  | .runFailed => { acc with runStatus := .failed }
  | .runCancelled => { acc with runStatus := .cancelled }
  | _ => acc

def applyNodeEvent (acc : Reconstructor) (event : RunEvent) : Reconstructor :=
  match event.body with
  | .nodeCompleted nodeId output selected inputTokens outputTokens =>
    { acc.setNode nodeId
        { status := .completed
          output
          error := none
          selectedTargets := selected } with
      totalInputTokens := addNumbers acc.totalInputTokens inputTokens
      totalOutputTokens := addNumbers acc.totalOutputTokens outputTokens }
      |>.raiseCost event.envelope.cumulativeCostMicrocents
  | .nodeFailed nodeId error =>
    (acc.setNode nodeId
      { status := .failed
        output := none
        error := some error
        selectedTargets := none }).raiseCost
      event.envelope.cumulativeCostMicrocents
  | .nodeSkipped nodeId => acc.setNode nodeId (.bare .skipped)
  | .nodeStarted _ _ _ => { acc with nodeDispatches := acc.nodeDispatches + 1 }
  | _ => acc

/-- A submitted media job parks its node, unless the node has settled. -/
def applyMediaJobEvent (acc : Reconstructor) : EventBody → Reconstructor
  | .mediaJobSubmitted job =>
    if (acc.nodeStates.get job.nodeId).any CheckpointNodeState.settled then acc
    else acc.setNode job.nodeId (.bare .paused)
  | _ => acc

/-- A gate transition. -/
def applyGateEvent (acc : Reconstructor) (transition : Option GateTransition) :
    Except ReconstructionError Reconstructor :=
  match transition with
  | none => .ok acc
  | some transition =>
    if !acc.started then .ok acc
    else if transition.gate.runId ≠ acc.runId then
      .error (.corruptSuspension .gateIdentityConflict)
    else
      .ok <|
        match transition with
        | .paused gate => acc.setNode gate.nodeId (.bare .paused)
        | .humanDecided gate event =>
          acc.setNode gate.nodeId
            { status := .completed
              output := some (event.payload.getD (decisionOutput event.decision))
              error := none
              selectedTargets := none }
        | .budgetDecided gate .approved =>
          { acc with nodeStates := acc.nodeStates.delete gate.nodeId }
        | .budgetDecided gate .rejected =>
          acc.setNode gate.nodeId
            { status := .failed
              output := none
              error := some
                { code := .budgetExceeded
                  message := "budget authorization was rejected"
                  retryable := false }
              selectedTargets := none }

/-- The cost observations of a budget pause. -/
def applyPauseCost (acc : Reconstructor) : EventBody → Reconstructor
  | .budgetPaused event => acc.raiseCost (some event.spentMicrocents)
  | .budgetAuthorization { authorization := .paused authority, .. } =>
    acc.raiseCost (some authority.spentMicrocents)
  | _ => acc

/-- The stores of one event before its gate transition is known. -/
def applyStores (acc : Reconstructor) (event : RunEvent)
    (coverage : UsageCoverageFold) : Reconstructor :=
  let acc := acc.applyUnpriced event
  let acc :=
    { acc with
      coverage
      lastSequenceNumber :=
        max acc.lastSequenceNumber event.envelope.sequenceNumber }
  let acc := acc.applyCost event.body
  let acc := acc.applyRunEvent event
  let acc := acc.applyNodeEvent event
  acc.applyMediaJobEvent event.body

/-- Fold one event. -/
def apply (acc : Reconstructor)
    (event : RunEvent) : Except ReconstructionError Reconstructor := do
  let coverage ← (applyCoverage acc.coverage event.body).mapError
    (.corruptRunEvent event.envelope.sequenceNumber)
  let stored := acc.applyStores event coverage
  let (transition, suspensions) ← (stored.suspensions.apply event).mapError .corruptSuspension
  let nodeLife := stored.nodeLife.apply event transition
  let gated ← { stored with suspensions, nodeLife }.applyGateEvent transition
  pure (gated.applyPauseCost event.body)

end Reconstructor

/-- A gate still awaiting a decision. -/
structure CheckpointPendingGate where
  nodeId : String
  gateId : String
  isBudgetGate : Bool
  allowance : Option BudgetAllowanceState
  deadline : Deadline

/-- The derived state that a resumed run is rebuilt from. -/
structure CheckpointState where
  usageCoverage : UsageCoverageSnapshot
  cumulativeUnpricedCalls : Nat
  schemaVersion : Nat
  runStatus : RunStatus
  workflowId : String
  startedAtMs : Option Int
  admittedInputs : List (JsString × Json)
  executionMode : ExecutionMode
  nodeStates : OrderedMap String CheckpointNodeState
  completedNodeIds : List String
  pendingGates : List CheckpointPendingGate
  budgetRejections : List (String × String)
  nodeLifeClocks : List (String × NodeLifeClock)
  pendingBudgetContinuationNodeIds : List String
  pendingMediaJobs : List MediaJobSubmittedEvent
  resolvedGateIds : List String
  resolvedBudgetGateIds : List String
  lastSequenceNumber : Int
  totalInputTokens : Int
  totalOutputTokens : Int
  nodeDispatches : Nat
  cumulativeCostMicrocents : Int
  conservativeCostMicrocents : Int

/-- `CHECKPOINT_SCHEMA_VERSION`. -/
def checkpointSchemaVersion : Nat := 3

def checkpointPendingGate (gate : PendingGateProjection) :
    CheckpointPendingGate where
  nodeId := gate.nodeId
  gateId := gate.gateId
  isBudgetGate := gate.isBudgetGate
  allowance := gate.allowance
  deadline := gate.deadline

namespace Reconstructor

/-- The checkpoint of a log that has started. -/
def finish (acc : Reconstructor) : Option CheckpointState :=
  if !acc.started then none
  else
    some
      { usageCoverage := acc.coverage.snapshot
        cumulativeUnpricedCalls :=
          max acc.ledgerUnpricedCalls acc.snapshotUnpricedCalls
        schemaVersion := checkpointSchemaVersion
        runStatus := acc.runStatus
        workflowId := acc.workflowId
        startedAtMs := acc.startedAtMs
        admittedInputs := acc.admittedInputs
        executionMode := acc.executionMode
        nodeStates := acc.nodeStates
        completedNodeIds :=
          (acc.nodeStates.entries.filter fun entry =>
            entry.2.status == .completed).map Prod.fst
        pendingGates :=
          (acc.suspensions.pendingGates acc.runId).map checkpointPendingGate
        budgetRejections := acc.suspensions.budgetRejections acc.runId
        nodeLifeClocks := acc.nodeLife.snapshot
        pendingBudgetContinuationNodeIds :=
          acc.nodeLife.pendingBudgetContinuations
        pendingMediaJobs := acc.suspensions.pendingMediaJobs acc.runId
        resolvedGateIds := acc.suspensions.resolvedGateIds acc.runId
        resolvedBudgetGateIds := acc.suspensions.resolvedBudgetGateIds acc.runId
        lastSequenceNumber := acc.lastSequenceNumber
        totalInputTokens := acc.totalInputTokens
        totalOutputTokens := acc.totalOutputTokens
        nodeDispatches := acc.nodeDispatches
        cumulativeCostMicrocents := acc.cumulativeCostMicrocents
        conservativeCostMicrocents := acc.conservativeCostMicrocents }

end Reconstructor

/-- The checkpoint of a log, absent when the log never started. -/
def reconstructCheckpointState (events : List RunEvent) :
    Except ReconstructionError (Option CheckpointState) :=
  (events.foldlM Reconstructor.apply .fresh).map Reconstructor.finish

end Relavium.Run
