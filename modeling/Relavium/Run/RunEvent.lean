import Relavium.Library.Json
import Relavium.Run.BudgetAuthorization
import Relavium.Usage.CoverageFold

/-!
# Run events

The events of `packages/shared/src/run-event.ts` that the folds over a run's
log read, with the fields they read.
-/

namespace Relavium.Run

open Library
open Relavium.Usage (UsageCoverageBasis UsageDisposition UsageInvocation)

/-- What every event of a run carries.  `timestampMs` is the parsed timestamp,
absent where parsing yields NaN. -/
structure Envelope where
  runId : String
  sequenceNumber : Nat
  timestampMs : Option Int
  cumulativeCostMicrocents : Option Int
  cumulativeUnpricedCalls : Option Nat
  deriving DecidableEq

inductive GateDecisionValue
  | approved
  | rejected
  | inputProvided
  deriving DecidableEq

structure HumanGatePausedEvent where
  nodeId : String
  gateId : String
  deadline : Deadline
  allowanceQuote : Option AllowanceQuoteResult
  deriving DecidableEq

structure HumanGateResumedEvent where
  nodeId : String
  gateId : Option String
  decision : GateDecisionValue
  decidedBy : String
  payload : Option Json
  allowanceQuote : Option AllowanceQuoteResult
  approvedAmountMicrocents : Option Nat
  deriving DecidableEq

structure BudgetPausedEvent where
  nodeId : String
  gateId : String
  spentMicrocents : Int
  limitMicrocents : Int
  allowanceQuote : Option AllowanceQuoteResult
  deriving DecidableEq

structure BudgetAuthorizationEvent where
  nodeId : String
  gateId : String
  authorization : BudgetAuthorizationState
  deriving DecidableEq

structure MediaJobSubmittedEvent where
  nodeId : String
  jobId : String
  provider : ProviderId
  model : String
  modality : MediaBilledModality
  startedAt : String
  deadlineAt : String
  units : Option Binary64
  acceptedCostMicrocents : Option Nat
  deriving DecidableEq

/-- The failure fields that the checkpoint keeps. -/
structure NodeFailure where
  code : ErrorCode
  message : String
  retryable : Bool
  deriving DecidableEq

inductive EventBody
  | runStarted (workflowId : String) (inputs : List (JsString × Json))
      (executionMode : ExecutionMode)
  | runPaused
  | runCompleted
  | runFailed
  | runCancelled
  | nodeStarted (nodeId : String) (nodeType : EngineNodeType) (attemptNumber : Option Nat)
  | nodeRetrying (nodeId : String) (attemptNumber : Nat)
  | nodeCompleted (nodeId : String) (output : Option Json) (selected : Option (List String))
      (inputTokens outputTokens : Int)
  | nodeFailed (nodeId : String) (error : NodeFailure)
  | nodeSkipped (nodeId : String)
  | mediaJobSubmitted (job : MediaJobSubmittedEvent)
  | humanGatePaused (event : HumanGatePausedEvent)
  | humanGateResumed (event : HumanGateResumedEvent)
  | budgetPaused (event : BudgetPausedEvent)
  | budgetAuthorization (event : BudgetAuthorizationEvent)
  | budgetEstimateCommitted (estimateMicrocents : Int)
  | costUpdated (model : String) (invocation : Option UsageInvocation)
      (cumulativeCostMicrocents : Int)
  | costAttemptSettled (model : String) (invocation : Option UsageInvocation)
      (cumulativeCostMicrocents : Int)
      (unpriced : Bool)
  | costUsagePending (model : String) (invocation : UsageInvocation)
  | costUsageDisposition (model : String) (invocation : UsageInvocation)
      (disposition : UsageDisposition)
      (receiptPending : Bool)
  | costCoverageStarted (basis : UsageCoverageBasis)
  /-- An event that no fold reads beyond its envelope. -/
  | other
  deriving DecidableEq

structure RunEvent where
  envelope : Envelope
  body : EventBody
  deriving DecidableEq

namespace EventBody

/-- The node whose life an event ends. -/
def terminalNode : EventBody → Option String
  | .nodeCompleted nodeId _ _ _ _ => some nodeId
  | .nodeFailed nodeId _ => some nodeId
  | .nodeSkipped nodeId => some nodeId
  | _ => none

/-- Whether an event ends the run. -/
def endsRun : EventBody → Bool
  | .runCompleted => true
  | .runFailed => true
  | .runCancelled => true
  | _ => false

end EventBody

namespace RunEvent

def runId (event : RunEvent) : String := event.envelope.runId

end RunEvent

end Relavium.Run
