import Mathlib.Tactic.DeriveFintype

/-!
# Closed vocabularies

The enumerations of `packages/shared/src/constants.ts` and the limits of
`packages/core/src/limits.ts` that the model uses.
-/

namespace Relavium

/-- `LLM_PROVIDERS`. -/
inductive ProviderId
  | anthropic
  | openai
  | gemini
  | deepseek
  deriving DecidableEq

/-- `MEDIA_BILLED_MODALITIES`. -/
inductive MediaBilledModality
  | image
  | audio
  | video
  deriving DecidableEq

/-- `STOP_REASONS`. -/
inductive StopReason
  | stop
  | length
  | toolUse
  | contentFilter
  | error

/-- `EXECUTION_MODES`. -/
inductive ExecutionMode
  | local'
  | cloud
  | managed
  deriving DecidableEq

/-- `ENGINE_NODE_TYPES`. -/
inductive EngineNodeType
  | agent
  | condition
  | tool
  | transform
  | input
  | output
  | loop
  | fanOut
  | fanIn
  | humanInTheLoop
  | subworkflow
  deriving DecidableEq

/-- `ERROR_CODES`. -/
inductive ErrorCode
  | validation
  | contextOverflow
  | contentFilter
  | providerAuth
  | providerRateLimit
  | providerUnavailable
  | toolDenied
  | toolFailed
  | toolUnavailable
  | budgetExceeded
  | effectNeedsAttention
  | runTimeout
  | turnLimit
  | cancelled
  | sandboxError
  | internal
  deriving DecidableEq

/-- `RETRYABLE_ERROR_CODES`. -/
def retryableErrorCodes : List ErrorCode := [
  .providerRateLimit,
  .providerUnavailable,
  .toolFailed,
  .sandboxError]

/-- `TERMINAL_TYPES`: the events that close a run. -/
inductive TerminalType
  | completed
  | failed
  | cancelled
  deriving DecidableEq

/-- `ADMISSION_CEILINGS.nodeDispatchesPerRun`. -/
def nodeDispatchesPerRun : Nat := 500

/-- `DEFAULT_MAX_PARALLEL`: what an omitted `max_parallel` means. -/
def defaultMaxParallel : Nat := 8

end Relavium
