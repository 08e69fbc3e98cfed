import Relavium.Library.SafeInteger
import Relavium.Shared.Constants
import Mathlib.Data.List.Nodup

/-!
# Usage evidence

Model of the evidence part of `packages/shared/src/usage-evidence.ts`: the
quantities a provider reports for a call, and the boundary that accepts them.
Evidence given here already has the fields and the closed vocabulary of the
schema; what is left to check are its numbers and its media axes.
-/

namespace Relavium.Llm

open Library

inductive MediaDirection
  | input
  | output
  deriving DecidableEq

inductive MediaUnit
  | count
  | second
  deriving DecidableEq

structure MediaUnitsEntry where
  modality : MediaBilledModality
  direction : MediaDirection
  units : Quantity
  unit : MediaUnit
  deriving DecidableEq

structure KnownUsageQuantities where
  inputTokens : Option Quantity
  outputTokens : Option Quantity
  cacheReadTokens : Option Quantity
  cacheWriteTokens : Option Quantity
  reasoningTokens : Option Quantity
  mediaUnits : Option (List MediaUnitsEntry)
  deriving DecidableEq

structure Usage where
  inputTokens : Quantity
  outputTokens : Quantity
  cacheReadTokens : Option Quantity
  cacheWriteTokens : Option Quantity
  reasoningTokens : Option Quantity
  mediaUnits : Option (List MediaUnitsEntry)
  costMicrocents : Option Quantity
  deriving DecidableEq

inductive UsageEvidenceReason
  | notReported
  | missingFields
  | invalidFields
  | contradictoryFields
  | interrupted
  deriving DecidableEq

inductive UsageEvidence
  | complete (usage : Usage)
  | partly (known : KnownUsageQuantities) (reason : UsageEvidenceReason)
  | missing (reason : UsageEvidenceReason)
  deriving DecidableEq

/-- `MEDIA_BILLED_MODALITIES.length * 2`. -/
def maxMediaAxes : Nat := 6

def safeCount (quantity : Quantity) : Bool :=
  quantity.nonNegativeSafe.isSome

/-- Safe counts on pairwise distinct billing axes. -/
def boundedMedia (entries : List MediaUnitsEntry) : Bool :=
  entries.length ≤ maxMediaAxes && entries.all (fun entry => safeCount entry.units) &&
    decide (entries.map fun entry => (entry.modality, entry.direction)).Nodup

/-- Reasoning tokens are counted inside the output tokens. -/
def reasoningIsSubset (reasoning output : Option Quantity) : Bool :=
  match reasoning, output with
  | some (.integer reasoning), some (.integer output) => reasoning ≤ output
  | _, _ => true

namespace KnownUsageQuantities

def accepted (known : KnownUsageQuantities) : Bool :=
  known.inputTokens.all safeCount && known.outputTokens.all safeCount &&
    known.cacheReadTokens.all safeCount &&
    known.cacheWriteTokens.all safeCount &&
    known.reasoningTokens.all safeCount &&
    known.mediaUnits.all boundedMedia &&
    reasoningIsSubset known.reasoningTokens known.outputTokens

/-- Partial evidence must contain a known quantity. -/
def informative (known : KnownUsageQuantities) : Bool :=
  known.inputTokens.isSome || known.outputTokens.isSome ||
    known.cacheReadTokens.isSome || known.cacheWriteTokens.isSome ||
    known.reasoningTokens.isSome ||
    known.mediaUnits.any fun entries => !entries.isEmpty

end KnownUsageQuantities

namespace Usage

def known (usage : Usage) : KnownUsageQuantities where
  inputTokens := some usage.inputTokens
  outputTokens := some usage.outputTokens
  cacheReadTokens := usage.cacheReadTokens
  cacheWriteTokens := usage.cacheWriteTokens
  reasoningTokens := usage.reasoningTokens
  mediaUnits := usage.mediaUnits

end Usage

namespace UsageEvidence

/-- `UsageEvidenceSchema` accepts the evidence. -/
def accepted : UsageEvidence → Bool
  | .complete usage =>
    usage.known.accepted && usage.costMicrocents.all safeCount
  | .partly known _ => known.accepted && known.informative
  | .missing _ => true

end UsageEvidence

/-- An owned copy of valid evidence, or nothing where the source throws
`InvalidUsageEvidenceError`. -/
def ownUsageEvidence (evidence : UsageEvidence) : Option UsageEvidence :=
  if evidence.accepted then some evidence else none

/-- Ownership does not change what the evidence says. -/
theorem ownUsageEvidence_eq_some_iff (evidence owned : UsageEvidence) :
    ownUsageEvidence evidence = some owned ↔
      evidence.accepted = true ∧ evidence = owned := by
  simp [ownUsageEvidence]

end Relavium.Llm
