import Relavium.Library.Binary64
import Relavium.Shared.Constants

/-!
# Budget authorizations

The scalar authority and the frozen price evidence of
`packages/shared/src/budget-authorization.ts`, as a parsed event carries them.
-/

namespace Relavium.Run

open Library

inductive EndpointKind
  | official
  | custom
  deriving DecidableEq

structure MediaEstimateBasis where
  modality : MediaBilledModality
  units : Binary64
  rateMicrocents : Option Binary64
  deriving DecidableEq

structure RequestEstimateBasis where
  inputTokensEstimate : Binary64
  outputTokensReservation : Binary64
  inputPerMtokMicrocents : Binary64
  outputPerMtokMicrocents : Binary64
  contextTierAboveTokens : Option Binary64
  media : List MediaEstimateBasis
  deriving DecidableEq

/-- An estimate is priced, or not representable. -/
structure ResolvedRequestEstimate where
  microcents : Option Nat
  basis : RequestEstimateBasis
  unpricedModalities : List MediaBilledModality
  deriving DecidableEq

structure AllowanceEntryIdentity where
  index : Nat
  model : String
  provider : ProviderId
  endpoint : EndpointKind
  deriving DecidableEq

inductive ExclusionReason
  | unsupported
  | unpricedModel
  | unpricedModality
  deriving DecidableEq

structure AllowanceExcludedEntry where
  identity : AllowanceEntryIdentity
  reason : ExclusionReason
  deriving DecidableEq

structure AllowancePricedEntry where
  identity : AllowanceEntryIdentity
  attempts : Nat
  estimate : ResolvedRequestEstimate
  deriving DecidableEq

inductive AllowanceRoute
  | text
  | generative
  deriving DecidableEq

structure AllowanceProvenance where
  route : AllowanceRoute
  calls : Nat
  attempts : Nat
  entries : List AllowancePricedEntry
  deriving DecidableEq

/-- A quote, whose amount may not be representable. -/
structure AllowanceQuote where
  amount : Option Nat
  provenance : AllowanceProvenance
  excludedEntries : List AllowanceExcludedEntry
  deriving DecidableEq

inductive AllowanceQuoteResult
  | quoted (quote : AllowanceQuote)
  | unpriced (excludedEntries : List AllowanceExcludedEntry)
  deriving DecidableEq

inductive BudgetAllowanceState
  | frozen (quote : AllowanceQuoteResult)
  | legacyNoAllowance
  deriving DecidableEq

namespace BudgetAllowanceState

def isFrozen : BudgetAllowanceState → Bool
  | .frozen _ => true
  | .legacyNoAllowance => false

end BudgetAllowanceState

inductive TimeoutAction
  | approve
  | reject
  deriving DecidableEq

/-- The deadline fields of a gate, each of them optional. -/
structure Deadline where
  timeoutMs : Option Nat
  timeoutAction : Option TimeoutAction
  expiresAt : Option String
  deriving DecidableEq

/-- A decision that may be recorded on a budget gate. -/
inductive BudgetDecision
  | approved
  | rejected
  deriving DecidableEq

structure PausedAuthority where
  allowance : BudgetAllowanceState
  spentMicrocents : Int
  limitMicrocents : Int
  deadline : Deadline
  deriving DecidableEq

structure DecidedAuthority where
  allowance : BudgetAllowanceState
  decision : BudgetDecision
  decidedBy : String
  approvedAmountMicrocents : Option Nat
  deadline : Deadline
  deriving DecidableEq

inductive BudgetAuthorizationState
  | paused (authority : PausedAuthority)
  | decided (authority : DecidedAuthority)
  deriving DecidableEq

namespace BudgetAuthorizationState

def allowance : BudgetAuthorizationState → BudgetAllowanceState
  | .paused authority => authority.allowance
  | .decided authority => authority.allowance

def deadline : BudgetAuthorizationState → Deadline
  | .paused authority => authority.deadline
  | .decided authority => authority.deadline

end BudgetAuthorizationState

end Relavium.Run
