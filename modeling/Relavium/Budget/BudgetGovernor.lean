import Relavium.Budget.CommitmentChain
import Relavium.Budget.DispatchAllowance
import Relavium.Shared.Constants

/-!
# The budget governor

Model of `BudgetGovernor` in `packages/core/src/engine/budget-governor.ts`.  A
check before egress is a thread that gives up control at every await and at
every call of the host; any calls may follow before its next turn.  What the
host answers is part of the call that models the turn: the price of a request,
the outcome of a write, and the refusals of the dispatch allowance, which has a
model of its own.
-/

namespace Relavium.Budget

open Library

inductive OnExceed
  | fail
  | warn
  | pauseForApproval
  deriving DecidableEq

/-- The `Budget` of a workflow or a session. -/
structure BudgetPolicy where
  maxCostMicrocents : Int
  onExceed : OnExceed
  strictCostCap : Bool

/-- What the governor reads of an attempt: its model, and whether a dispatch
allowance token owns it. -/
structure PreEgressInfo where
  model : String
  token : Bool

/-- The result of `#estimate`. -/
inductive EstimateResult
  | priced (estimate : SafeAmount) (unpricedModalities : List MediaBilledModality)
  | unrepresentable (unpricedModalities : List MediaBilledModality)
  | unpriced

inductive BudgetExceededReason
  | projectedOverCap
  | unpricedModel
  | unpricedModality
  | allowanceExhausted
  | allowanceOwnerInvalid
  | allowanceInFlight
  | unrepresentableEstimate
  deriving DecidableEq

structure BudgetExceededError where
  spentMicrocents : Int
  limitMicrocents : Int
  projectedMicrocents : Option Int
  reason : BudgetExceededReason
  deriving DecidableEq

/-- `BudgetCheckResult`.  The clamped percentage of an exceeded cap is always
100 and is left out. -/
inductive BudgetCheckResult
  | allow
  | warn (spentMicrocents limitMicrocents : Int)
  | unpriced (model : String)
  | fail (error : BudgetExceededError)
  | pause (spentMicrocents limitMicrocents : Int)

structure BudgetEvaluation where
  result : BudgetCheckResult
  estimate : Option SafeAmount
  unpricedModalities : List MediaBilledModality

inductive GovernorError
  | exceeded (error : BudgetExceededError)
  | paused (spentMicrocents limitMicrocents : Int)
  | commitmentNotDurable (error : CommitmentDurabilityError)
  | invalidTokenEstimate
  | pricingFailed
  | warningFailed
  deriving DecidableEq

/-- Where a check before egress has given up control. -/
inductive Phase
  /-- In `flushCommitments`, awaiting the tail it observed. -/
  | barrier (observedTail : Nat)
  /-- The flush has returned, the await of its promise has not. -/
  | barrierPassed
  /-- In the notice of a hold. -/
  | holdNoticed
  /-- Awaiting the promises of the jobs registered at the time. -/
  | holding (promises : List Nat)
  /-- In the price overlay. -/
  | pricing
  /-- In the notice of a pricing gap, with the admission inserted before. -/
  | noticed (evaluation : BudgetEvaluation) (admission : Option Nat)
  /-- Awaiting a warning, if one is being written. -/
  | warning (awaited : Option Nat) (admission : Option Nat)

inductive Thread
  | check (info : PreEgressInfo) (phase : Phase)
  | flush (observedTail : Nat)

/-- The warning writes: the one in flight, and those that have settled. -/
structure WarningWrites where
  warningInFlight : Option Nat
  settled : OrderedMap Nat Bool
  next : Nat

structure BudgetGovernor where
  budget : BudgetPolicy
  ledger : CostLedger
  chain : CommitmentChain
  legacyMediaJobNodes : OrderedMap String Nat
  nextHold : Nat
  warnings : WarningWrites
  threads : OrderedMap Nat Thread
  nextThread : Nat

/-- A call from outside, or a turn of a suspended one. -/
inductive GovernorCall
  | checkPreEgress (info : PreEgressInfo) (refusal : Option AllowanceRefusal)
  | flushCommitments
  /-- A suspended call gets its turn. -/
  | wake (thread : Nat) (refusal : Option AllowanceRefusal)
  /-- The price overlay answers, or throws; then the allowance is validated and
  acquired. -/
  | priced (thread : Nat) (estimate : Option EstimateResult)
      (refusal acquireRefusal : Option AllowanceRefusal)
  | advanceCommitments
  | commitmentWritten (acknowledged : Bool)
  | warningWritten (written : Bool)
  | close (admission : Nat) (call : ClosingCall)
  | updateCost (cumulativeCostMicrocents : Quantity)
  | restoreConservativeCost (microcents : Quantity)
  | releaseConservativeCommitments
  | registerLegacyMediaJob (nodeId : String)
  | clearLegacyMediaJob (nodeId : String)
  | releaseAllLegacyMediaJobHolds
  | reserveAcceptedCost (model : String) (acceptedMicrocents : Quantity)
  | reserveCommittedEgress (model : String) (estimate : Option EstimateResult)

inductive GovernorOutcome
  | suspended (thread : Nat)
  | returned (admission : Option Nat)
  /-- The call threw, releasing an admission it had inserted. -/
  | threw (error : GovernorError) (released : Option Nat)
  /-- A flush has returned. -/
  | flushed
  | closing (outcome : ClosingOutcome)
  | writing (progress : WriteProgress)
  | done
  /-- No such call is suspended, or it cannot go on yet. -/
  | unavailable
  deriving DecidableEq

namespace GovernorCall

/-- Whether the call reserves money that was accepted before, past the cap. -/
def reserves : GovernorCall → Bool
  | .reserveAcceptedCost _ _ | .reserveCommittedEgress _ _ => true
  | _ => false

end GovernorCall

namespace AllowanceRefusal

/-- The reason that `#allowanceError` reports. -/
def exceededReason : AllowanceRefusal → BudgetExceededReason
  | .ownerInvalid => .allowanceOwnerInvalid
  | .inFlight => .allowanceInFlight
  | .exhausted => .allowanceExhausted

end AllowanceRefusal

namespace BudgetGovernor

def fresh (budget : BudgetPolicy) : BudgetGovernor where
  budget
  ledger := .fresh
  chain := .fresh
  legacyMediaJobNodes := .empty
  nextHold := 0
  warnings := { warningInFlight := none, settled := .empty, next := 0 }
  threads := .empty
  nextThread := 0

section Parts

variable (governor : BudgetGovernor)

def exceededError (projected : Option Int)
    (reason : BudgetExceededReason) : BudgetExceededError where
  spentMicrocents := governor.ledger.cumulativeCostMicrocents
  limitMicrocents := governor.budget.maxCostMicrocents
  projectedMicrocents := projected
  reason

def allowanceError (refusal : AllowanceRefusal) : GovernorError :=
  .exceeded (governor.exceededError none refusal.exceededReason)

/-- `#assertAllowanceLive`: the error it throws, if any. -/
def assertAllowanceLive (info : PreEgressInfo)
    (refusal : Option AllowanceRefusal) : Option GovernorError :=
  if info.token then refusal.map governor.allowanceError else none

/-- The verdict on a projection over the cap. -/
def overCapVerdict (projected : Int) : BudgetCheckResult :=
  match governor.budget.onExceed with
  | .warn =>
    .warn governor.ledger.cumulativeCostMicrocents governor.budget.maxCostMicrocents
  | .fail =>
    .fail (governor.exceededError (some projected) .projectedOverCap)
  | .pauseForApproval =>
    .pause governor.ledger.cumulativeCostMicrocents governor.budget.maxCostMicrocents

/-- `#evaluate`, once the request has a price and its owner is live. -/
def evaluate (info : PreEgressInfo)
    (estimate : EstimateResult) : BudgetEvaluation :=
  let strict := governor.budget.strictCostCap
  match estimate with
  | .unpriced =>
    { result :=
        if strict then
          .fail (governor.exceededError none .unpricedModel)
        else .unpriced info.model
      estimate := none
      unpricedModalities := [] }
  | .unrepresentable gap =>
    if !gap.isEmpty && strict then
      { result := .fail (governor.exceededError none .unpricedModality)
        estimate := none
        unpricedModalities := [] }
    else
      { result :=
          if !info.token &&
              governor.budget.onExceed == .pauseForApproval then
            .pause governor.ledger.cumulativeCostMicrocents governor.budget.maxCostMicrocents
          else .fail (governor.exceededError none .unrepresentableEstimate)
        estimate := none
        unpricedModalities := gap }
  | .priced estimate gap =>
    if !gap.isEmpty && strict then
      { result := .fail (governor.exceededError none .unpricedModality)
        estimate := none
        unpricedModalities := [] }
    else
      let projected := governor.ledger.projected estimate
      { result :=
          if governor.budget.maxCostMicrocents ≤ 0 ∨
              projected ≤ governor.budget.maxCostMicrocents then .allow
          else governor.overCapVerdict projected
        estimate := some estimate
        unpricedModalities := gap }

/-- Suspend a check at a phase. -/
def suspend (thread : Nat) (info : PreEgressInfo)
    (phase : Phase) : GovernorOutcome × BudgetGovernor :=
  (.suspended thread,
    { governor with threads := governor.threads.set thread (.check info phase) })

/-- End a check. -/
def finish (thread : Nat)
    (outcome : GovernorOutcome) : GovernorOutcome × BudgetGovernor :=
  (outcome, { governor with threads := governor.threads.delete thread })

/-- End a check with an error, releasing its admission. -/
def fail (thread : Nat) (error : GovernorError)
    (admission : Option Nat) : GovernorOutcome × BudgetGovernor :=
  match admission with
  | none => governor.finish thread (.threw error none)
  | some id =>
    let closing := governor.ledger.close id .release
    { governor with ledger := closing.2 }.finish thread
      (.threw error (if closing.1 = ClosingOutcome.closed none then some id else none))

/-- The start of `#evaluate`: an unbounded cap needs no price. -/
def enterEvaluate (thread : Nat)
    (info : PreEgressInfo) : GovernorOutcome × BudgetGovernor :=
  if governor.budget.maxCostMicrocents ≤ 0 ∧ info.token = false then
    governor.finish thread (.returned none)
  else governor.suspend thread info .pricing

/-- The hold on pending jobs whose cost basis is unknown. -/
def awaitLegacyMediaJobs (thread : Nat)
    (info : PreEgressInfo) : GovernorOutcome × BudgetGovernor :=
  if governor.legacyMediaJobNodes.entries.isEmpty then
    governor.enterEvaluate thread info
  else
    governor.suspend thread info (.holding governor.legacyMediaJobNodes.values)

/-- The part of a check from the hold on. -/
def enterHold (thread : Nat)
    (info : PreEgressInfo) : GovernorOutcome × BudgetGovernor :=
  if governor.legacyMediaJobNodes.entries.isEmpty then
    governor.enterEvaluate thread info
  else governor.suspend thread info .holdNoticed

/-- Continue a check while its owner is live. -/
def whileLive
    (thread : Nat) (info : PreEgressInfo) (refusal : Option AllowanceRefusal)
    (admission : Option Nat) (continue' : GovernorOutcome × BudgetGovernor) :
    GovernorOutcome × BudgetGovernor :=
  match governor.assertAllowanceLive info refusal with
  | some error => governor.fail thread error admission
  | none => continue'

def checkPreEgress (info : PreEgressInfo)
    (refusal : Option AllowanceRefusal) : GovernorOutcome × BudgetGovernor :=
  let thread := governor.nextThread
  let governor := { governor with nextThread := thread + 1 }
  governor.whileLive thread info refusal none <|
    if 0 < governor.chain.pendingCommitments ∨
        governor.chain.commitmentFailure.isSome = true then
      governor.suspend thread info (.barrier governor.chain.commitmentsInFlight)
    else governor.enterHold thread info

def flushCommitments : GovernorOutcome × BudgetGovernor :=
  let thread := governor.nextThread
  (.suspended thread,
    { governor with
      nextThread := thread + 1
      threads := governor.threads.set thread (.flush governor.chain.commitmentsInFlight) })

/-- A turn of a flush: `rejoin` where a later tail is to be awaited, `returns`
where the flush has passed. -/
def wakeFlush
    (thread observedTail : Nat) (rejoin : Nat → Thread)
    (returns : GovernorOutcome × BudgetGovernor) :
    GovernorOutcome × BudgetGovernor :=
  match governor.chain.flush observedTail with
  | (.blocked, _) => (.unavailable, governor)
  | (.rejoined tail, _) =>
    (.suspended thread,
      { governor with threads := governor.threads.set thread (rejoin tail) })
  | (.returned, _) => returns
  | (.threw failure, chain) =>
    { governor with chain }.finish thread (.threw (.commitmentNotDurable failure) none)

/-- Whether the verdict is answered by an owned allowance. -/
def overridesCap (info : PreEgressInfo) (result : BudgetCheckResult) : Bool :=
  info.token &&
    match result with
    | .pause _ _ => true
    | .fail error => error.reason == .projectedOverCap
    | _ => false

/-- Whether the call may go ahead. -/
def permits (info : PreEgressInfo) (result : BudgetCheckResult) : Bool :=
  overridesCap info result ||
    match result with
    | .allow | .warn _ _ | .unpriced _ => true
    | _ => false

/-- `#emitWarning`, and the await of its promise. -/
def emitWarning (thread : Nat) (info : PreEgressInfo)
    (admission : Option Nat) : GovernorOutcome × BudgetGovernor :=
  match governor.warnings.warningInFlight with
  | some warning => governor.suspend thread info (.warning (some warning) admission)
  | none =>
    if governor.ledger.warningArmed then
      let warning := governor.warnings.next
      { governor with
        ledger := { governor.ledger with warningArmed := false }
        warnings :=
          { governor.warnings with
            warningInFlight := some warning
            next := warning + 1 } }.suspend thread info
          (.warning (some warning) admission)
    else governor.suspend thread info (.warning none admission)

/-- Act on a verdict. -/
def conclude (thread : Nat) (info : PreEgressInfo) (result : BudgetCheckResult)
    (admission : Option Nat) : GovernorOutcome × BudgetGovernor :=
  if overridesCap info result then governor.finish thread (.returned admission)
  else
    match result with
    | .allow => governor.finish thread (.returned admission)
    | .unpriced _ => governor.finish thread (.returned admission)
    | .warn _ _ => governor.emitWarning thread info admission
    | .pause spent limit => governor.fail thread (.paused spent limit) admission
    | .fail error => governor.fail thread (.exceeded error) admission

/-- Whether a notice is due before the verdict is acted on. -/
def noticeDue (evaluation : BudgetEvaluation) : Bool :=
  !evaluation.unpricedModalities.isEmpty ||
    match evaluation.result with
    | .unpriced _ => true
    | _ => false

/-- The part of a check after its request has a price: no call of the host lies
between the projection and the insertion. -/
def admitEvaluated
    (thread : Nat) (info : PreEgressInfo) (estimate : EstimateResult)
    (acquireRefusal : Option AllowanceRefusal) :
    GovernorOutcome × BudgetGovernor :=
  let evaluation := governor.evaluate info estimate
  let result := evaluation.result
  let permitted := permits info result
  match if info.token && permitted then acquireRefusal else none with
  | some refusal =>
    governor.finish thread (.threw (governor.allowanceError refusal) none)
  | none =>
    match
      if permitted then
        governor.ledger.admitNew info.model evaluation.estimate info.token
      else some (none, governor.ledger) with
    | none => governor.finish thread (.threw .invalidTokenEstimate none)
    | some (admission, ledger) =>
      let governor := { governor with ledger }
      if noticeDue evaluation then
        governor.suspend thread info (.noticed evaluation admission)
      else governor.conclude thread info result admission

def priced
    (thread : Nat) (estimate : Option EstimateResult)
    (refusal acquireRefusal : Option AllowanceRefusal) :
    GovernorOutcome × BudgetGovernor :=
  match governor.threads.get thread with
  | some (.check info .pricing) =>
    match estimate with
    | none => governor.finish thread (.threw .pricingFailed none)
    | some estimate =>
      governor.whileLive thread info refusal none
        (governor.admitEvaluated thread info estimate acquireRefusal)
  | _ => (.unavailable, governor)

/-- The turn of a check that is suspended at a phase. -/
def wakeCheck (thread : Nat) (info : PreEgressInfo) (refusal : Option AllowanceRefusal) :
    Phase → GovernorOutcome × BudgetGovernor
  | .barrier observedTail =>
    governor.wakeFlush thread observedTail (fun tail => .check info (.barrier tail))
      (.flushed,
        { governor with
          threads := governor.threads.set thread (.check info .barrierPassed) })
  | .barrierPassed =>
    governor.whileLive thread info refusal none (governor.enterHold thread info)
  | .holdNoticed =>
    governor.whileLive thread info refusal none (governor.awaitLegacyMediaJobs thread info)
  | .holding promises =>
    if promises.any fun promise =>
        governor.legacyMediaJobNodes.values.contains promise then
      (.unavailable, governor)
    else
      governor.whileLive thread info refusal none (governor.awaitLegacyMediaJobs thread info)
  | .pricing => (.unavailable, governor)
  | .noticed evaluation admission =>
    if permits info evaluation.result then
      governor.whileLive thread info refusal admission
        (governor.conclude thread info evaluation.result admission)
    else governor.conclude thread info evaluation.result admission
  | .warning awaited admission =>
    match awaited.map governor.warnings.settled.get with
    | some none => (.unavailable, governor)
    | some (some false) => governor.fail thread .warningFailed admission
    | _ =>
      governor.whileLive thread info refusal admission
        (governor.finish thread (.returned admission))

def wake (thread : Nat)
    (refusal : Option AllowanceRefusal) : GovernorOutcome × BudgetGovernor :=
  match governor.threads.get thread with
  | none => (.unavailable, governor)
  | some (.flush observedTail) =>
    governor.wakeFlush thread observedTail .flush (governor.finish thread .flushed)
  | some (.check info phase) => governor.wakeCheck thread info refusal phase

/-- A warning write settles; a failed one re-arms the latch. -/
def warningWritten (written : Bool) : GovernorOutcome × BudgetGovernor :=
  match governor.warnings.warningInFlight with
  | none => (.unavailable, governor)
  | some warning =>
    (.done,
      { governor with
        ledger :=
          { governor.ledger with
            warningArmed := governor.ledger.warningArmed || !written }
        warnings :=
          { governor.warnings with
            warningInFlight := none
            settled := governor.warnings.settled.set warning written } })

/-- A call on an admission; a commitment it makes joins the chain. -/
def closeAdmission (admission : Nat)
    (call : ClosingCall) : GovernorOutcome × BudgetGovernor :=
  match governor.ledger.close admission call with
  | (.closed (some draft), ledger) =>
    (.closing (.closed (some draft)),
      { governor with
        ledger
        chain := governor.chain.persistCommitment draft })
  | (outcome, ledger) => (.closing outcome, { governor with ledger })

def registerLegacyMediaJob (nodeId : String) : BudgetGovernor :=
  if governor.legacyMediaJobNodes.has nodeId then governor
  else
    { governor with
      legacyMediaJobNodes :=
        governor.legacyMediaJobNodes.set nodeId governor.nextHold
      nextHold := governor.nextHold + 1 }

/-- Reserve an amount that was accepted before. -/
def reserve (model : String)
    (estimate : SafeAmount) : GovernorOutcome × BudgetGovernor :=
  match governor.ledger.admitNew model (some estimate) false with
  | none => (.threw .invalidTokenEstimate none, governor)
  | some (admission, ledger) => (.returned admission, { governor with ledger })

def reserveAcceptedCost (model : String)
    (acceptedMicrocents : Quantity) : GovernorOutcome × BudgetGovernor :=
  match acceptedMicrocents.safeAmount with
  | none => (.returned none, governor)
  | some accepted =>
    if accepted.value ≤ 0 then (.returned none, governor)
    else governor.reserve model accepted

def reserveCommittedEgress (model : String)
    (estimate : Option EstimateResult) : GovernorOutcome × BudgetGovernor :=
  match estimate with
  | none => (.threw .pricingFailed none, governor)
  | some (.priced estimate _) => governor.reserve model estimate
  | some _ => (.returned none, governor)

/-- One call on the governor, or one turn of a suspended call. -/
def perform : GovernorCall → GovernorOutcome × BudgetGovernor
  | .checkPreEgress info refusal => governor.checkPreEgress info refusal
  | .flushCommitments => governor.flushCommitments
  | .wake thread refusal => governor.wake thread refusal
  | .priced thread estimate refusal acquireRefusal =>
    governor.priced thread estimate refusal acquireRefusal
  | .advanceCommitments =>
    let progress := governor.chain.advance
    (.writing progress.1, { governor with chain := progress.2 })
  | .commitmentWritten acknowledged =>
    let progress := governor.chain.write acknowledged
    (.writing progress.1, { governor with chain := progress.2 })
  | .warningWritten written => governor.warningWritten written
  | .close admission call => governor.closeAdmission admission call
  | .updateCost total =>
    (.done, { governor with ledger := governor.ledger.updateCost total })
  | .restoreConservativeCost microcents =>
    (.done,
      { governor with
        ledger := governor.ledger.restoreConservativeCost microcents })
  | .releaseConservativeCommitments =>
    (.done,
      { governor with
        ledger := governor.ledger.releaseConservativeCommitments })
  | .registerLegacyMediaJob nodeId =>
    (.done, governor.registerLegacyMediaJob nodeId)
  | .clearLegacyMediaJob nodeId =>
    (.done,
      { governor with
        legacyMediaJobNodes := governor.legacyMediaJobNodes.delete nodeId })
  | .releaseAllLegacyMediaJobHolds =>
    (.done, { governor with legacyMediaJobNodes := .empty })
  | .reserveAcceptedCost model accepted =>
    governor.reserveAcceptedCost model accepted
  | .reserveCommittedEgress model estimate =>
    governor.reserveCommittedEgress model estimate

end Parts

end BudgetGovernor

end Relavium.Budget
