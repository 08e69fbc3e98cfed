import Relavium.Library.Checks
import Relavium.Library.OrderedMap
import Relavium.Run.DeepEqual
import Relavium.Run.RunEvent

/-!
# Run suspensions

Model of `packages/shared/src/run-suspension.ts`.  The reducer keeps one
history for every gate of every run, the media jobs in flight, and the nodes
and runs that have ended.

An event on a gate is applied in two parts: its effect on the history of the
gate, which may refuse the event as corrupt, and the commit of the new history,
which also retires the node of a rejected budget gate.
-/

namespace Relavium.Run

open Library

inductive RunSuspensionCorruption
  | gateIdentityConflict
  | gateStateConflict
  | legacyGateJoinMissing
  | legacyGateJoinAmbiguous

structure GateHistory where
  runId : String
  nodeId : String
  gateId : String
  active : Bool
  budget : Bool
  deadline : Deadline
  allowance : Option BudgetAllowanceState
  authorityPause : Option PausedAuthority
  authorityDecision : Option DecidedAuthority
  budgetPause : Option BudgetPausedEvent
  humanDecision : Option HumanGateResumedEvent

structure PendingGateProjection where
  runId : String
  nodeId : String
  gateId : String
  isBudgetGate : Bool
  deadline : Deadline
  allowance : Option BudgetAllowanceState
  deriving DecidableEq

inductive GateTransition
  | paused (gate : PendingGateProjection)
  | budgetDecided (gate : PendingGateProjection) (decision : BudgetDecision)
  | humanDecided (gate : PendingGateProjection) (event : HumanGateResumedEvent)
  deriving DecidableEq

namespace GateTransition

def gate : GateTransition → PendingGateProjection
  | .paused gate => gate
  | .budgetDecided gate _ => gate
  | .humanDecided gate _ => gate

/-- Whether a transition decides its gate. -/
def decides : GateTransition → Bool
  | .paused _ => false
  | .budgetDecided _ _ => true
  | .humanDecided _ _ => true

end GateTransition

/-- A computation that may refuse the history as inconsistent. -/
abbrev Checked := Except RunSuspensionCorruption

/-- The check behind `corrupt()`. -/
def uncorrupted (condition : Prop) [Decidable condition] : Checked Unit :=
  require .gateStateConflict condition

/-! ## Deadlines -/

namespace Deadline

def none : Deadline where
  timeoutMs := .none
  timeoutAction := .none
  expiresAt := .none

/-- Two recorded values of one deadline field must agree. -/
def compatible [DecidableEq α] (prior next : Option α) : Bool :=
  prior.isNone || next.isNone || prior == next

def merge (prior next : Deadline) : Checked Deadline := do
  uncorrupted (compatible prior.timeoutMs next.timeoutMs)
  uncorrupted (compatible prior.timeoutAction next.timeoutAction)
  uncorrupted (compatible prior.expiresAt next.expiresAt)
  pure
    { timeoutMs := next.timeoutMs.or prior.timeoutMs
      timeoutAction := next.timeoutAction.or prior.timeoutAction
      expiresAt := next.expiresAt.or prior.expiresAt }

/-- The fields that a companion carries are those of the authority. -/
def assertFits (authority companion : Deadline) : Checked Unit := do
  uncorrupted (companion.timeoutMs.isNone ∨
    companion.timeoutMs = authority.timeoutMs)
  uncorrupted (companion.timeoutAction.isNone ∨
    companion.timeoutAction = authority.timeoutAction)
  uncorrupted (companion.expiresAt.isNone ∨
    companion.expiresAt = authority.expiresAt)

end Deadline

/-! ## One gate -/

/-- What an event does to the history of a gate. -/
structure GateStep where
  history : GateHistory
  transition : Option GateTransition
  /-- The node of the gate is retired. -/
  retires : Bool

namespace GateHistory

/-- The history of a gate without events. -/
def created (runId nodeId gateId : String) : GateHistory where
  runId
  nodeId
  gateId
  active := true
  budget := false
  deadline := .none
  allowance := none
  authorityPause := none
  authorityDecision := none
  budgetPause := none
  humanDecision := none

def isResolved (history : GateHistory) : Bool :=
  history.authorityDecision.isSome || history.humanDecision.isSome

def snapshot (history : GateHistory) : PendingGateProjection where
  runId := history.runId
  nodeId := history.nodeId
  gateId := history.gateId
  isBudgetGate := history.budget
  deadline := history.deadline
  allowance := history.allowance

/-- The gate is a budget gate from now on. -/
def becomeBudget (history : GateHistory) : Checked GateHistory := do
  uncorrupted (history.budget ∨ history.humanDecision.isNone)
  pure { history with budget := true }

def mergeAllowance (history : GateHistory)
    (allowance : BudgetAllowanceState) : Checked GateHistory := do
  uncorrupted (history.allowance.isNone ∨ history.allowance = some allowance)
  pure { history with allowance := some allowance }

/-- Merge the quote that a gate event may carry. -/
def mergeQuote (history : GateHistory)
    (quote : Option AllowanceQuoteResult) : Checked GateHistory :=
  match quote with
  | none => pure history
  | some quote => history.mergeAllowance (.frozen quote)

/-- The deadline of the authority recorded so far. -/
def authorityDeadline (history : GateHistory) : Option Deadline :=
  (history.authorityPause.map (·.deadline)).or (history.authorityDecision.map (·.deadline))

/-- A companion's deadline fits that of the authority recorded so far. -/
def assertAuthorityFits (history : GateHistory)
    (companion : Deadline) : Checked Unit :=
  match history.authorityDeadline with
  | none => pure ()
  | some authority => Deadline.assertFits authority companion

/-- The event leaves the gate without a transition. -/
def quietly (history : GateHistory) : GateStep where
  history
  transition := none
  retires := false

/-- A pause shows while the gate is active and unresolved. -/
def pauses (history : GateHistory) : GateStep where
  history
  transition :=
    if history.isResolved || !history.active then none
    else some (.paused history.snapshot)
  retires := false

end GateHistory

/-- A decision as companions state it. -/
def BudgetDecision.value : BudgetDecision → GateDecisionValue
  | .approved => .approved
  | .rejected => .rejected

def compareCompanionDecision (authority : DecidedAuthority)
    (event : HumanGateResumedEvent) : Checked Unit := do
  uncorrupted (authority.decision.value = event.decision ∧
    authority.decidedBy = event.decidedBy)
  uncorrupted (event.approvedAmountMicrocents.isNone ∨
    event.approvedAmountMicrocents = authority.approvedAmountMicrocents)
  uncorrupted event.payload.isNone

namespace GateHistory

/-- A budget authority pauses the gate. -/
def authorityPauses (history : GateHistory)
    (authority : PausedAuthority) : Checked GateStep :=
  match history.authorityPause with
  | some prior => do
      uncorrupted (prior = authority)
      pure history.quietly
  | none => do
      uncorrupted (history.budgetPause.all fun pause =>
        pause.spentMicrocents == authority.spentMicrocents &&
          pause.limitMicrocents == authority.limitMicrocents)
      pure { history with authorityPause := some authority }.pauses

/-- A recorded human decision agrees with a decided authority. -/
def compareHuman (history : GateHistory)
    (authority : DecidedAuthority) : Checked Unit :=
  match history.humanDecision with
  | none => pure ()
  | some human => compareCompanionDecision authority human

/-- A decided authority agrees with a human decision. -/
def compareAuthority (history : GateHistory)
    (event : HumanGateResumedEvent) : Checked Unit :=
  match history.authorityDecision with
  | none => pure ()
  | some authority => compareCompanionDecision authority event

/-- A budget authority decides the gate. -/
def authorityDecides (history : GateHistory)
    (authority : DecidedAuthority) : Checked GateStep :=
  match history.authorityDecision with
  | some prior => do
      uncorrupted (prior = authority)
      pure history.quietly
  | none => do
      history.compareHuman authority
      uncorrupted (history.isResolved ∨ history.active)
      let decided :=
        { history with authorityDecision := some authority, active := false }
      pure
        { history := decided
          transition :=
            if history.isResolved then none
            else some (.budgetDecided decided.snapshot authority.decision)
          retires := authority.decision == .rejected }

/-- `#authority`, on the history it finds or creates. -/
def authorize (history : GateHistory)
    (state : BudgetAuthorizationState) : Checked GateStep := do
  let history ← history.becomeBudget
  let history ← history.mergeAllowance state.allowance
  uncorrupted (history.authorityDeadline.all (· == state.deadline))
  Deadline.assertFits state.deadline history.deadline
  let deadline ← history.deadline.merge state.deadline
  let history := { history with deadline }
  match state with
  | .paused authority => history.authorityPauses authority
  | .decided authority => history.authorityDecides authority

/-- `#pause` for a `budget:paused` event. -/
def budgetPauses (history : GateHistory)
    (event : BudgetPausedEvent) : Checked GateStep := do
  let history ← history.mergeQuote event.allowanceQuote
  let history ← history.becomeBudget
  let history :=
    { history with
      allowance := history.allowance.or (some .legacyNoAllowance) }
  uncorrupted (history.budgetPause.all fun prior =>
    prior.spentMicrocents == event.spentMicrocents &&
      prior.limitMicrocents == event.limitMicrocents)
  uncorrupted (history.authorityPause.all fun authority =>
    authority.spentMicrocents == event.spentMicrocents &&
      authority.limitMicrocents == event.limitMicrocents)
  pure { history with budgetPause := some event }.pauses

/-- `#pause` for a `human_gate:paused` event. -/
def humanPauses (history : GateHistory)
    (event : HumanGatePausedEvent) : Checked GateStep := do
  let history ← history.mergeQuote event.allowanceQuote
  history.assertAuthorityFits event.deadline
  let deadline ← history.deadline.merge event.deadline
  pure { history with deadline }.pauses

/-- The historical form of a rejection: input on an unquoted budget gate. -/
def normalizeResume (history : GateHistory)
    (event : HumanGateResumedEvent) : HumanGateResumedEvent :=
  if history.budget && event.decision == .inputProvided &&
      event.approvedAmountMicrocents.isNone &&
      history.authorityPause.isNone && history.authorityDecision.isNone &&
      !history.allowance.any BudgetAllowanceState.isFrozen then
    { event with decision := .rejected, payload := none }
  else event

/-- A repeated human decision agrees with the recorded one. -/
def repeatsDecision (history : GateHistory)
    (prior event : HumanGateResumedEvent) : Bool :=
  prior.decision == event.decision && prior.decidedBy == event.decidedBy &&
    deepStructuralEqualsOptional prior.payload event.payload &&
    (history.authorityDecision.isSome ||
      prior.approvedAmountMicrocents == event.approvedAmountMicrocents)

/-- The first human decision of a gate without a decided authority. -/
def humanDecides (history : GateHistory)
    (event : HumanGateResumedEvent) : Checked GateStep := do
  uncorrupted history.active
  let decided :=
    { history with humanDecision := some event, active := false }
  if history.budget then
    match event.decision with
    | .inputProvided => .error .gateStateConflict
    | .approved =>
      pure
        { history := decided
          transition := some (.budgetDecided decided.snapshot .approved)
          retires := false }
    | .rejected =>
      pure
        { history := decided
          transition := some (.budgetDecided decided.snapshot .rejected)
          retires := true }
  else
    pure
      { history := decided
        transition := some (.humanDecided decided.snapshot event)
        retires := false }

/-- `#resume`, on the history it finds. -/
def resume (history : GateHistory)
    (event : HumanGateResumedEvent) : Checked GateStep := do
  let history ← history.mergeQuote event.allowanceQuote
  let event := history.normalizeResume event
  uncorrupted (!(history.budget && (event.decision == .inputProvided || event.payload.isSome)))
  history.compareAuthority event
  match history.humanDecision with
  | some prior => do
      uncorrupted (history.repeatsDecision prior event)
      pure history.quietly
  | none =>
    if history.authorityDecision.isSome then
      pure { history with humanDecision := some event }.quietly
    else history.humanDecides event

end GateHistory

/-! ## The reducer -/

structure RunSuspensionReducer where
  gates : OrderedMap String (OrderedMap String GateHistory)
  media : OrderedMap String (OrderedMap String MediaJobSubmittedEvent)
  terminalRuns : List String
  terminalNodes : OrderedMap String (List String)

namespace RunSuspensionReducer

def fresh : RunSuspensionReducer where
  gates := .empty
  media := .empty
  terminalRuns := []
  terminalNodes := .empty

/-- The gate histories of a run. -/
def gatesOf (reducer : RunSuspensionReducer)
    (runId : String) : OrderedMap String GateHistory :=
  (reducer.gates.get runId).getD .empty

/-- The media jobs of a run. -/
def mediaOf (reducer : RunSuspensionReducer)
    (runId : String) : OrderedMap String MediaJobSubmittedEvent :=
  (reducer.media.get runId).getD .empty

/-- The nodes of a run that have ended. -/
def terminalNodesOf (reducer : RunSuspensionReducer)
    (runId : String) : List String :=
  (reducer.terminalNodes.get runId).getD []

/-- The history of a gate, which must belong to the node of the event. -/
def find (reducer : RunSuspensionReducer)
    (runId nodeId gateId : String) : Checked (Option GateHistory) :=
  match (reducer.gatesOf runId).get gateId with
  | none => pure none
  | some history =>
    if history.nodeId = nodeId then pure (some history)
    else .error .gateIdentityConflict

/-- The history of a gate, created unless its node has ended. -/
def findOrCreate (reducer : RunSuspensionReducer)
    (runId nodeId gateId : String) : Checked GateHistory := do
  match ← reducer.find runId nodeId gateId with
  | some history => pure history
  | none =>
    uncorrupted (nodeId ∉ reducer.terminalNodesOf runId)
    pure (.created runId nodeId gateId)

/-- Record the history of a gate. -/
def putGate (reducer : RunSuspensionReducer)
    (history : GateHistory) : RunSuspensionReducer :=
  { reducer with
    gates := reducer.gates.set history.runId
      ((reducer.gatesOf history.runId).set history.gateId history) }

def deactivate (nodeId : String) (_ : String) (history : GateHistory) :
    GateHistory :=
  if history.nodeId = nodeId then { history with active := false } else history

/-- A node has ended: its gates and its media job are no longer pending. -/
def retireNode (reducer : RunSuspensionReducer)
    (runId nodeId : String) : RunSuspensionReducer :=
  { reducer with
    gates := reducer.gates.mapValues fun key gates =>
      if key = runId then gates.mapValues (deactivate nodeId) else gates
    media := reducer.media.mapValues fun key jobs =>
      if key = runId then jobs.delete nodeId else jobs
    terminalNodes := reducer.terminalNodes.set runId
      (if nodeId ∈ reducer.terminalNodesOf runId then
        reducer.terminalNodesOf runId
      else reducer.terminalNodesOf runId ++ [nodeId]) }

/-- Record what an event did to a gate. -/
def commit (reducer : RunSuspensionReducer)
    (step : GateStep) : Option GateTransition × RunSuspensionReducer :=
  let recorded := reducer.putGate step.history
  (step.transition,
    if step.retires then
      recorded.retireNode step.history.runId step.history.nodeId
    else recorded)

/-- The active unresolved gates of a node. -/
def outstanding (reducer : RunSuspensionReducer)
    (runId nodeId : String) : List GateHistory :=
  (reducer.gatesOf runId).values.filter fun history =>
    decide (history.nodeId = nodeId) && history.active && !history.isResolved

/-- The gate that a resume event refers to, by its id or by being the only
outstanding gate of its node. -/
def resumedGate (reducer : RunSuspensionReducer) (runId : String)
    (event : HumanGateResumedEvent) : Checked GateHistory :=
  match event.gateId with
  | some gateId => do
      match ← reducer.find runId event.nodeId gateId with
      | none => .error .legacyGateJoinMissing
      | some history => pure history
  | none =>
    match reducer.outstanding runId event.nodeId with
    | [] => .error .legacyGateJoinMissing
    | [history] => pure history
    | _ => .error .legacyGateJoinAmbiguous

/-- Record a submitted media job, unless its node has ended. -/
def submitMedia (reducer : RunSuspensionReducer) (runId : String)
    (job : MediaJobSubmittedEvent) : RunSuspensionReducer :=
  if job.nodeId ∈ reducer.terminalNodesOf runId then reducer
  else
    { reducer with
      media := reducer.media.set runId ((reducer.mediaOf runId).set job.nodeId job) }

/-- Record that a run has ended. -/
def endRun (reducer : RunSuspensionReducer)
    (runId : String) : RunSuspensionReducer :=
  if runId ∈ reducer.terminalRuns then reducer
  else { reducer with terminalRuns := reducer.terminalRuns ++ [runId] }

def apply (reducer : RunSuspensionReducer) (event : RunEvent) :
    Checked (Option GateTransition × RunSuspensionReducer) :=
  match event.body with
  | .budgetAuthorization given => do
      let history ← reducer.findOrCreate event.runId given.nodeId given.gateId
      let step ← history.authorize given.authorization
      pure (reducer.commit step)
  | .budgetPaused given => do
      let history ← reducer.findOrCreate event.runId given.nodeId given.gateId
      let step ← history.budgetPauses given
      pure (reducer.commit step)
  | .humanGatePaused given => do
      let history ← reducer.findOrCreate event.runId given.nodeId given.gateId
      let step ← history.humanPauses given
      pure (reducer.commit step)
  | .humanGateResumed given => do
      let history ← reducer.resumedGate event.runId given
      let step ← history.resume given
      pure (reducer.commit step)
  | .mediaJobSubmitted job => pure (none, reducer.submitMedia event.runId job)
  | body =>
    let retired :=
      match body.terminalNode with
      | none => reducer
      | some nodeId => reducer.retireNode event.runId nodeId
    pure (none, if body.endsRun then retired.endRun event.runId else retired)

def pendingGates (reducer : RunSuspensionReducer)
    (runId : String) : List PendingGateProjection :=
  ((reducer.gatesOf runId).values.filter fun history =>
    history.active && !history.isResolved).map GateHistory.snapshot

def resolvedGateIds (reducer : RunSuspensionReducer)
    (runId : String) : List String :=
  ((reducer.gatesOf runId).values.filter GateHistory.isResolved).map GateHistory.gateId

def resolvedBudgetGateIds (reducer : RunSuspensionReducer)
    (runId : String) : List String :=
  ((reducer.gatesOf runId).values.filter fun history =>
    history.isResolved && history.budget).map GateHistory.gateId

def pendingMediaJobs (reducer : RunSuspensionReducer)
    (runId : String) : List MediaJobSubmittedEvent :=
  (reducer.mediaOf runId).values

/-- The budget gates that were rejected, with their nodes. -/
def budgetRejections (reducer : RunSuspensionReducer)
    (runId : String) : List (String × String) :=
  ((reducer.gatesOf runId).values.filter fun history =>
    history.budget &&
      ((history.authorityDecision.map (·.decision.value)).or
        (history.humanDecision.map (·.decision))) == some .rejected).map
    fun history => (history.nodeId, history.gateId)

end RunSuspensionReducer

end Relavium.Run
