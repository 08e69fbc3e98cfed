import Relavium.Library.Trace
import Relavium.Run.RunEvent
import Relavium.Run.Scheduler

/-!
# Dispatching vertices

Model of the start loop of `#step` and of the retry loop of `#dispatchLoop` in
`packages/core/src/engine/engine.ts`, interleaved.  Every await of either loop
is a point between two events: while a pass starts the vertices it claimed one
by one, attempts of other vertices end, announce retries, sleep and start again.
-/

namespace Relavium.Run

open Library
open Plan
open Shared

/-! ## Retry budgets -/

/-- `#retryConfig`. -/
def retryConfig (vertex : PlanVertex) : Option Retry :=
  match vertex.config with
  | .agent node resolvedAgent =>
    node.retry.orElse fun _ => resolvedAgent.bind Agent.retry
  | .condition node => node.retry
  | .transform node => node.retry
  | .fanIn node _ _ => node.retry
  | _ => none

/-- `#shouldRetry`. -/
def shouldRetry (retry : Option Retry) (error : NodeFailure)
    (attempt : Nat) : Bool :=
  match retry with
  | none => false
  | some retry =>
    if error.retryable = false ∨ retry.max ≤ attempt then false
    else decide (error.code ∈ retry.retryOn.getD retryableErrorCodes)

/-! ## The state of a run -/

/-- Where the serialized scheduler loop is. -/
inductive StepPhase
  | idle
  /-- A pass publishes the skips it found. -/
  | publishing
  /-- A pass starts the vertices that it claimed; these are left. -/
  | starting (unstarted : List JsString)
  deriving DecidableEq

/-- An attempt of a vertex. -/
structure VertexAttempt where
  id : JsString
  number : Nat
  deriving DecidableEq

structure DispatchState where
  states : VertexStates
  phase : StepPhase
  /-- The attempts that an executor works on. -/
  attempts : List VertexAttempt
  /-- The failed attempts whose retry has been admitted but has not started. -/
  retries : List VertexAttempt
  nodeDispatches : Nat
  /-- The attempts whose `node:started` this execution has made. -/
  started : List VertexAttempt
  cancelling : Bool
  /-- Whether `#failure` is set. -/
  failing : Bool
  aborted : Bool
  settled : Bool

inductive AttemptOutcome
  | completed (selected : Option (List JsString))
  | paused
  | failed (error : NodeFailure)

inductive DispatchEvent
  /-- A pass of `#step` starts and propagates skips. -/
  | pass (fuel : Nat)
  /-- It has published them, and claims or decides otherwise. -/
  | decide (parked : ParkedWork)
  /-- The consumer is ready, and the next claimed vertex starts. -/
  | startClaim
  /-- The start loop ends; what it has not started is pending again. -/
  | endStep
  /-- An attempt ends. -/
  | outcome (attempt : VertexAttempt) (outcome : AttemptOutcome)
  /-- A retry has been announced and slept for, and starts. -/
  | startRetry (attempt : VertexAttempt)
  /-- A retry is dropped after the run was stopped; the failure stands. -/
  | dropRetry (attempt : VertexAttempt) (error : NodeFailure)
  /-- A paused vertex goes on. -/
  | resolve (id : JsString) (status : VertexStatus)
  /-- The deadline of a vertex passes. -/
  | deadline (id : JsString) (error : NodeFailure)
  | cancel

namespace DispatchState

/-- A run before its first pass: a fresh one, or one seeded from a checkpoint with
the dispatches made so far. -/
def seeded (states : VertexStates)
    (nodeDispatches : Nat) : DispatchState where
  states
  phase := .idle
  attempts := []
  retries := []
  nodeDispatches
  started := []
  cancelling := false
  failing := false
  aborted := false
  settled := false

/-- Give a vertex that is not settled another status. -/
def setStatus (state : DispatchState) (id : JsString) (status : VertexStatus)
    (selected : Option (List JsString)) : DispatchState :=
  match state.states.get id with
  | none => state
  | some vertexState =>
    if vertexState.status.settled then state
    else
      { state with
        states := state.states.set id {
          status
          selectedTargets :=
            selected.orElse fun _ => vertexState.selectedTargets } }

/-- `#settleFailed`: the first failure stops the run, unless it is cancelled. -/
def settleFailed (state : DispatchState)
    (id : JsString) : DispatchState :=
  let failed := state.setStatus id .failed none
  if failed.failing ∨ failed.cancelling then failed
  else { failed with failing := true, aborted := true }

/-- `#onOutcome`, which ignores what comes after the terminal or after the vertex
was settled. -/
def onOutcome (state : DispatchState) (id : JsString)
    (outcome : AttemptOutcome) : DispatchState :=
  if state.settled ∨ (statusOf state.states id).any VertexStatus.settled then state
  else
    match outcome with
    | .completed selected => state.setStatus id .completed selected
    | .paused => state.setStatus id .paused none
    | .failed _ => state.settleFailed id

/-- Whether the failure of an attempt is to be retried, the run going on. -/
def willRetry (plan : RunPlan) (state : DispatchState) (attempt : VertexAttempt)
    (error : NodeFailure) : Bool :=
  !state.settled && !state.cancelling && !state.failing && !state.aborted &&
    shouldRetry ((plan.vertices.get attempt.id).bind retryConfig) error attempt.number

/-- Whether the failure of an attempt admits a retry: there is one to make and the
cap has not been reached. -/
def admitsRetry (plan : RunPlan) (state : DispatchState) (attempt : VertexAttempt)
    (error : NodeFailure) : Bool :=
  state.willRetry plan attempt error && decide (state.nodeDispatches < nodeDispatchesPerRun)

/-- The body of `#dispatchLoop` after an attempt has ended. -/
def endAttempt (plan : RunPlan) (state : DispatchState) (attempt : VertexAttempt)
    (outcome : AttemptOutcome) : DispatchState :=
  let ended := { state with attempts := state.attempts.erase attempt }
  match outcome with
  | .failed error =>
    if state.admitsRetry plan attempt error then
      { ended with retries := ended.retries ++ [attempt] }
    else ended.onOutcome attempt.id outcome
  | _ => ended.onOutcome attempt.id outcome

/-- Count a dispatch, make its `node:started` and hand the attempt over. -/
def start (state : DispatchState)
    (attempt : VertexAttempt) : DispatchState :=
  { state with
    nodeDispatches := state.nodeDispatches + 1
    started := state.started ++ [attempt]
    attempts := state.attempts ++ [attempt] }

/-- Claims that were not started are pending again. -/
def release (states : VertexStates)
    (unstarted : List JsString) : VertexStates :=
  unstarted.foldl
    (fun states id =>
      match states.get id with
      | none => states
      | some state =>
        if state.status = .running then
          states.set id { state with status := .pending }
        else states)
    states

/-- What the verdict of a pass changes. -/
def applyVerdict
    (state : DispatchState) : StepVerdict → DispatchState
  | .settle _ => { state with phase := .idle, settled := true }
  | .waitToSettle => { state with phase := .idle }
  | .dispatchLimit => { state with phase := .idle, failing := true, aborted := true }
  | .claimed scan =>
    { state with phase := .starting scan.claimed, states := scan.states }
  | .idle .stalled => { state with phase := .idle, failing := true }
  | .idle _ => { state with phase := .idle }

/-- What a pass reads besides the statuses. -/
def control (state : DispatchState)
    (parked : ParkedWork) : StepControl where
  cancelling := state.cancelling
  failing := state.failing
  nodeDispatches := state.nodeDispatches
  parked

/-- The run has been stopped. -/
def stopped (state : DispatchState) : Bool :=
  state.settled || state.cancelling || state.aborted

/-- The state after an event, if the event can happen. -/
def apply (plan : RunPlan)
    (state : DispatchState) : DispatchEvent → Option DispatchState
  | .pass fuel =>
    if state.settled ∨ state.phase ≠ .idle then none
    else
      (propagateSkips plan fuel state.states).map fun sweep =>
        { state with states := sweep.states, phase := .publishing }
  | .decide parked =>
    if state.phase = .publishing then
      some (state.applyVerdict (stepVerdict plan state.states (state.control parked)))
    else none
  | .startClaim =>
    match state.phase with
    | .starting (id :: unstarted) =>
      if state.settled ∨ state.aborted then none
      else
        some ({ state with phase := .starting unstarted }.start
          { id, number := 1 })
    | _ => none
  | .endStep =>
    match state.phase with
    | .starting unstarted =>
      some { state with
        phase := .idle
        states := release state.states unstarted }
    | _ => none
  | .outcome attempt outcome =>
    if attempt ∈ state.attempts then
      some (state.endAttempt plan attempt outcome)
    else none
  | .startRetry attempt =>
    if attempt ∈ state.retries ∧ ¬state.stopped then
      some ({ state with retries := state.retries.erase attempt }.start
        { attempt with number := attempt.number + 1 })
    else none
  | .dropRetry attempt error =>
    if attempt ∈ state.retries ∧ state.stopped then
      some ({ state with retries := state.retries.erase attempt }.onOutcome
        attempt.id (.failed error))
    else none
  | .resolve id status =>
    if statusOf state.states id = some .paused ∧ ¬state.stopped then
      some (state.setStatus id status none)
    else none
  | .deadline id error => some (state.onOutcome id (.failed error))
  | .cancel =>
    if state.settled then none
    else some { state with cancelling := true, aborted := true }

end DispatchState

/-- A step of the run. -/
def DispatchStep (plan : RunPlan) (state : DispatchState) (event : DispatchEvent)
    (next : DispatchState) : Prop :=
  state.apply plan event = some next

end Relavium.Run
