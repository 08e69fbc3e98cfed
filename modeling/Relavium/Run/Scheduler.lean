import Relavium.Plan.BuildRunPlan

/-!
# The scheduler of a run

Model of the readiness, skip propagation and claiming of
`packages/core/src/engine/engine.ts`: what one pass of `#step` decides from the
statuses of the vertices.
-/

namespace Relavium.Run

open Library
open Plan

/-! ## Statuses -/

inductive VertexStatus
  | pending
  | running
  | completed
  | failed
  | skipped
  | paused
  deriving DecidableEq

namespace VertexStatus

/-- `SETTLED`: the dependents of the vertex can be evaluated. -/
def settled : VertexStatus → Bool
  | .completed => true
  | .failed => true
  | .skipped => true
  | _ => false

end VertexStatus

structure VertexState where
  status : VertexStatus
  /-- The targets that a settled condition selected. -/
  selectedTargets : Option (List JsString)

/-- `#states`: the state of each vertex. -/
abbrev VertexStates : Type := OrderedMap JsString VertexState

/-- Every vertex of a fresh run is pending. -/
def initialStates (plan : RunPlan) : VertexStates :=
  plan.vertices.keys.foldl
    (fun states id =>
      states.set id { status := .pending, selectedTargets := none })
    .empty

/-- The status of a vertex, if it is known. -/
def statusOf (states : VertexStates)
    (id : JsString) : Option VertexStatus :=
  (states.get id).map VertexState.status

/-! ## Edges -/

/-- `#allDepsSettled`. -/
def allDepsSettled (states : VertexStates)
    (vertex : PlanVertex) : Bool :=
  vertex.dependencies.all fun dependency =>
    (states.get dependency).any fun state => state.status.settled

/-- Whether a completed vertex lets another one through: a condition does so for
the targets it selected. -/
def letsThrough (plan : RunPlan) (state : VertexState)
    (dependency target : JsString) : Bool :=
  match plan.vertices.get dependency with
  | none => true
  | some vertex =>
    if vertex.type = .condition then
      match state.selectedTargets with
      | none => false
      | some targets => decide (target ∈ targets)
    else true

/-- Whether the edge from a dependency is live. -/
def carriesEdge (plan : RunPlan) (states : VertexStates)
    (target dependency : JsString) : Bool :=
  match states.get dependency with
  | none => false
  | some state =>
    decide (state.status = .completed) && letsThrough plan state dependency target

/-- `#hasLiveEdge`. -/
def hasLiveEdge (plan : RunPlan) (states : VertexStates)
    (vertex : PlanVertex) : Bool :=
  if vertex.dependencies = [] then true
  else vertex.dependencies.any (carriesEdge plan states vertex.id)

/-! ## Skips -/

inductive NodeSkippedReason
  | branchNotTaken
  | upstreamUnreachable
  deriving DecidableEq

/-- `#skipReason`. -/
def skipReason (plan : RunPlan) (states : VertexStates)
    (vertex : PlanVertex) : NodeSkippedReason :=
  if vertex.dependencies.any (fun dependency =>
      (plan.vertices.get dependency).any (fun dependencyVertex =>
        dependencyVertex.type = .condition) &&
      decide (statusOf states dependency = some .completed)) then
    .branchNotTaken
  else .upstreamUnreachable

/-- The states while skips propagate, and the vertices skipped so far. -/
structure SkipSweep where
  states : VertexStates
  skipped : List (JsString × NodeSkippedReason)

/-- Skip a pending vertex whose dependencies are all settled and none of whose
edges is live. -/
def skipVertex (plan : RunPlan) (sweep : SkipSweep)
    (id : JsString) : SkipSweep :=
  match sweep.states.get id, plan.vertices.get id with
  | some state, some vertex =>
    if state.status = .pending ∧ allDepsSettled sweep.states vertex ∧
        ¬hasLiveEdge plan sweep.states vertex then
      let states := sweep.states.set id { state with status := .skipped }
      { states
        skipped := sweep.skipped ++ [(id, skipReason plan states vertex)] }
    else sweep
  | _, _ => sweep

/-- One pass over the vertices. -/
def skipPass (plan : RunPlan)
    (states : VertexStates) : SkipSweep :=
  states.keys.foldl (skipVertex plan) { states, skipped := [] }

/-- `#propagateSkips`: passes until one changes nothing. -/
def propagateSkips
    (plan : RunPlan) : Nat → VertexStates → Option SkipSweep
  | 0, _ => none
  | fuel + 1, states =>
    let pass := skipPass plan states
    if pass.skipped = [] then some pass
    else
      (propagateSkips plan fuel pass.states).map fun rest =>
        { rest with skipped := pass.skipped ++ rest.skipped }

/-! ## Claims -/

/-- `#countRunning`. -/
def countRunning (states : VertexStates) : Nat :=
  states.values.countP fun state => decide (state.status = .running)

/-- `#allSettled`. -/
def allSettled (states : VertexStates) : Bool :=
  states.values.all fun state => state.status.settled

/-- The states while vertices are claimed, the claimed ones and how many are
running. -/
structure ClaimScan where
  states : VertexStates
  claimed : List JsString
  running : Nat

/-- Claim the vertices of an order, until one of the bounds is reached. -/
def claimFrom (plan : RunPlan)
    (cap headroom : Nat) : List JsString → ClaimScan → ClaimScan
  | [], scan => scan
  | id :: rest, scan =>
    if cap ≤ scan.running ∨ headroom ≤ scan.claimed.length then scan
    else
      match plan.vertices.get id, scan.states.get id with
      | some vertex, some state =>
        if state.status = .pending ∧ allDepsSettled scan.states vertex ∧
            hasLiveEdge plan scan.states vertex then
          claimFrom plan cap headroom rest
            { states := scan.states.set id { state with status := .running }
              claimed := scan.claimed ++ [id]
              running := scan.running + 1 }
        else claimFrom plan cap headroom rest scan
      | _, _ => claimFrom plan cap headroom rest scan

/-- How many vertices may run at once. -/
def parallelCap (plan : RunPlan) : Nat :=
  plan.maxParallel.getD defaultMaxParallel

/-- `#claimReady`. -/
def claimReady (plan : RunPlan) (states : VertexStates)
    (alreadyRunning headroom : Nat) : ClaimScan :=
  claimFrom plan (parallelCap plan) headroom plan.order
    { states, claimed := [], running := alreadyRunning }

/-! ## What a pass decides -/

/-- What `#handleIdle` reads besides the statuses. -/
structure ParkedWork where
  publishingPauses : Nat
  pendingGates : List JsString
  resolvedGates : List JsString
  pendingMediaJobs : Nat

/-- Nothing is parked. -/
def ParkedWork.none : ParkedWork where
  publishingPauses := 0
  pendingGates := []
  resolvedGates := []
  pendingMediaJobs := 0

inductive IdleVerdict
  | waiting
  | paused
  | stalled

/-- `#handleIdle`, when nothing was ready. -/
def handleIdle (running : Nat)
    (parked : ParkedWork) : IdleVerdict :=
  if 0 < running ∨ 0 < parked.publishingPauses then .waiting
  else if parked.pendingGates.any (fun gate => gate ∈ parked.resolvedGates) then
    .waiting
  else if parked.pendingGates ≠ [] ∨ 0 < parked.pendingMediaJobs then .paused
  else .stalled

/-- What a pass of `#step` decides after it has published its skips. -/
inductive StepVerdict
  | settle (terminal : TerminalType)
  | waitToSettle
  | dispatchLimit
  | claimed (scan : ClaimScan)
  | idle (verdict : IdleVerdict)

/-- What `#step` reads besides the statuses. -/
structure StepControl where
  cancelling : Bool
  /-- Whether `#failure` is set. -/
  failing : Bool
  nodeDispatches : Nat
  parked : ParkedWork

/-- The part of `#step` from counting the running vertices to claiming. -/
def stepVerdict (plan : RunPlan) (states : VertexStates)
    (control : StepControl) : StepVerdict :=
  let running := countRunning states
  if control.cancelling then
    if running = 0 then .settle .cancelled else .waitToSettle
  else if control.failing then
    if running = 0 then .settle .failed else .waitToSettle
  else if allSettled states then .settle .completed
  else if nodeDispatchesPerRun ≤ control.nodeDispatches then .dispatchLimit
  else
    let scan := claimReady plan states running (nodeDispatchesPerRun - control.nodeDispatches)
    if scan.claimed = [] then .idle (handleIdle running control.parked)
    else .claimed scan

end Relavium.Run
