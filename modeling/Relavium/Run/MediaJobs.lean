import Relavium.Library.OrderedMap
import Relavium.Run.Scheduler

/-!
# Asynchronous media jobs

Model of the media-job loop of `packages/core/src/engine/engine.ts`: how a
submission travels from the executor to the poll loop, how a poll settles its
node, and how the terminal of a run sweeps what is still pending.  One event is
what the engine does without waiting.  Where it calls the host inside an event
(the clock, a timer, a price, a sink), the host may enter the terminal of the
run before it answers; the pricing and the faults it answers with come with the
event.
-/

namespace Relavium.Run
namespace MediaJobs

open Library

/-- What an admission of the governor has come to. -/
inductive Lease
  | absent
  | opened
  | closed
  deriving DecidableEq

/-- Where a submission is. -/
inductive Stage
  /-- The executor has returned it. -/
  | returned
  /-- Its attempt is still live; the money join is ahead. -/
  | arriving
  /-- Its outcome was ignored. -/
  | dropped
  /-- The registration ended before the pending map took it. -/
  | refused
  /-- The pending map took it. -/
  | parked
  deriving DecidableEq

/-- A submission, and what `ParkedMediaJob` adds once it is parked. -/
structure MediaJob where
  nodeId : JsString
  lease : Lease
  /-- The submission, or the parked job, still refers to the admission. -/
  attached : Bool
  costAccounted : Bool
  stage : Stage
  deadlineAt : Nat
  backoffMs : Nat

/-- `MEDIA_JOB_POLL_DEFAULTS`. -/
def pollInitialMs : Nat := 5000
def pollMaxMs : Nat := 30000
def defaultDeadlineMs : Nat := 1800000

/-- What `realizedMediaCost` answers.  An unpriced model may still have a
partial cost. -/
inductive PriceAnswer
  | priced (costMicrocents : Nat)
  | unpriced (costMicrocents : Nat)
  | fault

/-- How an admission is closed. -/
inductive Closing
  | settle (realizedMicrocents : Nat)
  | settleAtReservedEstimate

/-- What happens to the money of a job. -/
inductive Fact
  | priced (job : Nat) (answer : PriceAnswer)
  | closed (job : Nat) (how : Closing)
  | addend (job : Nat) (costMicrocents : Nat) (priced : Bool)

/-- The job a fact is about. -/
def Fact.job : Fact → Nat
  | .priced job _ => job
  | .closed job _ => job
  | .addend job _ _ => job

/-- What a dispatch of a vertex is at. -/
inductive DispatchPhase
  | executing
  | carrying (job : Nat)
  | done

/-- One run of the dispatch loop of a vertex. -/
structure DispatchLoop where
  nodeId : JsString
  phase : DispatchPhase

/-- The part of a `RunExecution` that media jobs read and change. -/
structure Engine where
  settled : Bool
  aborted : Bool
  retiringHost : Bool
  /-- The terminal waits for an accounting to end before its sweep. -/
  sweepDue : Bool
  mediaAccountingDepth : Nat
  states : OrderedMap JsString VertexStatus
  /-- The nodes parked at a gate. -/
  gated : List JsString
  activeDispatchByVertex : OrderedMap JsString Nat
  dispatches : List DispatchLoop
  jobs : List MediaJob
  pendingMediaJobs : OrderedMap JsString Nat
  /-- The registrations whose `media_job:submitted` is being written. -/
  publishing : List Nat
  /-- The polls under way, by job. -/
  polls : List Nat
  /-- The finished jobs whose media is being pinned. -/
  pinning : List Nat
  log : List Fact

/-- A run whose vertices are pending. -/
def Engine.start (nodeIds : List JsString) : Engine where
  settled := false
  aborted := false
  retiringHost := false
  sweepDue := false
  mediaAccountingDepth := 0
  states := nodeIds.foldl (fun states nodeId => states.set nodeId .pending) .empty
  gated := []
  activeDispatchByVertex := .empty
  dispatches := []
  jobs := []
  pendingMediaJobs := .empty
  publishing := []
  polls := []
  pinning := []
  log := []

/-- What the host answers while a job is accounted for. -/
structure Pricing where
  answer : PriceAnswer
  /-- The sink of the event stream throws. -/
  sinkFails : Bool

/-- A call of the host.  It may enter the terminal of the run, with these
answers for the jobs the sweep accounts for. -/
structure Callback where
  terminal : Option (Nat → Pricing)

/-- A call of the host that does nothing else. -/
def Callback.quiet : Callback where
  terminal := none

/-- A reading of the clock, or its fault. -/
structure ClockRead where
  callback : Callback
  reading : Option Nat

/-- What the host answers while a poll settles its job. -/
structure Settling where
  pricing : Pricing
  pricingCalls : Callback
  sinkCalls : Callback

namespace Engine

/-- `settle` and `settleAtReservedEstimate` of an admission: only the first
closing counts. -/
def closeAdmission (engine : Engine) (job : Nat)
    (how : Closing) : Engine :=
  match engine.jobs[job]? with
  | none => engine
  | some record =>
    if record.lease = .opened then
      { engine with
        jobs := engine.jobs.modify job fun record =>
          { record with lease := .closed }
        log := engine.log ++ [.closed job how] }
    else engine

/-- `admission?.` in front of a closing. -/
def closeAttached (engine : Engine) (attached : Bool) (job : Nat)
    (how : Closing) : Engine :=
  if attached then engine.closeAdmission job how else engine

/-- The job is accounted for, and its admission taken from it. -/
def detach (engine : Engine) (job : Nat) : Engine :=
  { engine with
    jobs := engine.jobs.modify job fun record =>
      { record with costAccounted := true, attached := false } }

def observe (engine : Engine) (fact : Fact) : Engine :=
  { engine with log := engine.log ++ [fact] }

def setStatus (engine : Engine) (nodeId : JsString)
    (status : VertexStatus) : Engine :=
  { engine with states := engine.states.set nodeId status }

/-- The status of a vertex is one of `SETTLED`. -/
def nodeSettled (engine : Engine) (nodeId : JsString) : Bool :=
  (engine.states.get nodeId).any VertexStatus.settled

/-- `#clearMediaJob`, apart from its timer. -/
def clearMediaJob (engine : Engine) (nodeId : JsString) : Engine :=
  { engine with pendingMediaJobs := engine.pendingMediaJobs.delete nodeId }

/-- `#failNodeInternal`. -/
def failNodeInternal (engine : Engine) (nodeId : JsString) : Engine :=
  let engine :=
    if engine.states.get nodeId = some .running ∨
        engine.states.get nodeId = some .paused then
      engine.setStatus nodeId .failed
    else engine
  if engine.settled then engine else { engine with aborted := true }

/-- The end of a pricing: the addend and the closing it calls for. -/
def account
    (engine : Engine) (attached : Bool) (job : Nat) (costMicrocents : Nat) (priced : Bool)
    (sinkFails : Bool)
    (onSink : Engine → Engine) : Bool × Engine :=
  let engine := engine.closeAttached attached job
    (if priced then .settle costMicrocents else .settleAtReservedEstimate)
  let engine := onSink (engine.observe (.addend job costMicrocents priced))
  if sinkFails then
    (false, engine.closeAttached attached job .settleAtReservedEstimate)
  else (true, engine)

/-- `#emitMediaJobCost`; the flag is false where it throws.  `onPrice` and
`onSink` are what the price resolver and the sink do to the run. -/
def emitMediaJobCost (engine : Engine) (onPrice onSink : Engine → Engine) (pricing : Pricing)
    (job : Nat) : Bool × Engine :=
  match engine.jobs[job]? with
  | none => (true, engine)
  | some record =>
    if record.costAccounted then (true, engine)
    else
      let engine := engine.detach job
      let engine := onPrice
        { engine with
          mediaAccountingDepth := engine.mediaAccountingDepth + 1 }
      let engine := engine.observe (.priced job pricing.answer)
      let (done, engine) :=
        match pricing.answer with
        | .priced costMicrocents =>
          engine.account record.attached job costMicrocents true pricing.sinkFails onSink
        | .unpriced costMicrocents =>
          engine.account record.attached job costMicrocents false pricing.sinkFails onSink
        | .fault =>
          (false, engine.closeAttached record.attached job .settleAtReservedEstimate)
      (done,
        { engine with
          mediaAccountingDepth := engine.mediaAccountingDepth - 1 })

/-- The sweep of `#settle`: every pending job is accounted for, whatever its
pricing throws, and the map is cleared. -/
def sweep (engine : Engine) (pricings : Nat → Pricing) : Engine :=
  let engine := engine.pendingMediaJobs.values.foldl
    (fun engine job =>
      (engine.emitMediaJobCost (fun engine => engine) (fun engine => engine)
        (pricings job) job).2)
    engine
  { engine with pendingMediaJobs := .empty, sweepDue := false }

/-- `#settle`.  The terminal waits while a job is being accounted for. -/
def settle (engine : Engine) (pricings : Nat → Pricing) : Engine :=
  if engine.settled then engine
  else
    let engine := { engine with settled := true, aborted := true }
    if 0 < engine.mediaAccountingDepth then { engine with sweepDue := true }
    else engine.sweep pricings

/-- What a call of the host does to the run. -/
def enter (engine : Engine) (callback : Callback) : Engine :=
  match callback.terminal with
  | none => engine
  | some pricings => engine.settle pricings

/-- `#onOutcome` with a failure. -/
def failNode (engine : Engine) (nodeId : JsString) : Engine :=
  if engine.settled = true ∨ engine.nodeSettled nodeId = true then engine
  else { engine.setStatus nodeId .failed with aborted := true }

/-- `#onOutcome` with a completion; a refused output fails the node. -/
def completeNode (engine : Engine) (nodeId : JsString) : Engine :=
  if engine.settled = true ∨ engine.nodeSettled nodeId = true then engine
  else engine.setStatus nodeId .completed

/-- The job is cleared and its cost emitted, as both settlements begin. -/
def clearAndEmit (engine : Engine) (settling : Settling) (nodeId : JsString)
    (job : Nat) : Bool × Engine :=
  (engine.clearMediaJob nodeId).emitMediaJobCost
    (·.enter settling.pricingCalls) (·.enter settling.sinkCalls)
    settling.pricing job

/-- `#settleMediaJobFailed`. -/
def settleMediaJobFailed (engine : Engine) (settling : Settling) (nodeId : JsString)
    (job : Nat) : Bool × Engine :=
  let (done, engine) := engine.clearAndEmit settling nodeId job
  (done, if done then engine.failNode nodeId else engine)

/-- `#settleMediaJobDone`, up to the pinning of its media. -/
def settleMediaJobDone (engine : Engine) (settling : Settling) (nodeId : JsString)
    (job : Nat) : Bool × Engine :=
  let (done, engine) := engine.clearAndEmit settling nodeId job
  (done, if done then { engine with pinning := engine.pinning ++ [job] }
    else engine)

/-- What `#pollMediaJob` catches: the reservation of the job is conserved, the
job dropped and its node failed. -/
def pollBackstop (engine : Engine) (nodeId : JsString)
    (job : Nat) : Engine :=
  if engine.settled then engine
  else
    match engine.jobs[job]? with
    | none => engine
    | some record =>
      (((engine.detach job).closeAttached record.attached job
        .settleAtReservedEstimate).clearMediaJob nodeId).failNodeInternal nodeId

/-- A settlement inside `#pollMediaJob`. -/
def guarded (nodeId : JsString) (job : Nat)
    (settlement : Bool × Engine) : Engine :=
  if settlement.1 then settlement.2
  else settlement.2.pollBackstop nodeId job

/-- `#pollMediaJob`, up to the answer of the executor.  `canPoll` says whether
the executor has a poll at all, `opensDeadline` whether the host arms one. -/
def pollMediaJob
    (engine : Engine) (clock : ClockRead) (canPoll : Bool) (opensDeadline : Bool)
    (settling : Settling)
    (nodeId : JsString) : Engine :=
  match engine.pendingMediaJobs.get nodeId with
  | none => engine
  | some job =>
    match engine.jobs[job]? with
    | none => engine
    | some record =>
      if engine.settled then engine
      else
        let engine := engine.enter clock.callback
        match clock.reading with
        | none => engine.pollBackstop nodeId job
        | some now =>
          if record.deadlineAt < now ∨ canPoll = false then
            guarded nodeId job (engine.settleMediaJobFailed settling nodeId job)
          else if opensDeadline = false then
            engine.pollBackstop nodeId job
          else { engine with polls := engine.polls ++ [job] }

/-- What a poll comes back with.  `throws` is also the bound of the call, and
`unrecognized` a state outside the union. -/
inductive PollAnswer
  | throws
  | pending
  | finished
  | failed
  | unrecognized

/-- A pending job polled again: its backoff grows. -/
def backOff (engine : Engine) (job : Nat) : Engine :=
  { engine with
    jobs := engine.jobs.modify job fun record =>
      { record with backoffMs := min (record.backoffMs * 2) pollMaxMs } }

/-- The rest of `#pollMediaJob` and `#applyMediaJobStatus`.  `timer` is the
host arming the next poll, `arms` whether it succeeds. -/
def answerPoll
    (engine : Engine) (answer : PollAnswer) (timer : Callback) (arms : Bool) (settling : Settling)
    (job : Nat) : Engine :=
  match engine.jobs[job]? with
  | none => engine
  | some record =>
    if engine.settled = true ∨ engine.aborted = true ∨
        engine.pendingMediaJobs.has record.nodeId = false then
      engine
    else
      match answer with
      | .pending =>
        let engine := engine.backOff job
        if engine.retiringHost then engine
        else
          let engine := engine.enter timer
          if arms then engine
          else
            guarded record.nodeId job (engine.settleMediaJobFailed settling record.nodeId job)
      | .finished =>
        guarded record.nodeId job (engine.settleMediaJobDone settling record.nodeId job)
      | _ =>
        guarded record.nodeId job (engine.settleMediaJobFailed settling record.nodeId job)

/-- The outcome of a dispatch is ignored. -/
def dropJob (engine : Engine) (job : Nat) : Engine :=
  { engine with
    jobs := engine.jobs.modify job fun record =>
      { record with stage := .dropped } }

/-- The admission is taken from the submission. -/
def takeMediaJobAdmission (engine : Engine) (job : Nat) : Engine :=
  { engine with
    jobs := engine.jobs.modify job fun record =>
      { record with attached := false } }

/-- The registration ends with the admission still in its own hands. -/
def refuseJob (engine : Engine) (attached : Bool)
    (job : Nat) : Engine :=
  ({ engine with
    jobs := engine.jobs.modify job fun record =>
      { record with stage := .refused } }).closeAttached attached job
    .settleAtReservedEstimate

/-- The pending map takes the job. -/
def parkJob (engine : Engine) (attached : Bool) (nodeId : JsString) (deadlineAt : Nat)
    (job : Nat) : Engine :=
  { engine with
    jobs := engine.jobs.modify job fun record =>
      { record with
        stage := .parked
        attached
        deadlineAt
        backoffMs := pollInitialMs }
    pendingMediaJobs := engine.pendingMediaJobs.set nodeId job
    publishing := engine.publishing ++ [job] }

/-- `#settleMediaJobParked`, up to the write of `media_job:submitted`. -/
def settleMediaJobParked (engine : Engine) (clock : ClockRead) (deadlineMs : Option Nat)
    (job : Nat) : Engine :=
  match engine.jobs[job]? with
  | none => engine
  | some record =>
    let engine := (engine.setStatus record.nodeId .paused)
      |>.takeMediaJobAdmission job
    let engine := engine.enter clock.callback
    match clock.reading with
    | none =>
      (engine.refuseJob record.attached job).failNodeInternal record.nodeId
    | some startedAt =>
      if engine.settled then engine.refuseJob record.attached job
      else
        engine.parkJob record.attached record.nodeId
          (startedAt + deadlineMs.getD defaultDeadlineMs) job

/-- `#isLive`. -/
def isLive (engine : Engine) (nodeId : JsString) (dispatch : Nat) : Bool :=
  !engine.settled && !engine.retiringHost &&
    decide (engine.activeDispatchByVertex.get nodeId = some dispatch)

def setPhase (engine : Engine) (dispatch : Nat)
    (phase : DispatchPhase) : Engine :=
  { engine with
    dispatches := engine.dispatches.modify dispatch fun loop =>
      { loop with phase } }

end Engine

/-- What else an attempt may come to. -/
inductive OtherOutcome
  | completed
  | failed
  | gate

/-- What the engine is entered with. -/
inductive Event
  /-- A vertex is claimed, or dispatched again after its gate. -/
  | dispatched (nodeId : JsString)
  /-- The executor returns a submission, with an admission or without. -/
  | submitted (dispatch : Nat) (admission : Bool)
  | concluded (dispatch : Nat) (outcome : OtherOutcome)
  /-- `#runAttempt` goes on with the submission. -/
  | attempted (dispatch : Nat)
  /-- The money join is over: `#onOutcome`. -/
  | arrived (dispatch : Nat) (clock : ClockRead) (deadlineMs : Option Nat)
  /-- `media_job:submitted` is written, or not; the first poll is armed. -/
  | published (job : Nat) (written : Bool) (timer : Callback) (arms : Bool)
  | polled (nodeId : JsString) (clock : ClockRead) (canPoll : Bool) (opensDeadline : Bool)
      (settling : Settling)
  | answered (job : Nat) (answer : Engine.PollAnswer) (timer : Callback) (arms : Bool)
      (settling : Settling)
  /-- The media of a finished job is pinned, or not; `delivers` says whether
  the outcome is delivered. -/
  | pinned (job : Nat) (succeeded : Bool) (delivers : Bool)
  /-- A departing host finds the deadline of a job past. -/
  | expired (job : Nat) (settling : Settling)
  | nodeDeadline (nodeId : JsString)
  | graceElapsed
  | cancelled
  | terminal (pricings : Nat → Pricing)
  /-- The terminal goes on after the accounting it waited for. -/
  | swept (pricings : Nat → Pricing)
  | detached
  /-- The ownership of the run is lost: `#settleFenced`. -/
  | fenced

namespace Engine

def startDispatch (engine : Engine) (nodeId : JsString) : Engine :=
  let engine := engine.setStatus nodeId .running
  { engine with
    gated := engine.gated.filter fun other => decide (other ≠ nodeId)
    activeDispatchByVertex :=
      engine.activeDispatchByVertex.set nodeId engine.dispatches.length
    dispatches := engine.dispatches ++ [{ nodeId, phase := .executing }] }

/-- The executor returns a submission. -/
def submitJob (engine : Engine) (nodeId : JsString) (dispatch : Nat)
    (admission : Bool) : Engine :=
  { engine.setPhase dispatch (.carrying engine.jobs.length) with
    jobs := engine.jobs ++ [{
      nodeId
      lease := if admission then .opened else .absent
      attached := admission
      costAccounted := false
      stage := .returned
      deadlineAt := 0
      backoffMs := 0 }] }

/-- `#onOutcome` with what is not a submission. -/
def concludeNode (engine : Engine)
    (nodeId : JsString) : OtherOutcome → Engine
  | .completed => engine.completeNode nodeId
  | .failed => engine.failNode nodeId
  | .gate =>
    if engine.settled = true ∨ engine.nodeSettled nodeId = true then engine
    else
      { engine.setStatus nodeId .paused with
        gated := engine.gated ++ [nodeId] }

/-- `#onNodeDeadline`. -/
def onNodeDeadline (engine : Engine) (nodeId : JsString) : Engine :=
  if engine.settled = true ∨ engine.nodeSettled nodeId = true then engine
  else
    { engine with
      activeDispatchByVertex :=
        engine.activeDispatchByVertex.delete nodeId }.failNode nodeId

/-- `#onGraceElapsed`. -/
def onGraceElapsed (engine : Engine) : Engine :=
  if engine.settled then engine
  else
    { engine with
      aborted := true
      activeDispatchByVertex := .empty
      states := engine.states.mapValues fun _ status =>
        if status = .running then .failed else status }

/-- `#armMediaPoll` after the write of `media_job:submitted`; a fault of either
fails the node. -/
def publishJob (engine : Engine) (written : Bool) (timer : Callback) (arms : Bool)
    (job : Nat) : Engine :=
  match engine.jobs[job]? with
  | none => engine
  | some record =>
    if written = false then engine.failNodeInternal record.nodeId
    else if engine.retiringHost = true ∨
        engine.pendingMediaJobs.has record.nodeId = false then
      engine
    else
      let engine := engine.enter timer
      if arms then engine else engine.failNodeInternal record.nodeId

/-- `#onOutcome` after the pinning. -/
def pinJob (engine : Engine) (succeeded : Bool) (delivers : Bool)
    (job : Nat) : Engine :=
  match engine.jobs[job]? with
  | none => engine
  | some record =>
    if engine.settled = true ∨ engine.nodeSettled record.nodeId = true then
      engine
    else
      let engine :=
        if succeeded then engine.completeNode record.nodeId
        else engine.failNode record.nodeId
      if delivers then engine else engine.failNodeInternal record.nodeId

/-- `#expireDepartureMedia`. -/
def expireDepartureMedia (engine : Engine) (settling : Settling)
    (job : Nat) : Engine :=
  match engine.jobs[job]? with
  | none => engine
  | some record =>
    if engine.settled = true ∨ engine.retiringHost = true ∨
        engine.pendingMediaJobs.get record.nodeId ≠ some job then
      engine
    else
      let (done, engine) :=
        engine.settleMediaJobFailed settling record.nodeId job
      if done = true ∨ engine.settled = true then engine
      else { engine with aborted := true }

/-- `#settleFenced`. -/
def settleFenced (engine : Engine) : Engine :=
  { engine with
    settled := true
    aborted := true
    sweepDue := false
    pendingMediaJobs := .empty }

/-- What one event does; nothing where it cannot happen. -/
def apply (engine : Engine) : Event → Option Engine
  | .dispatched nodeId =>
    if engine.settled = false ∧
        (engine.states.get nodeId = some .pending ∨
          engine.states.get nodeId = some .paused ∧
            nodeId ∈ engine.gated) then
      some (engine.startDispatch nodeId)
    else none
  | .submitted dispatch admission =>
    match engine.dispatches[dispatch]? with
    | some { nodeId, phase := .executing } =>
      some (engine.submitJob nodeId dispatch admission)
    | _ => none
  | .concluded dispatch outcome =>
    match engine.dispatches[dispatch]? with
    | some { nodeId, phase := .executing } =>
      some ((engine.setPhase dispatch .done).concludeNode nodeId outcome)
    | _ => none
  | .attempted dispatch =>
    match engine.dispatches[dispatch]? with
    | some { nodeId, phase := .carrying job } =>
      if (engine.jobs[job]?).any fun record =>
          decide (record.stage = .returned) then
        if engine.isLive nodeId dispatch then
          some { engine with
            jobs := engine.jobs.modify job fun record =>
              { record with stage := .arriving } }
        else some ((engine.setPhase dispatch .done).dropJob job)
      else none
    | _ => none
  | .arrived dispatch clock deadlineMs =>
    match engine.dispatches[dispatch]? with
    | some { nodeId, phase := .carrying job } =>
      if (engine.jobs[job]?).any fun record =>
          decide (record.stage = .arriving) then
        let engine := engine.setPhase dispatch .done
        if engine.settled = true ∨ engine.nodeSettled nodeId = true then
          some (engine.dropJob job)
        else some (engine.settleMediaJobParked clock deadlineMs job)
      else none
    | _ => none
  | .published job written timer arms =>
    if job ∈ engine.publishing then
      some ({ engine with publishing := engine.publishing.erase job }
        |>.publishJob written timer arms job)
    else none
  | .polled nodeId clock canPoll opensDeadline settling =>
    if engine.retiringHost then none
    else
      some (engine.pollMediaJob clock canPoll opensDeadline settling nodeId)
  | .answered job answer timer arms settling =>
    if job ∈ engine.polls then
      some ({ engine with polls := engine.polls.erase job }
        |>.answerPoll answer timer arms settling job)
    else none
  | .pinned job succeeded delivers =>
    if job ∈ engine.pinning then
      some ({ engine with pinning := engine.pinning.erase job }
        |>.pinJob succeeded delivers job)
    else none
  | .expired job settling => some (engine.expireDepartureMedia settling job)
  | .nodeDeadline nodeId => some (engine.onNodeDeadline nodeId)
  | .graceElapsed => some engine.onGraceElapsed
  | .cancelled => some { engine with aborted := true }
  | .terminal pricings => some (engine.settle pricings)
  | .swept pricings =>
    if engine.sweepDue then some (engine.sweep pricings) else none
  | .detached => some { engine with retiringHost := true }
  | .fenced => some engine.settleFenced

end Engine

/-- One step of a run. -/
def MediaStep (before : Engine) (event : Event) (after : Engine) : Prop :=
  before.apply event = some after

end MediaJobs
end Relavium.Run
