import Relavium.Library.Trace
import Relavium.Library.Transaction
import Relavium.Store.EffectJournal
import Relavium.Tools.ReplayEnvelope
import Relavium.Tools.ResultBounding

/-!
# Dispatching a journaled tool

Model of `dispatch` of `packages/core/src/tools/registry.ts` from the point where
its arguments are admitted and its tier is known.  A dispatch stops at every
await: at the approval, at each write of the journal and at the call itself.
Any number of dispatches, in any processes, share the journal.
-/

namespace Relavium.Tools

open Library
open Store

/-! ## Failures -/

/-- The `ToolDispatchError`s. -/
inductive ToolFailure
  | cancelled
  | deniedByUser
  | argsInvalid (fields : List String)
  | unavailable
  | effectConflict
  | effectNeedsAttention
  /-- `ToolExecutionError`, with what it says about retries, where it does. -/
  | execution (recoverable : Bool) (retryable : Option Bool)
  deriving DecidableEq

/-- What is thrown inside a dispatch. -/
inductive Thrown
  | dispatchError (failure : ToolFailure)
  /-- An error named `AbortError`. -/
  | abortError
  | otherError
  deriving DecidableEq

/-- `neverLeftTheProcess`. -/
def neverLeftTheProcess (thrown : Thrown) : Bool :=
  decide (thrown = .dispatchError .unavailable)

/-- The ladder at the end of `dispatch`. -/
def classifyFailure (aborted recoverable effectDispatched : Bool)
    (thrown : Thrown) : ToolFailure :=
  if thrown = .dispatchError .cancelled ∨ aborted = true ∨ thrown = .abortError then
    .cancelled
  else
    match thrown with
    | .dispatchError failure => failure
    | _ => .execution recoverable (if effectDispatched then some false else none)

/-! ## A dispatch -/

/-- What a dispatch is asked to do. -/
structure DispatchCall where
  identity : EffectIdentity
  tier : EffectTier
  argsDigest : String
  /-- The arguments whose redacted form never settles. -/
  unsettled : List String
  /-- The tool is not a governed one, so that a failure may go back to the model. -/
  recoverable : Bool
  outputMapping : Option (OrderedMap JsString JsString)
  limits : ToolResultLimits

/-- `ToolDispatchOutcome`. -/
structure ToolDispatchOutcome where
  /-- What goes into workflow state. -/
  output : JsValue
  /-- `toolResult.result`. -/
  result : JsValue
  truncated : Bool
  /-- The summary in the result event. -/
  outputSummary : JsString

/-- `UNSAFE_ARG_KEYS`. -/
def unsafeArgKeys : List JsString :=
  [jsText "__proto__", jsText "constructor", jsText "prototype"]

/-- The parts of a text between dots. -/
def splitPath (path : JsString) : List JsString :=
  path.splitOn 0x2E

/-- Follow the segments of a path through own properties. -/
def readSegments : List JsString → JsValue → JsValue
  | [], value => value
  | segment :: rest, .object properties =>
    match OrderedMap.lookupEntry segment properties with
    | some value => readSegments rest value
    | none => .undefined
  | _ :: _, _ => .undefined

/-- `readPath`. -/
def readPath (value : JsValue) (path : JsString) : JsValue :=
  if path = [] then value else readSegments (splitPath path) value

/-- The projection that an output mapping makes of a result. -/
def mappedOutput (full : JsValue)
    (mapping : OrderedMap JsString JsString) : JsValue :=
  .object
    ((mapping.entries.filter fun entry => decide (entry.1 ∉ unsafeArgKeys)).map
      fun entry => (entry.1, readPath full entry.2))

/-- `applyOutputMapping`. -/
def applyOutputMapping
    (full : JsValue) : Option (OrderedMap JsString JsString) → JsValue
  | none => full
  | some mapping => mappedOutput full mapping

/-- The envelope that `settleCommitted` records. -/
def recordedEnvelope (call : DispatchCall)
    (outcome : ToolDispatchOutcome) : ReplayEnvelope where
  value := outcome.result
  truncated := outcome.truncated
  summary := outcome.outputSummary
  mapped := if call.outputMapping.isSome then some outcome.output else none
  hadMapping := call.outputMapping.isSome

/-- The outcome that a replay restores. -/
def replayedOutcome (envelope : ReplayEnvelope) : ToolDispatchOutcome where
  output := envelope.mapped.getD envelope.value
  result := envelope.value
  truncated := envelope.truncated
  outputSummary := envelope.summary

/-- Where a dispatch is. -/
inductive DispatchPhase
  /-- The arguments are admitted, nothing is journaled. -/
  | admitted
  | approved
  /-- `prepare` proceeded, the call has not started. -/
  | claimed
  | replaying (envelope : ReplayEnvelope)
  /-- The call is under way. -/
  | dispatching
  /-- The call never left: the claim is about to be released. -/
  | releasing (thrown : Thrown)
  /-- The call failed: the row is about to become ambiguous. -/
  | recordingAmbiguous (thrown : Thrown)
  | answered (output : JsValue)
  /-- The outcome is bounded and about to be recorded. -/
  | settling (outcome : ToolDispatchOutcome)
  | returned (outcome : ToolDispatchOutcome)
  | failed (failure : ToolFailure)
  | crashed

structure DispatchState where
  phase : DispatchPhase
  /-- `ctx.signal.aborted`. -/
  aborted : Bool

/-- What `def.dispatch` ends with. -/
inductive TargetAnswer
  | returned (value : JsValue) (media : Bool)
  | threw (thrown : Thrown)

inductive DispatchEvent
  /-- The signal of the dispatch is aborted. -/
  | abort
  /-- The approval is obtained, not needed, or refused. -/
  | confirm (refused : Option Thrown)
  | prepare (rowId : String) (fault : WriteFault)
  /-- `beforeDispatch` refuses, or the call of `def.dispatch` starts. -/
  | start (refused : Option Thrown)
  | answer (answer : TargetAnswer)
  | bound (spill : SpillAnswer)
  | settle (fault : WriteFault)
  | redeliver
  | release (fault : WriteFault)
  | recordAmbiguous (fault : WriteFault)
  /-- The process dies. -/
  | crash

namespace DispatchState

/-- End with what is thrown. -/
def throwing (state : DispatchState) (call : DispatchCall) (effectDispatched : Bool)
    (thrown : Thrown) : DispatchState :=
  { state with
    phase :=
      .failed (classifyFailure state.aborted call.recoverable effectDispatched thrown) }

/-- `throwIfAborted`, and what follows it otherwise. -/
def unlessAborted (state : DispatchState)
    (phase : DispatchPhase) : DispatchState :=
  { state with phase := if state.aborted then .failed .cancelled else phase }

/-- Whether the dispatch may still do something. -/
def isOpen (state : DispatchState) : Bool :=
  match state.phase with
  | .returned _ | .failed _ | .crashed => false
  | _ => true

end DispatchState

section Step

variable
  (exoticText : Option JsString)
  (rendering : ResultRendering)

/-- `prepareEffect`. -/
def applyPrepare
    (call : DispatchCall) (rowId : String) (fault : WriteFault) (journal : EffectJournal)
    (state : DispatchState) : EffectJournal × DispatchState :=
  if call.unsettled ≠ [] then
    (journal, state.throwing call false (.dispatchError (.argsInvalid call.unsettled)))
  else if fault = .beforeCommit then (journal, state.throwing call false .otherError)
  else
    match journal.prepare call.identity rowId call.tier call.argsDigest with
    | (answer, journal) =>
      if fault = .afterCommit then (journal, state.throwing call false .otherError)
      else
        match answer with
        | .ok .proceed => (journal, { state with phase := .claimed })
        | .ok (.replay result) =>
          (journal, { state with phase := .replaying (asReplayEnvelope result) })
        | .error (.conflict _) =>
          (journal, state.throwing call false (.dispatchError .effectConflict))
        | .error _ => (journal, state.throwing call false .otherError)

/-- What follows the end of `def.dispatch`. -/
def afterAnswer (answer : TargetAnswer) : DispatchPhase :=
  match answer with
  | .returned value media =>
    if media then
      .recordingAmbiguous (.dispatchError (.execution false (some false)))
    else .answered value
  | .threw thrown =>
    if neverLeftTheProcess thrown then .releasing thrown
    else .recordingAmbiguous thrown

/-- Mapping and bounding of the full result. -/
def applyBound (call : DispatchCall) (output : JsValue) (spill : SpillAnswer)
    (state : DispatchState) : DispatchState :=
  if state.aborted then { state with phase := .failed .cancelled }
  else
    match rendering.boundForModel output call.limits spill state.aborted with
    | some bounded =>
      { state with
        phase := .settling {
          output := applyOutputMapping output call.outputMapping
          result := bounded.value
          truncated := bounded.truncated
          outputSummary := bounded.summary } }
    | none => state.throwing call true .abortError

/-- `settleCommitted`. -/
def applySettle
    (call : DispatchCall) (outcome : ToolDispatchOutcome) (fault : WriteFault)
    (journal : EffectJournal)
    (state : DispatchState) : EffectJournal × DispatchState :=
  if fault = .beforeCommit then
    (journal, state.throwing call true (.dispatchError .effectNeedsAttention))
  else
    match journal.settle exoticText call.identity .committed
        (some (toStoredEnvelope (recordedEnvelope call outcome))) with
    | (.error _, journal) =>
      (journal, state.throwing call true (.dispatchError .effectNeedsAttention))
    | (.ok (), journal) =>
      if fault = .afterCommit then
        (journal, state.throwing call true (.dispatchError .effectNeedsAttention))
      else (journal, state.unlessAborted (.returned outcome))

/-- The replay restores the recorded projections, unless the node maps its output
now and did not then, or the other way. -/
def applyRedeliver (call : DispatchCall) (envelope : ReplayEnvelope)
    (state : DispatchState) : DispatchState :=
  if state.aborted then { state with phase := .failed .cancelled }
  else if envelope.hadMapping ≠ call.outputMapping.isSome then
    state.throwing call true (.dispatchError .effectConflict)
  else { state with phase := .returned (replayedOutcome envelope) }

/-- What a dispatch does next. -/
def applyDispatch (call : DispatchCall) (journal : EffectJournal) (state : DispatchState)
    (event : DispatchEvent) : Option (EffectJournal × DispatchState) :=
  match state.phase, event with
  | _, .abort => some (journal, { state with aborted := true })
  | _, .crash =>
    if state.isOpen then some (journal, { state with phase := .crashed }) else none
  | .admitted, .confirm refused =>
    some (journal, if state.aborted then { state with phase := .failed .cancelled }
      else
        match refused with
        | some thrown => state.throwing call false thrown
        | none => { state with phase := .approved })
  | .approved, .prepare rowId fault =>
    some (applyPrepare call rowId fault journal state)
  | .claimed, .start refused =>
    some (journal,
      { state with
        phase :=
          match refused with
          | some thrown => .releasing thrown
          | none => .dispatching })
  | .replaying envelope, .redeliver =>
    some (journal, applyRedeliver call envelope state)
  | .dispatching, .answer answer =>
    some (journal, { state with phase := afterAnswer answer })
  | .releasing thrown, .release fault =>
    some (if fault = .beforeCommit then journal else journal.discard call.identity,
      state.throwing call true thrown)
  | .recordingAmbiguous thrown, .recordAmbiguous fault =>
    some
      (if fault = .beforeCommit then journal
        else (journal.settle exoticText call.identity .ambiguous none).2,
      state.throwing call true thrown)
  | .answered output, .bound spill =>
    some (journal, applyBound rendering call output spill state)
  | .settling outcome, .settle fault =>
    some (applySettle exoticText call outcome fault journal state)
  | _, _ => none

end Step

/-! ## The processes and the journal they share -/

/-- Every dispatch has a number of its own. -/
abbrev DispatchId := Nat

structure EffectWorld where
  journal : EffectJournal
  dispatches : DispatchId → DispatchState

inductive EffectEvent
  | dispatch (id : DispatchId) (event : DispatchEvent)
  /-- An operator flags a row. -/
  | flag (identity : EffectIdentity)

namespace EffectWorld

/-- Nothing is dispatched yet; the journal may hold anything. -/
def start (journal : EffectJournal) : EffectWorld where
  journal
  dispatches _ := { phase := .admitted, aborted := false }

/-- The world after an event, if the event can happen. -/
def apply
    (exoticText : Option JsString) (rendering : ResultRendering)
    (calls : DispatchId → DispatchCall)
    (world : EffectWorld) : EffectEvent → Option EffectWorld
  | .dispatch id event =>
    (applyDispatch exoticText rendering (calls id) world.journal
      (world.dispatches id) event).map fun next =>
        { journal := next.1
          dispatches := Function.update world.dispatches id next.2 }
  | .flag identity =>
    some { world with journal := world.journal.flagForAttention identity }

end EffectWorld

/-- One step of a dispatch, or of the operator. -/
def EffectStep
    (exoticText : Option JsString) (rendering : ResultRendering)
    (calls : DispatchId → DispatchCall) (world : EffectWorld) (event : EffectEvent)
    (next : EffectWorld) : Prop :=
  world.apply exoticText rendering calls event = some next

end Relavium.Tools
