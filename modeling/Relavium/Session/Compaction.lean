import Relavium.Library.Transaction
import Relavium.Session.CompactionChunk

/-!
# Compaction of a session

Model of `compact` and `#compactInner` of
`packages/core/src/engine/agent-session.ts`, with what they use of
`agent-turn.ts`.  The summariser is granted no tool.  A script says what the host, its
event sink and the providers do, and which operations of the session are called in the
meantime.
-/

namespace Relavium.Session

open Library Llm Shared

/-- `SessionStatus`. -/
inductive SessionStatus
  | created
  | idle
  | running
  | cancelled
  deriving DecidableEq

/-- The type of a `Memory`. -/
inductive MemoryType
  | none
  | window
  | summary
  deriving DecidableEq

/-- `CompletedTurnSpan`. -/
structure CompletedTurnSpan where
  start : Nat
  stop : Nat

/-- A message of the transcript, and which object it is. -/
structure HeldMessage where
  reference : Nat
  message : LlmMessage JsValue

/-- What a compaction replaces: `#messages`, `#completedTurnSpans` and
`#compactionSummary`. -/
structure SessionHistory where
  messages : List HeldMessage
  completedTurnSpans : List CompletedTurnSpan
  compactionSummary : Option JsString

/-- The fields of an `AgentSession` that a compaction reads or writes. -/
structure AgentSession where
  history : SessionHistory
  pendingUser : Option Nat
  memory : Option MemoryType
  status : SessionStatus
  /-- `#abort` is set. -/
  armed : Bool
  /-- The signal of the operation is aborted. -/
  aborted : Bool
  abortingTurn : Bool

/-- A public operation of the session. -/
inductive SessionCall
  | cancel
  | abort
  /-- An operation that `#assertSendable` guards, with what it does when admitted. -/
  | guarded (operation : AgentSession → AgentSession)

/-- What a call changes; a guarded operation throws unless the session is idle. -/
def AgentSession.call (session : AgentSession) : SessionCall → AgentSession
  | .cancel =>
    if session.status = .cancelled then session
    else
      { session with
        status := .cancelled
        aborted := session.aborted || session.armed
        armed := false }
  | .abort =>
    if session.status = .running then
      { session with
        abortingTurn := true
        aborted := session.aborted || session.armed }
    else session
  | .guarded operation =>
    if session.status = .idle then operation session else session

namespace SessionHistory

/-- `#rebasedHistorySpans`. -/
def rebasedHistorySpans (history : SessionHistory)
    (keptMessageCount : Nat) : List CompletedTurnSpan :=
  let dropped := history.messages.length - keptMessageCount
  (history.completedTurnSpans.filter fun span => dropped ≤ span.start).map fun span =>
    { start := span.start - dropped, stop := span.stop - dropped }

/-- `#replaceHistory`. -/
def replaceHistory (history : SessionHistory)
    (kept : List HeldMessage) : SessionHistory :=
  { history with
    messages := kept
    completedTurnSpans := history.rebasedHistorySpans kept.length }

/-- The history with a summary of all but the kept messages. -/
def install (history : SessionHistory) (summary : JsString)
    (kept : List HeldMessage) : SessionHistory :=
  { history.replaceHistory kept with compactionSummary := some summary }

end SessionHistory

/-- The answer of `#splitFoldable`. -/
structure FoldableSplit where
  foldable : List HeldMessage
  kept : List HeldMessage

namespace AgentSession

variable (session : AgentSession)

/-- `compactionRefusal`. -/
def compactionRefusal : Option MemoryType :=
  if session.memory = some .none ∨ session.memory = some .window then session.memory
  else none

/-- Where the pending user message stands, or the end of the transcript. -/
def pendingIndex : Int :=
  match session.pendingUser with
  | none => session.history.messages.length
  | some reference =>
    match session.history.messages.findIdx? (·.reference = reference) with
    | some index => index
    | none => -1

/-- The last user message among the first ones of the transcript. -/
def lastUserBefore (count : Nat) : Option Nat :=
  (List.range count).reverse.find? fun index =>
    session.history.messages[index]?.any fun held => held.message.role = .user

/-- The start of the exchange that is kept. -/
def keptStart : Option Nat :=
  let pending := session.pendingIndex
  match (session.history.completedTurnSpans.filter fun span =>
      (span.stop : Int) ≤ pending).getLast? with
  | some last => some last.start
  | none => session.lastUserBefore pending.toNat

/-- `#splitFoldable`. -/
def splitFoldable : Option FoldableSplit :=
  match session.keptStart with
  | none | some 0 => none
  | some start =>
    some {
      foldable := session.history.messages.take start
      kept := session.history.messages.drop start
    }

end AgentSession

/-- `SessionCompactionReason`. -/
inductive CompactionReason
  | manual
  | autoThreshold
  | preSend
  | overflowRecovery
  deriving DecidableEq

/-- The usage that a turn reports. -/
structure TurnUsage where
  input : Nat
  output : Nat
  unknownCalls : Nat

namespace TurnUsage

def zero : TurnUsage where
  input := 0
  output := 0
  unknownCalls := 0

def add (usage more : TurnUsage) : TurnUsage where
  input := usage.input + more.input
  output := usage.output + more.output
  unknownCalls := usage.unknownCalls + more.unknownCalls

end TurnUsage

/-- The data of `session:compacted`, which are those of the result too. -/
structure CompactedData where
  summary : JsString
  keptMessageCount : Nat
  keptTurnCount : Nat
  tokensBefore : Nat
  tokensAfter : Nat
  tokensUsed : TurnUsage

/-- An event that a compaction hands to the sink. -/
inductive CompactionEvent
  | compacting (windowUnknown : Bool)
  | compacted (data : CompactedData)
  | compactionFailed (code : ErrorCode) (message : JsString)

/-- `CompactionResult`. -/
inductive CompactionResult
  | policyRefused (memory : MemoryType)
  | nothingToCompact
  | cancelled
  | budgetRefused (message : JsString) (momentOpened : Bool)
  | failed (message : JsString) (error : Option ErrorCode)
  | compacted (data : CompactedData)

/-- A moment at which the host runs: the calls it makes, and what it throws after them. -/
structure HostMove where
  calls : List SessionCall
  thrown : Option Thrown

/-- The host that does nothing. -/
def HostMove.quiet : HostMove where
  calls := []
  thrown := none

/-- What happens around one attempt of the chain at a request. -/
structure Attempt where
  /-- `money.join` before the admission. -/
  joined : HostMove
  /-- `preEgress` of the host. -/
  admitted : HostMove
  /-- The sink, given `session:compacting`. -/
  opening : HostMove
  /-- `onCompactionStart`. -/
  disclosed : HostMove
  /-- The request reaches the provider. -/
  sends : Bool
  /-- Until the attempt is over. -/
  engaged : List SessionCall

/-- How the turn of one pass goes, round after round. -/
inductive TurnScript
  /-- The chain gives up, or an observer of the turn throws. -/
  | fails (attempts : List Attempt) (thrown : Thrown)
  /-- The last attempt stops with a text. -/
  | answers (attempts : List Attempt) (joined : HostMove) (text : JsString) (usage : TurnUsage)
  /-- The last attempt stops for the use of tools. -/
  | callsTools (attempts : List Attempt) (content : List (ContentPart JsValue))
      (joined : HostMove)
      (dispatching : Nat → List SessionCall)
      (later : TurnScript)

/-- What the lookup of the plan's providers does to an idle session; nothing when the
plan is already resolved. -/
structure ProviderLookup where
  cancels : Bool
  thrown : Option Thrown

/-- What happens around a compaction. -/
structure CompactionScript where
  resolving : ProviderLookup
  /-- `newAbortController`. -/
  arming : HostMove
  /-- While the windows of the plan are asked for. -/
  measuring : List SessionCall
  /-- While the context before the compaction is estimated. -/
  estimating : List SessionCall
  /-- While the chunk of a pass is prepared. -/
  preparing : Nat → List SessionCall
  /-- The turn of a pass. -/
  turns : Nat → TurnScript
  /-- While the context after the compaction is estimated. -/
  projecting : List SessionCall
  /-- The sink, given `session:compacted`. -/
  accepting : HostMove
  /-- Before the acceptance is observed. -/
  settling : List SessionCall
  /-- The sink, given `session:compaction_failed`. -/
  refusing : HostMove

/-- What is fixed of a compaction. -/
structure CompactionSetup where
  reason : CompactionReason
  /-- The compaction runs within a turn. -/
  active : Bool
  /-- The message of a plan that does not resolve. -/
  planFailure : Option JsString
  factory : RequestFactory
  nodeId : JsString
  registeredTools : List JsString
  maxToolTurns : Nat
  maxToolCorrections : Nat
  /-- `#estimateTokens` of the projection of a history. -/
  estimateTokens : SessionHistory → Option Nat → Nat

/-- The session in the course of a compaction, with what left it. -/
structure CompactionState where
  session : AgentSession
  opened : Bool
  closed : Bool
  /-- The requests handed to a provider. -/
  sent : List PreparedRequest
  /-- The events handed to the sink. -/
  emitted : List CompactionEvent

/-- A part of a compaction. -/
abbrev Compacting (α : Type) : Type :=
  Statements CompactionState Thrown α

namespace Compacting

/-- The calls that are made while the compaction waits. -/
def hostRuns (calls : List SessionCall) : Compacting Unit :=
  Statements.update fun state =>
    { state with session := calls.foldl AgentSession.call state.session }

/-- A moment of the host that is not an observation. -/
def hostMoves (move : HostMove) : Compacting Unit := do
  hostRuns move.calls
  match move.thrown with
  | none => pure ()
  | some thrown => Statements.refuse thrown

/-- `observe`, of a callback without an event. -/
def observe (move : HostMove) : Compacting Unit := do
  hostRuns move.calls
  match move.thrown with
  | none => pure ()
  | some original => Statements.refuse (.observer original)

/-- `observe`, of the delivery of an event. -/
def observeEvent (event : CompactionEvent)
    (move : HostMove) : Compacting Unit := do
  Statements.update fun state => { state with emitted := state.emitted ++ [event] }
  observe move

/-- The `AgentTurnError` of a cancelled compaction. -/
def compactionCancelled : Thrown :=
  .agentTurn .cancelled (jsText "compaction cancelled")

/-- `checkCancelled`. -/
def checkCancelled : Compacting Unit := do
  let session ← Statements.select CompactionState.session
  Statements.require (¬(session.aborted = true ∨ session.status = .cancelled)) compactionCancelled

/-- `throwIfAborted` of `agent-turn.ts`. -/
def throwIfAborted : Compacting Unit := do
  let session ← Statements.select CompactionState.session
  Statements.require (¬session.aborted = true)
    (.agentTurn .cancelled (jsText "the run was cancelled"))

/-- `awaitCompactionDisclosure`: the abort wins over what the host answers. -/
def awaitCompactionDisclosure (disclosed : HostMove) : Compacting Unit := do
  let before ← Statements.select CompactionState.session
  Statements.require (¬before.aborted = true) compactionCancelled
  hostRuns disclosed.calls
  let after ← Statements.select CompactionState.session
  Statements.require (¬after.aborted = true) compactionCancelled
  match disclosed.thrown with
  | none => pure ()
  | some original => Statements.refuse (.observer original)

/-- The moment opens once, before the first request leaves. -/
def openMoment (windows : CompactionWindows)
    (attempt : Attempt) : Compacting Unit := do
  let opened ← Statements.select CompactionState.opened
  if opened then pure ()
  else do
    observeEvent (.compacting windows.unknown) attempt.opening
    Statements.update fun state => { state with opened := true }
    awaitCompactionDisclosure attempt.disclosed

/-- The `preEgress` of a compaction. -/
def preEgress (windows : CompactionWindows)
    (attempt : Attempt) : Compacting Unit := do
  hostMoves attempt.admitted
  checkCancelled
  openMoment windows attempt
  checkCancelled

/-- The request is handed to the provider. -/
def send (round : PreparedRequest) : Compacting Unit :=
  Statements.update fun state => { state with sent := state.sent ++ [round] }

/-- One attempt of the chain at the request of a round. -/
def attemptRequest (windows : CompactionWindows) (round : PreparedRequest)
    (attempt : Attempt) : Compacting Unit := do
  hostMoves attempt.joined
  throwIfAborted
  preEgress windows attempt
  throwIfAborted
  if attempt.sends then send round else pure ()
  hostRuns attempt.engaged

/-- The attempts of the chain at the request of a round. -/
def attemptAll (windows : CompactionWindows)
    (round : PreparedRequest) : List Attempt → Compacting Unit
  | [] => pure ()
  | attempt :: rest => do
      attemptRequest windows round attempt
      attemptAll windows round rest

section Turn

variable
  (setup : CompactionSetup)
  (windows : CompactionWindows)

/-- The head of the loop of `driveAgentTurn`. -/
def enterRound (toolTurn : Nat) : Compacting Unit := do
  throwIfAborted
  Statements.require (toolTurn ≤ setup.maxToolTurns)
    (.agentTurn .turnLimit
      (jsText s!"agent exceeded the {setup.maxToolTurns}-turn tool-call limit"))

/-- The stream of a round. -/
def streamRound (round : PreparedRequest)
    (attempts : List Attempt) : Compacting Unit := do
  throwIfAborted
  attemptAll windows round attempts

/-- The text of an `UnknownToolError`. -/
def unknownToolMessage (name : JsString) : JsString :=
  jsText "unknown tool `" ++ name ++ jsText "` — available tools: " ++
    (jsText ", ").intercalate (setup.registeredTools.insertionSort (· ≤ ·))

/-- A tool call of the summariser: it is answered when no registered tool has its
name, and ends the turn otherwise. -/
def answerCall (id name : JsString)
    (providerExecuted : Option Bool) : Except Thrown (LlmMessage JsValue) :=
  if providerExecuted = some true then
    throw (.agentTurn .toolDenied
      (jsText "tool `" ++ name ++
        jsText "` is provider-executed and is not dispatched by the engine"))
  else if name ∈ setup.registeredTools then
    throw (.agentTurn .toolDenied
      (jsText "tool `" ++ name ++ jsText "` is not granted to node `" ++
        setup.nodeId ++ jsText "`"))
  else
    pure {
      role := .tool
      content := [.toolResult (.object [ (jsText "toolCallId", .string id),
        (jsText "result", .string (unknownToolMessage setup name)),
        (jsText "isError", .boolean true)])]
    }

/-- The loop of `dispatchToolCalls` over the parts that are calls. -/
def dispatchToolCalls (dispatching : Nat → List SessionCall) :
    Nat → List (ContentPart JsValue) → Compacting (List (LlmMessage JsValue))
  | _, [] => pure []
  | slot, .toolCall id name _ providerExecuted _ :: rest => do
      throwIfAborted
      hostRuns (dispatching slot)
      let answer ← Statements.ofExcept (answerCall setup id name providerExecuted)
      let answers ← dispatchToolCalls dispatching (slot + 1) rest
      pure (answer :: answers)
  | slot, _ :: rest => dispatchToolCalls dispatching slot rest

/-- The part is a tool call. -/
def isToolCall : ContentPart JsValue → Bool
  | .toolCall .. => true
  | _ => false

/-- `ADMISSION_CEILINGS.toolCallsPerResponse`. -/
def toolCallsPerResponse : Nat := 16

/-- The part is no tool call, or one that is answered. -/
def isAnswered : ContentPart JsValue → Bool
  | .toolCall _ name _ providerExecuted _ =>
    providerExecuted ≠ some true && name ∉ setup.registeredTools
  | _ => true

/-- A reply that stops for the use of tools leads to another round. -/
def LeadsOn (content : List (ContentPart JsValue)) : Prop :=
  1 ≤ setup.maxToolTurns ∧
    1 ≤ setup.maxToolCorrections ∧
    content.countP isToolCall ≠ 0 ∧
    content.countP isToolCall ≤ toolCallsPerResponse ∧
    ∀ part ∈ content, isAnswered setup part = true

/-- The turn has no round after its first. -/
def StaysInRound : TurnScript → Prop
  | .callsTools _ content _ _ _ => ¬LeadsOn setup content
  | _ => True

/-- `dispatchToolUseTurn`, with the messages of the next round. -/
def dispatchToolUseTurn
    (round : PreparedRequest) (corrections : Nat) (content : List (ContentPart JsValue))
    (joined : HostMove)
    (dispatching : Nat → List SessionCall) : Compacting (List (LlmMessage JsValue)) := do
  let count := content.countP isToolCall
  Statements.require (count ≠ 0)
    (.agentTurn .providerUnavailable
      (jsText "the model signalled a tool_use stop but produced no tool call"))
  hostMoves joined
  Statements.require (count ≤ toolCallsPerResponse)
    (.agentTurn .turnLimit
      (jsText s!"the model requested {count} tool calls in one response, its limit of {toolCallsPerResponse}"))
  let answers ← dispatchToolCalls setup dispatching 0 content
  Statements.require (corrections + 1 ≤ setup.maxToolCorrections)
    (.agentTurn .toolFailed
      (jsText s!"agent exceeded the {setup.maxToolCorrections}-round tool-correction budget"))
  pure (round.messages ++ { role := .assistant, content } :: answers)

/-- The rounds of `driveAgentTurn` from inside the first of them, and the end of
`captureAgentTurnOutcome`. -/
def runRounds :
    TurnScript → Nat → Nat → PreparedRequest → Compacting (JsString × TurnUsage)
  | .fails attempts thrown, _, _, round => do
      streamRound windows round attempts
      Statements.refuse thrown
  | .answers attempts joined text usage, _, _, round => do
      streamRound windows round attempts
      throwIfAborted
      hostMoves joined
      pure (text, usage)
  | .callsTools attempts content joined dispatching later, toolTurn, corrections, round => do
      streamRound windows round attempts
      throwIfAborted
      let messages ← dispatchToolUseTurn setup round corrections content joined dispatching
      enterRound setup (toolTurn + 1)
      let next ← Statements.ofExcept (setup.factory.ownRoundRequest messages)
      runRounds later (toolTurn + 1) (corrections + 1) next

/-- `captureAgentTurnOutcome` for the prepared request of a pass. -/
def summarise (script : TurnScript)
    (prepared : PreparedRequest) : Compacting (JsString × TurnUsage) := do
  enterRound setup 0
  runRounds setup windows script 0 0 prepared

/-- The loop over the passes, with at most so many of them left. -/
def foldPasses (script : CompactionScript) (foldable : List (LlmMessage JsValue)) :
    Nat → Nat → Nat → Option JsString → TurnUsage →
      Compacting (Option JsString × Nat × TurnUsage)
  | 0, _, offset, running, usage => pure (running, offset, usage)
  | passesLeft + 1, pass, offset, running, usage =>
    if offset < foldable.length then do
      hostRuns (script.preparing pass)
      let chunk ← Statements.ofExcept
        (prepareCompactionChunk setup.factory windows running foldable offset)
      checkCancelled
      let answer ← summarise setup windows (script.turns pass) chunk.1
      checkCancelled
      let summary := JsText.trim answer.1
      Statements.require (0 < summary.length)
        (.agentTurn .providerUnavailable (jsText "the summarisation produced no summary text"))
      foldPasses script foldable passesLeft (pass + 1) chunk.2 (some summary) (usage.add answer.2)
    else pure (running, offset, usage)

end Turn

/-- What the folding of a history comes to. -/
inductive Folding
  | nothingToCompact
  | folded (summary : JsString) (tokensBefore : Nat) (usage : TurnUsage)

/-- `#compactInner` until every pass has succeeded. -/
def foldHistory (setup : CompactionSetup) (script : CompactionScript)
    (split : FoldableSplit) : Compacting Folding := do
  let foldable := split.foldable.map HeldMessage.message
  checkCancelled
  hostRuns script.measuring
  let measured ← Statements.ofExcept
    (setup.factory.prepare (renderConversationToSummarise none []))
  let windows ← Statements.ofExcept (compactionWindows measured)
  checkCancelled
  if setup.reason ≠ .manual ∧ windows.unknown = true then pure .nothingToCompact
  else do
    let session ← Statements.select CompactionState.session
    let tokensBefore := setup.estimateTokens session.history session.pendingUser
    hostRuns script.estimating
    checkCancelled
    let running ← Statements.select fun state => state.session.history.compactionSummary
    let folded ← foldPasses setup windows script foldable compactionMaxPasses 0 0 running .zero
    match folded with
    | (some summary, offset, usage) =>
      if offset < foldable.length then
        Statements.refuse (invalidRequest
          "the conversation requires more than four summarisation passes")
      else pure (.folded summary tokensBefore usage)
    | (none, _, _) =>
      Statements.refuse (invalidRequest
        "the conversation requires more than four summarisation passes")

/-- The fields that the replacement of the history writes. -/
def setHistory (history : SessionHistory) : Compacting Unit :=
  Statements.update fun state =>
    { state with session := { state.session with history } }

/-- The replacement of the history, which the sink accepts or which is undone. -/
def installSummary (script : CompactionScript) (kept : List HeldMessage)
    (data : CompactedData) : Compacting Unit := do
  let prior ← Statements.select fun state => state.session.history
  setHistory (prior.install data.summary kept)
  Statements.tryCatch
    (do
      observeEvent (.compacted data) script.accepting
      Statements.update fun state => { state with closed := true })
    fun thrown => do
      setHistory prior
      Statements.refuse thrown
  hostRuns script.settling

/-- The `try` block of `#compactInner`. -/
def compactHistory (setup : CompactionSetup) (script : CompactionScript)
    (split : FoldableSplit) : Compacting CompactionResult := do
  match ← foldHistory setup script split with
  | .nothingToCompact => pure .nothingToCompact
  | .folded summary tokensBefore usage => do
      let session ← Statements.select CompactionState.session
      let projected := session.history.install summary split.kept
      hostRuns script.projecting
      checkCancelled
      let data : CompactedData := {
        summary
        keptMessageCount := split.kept.length
        keptTurnCount := split.kept.countP fun held =>
          held.message.role = .user && some held.reference ≠ session.pendingUser
        tokensBefore
        tokensAfter := setup.estimateTokens projected session.pendingUser
        tokensUsed := usage
      }
      installSummary script split.kept data
      pure (.compacted data)

/-- `#hasReadableObserverDiagnostic`. -/
def hasReadableObserverDiagnostic : Thrown → Bool
  | .agentTurn .. | .budgetPause .. => true
  | _ => false

/-- `settleObserver`. -/
def settleObserver (setup : CompactionSetup)
    (original : Thrown) : Compacting CompactionResult :=
  if setup.active = false ∧ hasReadableObserverDiagnostic original = true then
    pure (.failed (jsText "the compaction failed with an unexpected observer error") none)
  else Statements.refuse original

/-- The `failure` of a compaction that ended with a thrown value. -/
def failureOf
    (cancelled : Bool) : Thrown → ErrorCode × JsString
  | thrown =>
    let code : ErrorCode :=
      match cancelled, thrown with
      | true, _ | false, .toolCancelled => .cancelled
      | false, .budgetPause .. => .budgetExceeded
      | false, .agentTurn code _ => code
      | false, _ => .internal
    let message :=
      match cancelled, thrown with
      | true, _ => jsText "compaction cancelled"
      | false, .budgetPause limitMicrocents spentMicrocents =>
        jsText s!"the summarisation request would exceed the cap of {limitMicrocents} micro-cents (spent {spentMicrocents})"
      | false, .agentTurn _ message => message
      | false, .observer _ =>
        jsText "the compaction failed with an unexpected observer error"
      | false, _ => jsText "the compaction failed unexpectedly"
    (code, message)

/-- `classified` ends the compaction as cancelled. -/
def isCancelled : Thrown → Bool
  | .toolCancelled => true
  | .agentTurn code _ => code = .cancelled
  | _ => false

/-- `budget`. -/
def isBudget : Thrown → Bool
  | .budgetPause .. => true
  | .agentTurn code _ => code = .budgetExceeded
  | _ => false

/-- The end of the `catch` block of `#compactInner`. -/
def classifyFailure (setup : CompactionSetup) (thrown : Thrown)
    (cancelled opened : Bool) : Compacting CompactionResult :=
  let failure := failureOf cancelled thrown
  match thrown with
  | .observer original => settleObserver setup original
  | thrown =>
    if cancelled || isCancelled thrown then pure .cancelled
    else if isBudget thrown then pure (.budgetRefused failure.2 opened)
    else
      match thrown with
      | .agentTurn .. => pure (.failed failure.2 (some failure.1))
      | _ => Statements.refuse thrown

/-- The `catch` block of `#compactInner`. -/
def settleFailure (setup : CompactionSetup) (script : CompactionScript)
    (thrown : Thrown) : Compacting CompactionResult := do
  let state ← Statements.select id
  let session := state.session
  let cancelled := session.status = .cancelled || session.abortingTurn || session.aborted
  let failure := failureOf cancelled thrown
  if state.opened = true ∧ state.closed = false ∧ session.status ≠ .cancelled then do
    Statements.update fun state => { state with
      closed := true
      emitted := state.emitted ++ [.compactionFailed failure.1 failure.2] }
    hostRuns script.refusing.calls
    match script.refusing.thrown with
    | some original => settleObserver setup original
    | none => classifyFailure setup thrown cancelled state.opened
  else classifyFailure setup thrown cancelled state.opened

end Compacting

open Compacting

/-- `#compactInner`. -/
def compactInner (setup : CompactionSetup)
    (script : CompactionScript) : Compacting CompactionResult := do
  let session ← Statements.select CompactionState.session
  match session.compactionRefusal, session.splitFoldable, setup.planFailure with
  | some memory, _, _ => pure (.policyRefused memory)
  | none, none, _ => pure .nothingToCompact
  | none, some _, some message => pure (.failed message none)
  | none, some split, none =>
    Statements.update fun state => { state with opened := false, closed := false }
    Statements.tryCatch (compactHistory setup script split) (settleFailure setup script)

namespace Compacting

/-- `#releaseTurnController`. -/
def releaseTurnController (state : CompactionState) : CompactionState :=
  { state with
    session := { state.session with
      armed := false
      abortingTurn := false
      status := if state.session.status = .running then .idle else state.session.status } }

/-- `#resolvePlan`, as far as the session goes. -/
def resolvePlan (lookup : ProviderLookup) : Compacting Unit :=
  hostMoves { calls := if lookup.cancels then [.cancel] else [], thrown := lookup.thrown }

/-- `#armTurnController`. -/
def armTurnController (arming : HostMove) : Compacting Unit := do
  Statements.update fun state =>
    { state with session := { state.session with status := .running } }
  Statements.tryCatch (hostMoves arming) fun thrown => do
    Statements.update releaseTurnController
    Statements.refuse thrown
  Statements.update fun state =>
    { state with session := { state.session with
        armed := true
        aborted := state.session.status = .cancelled || state.session.abortingTurn } }

end Compacting

/-- `compact`. -/
def compact (setup : CompactionSetup)
    (script : CompactionScript) : Compacting CompactionResult := do
  let session ← Statements.select CompactionState.session
  Statements.require (session.status = .idle) .sessionState
  match session.compactionRefusal, session.splitFoldable with
  | some memory, _ => pure (.policyRefused memory)
  | none, none => pure .nothingToCompact
  | none, some _ => do
      resolvePlan script.resolving
      let resolved ← Statements.select CompactionState.session
      if resolved.status = .cancelled then pure .cancelled
      else do
        Statements.require (resolved.status = .idle) .sessionState
        match setup.planFailure with
        | some message => pure (.failed message none)
        | none => do
            armTurnController script.arming
            Statements.ensuring (compactInner setup script) releaseTurnController

end Relavium.Session
