import Relavium.Library.Checks
import Relavium.Library.SafeInteger
import Relavium.Llm.RequestEstimator
import Relavium.Shared.Constants

/-!
# The requests of a compaction

Model of `packages/core/src/engine/session-compaction.ts`: how the messages that a
compaction folds are rendered, when a request fits the windows of the plan, and how
many messages one request takes.
-/

namespace Relavium.Session

open Library Llm Shared

/-- What a compaction can throw or be thrown, as the session tells it apart. -/
inductive Thrown
  /-- `AgentTurnError`. -/
  | agentTurn (code : ErrorCode) (message : JsString)
  /-- `ToolCancelledError`. -/
  | toolCancelled
  /-- `BudgetPauseError`. -/
  | budgetPause (limitMicrocents spentMicrocents : Nat)
  /-- `SessionStateError`. -/
  | sessionState
  /-- Anything else. -/
  | unclassified (value : Nat)
  /-- What a notification or another observer of the host threw. -/
  | observer (original : Thrown)

/-- The lines of `COMPACTION_SYSTEM_PROMPT`. -/
def compactionSystemPromptLines : List String := [
  "You are compacting a conversation to fit a smaller context window. Produce a concise, faithful summary ",
  "of the conversation below that PRESERVES: open tasks and their current state; decisions taken and why; ",
  "concrete code identifiers, file paths, commands, and values in play; and the user’s stated preferences ",
  "and constraints. Omit pleasantries and redundant back-and-forth. Write it as notes for an assistant that ",
  "will continue the conversation — not as a message to the user. Output ONLY the summary."]

/-- `COMPACTION_SYSTEM_PROMPT`. -/
def compactionSystemPrompt : JsString :=
  (compactionSystemPromptLines.map jsText).flatten

/-- `COMPACTION_MAX_PASSES`. -/
def compactionMaxPasses : Nat := 4

/-- `COMPACTION_SOFT_INPUT_TOKENS`. -/
def compactionSoftInputTokens : Int := 16384

/-- `DEFAULT_OUTPUT_TOKENS_ESTIMATE`. -/
def defaultOutputTokensEstimate : Nat := 4096

/-- What `provider.contextLimit?.(model)` does. -/
inductive ContextLimit
  | absent
  | throws
  | answers (window : Option Quantity)
  deriving DecidableEq

/-- An entry of the plan, with what a compaction reads of its provider. -/
structure FallbackPlanEntry where
  identity : Nat
  customEndpoint : Bool
  contextLimit : ContextLimit
  deriving DecidableEq

/-- `authoritativeContextWindow`. -/
def authoritativeContextWindow (entry : FallbackPlanEntry) : Option Int :=
  if entry.customEndpoint then none
  else
    match entry.contextLimit with
    | .answers (some (.integer window)) =>
      if 0 < window ∧ window ≤ maxSafeInteger then some window else none
    | _ => none

/-- What `outputTokensReservation` reads of a `PreparedOutputCapPlan`. -/
structure OutputCapPlan where
  effectiveCap : Option Nat
  outputCeiling : Option Nat

/-- `outputTokensReservation`. -/
def outputTokensReservation (plan : OutputCapPlan)
    (configuredFallback : Option Nat) : Nat :=
  match plan.effectiveCap with
  | some cap => cap
  | none =>
    let value := configuredFallback.getD defaultOutputTokensEstimate
    plan.outputCeiling.elim value (min value)

/-- `PreparedAgentTurnRequest`. -/
structure PreparedRequest where
  messages : List (LlmMessage JsValue)
  inputTokensEstimate : Int
  attemptableEntries : List FallbackPlanEntry

/-- What the session fixes of every request of a compaction, and what the request
owner of the chain makes of the messages. -/
structure RequestFactory where
  configuredFallback : Option Nat
  exoticText : Option JsString
  /-- The charge of the system prompt. -/
  systemTokens : Nat
  systemTokens_eq : systemTokens = tokensOfLength compactionSystemPrompt.length
  /-- The entries that stream and support the request, unless it is refused. -/
  attemptable : List (LlmMessage JsValue) → Except Thrown (List FallbackPlanEntry)
  /-- The plan that `selectOwnedRequest` selects. -/
  outputCapPlan : List (LlmMessage JsValue) → FallbackPlanEntry → Except Thrown OutputCapPlan

/-- `CompactionWindows`. -/
structure CompactionWindows where
  unknown : Bool
  entries : List (FallbackPlanEntry × Option Int)

/-- `windows.entries.get`. -/
def CompactionWindows.get (windows : CompactionWindows)
    (entry : FallbackPlanEntry) : Option Int :=
  (windows.entries.lookup entry).join

/-- An `AgentTurnError` of the code `validation`. -/
def invalidRequest (message : String) : Thrown :=
  .agentTurn .validation (jsText message)

namespace RequestFactory

variable (factory : RequestFactory)

/-- `ownRoundRequest`. -/
def ownRoundRequest
    (messages : List (LlmMessage JsValue)) : Except Thrown PreparedRequest := do
  let attemptableEntries ← factory.attemptable messages
  pure {
    messages
    inputTokensEstimate := factory.systemTokens + messagesTokens factory.exoticText messages
    attemptableEntries
  }

/-- The `prepare` of a compaction. -/
def prepare (message : LlmMessage JsValue) : Except Thrown PreparedRequest :=
  factory.ownRoundRequest [message]

/-- `preparedOutputReservation`. -/
def preparedOutputReservation (prepared : PreparedRequest)
    (entry : FallbackPlanEntry) : Except Thrown Nat := do
  let plan ← factory.outputCapPlan prepared.messages entry
  pure (outputTokensReservation plan factory.configuredFallback)

/-- The known windows hold the input with the output reserved for their entries. -/
def entriesFit (prepared : PreparedRequest) (windows : CompactionWindows)
    (input : Int) : List FallbackPlanEntry → Except Thrown Bool
  | [] => pure true
  | entry :: rest =>
    match windows.get entry with
    | none => entriesFit prepared windows input rest
    | some window => do
        let output ← factory.preparedOutputReservation prepared entry
        if input + output > window then pure false
        else entriesFit prepared windows input rest

end RequestFactory

/-- `assertMeasuredInput`. -/
def assertMeasuredInput (prepared : PreparedRequest) : Except Thrown Int :=
  if 0 ≤ prepared.inputTokensEstimate ∧ prepared.inputTokensEstimate ≤ maxSafeInteger then
    pure prepared.inputTokensEstimate
  else throw (invalidRequest "the compaction request could not be measured")

/-- `compactionWindows`. -/
def compactionWindows (prepared : PreparedRequest) : Except Thrown CompactionWindows :=
  if prepared.attemptableEntries = [] then
    throw (invalidRequest "no provider can accept the compaction request")
  else
    pure {
      unknown := prepared.attemptableEntries.any fun entry =>
        (authoritativeContextWindow entry).isNone
      entries := prepared.attemptableEntries.map fun entry =>
        (entry, authoritativeContextWindow entry)
    }

/-- `compactionRequestFits`. -/
def compactionRequestFits (factory : RequestFactory) (windows : CompactionWindows)
    (prepared : PreparedRequest) : Except Thrown Bool := do
  let input ← assertMeasuredInput prepared
  if windows.unknown = true ∧ input > compactionSoftInputTokens then pure false
  else factory.entriesFit prepared windows input prepared.attemptableEntries

/-- The text of a text part. -/
def textPart : ContentPart JsValue → JsString
  | .text text => text
  | _ => []

/-- `messageText`. -/
def messageText (message : LlmMessage JsValue) : JsString :=
  message.content.flatMap textPart

/-- The line of one message in the text to summarise. -/
def renderedMessage (message : LlmMessage JsValue) : Option JsString :=
  let text := messageText message
  if text.length > 0 then
    some (jsText (if message.role = .user then "User" else "Assistant") ++ jsText ": " ++ text)
  else none

/-- How a text to summarise begins after an earlier summary. -/
def renderedSummary (summary : JsString) : List JsString :=
  [jsText "Summary of the conversation so far:\n" ++ summary,
    jsText "The conversation then continued:"]

/-- `renderConversationToSummarise`. -/
def renderConversationToSummarise (priorSummary : Option JsString)
    (foldable : List (LlmMessage JsValue)) : LlmMessage JsValue :=
  let parts := priorSummary.elim [] renderedSummary ++ foldable.filterMap renderedMessage
  { role := .user, content := [.text ((jsText "\n\n").intercalate parts)] }

/-- `Array.from(text)`: the code points of a text, each with its code units. -/
def characters : JsString → List JsString
  | [] => []
  | [unit] => [[unit]]
  | lead :: trail :: rest =>
    if isLeadSurrogate lead && isTrailSurrogate trail then
      [lead, trail] :: characters rest
    else [lead] :: characters (trail :: rest)

/-- The text of a message with all but so many of its characters left out. -/
def cutText (characters : List JsString) (keep : Nat) : JsString :=
  let head := (keep + 1) / 2
  let tail := keep / 2
  (characters.take head).flatten ++
    jsText s!"\n[engine: omitted {characters.length - keep} character(s) from this message]\n" ++
    if tail = 0 then [] else (characters.drop (characters.length - tail)).flatten

/-- A message cut to a head and a tail around an omission marker. -/
def cutMessage (message : LlmMessage JsValue)
    (keep : Nat) : LlmMessage JsValue where
  role := message.role
  content := [.text (cutText (characters (messageText message)) keep)]

section Chunk

variable
  (factory : RequestFactory)
  (windows : CompactionWindows)
  (priorSummary : Option JsString)

/-- The request of a pass over some messages. -/
def preparePass (messages : List (LlmMessage JsValue)) : Except Thrown PreparedRequest :=
  factory.prepare (renderConversationToSummarise priorSummary messages)

/-- The greedy loop of `prepareCompactionChunk`: from the messages that a request
holds already, the best request, and the messages not yet tried. -/
def widestPrefix (taken : List (LlmMessage JsValue)) (best : Option (PreparedRequest × Nat)) :
    List (LlmMessage JsValue) → Except Thrown (Option (PreparedRequest × Nat))
  | [] => pure best
  | message :: rest => do
      let prepared ← preparePass factory priorSummary (taken ++ [message])
      let fits ← compactionRequestFits factory windows prepared
      if fits then widestPrefix (taken ++ [message]) (some (prepared, taken.length + 1)) rest
      else pure best

/-- `truncated`. -/
def truncated (message : LlmMessage JsValue)
    (keep : Nat) : Except Thrown PreparedRequest :=
  preparePass factory priorSummary [cutMessage message keep]

/-- The binary search of `prepareCompactionChunk` for the longest cut that fits. -/
def widestCut (message : LlmMessage JsValue) (low high : Nat)
    (prepared : PreparedRequest) : Except Thrown PreparedRequest :=
  if low < high then do
    let middle := (low + high + 1) / 2
    let candidate ← truncated factory priorSummary message middle
    let fits ← compactionRequestFits factory windows candidate
    if fits then widestCut message middle high candidate
    else widestCut message low (middle - 1) prepared
  else pure prepared
termination_by high - low

/-- `prepareCompactionChunk`: the request of a pass, and where the next one starts. -/
def prepareCompactionChunk (foldable : List (LlmMessage JsValue))
    (start : Nat) : Except Thrown (PreparedRequest × Nat) := do
  match ← widestPrefix factory windows priorSummary [] none (foldable.drop start) with
  | some (prepared, count) => pure (prepared, start + count)
  | none =>
    match foldable[start]? with
    | none => throw (invalidRequest "the compaction has no foldable message")
    | some message =>
      let prepared ← truncated factory priorSummary message 0
      let fits ← compactionRequestFits factory windows prepared
      if fits then
        let prepared ← widestCut factory windows priorSummary message 0
          ((characters (messageText message)).length - 1) prepared
        pure (prepared, start + 1)
      else
        throw (invalidRequest
          "the summariser system, running summary and omission marker do not fit")

/-- How a pass renders the messages it takes: whole, or a single one that does not fit
alone, cut. -/
inductive Renders : List (LlmMessage JsValue) → PreparedRequest → Prop
  | whole
      {taken : List (LlmMessage JsValue)}
      {prepared : PreparedRequest}
      (isPrepared : preparePass factory priorSummary taken = .ok prepared) :
      Renders taken prepared
  | cut
      {message : LlmMessage JsValue}
      {alone prepared : PreparedRequest}
      {keep : Nat}
      (isAlone : preparePass factory priorSummary [message] = .ok alone)
      (tooLong : compactionRequestFits factory windows alone = .ok false)
      (isShorter : keep ≤ (characters (messageText message)).length - 1)
      (isPrepared : truncated factory priorSummary message keep = .ok prepared) :
      Renders [message] prepared

/-- The best request of the greedy loop is the one before it or holds some of the
messages tried. -/
theorem widestPrefix_some
    {taken untried : List (LlmMessage JsValue)} {best : Option (PreparedRequest × Nat)}
    {prepared : PreparedRequest} {count : Nat}
    (found : widestPrefix factory windows priorSummary taken best untried =
      .ok (some (prepared, count))) :
    best = some (prepared, count) ∨
      ∃ more rest, more ≠ [] ∧ untried = more ++ rest ∧
        count = taken.length + more.length ∧
        preparePass factory priorSummary (taken ++ more) = .ok prepared ∧
        compactionRequestFits factory windows prepared = .ok true := by
  induction untried generalizing taken best with
  | nil => exact .inl (pure_eq_ok.mp found)
  | cons message rest ih =>
    obtain ⟨candidate, isCandidate, found⟩ := bind_eq_ok.mp found
    obtain ⟨fits, isFit, found⟩ := bind_eq_ok.mp found
    cases fits with
    | false => exact .inl (pure_eq_ok.mp found)
    | true =>
      right
      obtain same | ⟨more, later, -, rfl, isCount, isPrepared, isFitting⟩ :=
        ih found
      · cases same
        exact ⟨[message], rest, by simp, rfl, rfl, isCandidate, isFit⟩
      · refine ⟨message :: more, later, by simp, rfl, ?_, ?_, isFitting⟩
        · rw [isCount, List.length_append, List.length_singleton, List.length_cons]
          omega
        · rwa [List.append_assoc, List.singleton_append] at isPrepared

/-- The greedy loop does not lose a request that fits. -/
theorem widestPrefix_ne_none
    {taken untried : List (LlmMessage JsValue)} {best : PreparedRequest × Nat} :
    widestPrefix factory windows priorSummary taken (some best) untried ≠ .ok none := by
  intro found
  induction untried generalizing taken best with
  | nil => cases found
  | cons message rest ih =>
    obtain ⟨candidate, -, found⟩ := bind_eq_ok.mp found
    obtain ⟨fits, -, found⟩ := bind_eq_ok.mp found
    cases fits with
    | false => cases found
    | true => exact ih found

/-- The greedy loop finds nothing only when the first message does not fit. -/
theorem widestPrefix_none
    {message : LlmMessage JsValue} {taken rest : List (LlmMessage JsValue)}
    {best : Option (PreparedRequest × Nat)}
    (found : widestPrefix factory windows priorSummary taken best (message :: rest) = .ok none) :
    ∃ alone, preparePass factory priorSummary (taken ++ [message]) = .ok alone ∧
      compactionRequestFits factory windows alone = .ok false := by
  obtain ⟨alone, isAlone, found⟩ := bind_eq_ok.mp found
  obtain ⟨fits, isFit, found⟩ := bind_eq_ok.mp found
  cases fits with
  | false => exact ⟨alone, isAlone, isFit⟩
  | true => exact absurd found (widestPrefix_ne_none factory windows priorSummary)

/-- The binary search keeps the request it started from or finds a longer cut that
fits. -/
theorem widestCut_spec
    {message : LlmMessage JsValue} {low high : Nat} {prepared widest : PreparedRequest}
    (found : widestCut factory windows priorSummary message low high prepared = .ok widest) :
    widest = prepared ∨
      ∃ keep, low < keep ∧ keep ≤ high ∧
        truncated factory priorSummary message keep = .ok widest ∧
        compactionRequestFits factory windows widest = .ok true := by
  induction low, high, prepared using widestCut.induct with
  | case1 low high prepared less middle inductionFits inductionLonger =>
    rw [widestCut, if_pos less] at found
    obtain ⟨candidate, isCandidate, found⟩ := bind_eq_ok.mp found
    obtain ⟨fits, isFit, found⟩ := bind_eq_ok.mp found
    have middleRange : low < middle ∧ middle ≤ high := by omega
    cases fits with
    | true =>
      obtain rfl | ⟨keep, longer, inRange, isWidest, isFitting⟩ := inductionFits _ found
      · exact .inr ⟨middle, middleRange.1, middleRange.2, isCandidate, isFit⟩
      · exact .inr ⟨keep, by omega, inRange, isWidest, isFitting⟩
    | false =>
      obtain same | ⟨keep, longer, inRange, isWidest, isFitting⟩ := inductionLonger found
      · exact .inl same
      · exact .inr ⟨keep, longer, by omega, isWidest, isFitting⟩
  | case2 low high prepared stopped =>
    rw [widestCut, if_neg stopped] at found
    exact .inl (pure_eq_ok.mp found).symm

/-- The request of a pass renders the next messages in order, and it fits. -/
theorem prepareCompactionChunk_spec
    {foldable : List (LlmMessage JsValue)} {start stop : Nat} {prepared : PreparedRequest}
    (isChunk : prepareCompactionChunk factory windows priorSummary foldable start =
      .ok (prepared, stop)) :
    ∃ taken rest,
      taken ≠ [] ∧
      foldable.drop start = taken ++ rest ∧
      stop = start + taken.length ∧
      Renders factory windows priorSummary taken prepared ∧
      compactionRequestFits factory windows prepared = .ok true := by
  obtain ⟨found, isFound, isChunk⟩ := bind_eq_ok.mp isChunk
  cases found with
  | some best =>
    obtain ⟨best, count⟩ := best
    cases pure_eq_ok.mp isChunk
    obtain impossible | ⟨more, rest, nonempty, isPart, isCount, isPrepared, isFit⟩ :=
      widestPrefix_some factory windows priorSummary isFound
    · cases impossible
    · refine ⟨more, rest, nonempty, isPart, ?_, .whole isPrepared, isFit⟩
      rw [isCount, List.length_nil, Nat.zero_add]
  | none =>
    cases isMessage : foldable[start]? with
    | none =>
      rw [isMessage] at isChunk
      cases isChunk
    | some message =>
      rw [isMessage] at isChunk
      have isPart := JsText.drop_eq_cons isMessage
      rw [isPart] at isFound
      obtain ⟨alone, isAlone, tooLong⟩ :=
        widestPrefix_none factory windows priorSummary isFound
      obtain ⟨shortest, isShortest, isChunk⟩ := bind_eq_ok.mp isChunk
      obtain ⟨fits, isFit, isChunk⟩ := bind_eq_ok.mp isChunk
      cases fits with
      | false => cases isChunk
      | true =>
        obtain ⟨widest, isWidest, isChunk⟩ := bind_eq_ok.mp isChunk
        cases pure_eq_ok.mp isChunk
        refine ⟨[message], foldable.drop (start + 1), by simp, isPart, rfl, ?_⟩
        obtain rfl | ⟨keep, -, isShorter, isCut, isFitting⟩ :=
          widestCut_spec factory windows priorSummary isWidest
        · exact ⟨.cut isAlone tooLong (Nat.zero_le _) isShortest, isFit⟩
        · exact ⟨.cut isAlone tooLong isShorter isCut, isFitting⟩

end Chunk

end Relavium.Session
