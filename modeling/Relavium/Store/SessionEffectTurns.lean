import Mathlib.Data.String.Basic
import Relavium.Library.DoubleInteger
import Relavium.Library.JsText
import Relavium.Library.JsonParse
import Relavium.Library.Transaction
import Relavium.Library.UriComponent
import Relavium.Store.EffectJournal

/-!
# Turn keys of session effects

Model of `packages/db/src/session-effect-turns.ts` and of the sweep of committed
session effects in `effect-journal-store.ts`.  The effects of a session turn are
journaled under a scope that ends with a key reserved for the turn.  A session
from before the reservations has the high-water mark zero; its mark is seeded
from its completed assistant messages and its journaled effects before any of
the latter is swept.
-/

namespace Relavium.Store

open Library
open Library.Uri (encodeURIComponent)

/-- The columns of an `agent_sessions` row that the allocator reads. -/
structure SessionRow where
  effectTurnHighWater : Int
  deletedAt : Option Int

/-- The columns of a `session_messages` row that the allocator reads. -/
structure MessageRow where
  sessionId : String
  role : String
  contentParts : Option JsString
  content : Option JsString

structure SessionTables where
  /-- `agent_sessions`, by id. -/
  sessions : OrderedMap String SessionRow
  /-- `session_messages`. -/
  messages : List MessageRow
  /-- `run_effects`. -/
  effects : EffectJournal

inductive SessionEffectTurnError
  | sessionMissing
  | historyInvalid
  | keyExhausted
  | transactionActive
  deriving DecidableEq

/-! ## Scopes -/

/-- What the scopes of a session start with. -/
def scopePrefix (sessionId : String) : String :=
  "session:" ++ encodeURIComponent sessionId ++ ":"

/-- The first text after every scope of a session. -/
def scopeLimit (sessionId : String) : String :=
  "session:" ++ encodeURIComponent sessionId ++ ";"

/-- Whether a scope is in the range of a session. -/
def inScope (sessionId scope : String) : Bool :=
  decide (scopePrefix sessionId ≤ scope ∧ scope < scopeLimit sessionId)

/-- The scope of the effects of a turn. -/
def turnScope (sessionId : String) (turnKey : Nat) : String :=
  scopePrefix sessionId ++ toString turnKey

/-- The scopes in the range of a session. -/
def sessionScopes (tables : SessionTables) (sessionId : String) : List String :=
  (tables.effects.keys.map EffectIdentity.scope).filter (inScope sessionId)

/-- The number that a text matching `/^(0|[1-9]\d*)$/` spells. -/
def decimalKey : List Char → Option Nat
  | ['0'] => some 0
  | first :: rest =>
    if first.isDigit ∧ first ≠ '0' ∧ rest.all Char.isDigit then
      some (Nat.ofDigitChars 10 (first :: rest) 0)
    else none
  | [] => none

/-! ## The evidence of a legacy session -/

def safeKey (value : Int) : Except SessionEffectTurnError Nat :=
  if 0 ≤ value ∧ value ≤ maxSafeInteger then .ok value.toNat
  else .error .historyInvalid

/-- `part.type`, of a part that is an object with that member. -/
def partType : JsValue → Option JsValue
  | .object properties => OrderedMap.lookupEntry (jsText "type") properties
  | _ => none

def isText (value : JsValue) (expected : String) : Bool :=
  match value with
  | .string text => decide (text = jsText expected)
  | _ => false

/-- The loop over the parts; a tool call ends it at once. -/
def completedParts (text : Bool) : List JsValue → Except SessionEffectTurnError Bool
  | [] => .ok text
  | part :: rest =>
    match partType part with
    | none => .error .historyInvalid
    | some type =>
      if isText type "tool_call" then .ok false
      else completedParts (text || isText type "text") rest

/-- Whether an assistant message ends a turn with text. -/
def completedAssistant (contentParts content : Option JsString) :
    Except SessionEffectTurnError Bool :=
  match contentParts with
  | none => .ok content.isSome
  | some text =>
    match JsonParse.parse text with
    | some (.array parts) => completedParts false parts
    | _ => .error .historyInvalid

/-- The key at the end of a scope of a session. -/
def scopeKey (sessionId scope : String) : Except SessionEffectTurnError Nat :=
  match decimalKey (scope.toList.drop (scopePrefix sessionId).length) with
  | none => .error .historyInvalid
  | some suffix => safeKey (roundToDouble suffix)

/-- The floor with the key of one more scope. -/
def raiseFloor (sessionId : String) (floor : Nat)
    (scope : String) : Except SessionEffectTurnError Nat := do
  let key ← scopeKey sessionId scope
  pure (max floor key)

/-- The assistant messages of a session. -/
def assistantMessages (tables : SessionTables) (sessionId : String) : List MessageRow :=
  tables.messages.filter fun row =>
    decide (row.sessionId = sessionId ∧ row.role = "assistant")

/-- The number of completed messages with one more message. -/
def countCompleted (count : Nat)
    (row : MessageRow) : Except SessionEffectTurnError Nat := do
  let completed ← completedAssistant row.contentParts row.content
  pure (if completed then count + 1 else count)

/-- The floor that the messages and the effects of a session give. -/
def legacyFloor (tables : SessionTables)
    (sessionId : String) : Except SessionEffectTurnError Nat := do
  let completed ← (assistantMessages tables sessionId).foldlM countCompleted 0
  let floor ← (sessionScopes tables sessionId).foldlM (raiseFloor sessionId) completed
  safeKey floor

/-! ## The transactions -/

/-- Sets the mark of a session. -/
def setHighWater (sessionId : String) (key : Nat)
    (tables : SessionTables) : SessionTables :=
  match tables.sessions.get sessionId with
  | some row =>
    { tables with
      sessions := tables.sessions.set sessionId
        { row with effectTurnHighWater := key } }
  | none => tables

/-- Statements of the allocator. -/
abbrev TurnStatements :=
  Statements SessionTables SessionEffectTurnError

open Statements

def seedLegacyKey (sessionId : String) : TurnStatements Nat := do
  let session ← select fun tables => tables.sessions.get sessionId
  match session with
  | none => refuse .sessionMissing
  | some session =>
    let current ← ofExcept (safeKey (roundToDouble session.effectTurnHighWater))
    if 0 < current then pure current
    else
      let checked ← select fun tables => legacyFloor tables sessionId
      let floor ← ofExcept checked
      update (setHighWater sessionId floor)
      pure floor

def preserveSessionEffectTurnKeyBeforeSweep
    (sessionId : String) : TurnStatements Unit := do
  let session ← select fun tables => tables.sessions.get sessionId
  if session.isSome then
    let _ ← seedLegacyKey sessionId
    pure ()
  else pure ()

/-- Consecutive slices of at most `size` items. -/
def batches (size : Nat) (items : List α) : List (List α) :=
  (List.range ((items.length + size - 1) / size)).map fun index =>
    (items.drop (index * size)).take size

/-- The part of a scope between `session:` and the next colon. -/
def encodedSession (scope : String) : String :=
  String.ofList ((scope.toList.drop "session:".length).takeWhile (· ≠ ':'))

/-- The sessions of one batch with evidence of their own. -/
def legacyEvidence (tables : SessionTables) (ids : List String) : List String :=
  (ids.filter fun id => tables.messages.any fun row =>
      decide (row.sessionId = id ∧ row.role = "assistant")) ++
    ((tables.effects.keys.map EffectIdentity.scope).filter fun scope =>
        ids.any fun id => inScope id scope).filterMap fun scope =>
      ids.find? fun id => decide (encodeURIComponent id = encodedSession scope)

/-- The sessions that opening seeds: those at zero with evidence. -/
def legacySessions (tables : SessionTables) : List String :=
  let uninitialized := tables.sessions.entries.filterMap fun entry =>
    if entry.2.effectTurnHighWater = 0 then some entry.1 else none
  ((batches 128 uninitialized).flatMap (legacyEvidence tables)).dedup

/-- Seeds one session; invalid evidence is left as it is. -/
def seedOrKeep (sessionId : String) : TurnStatements Unit :=
  tryCatch
    (do
      let _ ← seedLegacyKey sessionId
      pure ())
    fun refusal => if refusal = .historyInvalid then pure () else refuse refusal

/-- Seeds sessions one after another. -/
def seedAll : List String → TurnStatements Unit
  | [] => pure ()
  | sessionId :: rest => do
      seedOrKeep sessionId
      seedAll rest

def initializeSessionEffectTurnKeys : TurnStatements Unit := do
  let sessions ← select legacySessions
  seedAll sessions

/-- The transaction of `reserveSessionEffectTurnKey`. -/
def reserveSessionEffectTurnKey (sessionId : String) : TurnStatements Nat := do
  let row ← select fun tables => tables.sessions.get sessionId
  if row.all fun row => row.deletedAt.isSome then refuse .sessionMissing
  else
    let current ← seedLegacyKey sessionId
    if (current : Int) = maxSafeInteger then refuse .keyExhausted
    else
      update (setHighWater sessionId (current + 1))
      pure (current + 1)

structure CapturedSessionEffect where
  id : String
  identity : EffectIdentity

/-- Whether a sweep of a session deletes a row. -/
def sweeps
    (sessionId : String) (captured : List CapturedSessionEffect) (identity : EffectIdentity)
    (row : EffectRow) : Bool :=
  inScope sessionId identity.scope && decide (row.state = .committed) &&
    captured.any fun effect => decide (effect.id = row.id ∧ effect.identity = identity)

/-- One `DELETE`, with the number of its changes. -/
def deleteCaptured (sessionId : String) (captured : List CapturedSessionEffect)
    (tables : SessionTables) : Nat × SessionTables :=
  let kept := tables.effects.filter fun identity row =>
    !sweeps sessionId captured identity row
  (tables.effects.entries.length - kept.entries.length, { tables with effects := kept })

/-- The deletes of a sweep. -/
def deleteBatches (sessionId : String)
    (changes : Nat) : List (List CapturedSessionEffect) → TurnStatements Nat
  | [] => pure changes
  | captured :: rest => do
      let deleted ← modifyGet (deleteCaptured sessionId captured)
      deleteBatches sessionId (changes + deleted) rest

/-- The transaction of `sweepCommittedForSession`. -/
def sweepCommittedForSession (sessionId : String)
    (captured : List CapturedSessionEffect) : TurnStatements Nat := do
  (if captured ≠ [] then preserveSessionEffectTurnKeyBeforeSweep sessionId
    else pure ())
  deleteBatches sessionId 0 (batches 100 captured)

/-! ## Other writers of the tables -/

/-- `updateSession` with the mutable columns; the mark is not one of them. -/
def updateSession (sessionId : String) (deletedAt : Option Int)
    (tables : SessionTables) : SessionTables :=
  match tables.sessions.get sessionId with
  | some row =>
    { tables with sessions := tables.sessions.set sessionId { row with deletedAt } }
  | none => tables

/-- `writeTurn`: appends messages and flushes the session, if there is one. -/
def writeTurn (messages : List MessageRow) (session : Option (String × Option Int))
    (tables : SessionTables) : SessionTables :=
  let appended := { tables with messages := tables.messages ++ messages }
  match session with
  | some (sessionId, deletedAt) => updateSession sessionId deletedAt appended
  | none => appended

/-- `clearLegacySessionEffectResults`: no session effect keeps a result. -/
def clearLegacySessionEffectResults (tables : SessionTables) : SessionTables :=
  { tables with
    effects := tables.effects.mapValues fun identity row =>
      if "session:" ≤ identity.scope ∧ identity.scope < "session;" then
        { row with resultJson := none }
      else row }

end Relavium.Store
