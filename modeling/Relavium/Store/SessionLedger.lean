import Relavium.Library.DoubleInteger
import Relavium.Library.OrderedSet
import Relavium.Store.SessionEffectTurns
import Relavium.Usage.CoverageFold

/-!
# The session ledger

Model of the money and coverage writes of `packages/db/src/session-store.ts`,
`session-usage-receipt.ts`, `session-usage-store.ts` and
`session-usage-write.ts`, with the triggers and checks of the tables they write.
A session keeps its realized and its conservative money, and its pending and
unknown provider calls, once for each model and once in its own row.  The numbers
that a statement binds are binary64, so an addition of one to a column rounds;
only the usage columns are bounded by triggers to integers that add exactly.
-/

namespace Relavium.Store
namespace SessionLedger

open Library
open Usage (UsageDisposition UsageInvocation)

/-! ## Tables -/

/-- The descriptive columns of an `agent_sessions` row. -/
structure SessionDescription where
  agentId : Option String
  agentSlug : String
  agentSnapshot : Option String
  title : Option String
  modelId : Option String
  workingDir : Option String
  gitRef : Option String
  fsScopeTier : String
  status : String
  contextJson : String
  exportedWorkflowPath : Option String

/-- An `agent_sessions` row; the id is its key. -/
structure AgentSessionRow where
  description : SessionDescription
  totalInputTokens : Nat
  totalOutputTokens : Nat
  totalCostMicrocents : Nat
  totalConservativeMicrocents : Nat
  effectTurnHighWater : Nat
  usageMutationRevision : Nat
  usageAckRevision : Nat
  usageUnverified : Bool
  usagePendingInvocations : Int
  usageUnknownCalls : Int
  usageInvocationHighWater : Nat
  deletedAt : Option Int
  createdAt : Int
  updatedAt : Int

/-- The unique index of `session_costs`. -/
structure CostKey where
  sessionId : String
  model : String
  isLegacy : Bool
  deriving DecidableEq

structure SessionCostRow where
  id : String
  modelCatalogId : Option String
  inputTokens : Nat
  outputTokens : Nat
  costMicrocents : Nat
  conservativeMicrocents : Nat
  callCount : Nat
  unpricedCalls : Nat
  createdAt : Int
  updatedAt : Int
  deriving DecidableEq

/-- The unique index of `session_usage_coverage`. -/
structure CoverageKey where
  sessionId : String
  model : String
  deriving DecidableEq

structure CoverageRow where
  pendingInvocations : Int
  unknownCalls : Int

/-- The unique index of `session_usage_invocations`. -/
structure InvocationKey where
  sessionId : String
  producerId : String
  ordinal : Nat
  deriving DecidableEq

inductive CoverageState
  | pending
  | incomplete
  deriving DecidableEq

structure InvocationRow where
  dispatchId : String
  round : Nat
  chainAttempt : Nat
  model : String
  coverageState : CoverageState

/-- The columns of a `session_messages` row that its indexes read. -/
structure SessionMessageRow where
  id : String
  sessionId : String
  sequenceNumber : Nat

structure LedgerTables where
  /-- `agent_sessions`, by id. -/
  sessions : OrderedMap String AgentSessionRow
  /-- `session_costs`. -/
  costs : OrderedMap CostKey SessionCostRow
  /-- `session_usage_coverage`. -/
  coverage : OrderedMap CoverageKey CoverageRow
  /-- `session_usage_invocations`. -/
  invocations : OrderedMap InvocationKey InvocationRow
  /-- `session_messages`. -/
  messages : List SessionMessageRow
  /-- The ids of `model_catalog`. -/
  modelCatalog : List String
  /-- The scopes of `run_effects`. -/
  effectScopes : List String

inductive LedgerRefusal
  | historyInvalid
  | revisionExhausted
  | notFresh
  | receiptInvalid
  /-- A check, a trigger, an index or a foreign key of the database. -/
  | constraint
  /-- A schema of the caller's input. -/
  | invalidInput

/-- Statements of one ledger transaction. -/
abbrev LedgerStatements :=
  Statements LedgerTables LedgerRefusal

open Statements

/-! ## Statements with their triggers -/

/-- The bounds that the triggers put on the usage columns. -/
def AgentSessionRow.UsageBounds (row : AgentSessionRow) : Prop :=
  (row.usageMutationRevision : Int) ≤ maxSafeInteger ∧
    row.usageAckRevision ≤ row.usageMutationRevision ∧
    (0 ≤ row.usagePendingInvocations ∧
      row.usagePendingInvocations ≤ maxSafeInteger) ∧
    (0 ≤ row.usageUnknownCalls ∧ row.usageUnknownCalls ≤ maxSafeInteger) ∧
    (row.usageInvocationHighWater : Int) ≤ maxSafeInteger

instance (row : AgentSessionRow) : Decidable row.UsageBounds :=
  inferInstanceAs (Decidable (_ ∧ _))

/-- The checks of a coverage row. -/
def CoverageRow.Bounds (row : CoverageRow) : Prop :=
  (0 ≤ row.pendingInvocations ∧ row.pendingInvocations ≤ maxSafeInteger) ∧
    0 ≤ row.unknownCalls ∧ row.unknownCalls ≤ maxSafeInteger

instance (row : CoverageRow) : Decidable row.Bounds :=
  inferInstanceAs (Decidable (_ ∧ _))

/-- An update of one session with the bounds trigger, and the number of changed
rows. -/
def updateSessionRow (sessionId : String)
    (set : AgentSessionRow → AgentSessionRow) : LedgerStatements Nat := do
  let found ← select fun tables => tables.sessions.get sessionId
  match found with
  | none => pure 0
  | some row =>
    require (set row).UsageBounds .constraint
    update fun tables =>
      { tables with sessions := tables.sessions.set sessionId (set row) }
    pure 1

/-- The revision trigger of a business write. -/
def touchRevision (sessionId : String) : LedgerStatements Unit := do
  let found ← select fun tables => tables.sessions.get sessionId
  require (∀ row ∈ found, (row.usageMutationRevision : Int) < maxSafeInteger) .revisionExhausted
  let _ ← updateSessionRow sessionId fun row =>
    { row with usageMutationRevision := row.usageMutationRevision + 1 }
  pure ()

/-- The revision trigger, once for each changed row. -/
def touchRevisions (sessionId : String) : Nat → LedgerStatements Unit
  | 0 => pure ()
  | count + 1 => do
      touchRevision sessionId
      touchRevisions sessionId count

/-- An update of business columns of one session. -/
def updateBusinessColumns (sessionId : String)
    (set : AgentSessionRow → AgentSessionRow) : LedgerStatements Unit := do
  let changes ← updateSessionRow sessionId set
  touchRevisions sessionId changes

def insertSession (sessionId : String)
    (row : AgentSessionRow) : LedgerStatements Unit := do
  let found ← select fun tables => tables.sessions.get sessionId
  require (found = none ∧ row.UsageBounds) .constraint
  update fun tables => { tables with sessions := tables.sessions.set sessionId row }
  touchRevision sessionId

def insertMessage (row : SessionMessageRow) : LedgerStatements Unit := do
  let tables ← select id
  require
    ((tables.sessions.get row.sessionId).isSome ∧
      ∀ other ∈ tables.messages,
        other.id ≠ row.id ∧
          (other.sessionId, other.sequenceNumber) ≠ (row.sessionId, row.sequenceNumber))
    .constraint
  update fun tables => { tables with messages := tables.messages ++ [row] }
  touchRevision row.sessionId

/-- `INSERT … ON CONFLICT DO UPDATE` on the unique index of `session_costs`. -/
def upsertCost (key : CostKey) (inserted : SessionCostRow)
    (set : SessionCostRow → SessionCostRow) : LedgerStatements Unit := do
  let tables ← select id
  (match tables.costs.get key with
  | some row =>
    update fun tables => { tables with costs := tables.costs.set key (set row) }
  | none => do
      require
        (key.model ≠ "" ∧
          (tables.sessions.get key.sessionId).isSome ∧
          (∀ id ∈ inserted.modelCatalogId, id ∈ tables.modelCatalog) ∧
          ∀ other ∈ tables.costs.values, other.id ≠ inserted.id)
        .constraint
      update fun tables => { tables with costs := tables.costs.set key inserted })
  touchRevision key.sessionId

/-! ## The outer transaction -/

def validateUsageRevision (row : AgentSessionRow) : LedgerStatements Unit :=
  require
    ((row.usageMutationRevision : Int) ≤ maxSafeInteger ∧
      row.usageAckRevision ≤ row.usageMutationRevision)
    .historyInvalid

def latchEntryTaint (sessionId : String) : LedgerStatements Unit := do
  let found ← select fun tables => tables.sessions.get sessionId
  match found with
  | none => pure ()
  | some row =>
    validateUsageRevision row
    if row.usageMutationRevision ≠ row.usageAckRevision then
      let _ ← updateSessionRow sessionId fun row =>
        { row with usageUnverified := true }
      pure ()
    else pure ()

def acknowledgeFinalRevision (sessionId : String) : LedgerStatements Unit := do
  let found ← select fun tables => tables.sessions.get sessionId
  match found with
  | none => pure ()
  | some row =>
    validateUsageRevision row
    let _ ← updateSessionRow sessionId fun current =>
      { current with usageAckRevision := row.usageMutationRevision }
    pure ()

/-- One statement after another. -/
def forEach (act : α → LedgerStatements Unit) : List α → LedgerStatements Unit
  | [] => pure ()
  | item :: rest => do
      act item
      forEach act rest

/-- The outer transaction of session business writes. -/
def withSessionUsageWrite (sessionIds : List String)
    (body : LedgerStatements α) : LedgerStatements α := do
  let owners := (OrderedSet.ofList sessionIds).elements
  forEach latchEntryTaint owners
  let result ← body
  forEach acknowledgeFinalRevision owners
  pure result

/-! ## Session records -/

/-- An `AgentSessionRecord` that its schema accepts. -/
structure AgentSessionRecord where
  id : String
  description : SessionDescription
  totalInputTokens : Nat
  totalOutputTokens : Nat
  totalCostMicrocents : Nat
  totalConservativeMicrocents : Nat
  deletedAt : Option Int
  createdAt : Int
  updatedAt : Int

/-- `Partial<NewAgentSessionRow>`: the columns that an update sets. -/
structure SessionColumns where
  id : Option String
  description : Option SessionDescription
  totalInputTokens : Option Nat
  totalOutputTokens : Option Nat
  totalCostMicrocents : Option Nat
  totalConservativeMicrocents : Option Nat
  effectTurnHighWater : Option Nat
  deletedAt : Option (Option Int)
  createdAt : Option Int
  updatedAt : Option Int

def toAgentSessionRow (record : AgentSessionRecord) : SessionColumns where
  id := some record.id
  description := some record.description
  totalInputTokens := some record.totalInputTokens
  totalOutputTokens := some record.totalOutputTokens
  totalCostMicrocents := some record.totalCostMicrocents
  totalConservativeMicrocents := some record.totalConservativeMicrocents
  effectTurnHighWater := none
  deletedAt := some record.deletedAt
  createdAt := some record.createdAt
  updatedAt := some record.updatedAt

def mutableSessionColumns (record : AgentSessionRecord) : SessionColumns :=
  { toAgentSessionRow record with
    id := none
    createdAt := none
    totalCostMicrocents := none
    totalConservativeMicrocents := none
    effectTurnHighWater := none }

/-- `SET` with the given columns. -/
def SessionColumns.set (columns : SessionColumns)
    (row : AgentSessionRow) : AgentSessionRow :=
  { row with
    description := columns.description.getD row.description
    totalInputTokens := columns.totalInputTokens.getD row.totalInputTokens
    totalOutputTokens := columns.totalOutputTokens.getD row.totalOutputTokens
    totalCostMicrocents :=
      columns.totalCostMicrocents.getD row.totalCostMicrocents
    totalConservativeMicrocents :=
      columns.totalConservativeMicrocents.getD row.totalConservativeMicrocents
    effectTurnHighWater :=
      columns.effectTurnHighWater.getD row.effectTurnHighWater
    deletedAt := columns.deletedAt.getD row.deletedAt
    createdAt := columns.createdAt.getD row.createdAt
    updatedAt := columns.updatedAt.getD row.updatedAt }

/-- The defaults of the columns that a record does not have. -/
def newSessionRow (record : AgentSessionRecord) : AgentSessionRow where
  description := record.description
  totalInputTokens := record.totalInputTokens
  totalOutputTokens := record.totalOutputTokens
  totalCostMicrocents := record.totalCostMicrocents
  totalConservativeMicrocents := record.totalConservativeMicrocents
  effectTurnHighWater := 0
  usageMutationRevision := 0
  usageAckRevision := 0
  usageUnverified := true
  usagePendingInvocations := 0
  usageUnknownCalls := 0
  usageInvocationHighWater := 0
  deletedAt := record.deletedAt
  createdAt := record.createdAt
  updatedAt := record.updatedAt

def createSession (record : AgentSessionRecord) : LedgerStatements Unit :=
  withSessionUsageWrite [record.id] (insertSession record.id (newSessionRow record))

/-- The seed of a fresh session. -/
structure FreshSessionSeed where
  id : String
  description : SessionDescription
  createdAt : Int

/-- The record that a seed stands for; its status is `active`. -/
def FreshSessionSeed.record (seed : FreshSessionSeed) : AgentSessionRecord where
  id := seed.id
  description :=
    { seed.description with status := "active", exportedWorkflowPath := none }
  totalInputTokens := 0
  totalOutputTokens := 0
  totalCostMicrocents := 0
  totalConservativeMicrocents := 0
  deletedAt := none
  createdAt := seed.createdAt
  updatedAt := seed.createdAt

def createFreshSession (seed : FreshSessionSeed) : LedgerStatements Unit :=
  withSessionUsageWrite [seed.id] do
    let found ← select fun tables => tables.sessions.get seed.id
    require (found = none) .notFresh
    insertSession seed.id (newSessionRow seed.record)
    let _ ← updateSessionRow seed.id fun row => { row with usageUnverified := false }
    pure ()

/-- The hidden row that `reserveOneShotSessionEffectTurnKey` inserts for complete
coverage. -/
def oneShotSessionRow (now : Int) : AgentSessionRow where
  description :=
    { agentId := none, agentSlug := "one-shot", agentSnapshot := none,
      title := none, modelId := none, workingDir := none, gitRef := none,
      fsScopeTier := "sandboxed", status := "ended", contextJson := "\x7b\x7d",
      exportedWorkflowPath := none }
  totalInputTokens := 0
  totalOutputTokens := 0
  totalCostMicrocents := 0
  totalConservativeMicrocents := 0
  effectTurnHighWater := 1
  usageMutationRevision := 0
  usageAckRevision := 0
  usageUnverified := false
  usagePendingInvocations := 0
  usageUnknownCalls := 0
  usageInvocationHighWater := 0
  deletedAt := some now
  createdAt := now
  updatedAt := now

def reserveOneShotSessionEffectTurnKey (sessionId : String)
    (now : Int) : LedgerStatements Unit := do
  require (sessionId ≠ "" ∧ 0 ≤ now ∧ now ≤ maxSafeInteger) .historyInvalid
  withSessionUsageWrite [sessionId] do
    let tables ← select id
    require
      (tables.sessions.get sessionId = none ∧
        ∀ scope ∈ tables.effectScopes, inScope sessionId scope = false)
      .historyInvalid
    insertSession sessionId (oneShotSessionRow now)

/-- A message to append, and whether `toSessionMessageRow` accepts it. -/
structure SessionMessage where
  row : SessionMessageRow
  accepted : Bool

/-- One atomic turn write. -/
structure SessionTurnWrite where
  messages : List SessionMessage
  session : Option AgentSessionRecord

def appendMessage (message : SessionMessage) : LedgerStatements Unit := do
  require message.accepted .invalidInput
  insertMessage message.row

def writeTurn (turn : SessionTurnWrite) : LedgerStatements Unit :=
  withSessionUsageWrite (turn.messages.map (·.row.sessionId) ++ (turn.session.map (·.id)).toList)
    (do
      forEach appendMessage turn.messages
      match turn.session with
      | none => pure ()
      | some record =>
        updateBusinessColumns record.id (mutableSessionColumns record).set)

def updateSession (record : AgentSessionRecord) : LedgerStatements Unit :=
  withSessionUsageWrite [record.id]
    (updateBusinessColumns record.id (mutableSessionColumns record).set)

/-! ## Usage receipts -/

/-- The public fields of a receipt. -/
structure SessionUsageReceipt where
  sessionId : String
  model : String
  invocation : UsageInvocation
  deriving DecidableEq

def SessionUsageReceipt.key (receipt : SessionUsageReceipt) : InvocationKey where
  sessionId := receipt.sessionId
  producerId := receipt.invocation.producerId
  ordinal := receipt.invocation.ordinal

/-- `state`: the coverage state of the row that the receipt names. -/
def receiptState (receipt : SessionUsageReceipt) : LedgerStatements CoverageState := do
  let found ← select fun tables => tables.invocations.get receipt.key
  match found with
  | none => refuse .historyInvalid
  | some row =>
    require
      (row.model = receipt.model ∧
        row.dispatchId = receipt.invocation.dispatchId ∧
        row.round = receipt.invocation.round ∧
        row.chainAttempt = receipt.invocation.chainAttempt)
      .historyInvalid
    pure row.coverageState

def changeCoverage (receipt : SessionUsageReceipt)
    (pending unknown : Int) : LedgerStatements Unit := do
  let key : CoverageKey := ⟨receipt.sessionId, receipt.model⟩
  let found ← select fun tables => tables.coverage.get key
  match found with
  | none => refuse .historyInvalid
  | some row =>
    let changed : CoverageRow :=
      { pendingInvocations := row.pendingInvocations + pending
        unknownCalls := row.unknownCalls + unknown }
    require changed.Bounds .constraint
    update fun tables => { tables with coverage := tables.coverage.set key changed }
    let owner ← updateSessionRow receipt.sessionId fun row =>
      { row with
        usagePendingInvocations := row.usagePendingInvocations + pending
        usageUnknownCalls := row.usageUnknownCalls + unknown }
    require (owner = 1) .historyInvalid

structure SessionUsageInvocationInput where
  sessionId : String
  model : String
  producerId : String
  dispatchId : String
  round : Nat
  chainAttempt : Nat

/-- The length of a text in UTF-16 code units. -/
def utf16Length (text : String) : Nat :=
  (text.toList.map fun letter => if letter.toNat < 0x10000 then 1 else 2).sum

/-- What `UsageModelSchema` and `UsageInvocationSchema` accept. -/
def SessionUsageInvocationInput.Accepted
    (input : SessionUsageInvocationInput) : Prop :=
  (1 ≤ utf16Length input.model ∧ utf16Length input.model ≤ 4096) ∧
    (1 ≤ utf16Length input.producerId ∧ utf16Length input.producerId ≤ 256) ∧
    (1 ≤ utf16Length input.dispatchId ∧ utf16Length input.dispatchId ≤ 256) ∧
    (input.round : Int) ≤ maxSafeInteger ∧
    1 ≤ input.chainAttempt ∧ (input.chainAttempt : Int) ≤ maxSafeInteger

instance (input : SessionUsageInvocationInput) : Decidable input.Accepted :=
  inferInstanceAs (Decidable (_ ∧ _))

/-- The transaction of `beginSessionUsageInvocation`. -/
def beginSessionUsageInvocation (input : SessionUsageInvocationInput)
    (ownsOneShot : Bool) : LedgerStatements SessionUsageReceipt := do
  require input.Accepted .invalidInput
  withSessionUsageWrite [input.sessionId] do
    let found ← select fun tables => tables.sessions.get input.sessionId
    match found with
    | none => refuse .historyInvalid
    | some owner =>
      require
        ((owner.deletedAt = none ∨ ownsOneShot = true) ∧
          (owner.usageInvocationHighWater : Int) ≤ maxSafeInteger)
        .historyInvalid
      require ((owner.usageInvocationHighWater : Int) ≠ maxSafeInteger) .revisionExhausted
      let invocation : UsageInvocation :=
        { producerId := input.producerId
          ordinal := owner.usageInvocationHighWater + 1
          dispatchId := input.dispatchId
          round := input.round
          chainAttempt := input.chainAttempt }
      let receipt : SessionUsageReceipt :=
        { sessionId := input.sessionId, model := input.model, invocation }
      let _ ← updateSessionRow input.sessionId fun row =>
        { row with usageInvocationHighWater := invocation.ordinal }
      let taken ← select fun tables => tables.invocations.get receipt.key
      require (taken = none) .constraint
      update fun tables =>
        { tables with
          invocations := tables.invocations.set receipt.key
            { dispatchId := input.dispatchId
              round := input.round
              chainAttempt := input.chainAttempt
              model := input.model
              coverageState := .pending } }
      update fun tables =>
        { tables with
          coverage :=
            match tables.coverage.get ⟨input.sessionId, input.model⟩ with
            | some _ => tables.coverage
            | none => tables.coverage.set ⟨input.sessionId, input.model⟩ ⟨0, 0⟩ }
      changeCoverage receipt 1 0
      pure receipt

def deleteInvocation (receipt : SessionUsageReceipt) : LedgerStatements Unit :=
  update fun tables =>
    { tables with invocations := tables.invocations.delete receipt.key }

/-- The transaction of `disposeSessionUsageInvocation`. -/
def disposeSessionUsageInvocation (receipt : SessionUsageReceipt)
    (disposition : UsageDisposition) : LedgerStatements Bool :=
  withSessionUsageWrite [receipt.sessionId] do
    let current ← receiptState receipt
    if current = .incomplete then pure false
    else
      changeCoverage receipt (-1) (if disposition = .incomplete then 1 else 0)
      (if disposition = .incomplete then
        update fun tables =>
          { tables with
            invocations :=
              match tables.invocations.get receipt.key with
              | some row =>
                tables.invocations.set receipt.key
                  { row with coverageState := .incomplete }
              | none => tables.invocations }
      else deleteInvocation receipt)
      pure true

/-- `completeSessionUsageInvocation`, for a receipt that is not retired. -/
def completeSessionUsageInvocation
    (receipt : SessionUsageReceipt) : LedgerStatements Unit := do
  let current ← receiptState receipt
  changeCoverage receipt (if current = .pending then -1 else 0)
    (if current = .incomplete then -1 else 0)
  deleteInvocation receipt

/-- The transaction of `retireSessionUsageInvocation`. -/
def retireSessionUsageInvocation
    (receipt : SessionUsageReceipt) : LedgerStatements Unit :=
  withSessionUsageWrite [receipt.sessionId] do
    let _ ← receiptState receipt
    deleteInvocation receipt

/-! ## Money -/

/-- One `cost:updated` egress; a receipt is the reference of its object. -/
structure SessionCostEntry where
  usageReceipt : Option Nat
  nativeMedia : Bool
  id : String
  sessionId : String
  model : String
  modelCatalogId : Option String
  inputTokens : Nat
  outputTokens : Nat
  costMicrocents : Nat
  priced : Bool
  ts : Int

/-- The two money writes of `recordSessionCost`. -/
def writeSessionCost (entry : SessionCostEntry) : LedgerStatements Unit := do
  let unpriced := if entry.priced then 0 else 1
  upsertCost ⟨entry.sessionId, entry.model, false⟩
    { id := entry.id
      modelCatalogId := entry.modelCatalogId
      inputTokens := entry.inputTokens
      outputTokens := entry.outputTokens
      costMicrocents := entry.costMicrocents
      conservativeMicrocents := 0
      callCount := 1
      unpricedCalls := unpriced
      createdAt := entry.ts
      updatedAt := entry.ts }
    (fun row =>
      { row with
        inputTokens := nearestDouble (row.inputTokens + entry.inputTokens)
        outputTokens := nearestDouble (row.outputTokens + entry.outputTokens)
        costMicrocents := nearestDouble (row.costMicrocents + entry.costMicrocents)
        callCount := row.callCount + 1
        unpricedCalls := nearestDouble (row.unpricedCalls + unpriced)
        updatedAt := entry.ts })
  updateBusinessColumns entry.sessionId fun row =>
    { row with
      totalCostMicrocents :=
        nearestDouble (row.totalCostMicrocents + entry.costMicrocents)
      updatedAt := entry.ts }

/-- What `recordSessionCost` does first: nothing for a retired receipt, else the
completion of the receipt, or the mark of a cost without one. -/
def settleReceipt (entry : SessionCostEntry)
    (receipt : Option (SessionUsageReceipt × Bool)) : LedgerStatements Bool :=
  match receipt with
  | some (receipt, retired) => do
      require (receipt.sessionId = entry.sessionId ∧ receipt.model = entry.model) .receiptInvalid
      if retired then pure false
      else
        completeSessionUsageInvocation receipt
        pure true
  | none =>
    if entry.nativeMedia then pure true
    else do
      let _ ← updateSessionRow entry.sessionId fun row =>
        { row with usageUnverified := true }
      pure true

/-- The transaction of `recordSessionCost`. -/
def recordSessionCost (entry : SessionCostEntry)
    (receipt : Option (SessionUsageReceipt × Bool)) : LedgerStatements Bool :=
  withSessionUsageWrite [entry.sessionId] do
    let accepted ← settleReceipt entry receipt
    (if accepted then writeSessionCost entry else pure ())
    pure accepted

structure SessionConservativeEntry where
  id : String
  sessionId : String
  model : String
  modelCatalogId : Option String
  estimateMicrocents : Nat
  ts : Int

def recordSessionConservativeCommitment
    (entry : SessionConservativeEntry) : LedgerStatements Unit :=
  withSessionUsageWrite [entry.sessionId] do
    upsertCost ⟨entry.sessionId, entry.model, false⟩
      { id := entry.id
        modelCatalogId := entry.modelCatalogId
        inputTokens := 0
        outputTokens := 0
        costMicrocents := 0
        conservativeMicrocents := entry.estimateMicrocents
        callCount := 0
        unpricedCalls := 0
        createdAt := entry.ts
        updatedAt := entry.ts }
      (fun row =>
        { row with
          conservativeMicrocents :=
            nearestDouble (row.conservativeMicrocents + entry.estimateMicrocents)
          modelCatalogId := row.modelCatalogId.or entry.modelCatalogId
          updatedAt := entry.ts })
    updateBusinessColumns entry.sessionId fun row =>
      { row with
        totalConservativeMicrocents :=
          nearestDouble (row.totalConservativeMicrocents + entry.estimateMicrocents)
        updatedAt := entry.ts }

/-- `loadSession(…)?.totalConservativeMicrocents ?? 0`; a deleted session does
not load. -/
def heldConservative (tables : LedgerTables) (sessionId : String) : Nat :=
  match tables.sessions.get sessionId with
  | some row => if row.deletedAt = none then row.totalConservativeMicrocents else 0
  | none => 0

def releaseSessionConservativeCommitments (sessionId : String)
    (ts : Int) : LedgerStatements Nat :=
  withSessionUsageWrite [sessionId] do
    let released ← select fun tables => heldConservative tables sessionId
    if released = 0 then pure 0
    else
      let changes ← modifyGet fun tables =>
        ((tables.costs.filter fun key _ => key.sessionId = sessionId).keys.length,
          { tables with
            costs := tables.costs.mapValues fun key row =>
              if key.sessionId = sessionId then
                { row with conservativeMicrocents := 0, updatedAt := ts }
              else row })
      touchRevisions sessionId changes
      updateBusinessColumns sessionId fun row =>
        { row with totalConservativeMicrocents := 0, updatedAt := ts }
      pure released

end SessionLedger
end Relavium.Store
