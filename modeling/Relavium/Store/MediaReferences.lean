import Relavium.Library.OrderedSet
import Relavium.Library.Spans
import Relavium.Library.Transaction
import Relavium.Shared.MediaDescriptor

/-!
# The media reference store

`media_objects` has a row for each handle that was ever admitted, and
`media_references` a row for each scope that holds on to a handle.  Admission
writes an object and takes back its soft deletion, a reference and the removal
of a run's references restart the grace window of the objects they touch, and
the collection soft-deletes what nothing has referenced for as long as that.
-/

namespace Relavium.Store

open Library
open Library.Statements
open Shared

inductive MediaScopeKind
  | run
  | node
  | session
  | workspace
  deriving DecidableEq

/-- A row of `media_objects`, which its handle finds. -/
structure MediaObjectRow where
  mimeType : JsString
  modality : MediaModality
  byteLength : SafeAmount
  durationMs : Option SafeAmount
  lastReferencedAt : Int
  deletedAt : Option Int
  createdAt : Int

/-- The unique index of `media_references`. -/
structure MediaReferenceKey where
  handle : JsString
  scopeKind : MediaScopeKind
  scopeId : JsString
  deriving DecidableEq

/-- The two tables.  A reference is stored with the time it was made. -/
structure MediaTables where
  objects : OrderedMap JsString MediaObjectRow
  references : OrderedMap MediaReferenceKey Int

/-- The tables of a new database. -/
def MediaTables.empty : MediaTables where
  objects := .empty
  references := .empty

/-- Why a transaction is rolled back. -/
inductive MediaRefusal
  | admission (code : MediaAdmissionErrorCode)
  | foreignKey
  deriving DecidableEq

abbrev MediaStatements :=
  Statements MediaTables MediaRefusal

namespace MediaTables

/-- Some scope holds on to the handle. -/
def Referenced (tables : MediaTables)
    (handle : JsString) : Prop :=
  ∃ key ∈ tables.references.keys, key.handle = handle

instance (tables : MediaTables) (handle : JsString) :
    Decidable (tables.Referenced handle) :=
  inferInstanceAs (Decidable (∃ _ ∈ _, _))

/-- `UPDATE media_objects SET … WHERE handle IN …`. -/
def updateObjects (handles : List JsString) (set : MediaObjectRow → MediaObjectRow)
    (tables : MediaTables) : MediaTables :=
  { tables with
    objects := tables.objects.mapValues fun handle row =>
      if handle ∈ handles then set row else row }

end MediaTables

/-- `SQLITE_INARRAY_CHUNK`. -/
def sqliteInarrayChunk : Nat := 900

/-- One update for each chunk of the handles. -/
def updateInChunks (handles : List JsString)
    (set : MediaObjectRow → MediaObjectRow) : MediaStatements Unit :=
  (inChunks sqliteInarrayChunk handles).forM fun chunk =>
    update (MediaTables.updateObjects chunk set)

/-! ## Admission -/

/-- The row of a handle that was not there. -/
def newObjectRow (input : DurableMediaMeta)
    (ts : Int) : MediaObjectRow where
  mimeType := input.mimeType.text
  modality := input.modality
  byteLength := input.byteLength
  durationMs := input.durationMs
  lastReferencedAt := ts
  deletedAt := none
  createdAt := ts

/-- The row of a handle that is admitted again. -/
def readmittedRow (existing : MediaObjectRow) (input : DurableMediaMeta)
    (ts : Int) : MediaObjectRow :=
  { existing with
    mimeType := input.mimeType.text
    lastReferencedAt := ts
    deletedAt := none
    durationMs :=
      if existing.durationMs = none ∧ input.durationMs ≠ none then
        input.durationMs
      else
        existing.durationMs }

/-- One turn of the loop of `admitBatchTxn`. -/
def admitOne (ts : Int)
    (input : DurableMediaMeta) : MediaStatements Unit := do
  match ← select fun tables => tables.objects.get input.handle with
  | none =>
    update fun tables =>
      { tables with objects := tables.objects.set input.handle (newObjectRow input ts) }
  | some existing =>
    let mimeType ← ofExcept
      ((canonicalMediaMimeType existing.mimeType).mapError MediaRefusal.admission)
    require
      (mimeType = input.mimeType ∧
        existing.modality = input.modality ∧
        existing.byteLength = input.byteLength ∧
        ¬durationsDisagree existing.durationMs input.durationMs)
      (.admission .descriptorConflict)
    update fun tables =>
      { tables with
        objects := tables.objects.set input.handle (readmittedRow existing input ts) }

/-- `admitBatchTxn`. -/
def admitBatchTxn (batch : List DurableMediaMeta)
    (ts : Int) : MediaStatements Unit :=
  batch.forM (admitOne ts)

/-- `admitProducedMedia`: the batch is checked as a whole before its transaction. -/
def admitProducedMedia (batch : DescriptorBatch) (ts : Int)
    (tables : MediaTables) : Except MediaRefusal Unit × MediaTables :=
  match reconcileMediaDescriptors batch with
  | .error code => (.error (.admission code), tables)
  | .ok owned =>
    if owned.isEmpty then (.ok (), tables)
    else transaction (admitBatchTxn owned ts) tables

/-- `recordObject`. -/
def recordObject (input : DescriptorInput) (ts : Int)
    (tables : MediaTables) : Except MediaRefusal Unit × MediaTables :=
  admitProducedMedia (.array [.data input]) ts tables

/-! ## References -/

/-- The insertion of a reference, which does nothing where the unique index has
it and fails where the handle has no object. -/
def insertReference (key : MediaReferenceKey)
    (ts : Int) : MediaStatements Unit := do
  let tables ← select id
  if tables.references.has key then
    pure ()
  else
    Statements.require (tables.objects.has key.handle) .foreignKey
    update fun tables => { tables with references := tables.references.set key ts }

/-- The transaction of `addReference`. -/
def addReferenceTxn (key : MediaReferenceKey)
    (ts : Int) : MediaStatements Unit := do
  insertReference key ts
  update (MediaTables.updateObjects [key.handle] fun row =>
    { row with lastReferencedAt := ts })

/-- A reference of the run. -/
def MediaReferenceKey.OfRun (runId : JsString)
    (key : MediaReferenceKey) : Prop :=
  key.scopeKind = .run ∧ key.scopeId = runId

instance (runId : JsString) (key : MediaReferenceKey) : Decidable (key.OfRun runId) :=
  inferInstanceAs (Decidable (_ ∧ _))

/-- The references of the run. -/
def MediaTables.runReferences (runId : JsString)
    (tables : MediaTables) : List MediaReferenceKey :=
  tables.references.keys.filter fun key => key.OfRun runId

/-- `removeRunReferencesTxn`. -/
def removeRunReferencesTxn (runId : JsString)
    (ts : Int) : MediaStatements Nat := do
  let affected ← select fun tables =>
    OrderedSet.ofList ((tables.runReferences runId).map MediaReferenceKey.handle)
  let changes ← modifyGet fun tables =>
    ((tables.runReferences runId).length,
      { tables with
        references := tables.references.filter fun key _ => !decide (key.OfRun runId) })
  updateInChunks affected.elements fun row => { row with lastReferencedAt := ts }
  pure changes

/-! ## Collection -/

/-- The objects that are live, that nothing references, and that nothing has
touched since the cutoff. -/
def MediaTables.expired (cutoff : Int)
    (tables : MediaTables) : List JsString :=
  (tables.objects.filter fun handle row =>
    row.deletedAt = none ∧ row.lastReferencedAt ≤ cutoff ∧ ¬tables.Referenced handle).keys

/-- `reclaimExpiredTxn`. -/
def reclaimExpiredTxn
    (cutoff ts : Int) : MediaStatements (List JsString) := do
  let handles ← select fun tables => tables.expired cutoff
  updateInChunks handles fun row => { row with deletedAt := some ts }
  pure handles

/-! ## The store -/

/-- A call of the store that writes. -/
inductive MediaCall
  | admitProducedMedia (batch : DescriptorBatch)
  | recordObject (input : DescriptorInput)
  | addReference (key : MediaReferenceKey)
  | removeRunReferences (runId : JsString)
  | reclaimExpired (graceMs : Nat)

/-- What a call answers. -/
inductive MediaAnswer
  | done
  | removed (changes : Nat)
  | reclaimed (handles : List JsString)
  deriving DecidableEq

/-- A call with the time that its one clock read gave. -/
structure StampedMediaCall where
  ts : Int
  call : MediaCall

/-- An answer in the place of another. -/
def answering (answer : α → β)
    (outcome : Except ε α × τ) : Except ε β × τ :=
  (outcome.1.map answer, outcome.2)

/-- The transaction of a call. -/
def StampedMediaCall.perform (stamped : StampedMediaCall)
    (tables : MediaTables) : Except MediaRefusal MediaAnswer × MediaTables :=
  match stamped.call with
  | .admitProducedMedia batch =>
    answering (fun _ => .done) (admitProducedMedia batch stamped.ts tables)
  | .recordObject input =>
    answering (fun _ => .done) (recordObject input stamped.ts tables)
  | .addReference key =>
    answering (fun _ => .done) (transaction (addReferenceTxn key stamped.ts) tables)
  | .removeRunReferences runId =>
    answering .removed (transaction (removeRunReferencesTxn runId stamped.ts) tables)
  | .reclaimExpired graceMs =>
    answering .reclaimed
      (transaction (reclaimExpiredTxn (stamped.ts - graceMs) stamped.ts) tables)

/-- The tables that a sequence of calls, one transaction after the other, leads to. -/
def MediaTables.after (calls : List StampedMediaCall) : MediaTables :=
  calls.foldl (fun tables stamped => (stamped.perform tables).2) .empty

@[simp] theorem MediaTables.after_nil : MediaTables.after [] = .empty := rfl

@[simp] theorem MediaTables.after_snoc
    (calls : List StampedMediaCall) (stamped : StampedMediaCall) :
    MediaTables.after (calls ++ [stamped]) = (stamped.perform (.after calls)).2 := by
  simp [MediaTables.after]

end Relavium.Store
