import Mathlib.Tactic.Common
import Relavium.Store.MediaReferences

/-!
# The effects of media transactions

What the transactions of the media reference store do.  Every operation has one
lemma about both tables, and every transaction has one of their effects or is
refused and leaves the tables as they were.
-/

namespace Relavium.Store

open Library
open Library.Statements
open Shared

/-! ## Updates in chunks -/

/-- An update of the rows of some handles that leaves the references alone. -/
structure Updates (handles : List JsString) (set : MediaObjectRow → MediaObjectRow)
    (before after : MediaTables) : Prop where
  references : after.references = before.references
  objects : ∀ handle,
    after.objects.get handle =
      (before.objects.get handle).map fun row =>
        if handle ∈ handles then set row else row

theorem updates_updateObjects
    (handles : List JsString) (set : MediaObjectRow → MediaObjectRow) (tables : MediaTables) :
    Updates handles set tables (tables.updateObjects handles set) where
  references := rfl
  objects handle := by simp [MediaTables.updateObjects]

theorem updates_forM
    {set : MediaObjectRow → MediaObjectRow} (idempotent : ∀ row, set (set row) = set row)
    {chunks : List (List JsString)} {before after : MediaTables}
    (commits : Commits
      ((chunks.forM fun chunk => update (MediaTables.updateObjects chunk set)) :
        MediaStatements Unit)
      before () after) :
    Updates chunks.flatten set before after := by
  induction chunks generalizing before with
  | nil =>
    obtain ⟨-, rfl⟩ := commits_pure.mp commits
    exact ⟨rfl, fun handle => by simp⟩
  | cons chunk rest ih =>
    obtain ⟨_, middle, first, remaining⟩ := commits_bind.mp commits
    obtain rfl := commits_update.mp first
    have firstUpdates := updates_updateObjects chunk set before
    have restUpdates := ih remaining
    refine ⟨restUpdates.references.trans firstUpdates.references, fun handle => ?_⟩
    rw [restUpdates.objects, firstUpdates.objects, Option.map_map]
    congr 1
    funext row
    by_cases inFirst : handle ∈ chunk
    · by_cases inRest : handle ∈ rest.flatten
      · simp [inFirst, inRest, idempotent]
      · simp [inFirst, inRest]
    · simp [inFirst]

theorem updates_of_updateInChunks
    {handles : List JsString} {set : MediaObjectRow → MediaObjectRow} {before after : MediaTables}
    (commits : Commits (updateInChunks handles set) before () after)
    (idempotent : ∀ row, set (set row) = set row) :
    Updates handles set before after := by
  obtain ⟨references, objects⟩ := updates_forM idempotent commits
  refine ⟨references, fun handle => ?_⟩
  rw [objects]
  simp only [flatten_inChunks (show 0 < sqliteInarrayChunk by decide)]

/-- Updates are never refused. -/
theorem exists_commits_updateInChunks
    (handles : List JsString) (set : MediaObjectRow → MediaObjectRow) (before : MediaTables) :
    ∃ after, Commits (updateInChunks handles set) before () after := by
  unfold updateInChunks
  induction inChunks sqliteInarrayChunk handles generalizing before with
  | nil => exact ⟨before, commits_pure.mpr ⟨rfl, rfl⟩⟩
  | cons chunk rest ih =>
    obtain ⟨after, remaining⟩ := ih (before.updateObjects chunk set)
    exact ⟨after, commits_bind.mpr ⟨(), _, commits_update.mpr rfl, remaining⟩⟩

/-! ## The identity of a handle -/

/-- A later row of the same handle: type, modality and length are the same, and
a duration is, if there was one. -/
structure SameIdentity (earlier later : MediaObjectRow) : Prop where
  mimeType : canonicalMediaMimeType later.mimeType = canonicalMediaMimeType earlier.mimeType
  modality : later.modality = earlier.modality
  byteLength : later.byteLength = earlier.byteLength
  durationMs : earlier.durationMs = none ∨ later.durationMs = earlier.durationMs

namespace SameIdentity

theorem refl (row : MediaObjectRow) : SameIdentity row row :=
  ⟨rfl, rfl, rfl, .inr rfl⟩

theorem trans
    {first second third : MediaObjectRow} (earlier : SameIdentity first second)
    (later : SameIdentity second third) :
    SameIdentity first third where
  mimeType := later.mimeType.trans earlier.mimeType
  modality := later.modality.trans earlier.modality
  byteLength := later.byteLength.trans earlier.byteLength
  durationMs := by
    obtain absent | same := earlier.durationMs
    · exact .inl absent
    · obtain absent | kept := later.durationMs
      · exact .inl (same ▸ absent)
      · exact .inr (kept.trans same)

end SameIdentity

/-- Every object is still there, with the identity it had. -/
def KeepsIdentity (before after : MediaTables) : Prop :=
  ∀ handle row, before.objects.get handle = some row →
    ∃ later, after.objects.get handle = some later ∧ SameIdentity row later

namespace KeepsIdentity

theorem refl (tables : MediaTables) : KeepsIdentity tables tables :=
  fun _ row isRow => ⟨row, isRow, .refl row⟩

theorem trans
    {first second third : MediaTables} (earlier : KeepsIdentity first second)
    (later : KeepsIdentity second third) :
    KeepsIdentity first third := by
  intro handle row isRow
  obtain ⟨middle, isMiddle, same⟩ := earlier handle row isRow
  obtain ⟨last, isLast, sameLast⟩ := later handle middle isMiddle
  exact ⟨last, isLast, same.trans sameLast⟩

end KeepsIdentity

variable {before after : MediaTables} {ts : Int}

theorem Updates.keepsIdentity
    {handles : List JsString} {set : MediaObjectRow → MediaObjectRow}
    (updates : Updates handles set before after) (same : ∀ row, SameIdentity row (set row)) :
    KeepsIdentity before after := by
  intro handle row isRow
  rw [updates.objects, isRow]
  refine ⟨_, rfl, ?_⟩
  split
  · exact same row
  · exact .refl row

/-- A row that is admitted again keeps its identity. -/
theorem sameIdentity_readmittedRow
    {existing : MediaObjectRow} {input : DurableMediaMeta}
    (canonical : canonicalMediaMimeType existing.mimeType = .ok input.mimeType) (ts : Int) :
    SameIdentity existing (readmittedRow existing input ts) where
  mimeType := by simp [readmittedRow, canonical]
  modality := rfl
  byteLength := rfl
  durationMs := by
    by_cases enriched : existing.durationMs = none ∧ input.durationMs ≠ none
    · exact .inl enriched.1
    · exact .inr (by simp only [readmittedRow, if_neg enriched])

/-! ## What each operation does -/

/-- The admission of some handles: their objects are live and fresh, the others
are as they were. -/
structure Admitted (handles : List JsString) (ts : Int)
    (before after : MediaTables) : Prop where
  references : after.references = before.references
  others : ∀ handle, handle ∉ handles →
    after.objects.get handle = before.objects.get handle
  fresh : ∀ handle ∈ handles, ∃ row, after.objects.get handle = some row ∧
    row.deletedAt = none ∧ row.lastReferencedAt = ts
  identity : KeepsIdentity before after

theorem Admitted.set
    {before : MediaTables} {handle : JsString} {row : MediaObjectRow}
    (live : row.deletedAt = none) (fresh : row.lastReferencedAt = ts)
    (same : ∀ existing, before.objects.get handle = some existing →
      SameIdentity existing row) :
    Admitted [handle] ts before
      { before with objects := before.objects.set handle row } where
  references := rfl
  others other notIn := by
    exact OrderedMap.get_set_of_ne _ (by simpa using notIn) _
  fresh other isIn := by
    obtain rfl := List.mem_singleton.mp isIn
    exact ⟨row, by simp, live, fresh⟩
  identity := by
    intro other existing isExisting
    by_cases isHandle : other = handle
    · subst isHandle
      exact ⟨row, by simp, same existing isExisting⟩
    · exact ⟨existing, by simpa [OrderedMap.get_set, isHandle], .refl existing⟩

theorem admitted_of_admitOne
    {input : DurableMediaMeta} (commits : Commits (admitOne ts input) before () after) :
    Admitted [input.handle] ts before after := by
  obtain ⟨found, middle, selected, branch⟩ := commits_bind.mp commits
  obtain ⟨rfl, rfl⟩ := commits_select.mp selected
  cases existing : before.objects.get input.handle with
  | none =>
    rw [existing] at branch
    obtain rfl := commits_update.mp branch
    exact .set rfl rfl fun row isRow => by simp [existing] at isRow
  | some row =>
    rw [existing] at branch
    simp only [commits_bind, commits_ofExcept, commits_require, commits_update,
      mapError_eq_ok] at branch
    obtain ⟨mimeType, _, ⟨canonical, rfl⟩, _, _, ⟨⟨rfl, -⟩, rfl⟩, rfl⟩ := branch
    refine .set rfl rfl fun other isOther => ?_
    obtain rfl : row = other := Option.some.inj (existing.symm.trans isOther)
    exact sameIdentity_readmittedRow canonical ts

theorem Admitted.append
    {first second : List JsString} {before middle after : MediaTables}
    (earlier : Admitted first ts before middle) (later : Admitted second ts middle after) :
    Admitted (first ++ second) ts before after where
  references := later.references.trans earlier.references
  others handle notIn := by
    rw [List.mem_append, not_or] at notIn
    exact (later.others handle notIn.2).trans (earlier.others handle notIn.1)
  fresh handle isIn := by
    by_cases inSecond : handle ∈ second
    · exact later.fresh handle inSecond
    · rw [later.others handle inSecond]
      exact earlier.fresh handle ((List.mem_append.mp isIn).resolve_right inSecond)
  identity := earlier.identity.trans later.identity

theorem admitted_of_admitBatchTxn
    {batch : List DurableMediaMeta} (commits : Commits (admitBatchTxn batch ts) before () after) :
    Admitted (batch.map DurableMediaMeta.handle) ts before after := by
  induction batch generalizing before with
  | nil =>
    obtain ⟨-, rfl⟩ := commits_pure.mp commits
    exact ⟨rfl, fun _ _ => rfl, by simp, .refl before⟩
  | cons input rest ih =>
    obtain ⟨_, middle, first, remaining⟩ := commits_bind.mp commits
    exact (admitted_of_admitOne first).append (ih remaining)

/-- A reference is there and its object is fresh. -/
structure MadeReference (key : MediaReferenceKey) (ts : Int)
    (before after : MediaTables) : Prop where
  references : ∀ other,
    after.references.has other ↔ other = key ∨ before.references.has other
  objects : ∀ handle,
    after.objects.get handle =
      (before.objects.get handle).map fun row =>
        if handle = key.handle then { row with lastReferencedAt := ts } else row

theorem madeReference_of_addReferenceTxn
    {key : MediaReferenceKey} (commits : Commits (addReferenceTxn key ts) before () after) :
    MadeReference key ts before after := by
  obtain ⟨_, middle, inserted, updated⟩ := commits_bind.mp commits
  obtain rfl := commits_update.mp updated
  have updates := updates_updateObjects [key.handle]
    (fun row => { row with lastReferencedAt := ts }) middle
  have insertion : middle.objects = before.objects ∧
      ∀ other, middle.references.has other ↔ other = key ∨ before.references.has other := by
    obtain ⟨_, _, selected, branch⟩ := commits_bind.mp inserted
    obtain ⟨rfl, rfl⟩ := commits_select.mp selected
    split at branch
    · rename_i present
      obtain ⟨-, rfl⟩ := commits_pure.mp branch
      refine ⟨rfl, fun other => ?_⟩
      constructor
      · exact .inr
      · rintro (rfl | held)
        · exact present
        · exact held
    · simp only [commits_bind, commits_require, commits_update] at branch
      obtain ⟨_, _, ⟨-, rfl⟩, rfl⟩ := branch
      refine ⟨rfl, fun other => ?_⟩
      by_cases isKey : other = key <;>
        simp [OrderedMap.has, OrderedMap.get_set, isKey]
  refine ⟨fun other => ?_, fun handle => ?_⟩
  · rw [updates.references]
    exact insertion.2 other
  · rw [updates.objects, insertion.1]
    simp

theorem mem_runReferences {tables : MediaTables} {runId : JsString} {key : MediaReferenceKey} :
    key ∈ tables.runReferences runId ↔
      tables.references.has key ∧ key.OfRun runId := by
  simp [MediaTables.runReferences, OrderedMap.mem_keys_iff]

/-- The references of a run are gone and their objects fresh. -/
structure RemovedRun (runId : JsString) (ts : Int)
    (before after : MediaTables) : Prop where
  references : ∀ key,
    after.references.has key ↔ before.references.has key ∧ ¬key.OfRun runId
  objects : ∀ handle,
    after.objects.get handle =
      (before.objects.get handle).map fun row =>
        if ∃ key ∈ before.runReferences runId, key.handle = handle then
          { row with lastReferencedAt := ts }
        else row

theorem removedRun_of_removeRunReferencesTxn
    {runId : JsString} {changes : Nat}
    (commits : Commits (removeRunReferencesTxn runId ts) before changes after) :
    RemovedRun runId ts before after := by
  simp only [removeRunReferencesTxn, commits_bind, commits_select,
    commits_modifyGet, commits_pure] at commits
  obtain ⟨_, _, ⟨rfl, rfl⟩, _, middle, deleted, _, _, updated, -, rfl⟩ := commits
  obtain rfl := (Prod.mk.inj deleted).2
  have updates := updates_of_updateInChunks updated fun _ => rfl
  refine ⟨fun key => ?_, fun handle => ?_⟩
  · rw [updates.references, OrderedMap.has, OrderedMap.get_filter, OrderedMap.has]
    cases before.references.get key <;> simp [Option.filter]
  · rw [updates.objects]
    congr 1
    funext row
    simp only [OrderedSet.mem_elements, OrderedSet.mem_ofList, List.mem_map]

theorem mem_expired {tables : MediaTables} {cutoff : Int} {handle : JsString} :
    handle ∈ tables.expired cutoff ↔
      ∃ row, tables.objects.get handle = some row ∧ row.deletedAt = none ∧
        row.lastReferencedAt ≤ cutoff ∧ ¬tables.Referenced handle := by
  rw [MediaTables.expired, OrderedMap.mem_keys_iff, OrderedMap.has_iff]
  simp [OrderedMap.get_filter, Option.filter_eq_some_iff]

/-- The expired objects are soft-deleted and nothing else changes. -/
theorem updates_of_reclaimExpiredTxn
    {cutoff ts : Int} {handles : List JsString}
    (commits : Commits (reclaimExpiredTxn cutoff ts) before handles after) :
    handles = before.expired cutoff ∧ Updates handles
      (fun row => { row with deletedAt := some ts }) before after := by
  simp only [reclaimExpiredTxn, commits_bind, commits_select, commits_pure] at commits
  obtain ⟨_, _, ⟨rfl, rfl⟩, _, _, updated, rfl, rfl⟩ := commits
  exact ⟨rfl, updates_of_updateInChunks updated fun _ => rfl⟩

/-- The removal of a run's references is never refused. -/
theorem exists_commits_removeRunReferencesTxn
    (runId : JsString) (ts : Int) (before : MediaTables) :
    ∃ changes after, Commits (removeRunReferencesTxn runId ts) before changes after := by
  simp only [removeRunReferencesTxn, commits_bind, commits_select,
    commits_modifyGet, commits_pure]
  obtain ⟨after, updated⟩ := exists_commits_updateInChunks
    (OrderedSet.ofList ((before.runReferences runId).map MediaReferenceKey.handle)).elements
    (fun row => { row with lastReferencedAt := ts })
    { before with
      references := before.references.filter fun key _ => !decide (key.OfRun runId) }
  exact ⟨_, after, _, _, ⟨rfl, rfl⟩, _, _, rfl, _, _, updated, rfl, rfl⟩

/-- A collection is never refused. -/
theorem exists_commits_reclaimExpiredTxn (cutoff ts : Int) (before : MediaTables) :
    ∃ handles after, Commits (reclaimExpiredTxn cutoff ts) before handles after := by
  simp only [reclaimExpiredTxn, commits_bind, commits_select, commits_pure]
  obtain ⟨after, updated⟩ := exists_commits_updateInChunks (before.expired cutoff)
    (fun row => { row with deletedAt := some ts }) before
  exact ⟨_, after, _, _, ⟨rfl, rfl⟩, _, _, updated, rfl, rfl⟩

/-- The handles of a batch that reconciles. -/
def batchHandles (batch : DescriptorBatch) : List JsString :=
  match reconcileMediaDescriptors batch with
  | .ok owned => owned.map DurableMediaMeta.handle
  | .error _ => []

/-- The handles that a call admits when it is accepted. -/
def MediaCall.admitted : MediaCall → List JsString
  | .admitProducedMedia batch => batchHandles batch
  | .recordObject input => batchHandles (.array [.data input])
  | _ => []

/-- What one transaction may do. -/
inductive MediaEffect (stamped : StampedMediaCall) (before : MediaTables) :
    Except MediaRefusal MediaAnswer → MediaTables → Prop
  | refused (refusal : MediaRefusal) : MediaEffect stamped before (.error refusal) before
  | admitted
      {after : MediaTables}
      (admits : Admitted stamped.call.admitted stamped.ts before after) :
      MediaEffect stamped before (.ok .done) after
  | referenced
      {key : MediaReferenceKey}
      {after : MediaTables}
      (isCall : stamped.call = .addReference key)
      (makes : MadeReference key stamped.ts before after) :
      MediaEffect stamped before (.ok .done) after
  | removed
      {runId : JsString}
      {after : MediaTables}
      {changes : Nat}
      (isCall : stamped.call = .removeRunReferences runId)
      (removes : RemovedRun runId stamped.ts before after) :
      MediaEffect stamped before (.ok (.removed changes)) after
  | reclaimed
      {graceMs : Nat}
      {after : MediaTables}
      (isCall : stamped.call = .reclaimExpired graceMs)
      (updates : Updates (before.expired (stamped.ts - graceMs))
        (fun row => { row with deletedAt := some stamped.ts }) before after) :
      MediaEffect stamped before (.ok (.reclaimed (before.expired (stamped.ts - graceMs)))) after

/-- A transaction is refused and changes nothing, or does what its statements do. -/
theorem effect_of_transaction
    {stamped : StampedMediaCall} {statements : MediaStatements α} {answer : α → MediaAnswer}
    {before : MediaTables}
    (accepted : ∀ given after, Commits statements before given after →
      MediaEffect stamped before (.ok (answer given)) after) :
    MediaEffect stamped before (answering answer (transaction statements before)).1
      (answering answer (transaction statements before)).2 := by
  cases ran : transaction statements before with
  | mk outcome after =>
    cases outcome with
    | error refusal =>
      obtain rfl := tables_of_transaction_error ran
      exact .refused refusal
    | ok given => exact accepted given after (transaction_ok_iff.mp ran)

theorem effect_of_admitProducedMedia
    {stamped : StampedMediaCall} {batch : DescriptorBatch}
    (isBatch : stamped.call.admitted = batchHandles batch) (before : MediaTables) :
    MediaEffect stamped before
      (answering (fun _ => MediaAnswer.done) (admitProducedMedia batch stamped.ts before)).1
      (answering (fun _ => MediaAnswer.done)
        (admitProducedMedia batch stamped.ts before)).2 := by
  unfold admitProducedMedia
  cases reconciled : reconcileMediaDescriptors batch with
  | error code => exact .refused _
  | ok owned =>
    have handles : stamped.call.admitted = owned.map DurableMediaMeta.handle := by
      rw [isBatch, batchHandles, reconciled]
    cases owned with
    | nil =>
      refine .admitted ⟨rfl, fun _ _ => rfl, ?_, .refl before⟩
      simp [handles]
    | cons first rest =>
      refine effect_of_transaction fun _ after commits => .admitted ?_
      rw [handles]
      exact admitted_of_admitBatchTxn commits

theorem media_effect (stamped : StampedMediaCall) (before : MediaTables) :
    MediaEffect stamped before (stamped.perform before).1 (stamped.perform before).2 := by
  obtain ⟨ts, call⟩ := stamped
  cases call with
  | admitProducedMedia batch | recordObject input => exact effect_of_admitProducedMedia rfl before
  | addReference key =>
    exact effect_of_transaction fun _ _ commits =>
      .referenced rfl (madeReference_of_addReferenceTxn commits)
  | removeRunReferences runId =>
    exact effect_of_transaction fun _ _ commits =>
      .removed rfl (removedRun_of_removeRunReferencesTxn commits)
  | reclaimExpired graceMs =>
    refine effect_of_transaction fun handles _ commits => ?_
    obtain ⟨rfl, updates⟩ := updates_of_reclaimExpiredTxn commits
    exact .reclaimed rfl updates

end Relavium.Store
