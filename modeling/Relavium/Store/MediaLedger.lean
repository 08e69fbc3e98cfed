import Relavium.Store.MediaRetention

/-!
# The media retention ledger

What the media reference store keeps over every sequence of transactions: the
identity of a handle, the exactness of collection and of the removal of a run's
references, and that a refused call changes nothing.  An object with a reference
is live in every sequence in which no reference is made to an object that was
collected before.
-/

namespace Relavium.Store

open Library
open Library.Statements
open Shared

/-- The call is an accepted admission of the handle, or changes its references. -/
def StampedMediaCall.Changes (stamped : StampedMediaCall) (before : MediaTables)
    (handle : JsString) : Prop :=
  ((stamped.perform before).1 = .ok .done ∧ handle ∈ stamped.call.admitted) ∨
    ∃ key ∈ before.references.keys ++ (stamped.perform before).2.references.keys,
      key.handle = handle ∧
        (stamped.perform before).2.references.has key ≠ before.references.has key

instance (stamped : StampedMediaCall) (before : MediaTables) (handle : JsString) :
    Decidable (stamped.Changes before handle) :=
  inferInstanceAs (Decidable (_ ∨ _))

/-- When the handle was last admitted or its references changed, of calls in
reverse order. -/
def lastChangeOfReversed (handle : JsString) : List StampedMediaCall → Option Int
  | [] => none
  | last :: earlier =>
    if last.Changes (.after earlier.reverse) handle then some last.ts
    else lastChangeOfReversed handle earlier

/-- When the handle was last admitted or its references changed. -/
def lastChange (calls : List StampedMediaCall)
    (handle : JsString) : Option Int :=
  lastChangeOfReversed handle calls.reverse

theorem lastChange_snoc
    (calls : List StampedMediaCall) (stamped : StampedMediaCall) (handle : JsString) :
    lastChange (calls ++ [stamped]) handle =
      if stamped.Changes (.after calls) handle then some stamped.ts
      else lastChange calls handle := by
  simp [lastChange, lastChangeOfReversed]

/-- The object of a handle is there and not soft-deleted. -/
def MediaTables.Live (tables : MediaTables)
    (handle : JsString) : Prop :=
  ∃ row, tables.objects.get handle = some row ∧ row.deletedAt = none

/-- Objects that something references are live. -/
def MediaTables.ReferencedLive (tables : MediaTables) : Prop :=
  ∀ handle row, tables.objects.get handle = some row →
    tables.Referenced handle → row.deletedAt = none

/-- A collection returns and soft-deletes exactly the live objects without a
reference that nothing has changed for the grace time. -/
def CollectsExactly (calls : List StampedMediaCall)
    (stamped : StampedMediaCall) : Prop :=
  ∀ graceMs, stamped.call = .reclaimExpired graceMs →
    ∃ handles, (stamped.perform (.after calls)).1 = .ok (.reclaimed handles) ∧
      (∀ handle, handle ∈ handles ↔
        (MediaTables.after calls).Live handle ∧
          ¬(MediaTables.after calls).Referenced handle ∧
          ∃ change, lastChange calls handle = some change ∧
            change ≤ stamped.ts - graceMs) ∧
      ∀ handle,
        (stamped.perform (.after calls)).2.objects.get handle =
          ((MediaTables.after calls).objects.get handle).map fun row =>
            if handle ∈ handles then { row with deletedAt := some stamped.ts } else row

/-- The removal of a run's references removes these and no other. -/
def RemovesExactly (calls : List StampedMediaCall)
    (stamped : StampedMediaCall) : Prop :=
  ∀ runId, stamped.call = .removeRunReferences runId →
    ∀ key, (stamped.perform (.after calls)).2.references.has key ↔
      (MediaTables.after calls).references.has key ∧ ¬key.OfRun runId

/-- A call that is refused leaves the tables as they were. -/
def RefusesWhole (calls : List StampedMediaCall)
    (stamped : StampedMediaCall) : Prop :=
  ∀ refusal, (stamped.perform (.after calls)).1 = .error refusal →
    (stamped.perform (.after calls)).2 = .after calls

/-- What the store promises of a sequence of calls. -/
structure KeepsLedger (calls : List StampedMediaCall) : Prop where
  referencedLive : ∀ before after, calls = before ++ after →
    (MediaTables.after before).ReferencedLive
  collects : ∀ before stamped after, calls = before ++ stamped :: after →
    CollectsExactly before stamped
  removes : ∀ before stamped after, calls = before ++ stamped :: after →
    RemovesExactly before stamped
  identity : ∀ before between after, calls = before ++ between ++ after →
    KeepsIdentity (.after before) (.after (before ++ between))
  refuses : ∀ before stamped after, calls = before ++ stamped :: after →
    RefusesWhole before stamped

/-- No reference is made to an object that is soft-deleted at that time. -/
def ReferencesLiveObjects (calls : List StampedMediaCall) : Prop :=
  ∀ before stamped after, calls = before ++ stamped :: after →
    ∀ key row, stamped.call = .addReference key →
      (MediaTables.after before).objects.get key.handle = some row →
      row.deletedAt = none

theorem referenced_iff {tables : MediaTables} {handle : JsString} :
    tables.Referenced handle ↔
      ∃ key, key.handle = handle ∧ tables.references.has key := by
  constructor
  · rintro ⟨key, isKey, atHandle⟩
    exact ⟨key, atHandle, (OrderedMap.mem_keys_iff _ _).mp isKey⟩
  · rintro ⟨key, atHandle, has⟩
    exact ⟨key, (OrderedMap.mem_keys_iff _ _).mpr has, atHandle⟩

variable
  {stamped : StampedMediaCall}

/-- A call changes a handle when it admits it or moves one of its references. -/
theorem changes_iff {before : MediaTables} {handle : JsString} :
    stamped.Changes before handle ↔
      ((stamped.perform before).1 = .ok .done ∧ handle ∈ stamped.call.admitted) ∨
        ∃ key, key.handle = handle ∧
          (stamped.perform before).2.references.has key ≠
            before.references.has key := by
  refine or_congr Iff.rfl ⟨?_, ?_⟩
  · rintro ⟨key, -, atHandle, differs⟩
    exact ⟨key, atHandle, differs⟩
  · rintro ⟨key, atHandle, differs⟩
    refine ⟨key, ?_, atHandle, differs⟩
    rw [List.mem_append, OrderedMap.mem_keys_iff, OrderedMap.mem_keys_iff]
    by_contra neither
    rw [not_or] at neither
    exact differs ((Bool.eq_false_of_not_eq_true neither.2).trans
      (Bool.eq_false_of_not_eq_true neither.1).symm)

/-! ## The retention cursor -/

/-- The cursor of an object that nothing references is its last change. -/
def Dated (calls : List StampedMediaCall) : Prop :=
  ∀ handle row, (MediaTables.after calls).objects.get handle = some row →
    ¬(MediaTables.after calls).Referenced handle →
    lastChange calls handle = some row.lastReferencedAt

variable
  {calls : List StampedMediaCall}

/-- A row that a call does not change keeps its date. -/
theorem dated_of_not_changes
    {handle : JsString} {earlier : MediaObjectRow} (dated : Dated calls)
    (unchanged : ¬stamped.Changes (.after calls) handle)
    (isEarlier : (MediaTables.after calls).objects.get handle = some earlier)
    (unreferenced : ¬(MediaTables.after calls).Referenced handle) :
    lastChange (calls ++ [stamped]) handle = some earlier.lastReferencedAt := by
  rw [lastChange_snoc, if_neg unchanged]
  exact dated handle earlier isEarlier unreferenced

/-- One more call keeps the dates right. -/
theorem dated_snoc (dated : Dated calls) (stamped : StampedMediaCall) :
    Dated (calls ++ [stamped]) := by
  intro handle row isRow unreferenced
  rw [MediaTables.after_snoc] at isRow unreferenced
  have effect := media_effect stamped (.after calls)
  have changesIff := @changes_iff stamped (.after calls) handle
  generalize (stamped.perform (.after calls)).1 = outcome at effect changesIff
  generalize (stamped.perform (.after calls)).2 = next at effect changesIff isRow unreferenced
  cases effect with
  | refused refusal =>
    exact dated_of_not_changes dated (by simp [changesIff]) isRow unreferenced
  | admitted admits =>
    by_cases isAdmitted : handle ∈ stamped.call.admitted
    · obtain ⟨fresh, isFresh, -, cursor⟩ := admits.fresh handle isAdmitted
      obtain rfl : fresh = row := Option.some.inj (isFresh.symm.trans isRow)
      rw [lastChange_snoc, if_pos (changesIff.mpr (.inl ⟨rfl, isAdmitted⟩)), cursor]
    · rw [admits.others handle isAdmitted] at isRow
      rw [MediaTables.Referenced, admits.references] at unreferenced
      exact dated_of_not_changes dated
        (by simp [changesIff, isAdmitted, admits.references]) isRow unreferenced
  | @referenced key _ isCall makes =>
    have nothingAdmitted : stamped.call.admitted = [] := by rw [isCall]; rfl
    rw [referenced_iff, not_exists] at unreferenced
    have other : handle ≠ key.handle := fun same =>
      unreferenced key ⟨same.symm, (makes.references key).mpr (.inl rfl)⟩
    rw [makes.objects] at isRow
    simp only [if_neg other, Option.map_id'] at isRow
    have same : ∀ given : MediaReferenceKey, given.handle = handle →
        (next.references.has given = (MediaTables.after calls).references.has given) := by
      intro given atHandle
      have differs : given ≠ key := fun equal => other (by rw [← atHandle, equal])
      rw [Bool.eq_iff_iff, makes.references]
      simp [differs]
    refine dated_of_not_changes dated ?_ isRow ?_
    · rw [changesIff, nothingAdmitted]
      rintro (⟨-, impossible⟩ | ⟨given, atHandle, differs⟩)
      · exact absurd impossible List.not_mem_nil
      · exact differs (same given atHandle)
    · rw [referenced_iff]
      rintro ⟨given, atHandle, has⟩
      exact unreferenced given ⟨atHandle, (same given atHandle).trans has⟩
  | @removed runId _ _ isCall removes =>
    have nothingAdmitted : stamped.call.admitted = [] := by rw [isCall]; rfl
    rw [removes.objects] at isRow
    obtain ⟨earlier, isEarlier, isSet⟩ := Option.map_eq_some_iff.mp isRow
    by_cases held : ∃ key ∈ (MediaTables.after calls).runReferences runId,
        key.handle = handle
    · rw [if_pos held] at isSet
      obtain ⟨key, isKey, atHandle⟩ := held
      obtain ⟨has, ofRun⟩ := mem_runReferences.mp isKey
      have removed : next.references.has key ≠
          (MediaTables.after calls).references.has key := by
        intro same
        exact ((removes.references key).mp (same.trans has)).2 ofRun
      rw [lastChange_snoc, if_pos (changesIff.mpr (.inr ⟨key, atHandle, removed⟩)), ← isSet]
    · rw [if_neg held] at isSet
      subst isSet
      have kept : ∀ key : MediaReferenceKey, key.handle = handle →
          (next.references.has key = (MediaTables.after calls).references.has key) := by
        intro key atHandle
        rw [Bool.eq_iff_iff, removes.references]
        refine and_iff_left_of_imp fun has ofRun => ?_
        exact held ⟨key, mem_runReferences.mpr ⟨has, ofRun⟩, atHandle⟩
      refine dated_of_not_changes dated ?_ isEarlier ?_
      · rw [changesIff, nothingAdmitted]
        rintro (⟨-, impossible⟩ | ⟨key, atHandle, differs⟩)
        · exact absurd impossible List.not_mem_nil
        · exact differs (kept key atHandle)
      · rw [referenced_iff] at unreferenced ⊢
        rintro ⟨key, atHandle, has⟩
        exact unreferenced ⟨key, atHandle, (kept key atHandle).trans has⟩
  | @reclaimed graceMs _ isCall updates =>
    have nothingAdmitted : stamped.call.admitted = [] := by rw [isCall]; rfl
    rw [updates.objects] at isRow
    obtain ⟨earlier, isEarlier, isSet⟩ := Option.map_eq_some_iff.mp isRow
    have sameCursor : row.lastReferencedAt = earlier.lastReferencedAt := by
      rw [← isSet]
      split <;> rfl
    rw [MediaTables.Referenced, updates.references] at unreferenced
    rw [sameCursor]
    exact dated_of_not_changes dated
      (by simp [changesIff, nothingAdmitted, updates.references]) isEarlier unreferenced

/-- After any calls every row is dated by its last change. -/
theorem dated_after (calls : List StampedMediaCall) : Dated calls := by
  induction calls using List.reverseRecOn with
  | nil => intro handle row isRow; simp [MediaTables.empty] at isRow
  | append_singleton calls stamped ih =>
    exact dated_snoc ih stamped

/-! ## What every call keeps -/

/-- A reclaim collects exactly the expired rows. -/
theorem collectsExactly (calls : List StampedMediaCall) (stamped : StampedMediaCall) :
    CollectsExactly calls stamped := by
  intro graceMs isCall
  obtain ⟨handles, after, commits⟩ := exists_commits_reclaimExpiredTxn
    (stamped.ts - graceMs) stamped.ts (MediaTables.after calls)
  have performed : stamped.perform (.after calls) = (.ok (.reclaimed handles), after) := by
    rw [StampedMediaCall.perform, isCall]
    simp only [transaction_ok_iff.mpr commits]
    rfl
  obtain ⟨rfl, updates⟩ := updates_of_reclaimExpiredTxn commits
  rw [performed]
  refine ⟨_, rfl, fun handle => ?_, updates.objects⟩
  rw [mem_expired]
  constructor
  · rintro ⟨row, isRow, live, expired, unreferenced⟩
    exact ⟨⟨row, isRow, live⟩, unreferenced, row.lastReferencedAt,
      dated_after calls handle row isRow unreferenced, expired⟩
  · rintro ⟨⟨row, isRow, live⟩, unreferenced, change, isChange, expired⟩
    have cursor := dated_after calls handle row isRow unreferenced
    obtain rfl : change = row.lastReferencedAt :=
      Option.some.inj (isChange.symm.trans cursor)
    exact ⟨row, isRow, live, expired, unreferenced⟩

/-- A removal takes exactly the references it names. -/
theorem removesExactly (calls : List StampedMediaCall) (stamped : StampedMediaCall) :
    RemovesExactly calls stamped := by
  intro runId isCall
  obtain ⟨changes, after, commits⟩ := exists_commits_removeRunReferencesTxn
    runId stamped.ts (MediaTables.after calls)
  have performed : stamped.perform (.after calls) = (.ok (.removed changes), after) := by
    rw [StampedMediaCall.perform, isCall]
    simp only [transaction_ok_iff.mpr commits]
    rfl
  rw [performed]
  exact (removedRun_of_removeRunReferencesTxn commits).references

/-- A refused call leaves the tables as they were. -/
theorem refusesWhole (calls : List StampedMediaCall) (stamped : StampedMediaCall) :
    RefusesWhole calls stamped := by
  intro refusal refused
  have effect := media_effect stamped (.after calls)
  rw [refused] at effect
  generalize (stamped.perform (.after calls)).2 = next at effect
  cases effect with
  | refused => rfl

/-- A call never changes what a row says of its bytes. -/
theorem MediaEffect.keepsIdentity
    {before after : MediaTables} {outcome : Except MediaRefusal MediaAnswer}
    (effect : MediaEffect stamped before outcome after) :
    KeepsIdentity before after := by
  cases effect with
  | refused => exact .refl before
  | admitted admits => exact admits.identity
  | referenced isCall makes =>
    intro handle row isRow
    rw [makes.objects, isRow]
    refine ⟨_, rfl, ?_⟩
    split <;> exact ⟨rfl, rfl, rfl, .inr rfl⟩
  | removed isCall removes =>
    intro handle row isRow
    rw [removes.objects, isRow]
    refine ⟨_, rfl, ?_⟩
    split <;> exact ⟨rfl, rfl, rfl, .inr rfl⟩
  | reclaimed isCall updates =>
    exact updates.keepsIdentity fun row => ⟨rfl, rfl, rfl, .inr rfl⟩

theorem keepsIdentity_append (before between : List StampedMediaCall) :
    KeepsIdentity (.after before) (.after (before ++ between)) := by
  induction between using List.reverseRecOn with
  | nil =>
    rw [List.append_nil]
    exact .refl _
  | append_singleton between stamped ih =>
    rw [← List.append_assoc, MediaTables.after_snoc]
    exact ih.trans (media_effect stamped _).keepsIdentity

/-! ## Referenced objects are live -/

/-- A call that makes no reference to a collected object keeps referenced
objects live. -/
theorem MediaEffect.referencedLive
    {before after : MediaTables} {outcome : Except MediaRefusal MediaAnswer}
    (effect : MediaEffect stamped before outcome after) (live : before.ReferencedLive)
    (toLive : ∀ key row, stamped.call = .addReference key →
      before.objects.get key.handle = some row → row.deletedAt = none) :
    after.ReferencedLive := by
  intro handle row isRow referenced
  cases effect with
  | refused => exact live handle row isRow referenced
  | admitted admits =>
    by_cases isAdmitted : handle ∈ stamped.call.admitted
    · obtain ⟨fresh, isFresh, isLive, -⟩ := admits.fresh handle isAdmitted
      obtain rfl : fresh = row := Option.some.inj (isFresh.symm.trans isRow)
      exact isLive
    · rw [admits.others handle isAdmitted] at isRow
      rw [MediaTables.Referenced, admits.references] at referenced
      exact live handle row isRow referenced
  | @referenced key _ isCall makes =>
    rw [makes.objects] at isRow
    obtain ⟨earlier, isEarlier, rfl⟩ := Option.map_eq_some_iff.mp isRow
    split
    · rename_i isHandle
      subst isHandle
      exact toLive key earlier isCall isEarlier
    · rename_i other
      obtain ⟨given, atHandle, has⟩ := referenced_iff.mp referenced
      obtain equal | held := (makes.references given).mp has
      · exact absurd (by rw [← atHandle, equal]) other
      · exact live handle earlier isEarlier (referenced_iff.mpr ⟨given, atHandle, held⟩)
  | removed isCall removes =>
    rw [removes.objects] at isRow
    obtain ⟨earlier, isEarlier, rfl⟩ := Option.map_eq_some_iff.mp isRow
    obtain ⟨key, atHandle, has⟩ := referenced_iff.mp referenced
    have isLive := live handle earlier isEarlier
      (referenced_iff.mpr ⟨key, atHandle, ((removes.references key).mp has).1⟩)
    split <;> exact isLive
  | @reclaimed graceMs _ isCall updates =>
    rw [MediaTables.Referenced, updates.references] at referenced
    rw [updates.objects] at isRow
    obtain ⟨earlier, isEarlier, rfl⟩ := Option.map_eq_some_iff.mp isRow
    split
    · rename_i isExpired
      obtain ⟨_, _, _, _, unreferenced⟩ := mem_expired.mp isExpired
      exact absurd referenced unreferenced
    · exact live handle earlier isEarlier referenced

theorem referencedLive_after (toLive : ReferencesLiveObjects calls) :
    (MediaTables.after calls).ReferencedLive := by
  induction calls using List.reverseRecOn with
  | nil => intro handle row isRow; simp [MediaTables.empty] at isRow
  | append_singleton calls stamped ih =>
    rw [MediaTables.after_snoc]
    refine (media_effect stamped _).referencedLive (ih ?_) ?_
    · rintro before other rest rfl
      exact toLive before other (rest ++ [stamped]) (by simp)
    · exact toLive calls stamped [] rfl

theorem not_referencedLive_of_addReference
    {before : MediaTables} {key : MediaReferenceKey} {row : MediaObjectRow}
    (isCall : stamped.call = .addReference key) (isRow : before.objects.get key.handle = some row)
    (collected : row.deletedAt ≠ none) :
    ¬(stamped.perform before).2.ReferencedLive := by
  obtain ⟨after, commits⟩ : ∃ after,
      Commits (addReferenceTxn key stamped.ts) before () after := by
    have present : before.objects.has key.handle = true :=
      (OrderedMap.has_iff _ _).mpr ⟨row, isRow⟩
    by_cases held : before.references.has key = true
    · simp [addReferenceTxn, insertReference, held]
    · simp [addReferenceTxn, insertReference, held, present]
  have performed : (stamped.perform before).2 = after := by
    rw [StampedMediaCall.perform, isCall]
    simp only [answering, transaction_ok_iff.mpr commits]
  have makes := madeReference_of_addReferenceTxn commits
  intro live
  rw [performed] at live
  refine collected (live key.handle { row with lastReferencedAt := stamped.ts } ?_ ?_)
  · rw [makes.objects, isRow]
    simp
  · exact referenced_iff.mpr ⟨key, rfl, (makes.references key).mpr (.inl rfl)⟩

/-- The store keeps its ledger over exactly those sequences of calls in which no
reference is made to an object that is soft-deleted at that time. -/
theorem keepsLedger_iff (calls : List StampedMediaCall) :
    KeepsLedger calls ↔ ReferencesLiveObjects calls := by
  constructor
  · rintro ledger before stamped after rfl key row isCall isRow
    by_contra collected
    refine not_referencedLive_of_addReference isCall isRow collected ?_
    rw [← MediaTables.after_snoc]
    exact ledger.referencedLive _ after (by simp)
  · intro toLive
    refine ⟨?_, fun before stamped _ _ => collectsExactly before stamped,
      fun before stamped _ _ => removesExactly before stamped,
      fun before between _ _ => keepsIdentity_append before between,
      fun before stamped _ _ => refusesWhole before stamped⟩
    rintro before after rfl
    refine referencedLive_after fun earlier stamped later equal => ?_
    exact toLive earlier stamped (later ++ after) (by rw [equal]; simp)

/-- The handle of a digest of zeros. -/
def zeroHandle : JsString :=
  jsText "media://sha256-" ++ List.replicate 64 48

/-- A descriptor of that handle. -/
def zeroDescriptor : DescriptorInput :=
  .object {
    handle := .data (.string zeroHandle)
    mimeType := .data (.string (jsText "image/png"))
    modality := .data (.string (jsText "image"))
    byteLength := .data (.number (.integer 4))
    durationMs := .absent }

/-- A reference that comes after the collection of its object: the object was
recorded and collected within one millisecond, with no grace time. -/
def referenceAfterCollection : List StampedMediaCall :=
  [{ ts := 1, call := .recordObject zeroDescriptor },
    { ts := 1, call := .reclaimExpired 0 },
    { ts := 2
      call := .addReference
        { handle := zeroHandle, scopeKind := .session, scopeId := jsText "s" } }]

/-- The referenced object stays soft-deleted. -/
theorem referenced_object_collected : ¬KeepsLedger referenceAfterCollection := by
  intro ledger
  have live := ledger.referencedLive referenceAfterCollection [] (List.append_nil _).symm
  have collected :
      ((MediaTables.after referenceAfterCollection).objects.entries.any fun entry =>
        decide (entry.2.deletedAt ≠ none ∧
          (MediaTables.after referenceAfterCollection).Referenced entry.1)) = true := by
    decide
  obtain ⟨⟨handle, row⟩, isEntry, holds⟩ := List.any_eq_true.mp collected
  obtain ⟨deleted, referenced⟩ := of_decide_eq_true holds
  exact deleted (live handle row ((OrderedMap.mem_entries_iff _ _ _).mp isEntry) referenced)

end Relavium.Store
