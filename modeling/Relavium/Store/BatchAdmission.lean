import Relavium.Shared.MediaReconciliation
import Relavium.Store.MediaRetention

/-!
# Admission in any order

A batch of descriptors is admitted when its descriptors agree with one another
and with what the store holds.  What an admission leaves behind is described by
the descriptors that took part, not by their order, so a batch, its permutations
and its descriptors one at a time all lead to the same store.
-/

namespace Relavium.Store

open Library
open Library.Statements
open Shared

/-- A valid media descriptor: a value that admission takes. -/
structure ValidDescriptor where
  input : DescriptorInput
  admitted : DurableMediaMeta
  isAdmitted : admitMediaDescriptor input = .ok admitted

/-- A picture under an alias of its type. -/
def jpegDescriptor : ValidDescriptor where
  input := .object
    { handle := .data (.string (jsText "media://sha256-" ++ List.replicate 64 48))
      mimeType := .data (.string (jsText "image/jpg"))
      modality := .data (.string (jsText "image"))
      byteLength := .data (.number (.integer 3))
      durationMs := .absent }
  admitted :=
    { handle := jsText "media://sha256-" ++ List.replicate 64 48
      mimeType := .imageJpeg
      modality := .image
      byteLength := .ofNat 3 (by decide)
      durationMs := none }
  isAdmitted := by rfl

/-- A list of valid descriptors as a batch. -/
def batchOf (list : List ValidDescriptor) : DescriptorBatch :=
  .array (list.map fun descriptor => .data descriptor.input)

/-- What the descriptors of a list say. -/
def admittedOf (list : List ValidDescriptor) : List DurableMediaMeta :=
  list.map ValidDescriptor.admitted

/-- A stored object agrees with a descriptor of its handle. -/
structure AgreesWithRow (row : MediaObjectRow)
    (item : DurableMediaMeta) : Prop where
  mimeType : canonicalMediaMimeType row.mimeType = .ok item.mimeType
  modality : row.modality = item.modality
  byteLength : row.byteLength = item.byteLength
  durationMs : ¬durationsDisagree row.durationMs item.durationMs

/-- Descriptors agree with the objects that are stored under their handles. -/
def AgreesWithStore (given : List DurableMediaMeta)
    (tables : MediaTables) : Prop :=
  ∀ item ∈ given, ∀ row, tables.objects.get item.handle = some row →
    AgreesWithRow row item

/-- The descriptors of each handle agree pairwise, and with the stored row if
there is one. -/
structure Compatible (given : List DurableMediaMeta)
    (tables : MediaTables) : Prop where
  pairwise : PairwiseAgree given
  stored : AgreesWithStore given tables

/-- Two stores with the same objects and the same references. -/
structure SameStore (first second : MediaTables) : Prop where
  objects : ∀ handle, first.objects.get handle = second.objects.get handle
  references : first.references = second.references

/-! ## One row -/

variable
  {item : DurableMediaMeta}
  {row : MediaObjectRow}

theorem AgreesWithRow.durationMs_eq
    (agrees : AgreesWithRow row item) (rowStates : row.durationMs ≠ none)
    (itemStates : item.durationMs ≠ none) :
    row.durationMs = item.durationMs := by
  by_contra different
  exact agrees.durationMs ⟨rowStates, itemStates, different⟩

/-- A row that agrees with a descriptor agrees with what the descriptor can stand
for. -/
theorem AgreesWithRow.trans
    {item other : DurableMediaMeta} (agrees : AgreesWithRow row item) (agree : Agree other item)
    (stated : other.durationMs ≠ none → item.durationMs = other.durationMs) :
    AgreesWithRow row other where
  mimeType := by rw [agree.mimeType]; exact agrees.mimeType
  modality := agrees.modality.trans agree.modality.symm
  byteLength := agrees.byteLength.trans agree.byteLength.symm
  durationMs := by
    intro disagree
    rw [← stated disagree.2.1] at disagree
    exact agrees.durationMs disagree

/-- A descriptor agrees with a new row when it agrees with the one inserted. -/
theorem agreesWithRow_newObjectRow {head item : DurableMediaMeta} {ts : Int} :
    AgreesWithRow (newObjectRow head ts) item ↔ Agree head item := by
  constructor
  · intro agrees
    exact ⟨by simpa [newObjectRow] using agrees.mimeType, agrees.modality,
      agrees.byteLength, agrees.durationMs⟩
  · intro agree
    exact ⟨by simp [newObjectRow, agree.mimeType], agree.modality, agree.byteLength,
      agree.durationMs⟩

theorem readmittedRow_durationMs (row : MediaObjectRow) (head : DurableMediaMeta) (ts : Int) :
    (readmittedRow row head ts).durationMs = row.durationMs.or head.durationMs := by
  unfold readmittedRow
  cases stored : row.durationMs with
  | none => cases stated : head.durationMs <;> simp
  | some duration => simp

variable
  {ts : Int}

/-- A row that is admitted again agrees with what agrees with the row and with the
descriptor. -/
theorem agreesWithRow_readmittedRow
    {head item : DurableMediaMeta} (agrees : AgreesWithRow row head) :
    AgreesWithRow (readmittedRow row head ts) item ↔
      AgreesWithRow row item ∧ Agree head item := by
  constructor
  · intro readmitted
    have mimeType : head.mimeType = item.mimeType := by
      simpa [readmittedRow] using readmitted.mimeType
    have durationMs := readmitted.durationMs
    rw [readmittedRow_durationMs] at durationMs
    refine ⟨⟨by rw [← mimeType]; exact agrees.mimeType, readmitted.modality,
      readmitted.byteLength, ?_⟩,
      ⟨mimeType, agrees.modality.symm.trans readmitted.modality,
        agrees.byteLength.symm.trans readmitted.byteLength, ?_⟩⟩
    · cases stored : row.durationMs with
      | none => simp
      | some duration => simpa [stored] using durationMs
    · intro disagree
      cases stored : row.durationMs with
      | none => exact durationMs (by simpa [stored] using disagree)
      | some duration =>
        have same := agrees.durationMs_eq (by simp [stored]) disagree.1
        rw [← same, stored] at disagree
        exact durationMs (by simpa [stored] using disagree)
  · rintro ⟨rowAgrees, agree⟩
    refine ⟨by simp [readmittedRow, agree.mimeType], rowAgrees.modality,
      rowAgrees.byteLength, ?_⟩
    rw [readmittedRow_durationMs]
    cases stored : row.durationMs with
    | none => simpa using agree.durationMs
    | some duration => simpa [stored] using rowAgrees.durationMs

/-! ## One descriptor -/

/-- The row of a handle after the admission of a descriptor. -/
def rowAfter (existing : Option MediaObjectRow) (item : DurableMediaMeta)
    (ts : Int) : MediaObjectRow :=
  match existing with
  | none => newObjectRow item ts
  | some row => readmittedRow row item ts

/-- A descriptor is admitted when the stored row agrees with it, and its row is
written. -/
theorem commits_admitOne {before after : MediaTables} :
    Commits (admitOne ts item) before () after ↔
      AgreesWithStore [item] before ∧
        { before with
          objects := before.objects.set item.handle
            (rowAfter (before.objects.get item.handle) item ts) } = after := by
  unfold admitOne AgreesWithStore
  rw [commits_bind]
  simp only [commits_select, List.mem_singleton, forall_eq]
  constructor
  · rintro ⟨found, middle, ⟨rfl, rfl⟩, branch⟩
    cases existing : before.objects.get item.handle with
    | none =>
      rw [existing] at branch
      exact ⟨by simp, by simpa [rowAfter] using commits_update.mp branch⟩
    | some row =>
      rw [existing] at branch
      simp only [commits_bind, commits_ofExcept, commits_require, commits_update,
        mapError_eq_ok] at branch
      obtain ⟨mimeType, _, ⟨canonical, rfl⟩, _, _, ⟨agrees, rfl⟩, rfl⟩ := branch
      obtain ⟨rfl, modality, byteLength, durationMs⟩ := agrees
      exact ⟨fun other isOther =>
        Option.some.inj isOther ▸ ⟨canonical, modality, byteLength, durationMs⟩, rfl⟩
  · rintro ⟨agrees, rfl⟩
    refine ⟨_, before, ⟨rfl, rfl⟩, ?_⟩
    cases existing : before.objects.get item.handle with
    | none => exact commits_update.mpr rfl
    | some row =>
      have rowAgrees := agrees row existing
      simp only [commits_bind, commits_ofExcept, commits_require, commits_update, mapError_eq_ok]
      exact ⟨item.mimeType, before, ⟨rowAgrees.mimeType, rfl⟩, (), before,
        ⟨⟨rfl, rowAgrees.modality, rowAgrees.byteLength, rowAgrees.durationMs⟩, rfl⟩,
        rfl⟩

variable
  {existing : Option MediaObjectRow}

/-- Agreeing with the row written is agreeing with the old row and the head. -/
theorem agreesWithRow_rowAfter
    {head item : DurableMediaMeta}
    (agrees : ∀ row, existing = some row → AgreesWithRow row head) :
    AgreesWithRow (rowAfter existing head ts) item ↔
      (∀ row, existing = some row → AgreesWithRow row item) ∧ Agree head item := by
  cases existing with
  | none => simpa [rowAfter] using agreesWithRow_newObjectRow
  | some row => simpa [rowAfter] using agreesWithRow_readmittedRow (agrees row rfl)

/-- After the admission of its first descriptor, the rest of a list can be admitted
when the whole list could be. -/
theorem compatible_cons_iff
    {head : DurableMediaMeta} {rest : List DurableMediaMeta} {before middle : MediaTables}
    (commits : Commits (admitOne ts head) before () middle) :
    Compatible rest middle ↔ Compatible (head :: rest) before := by
  obtain ⟨headStored, rfl⟩ := commits_admitOne.mp commits
  have headAgrees := headStored head (by simp)
  constructor
  · rintro ⟨pairwise, stored⟩
    have both : ∀ item ∈ rest, item.handle = head.handle →
        (∀ row, before.objects.get head.handle = some row → AgreesWithRow row item) ∧
          Agree head item := by
      intro item isRest sameHandle
      exact (agreesWithRow_rowAfter headAgrees).mp
        (stored item isRest _ (by rw [sameHandle, OrderedMap.get_set_self]))
    constructor
    · intro first isFirst second isSecond sameHandle
      obtain rfl | firstRest := List.mem_cons.mp isFirst
      · obtain rfl | secondRest := List.mem_cons.mp isSecond
        · exact ⟨rfl, rfl, rfl, by simp⟩
        · exact (both second secondRest sameHandle.symm).2
      · obtain rfl | secondRest := List.mem_cons.mp isSecond
        · exact (both first firstRest sameHandle).2.symm
        · exact pairwise first firstRest second secondRest sameHandle
    · intro item isItem row isRow
      obtain rfl | itemRest := List.mem_cons.mp isItem
      · exact headAgrees row isRow
      · by_cases sameHandle : item.handle = head.handle
        · rw [sameHandle] at isRow
          exact (both item itemRest sameHandle).1 row isRow
        · exact stored item itemRest row
            (by rw [OrderedMap.get_set_of_ne _ sameHandle]; exact isRow)
  · rintro ⟨pairwise, stored⟩
    constructor
    · intro first isFirst second isSecond
      exact pairwise first (by simp [isFirst]) second (by simp [isSecond])
    · intro item isItem row isRow
      rw [OrderedMap.get_set] at isRow
      split at isRow
      · rename_i sameHandle
        cases isRow
        refine (agreesWithRow_rowAfter headAgrees).mpr ⟨fun existing isExisting => ?_, ?_⟩
        · exact stored item (by simp [isItem]) existing (by rw [sameHandle]; exact isExisting)
        · exact pairwise head (by simp) item (by simp [isItem]) sameHandle.symm
      · exact stored item (by simp [isItem]) row isRow

variable
  {given : List DurableMediaMeta}

/-- A list of descriptors is admitted, one after another, when they are compatible. -/
theorem exists_commits_admitBatchTxn_iff {before : MediaTables} :
    (∃ after, Commits (admitBatchTxn given ts) before () after) ↔
      Compatible given before := by
  induction given generalizing before with
  | nil =>
    constructor
    · intro _
      exact ⟨by simp [PairwiseAgree], by simp [AgreesWithStore]⟩
    · intro _
      exact ⟨before, commits_pure.mpr ⟨rfl, rfl⟩⟩
  | cons head rest ih =>
    constructor
    · rintro ⟨after, commits⟩
      obtain ⟨_, middle, first, remaining⟩ := commits_bind.mp commits
      exact (compatible_cons_iff first).mp (ih.mp ⟨after, remaining⟩)
    · intro compatible
      have first : Commits (admitOne ts head) before () _ :=
        commits_admitOne.mpr ⟨fun item isHead => compatible.stored item
          (by simp [List.mem_singleton.mp isHead]), rfl⟩
      obtain ⟨after, remaining⟩ :=
        ih.mpr ((compatible_cons_iff first).mpr compatible)
      exact ⟨after, commits_bind.mpr ⟨(), _, first, remaining⟩⟩

/-! ## What an admission leaves behind -/

/-- A row as the admission of a descriptor of its handle leaves it, up to the
duration. -/
structure RowOf (ts : Int) (existing : Option MediaObjectRow) (item : DurableMediaMeta)
    (row : MediaObjectRow) : Prop where
  mimeType : row.mimeType = item.mimeType.text
  modality : row.modality = item.modality
  byteLength : row.byteLength = item.byteLength
  lastReferencedAt : row.lastReferencedAt = ts
  deletedAt : row.deletedAt = none
  createdAt : row.createdAt = (existing.map MediaObjectRow.createdAt).getD ts

/-- The stored row of a handle or one of the descriptors states a duration. -/
def States (existing : Option MediaObjectRow) (given : List DurableMediaMeta) (handle : JsString)
    (duration : SafeAmount) : Prop :=
  (∃ row, existing = some row ∧ row.durationMs = some duration) ∨
    ∃ item ∈ given, item.handle = handle ∧ item.durationMs = some duration

/-- The store after the admission of descriptors, whatever their order was. -/
structure AdmittedAs (given : List DurableMediaMeta) (ts : Int)
    (before after : MediaTables) : Prop where
  references : after.references = before.references
  others : ∀ handle, (∀ item ∈ given, item.handle ≠ handle) →
    after.objects.get handle = before.objects.get handle
  rows : ∀ item ∈ given, ∃ row, after.objects.get item.handle = some row ∧
    RowOf ts (before.objects.get item.handle) item row
  durations : ∀ handle row, after.objects.get handle = some row →
    ∀ duration, row.durationMs = some duration ↔
      States (before.objects.get handle) given handle duration

theorem RowOf.eq
    {row other : MediaObjectRow} (rowOf : RowOf ts existing item row)
    (otherOf : RowOf ts existing item other) (durationMs : row.durationMs = other.durationMs) :
    row = other := by
  cases row
  cases other
  rw [MediaObjectRow.mk.injEq]
  exact ⟨rowOf.mimeType.trans otherOf.mimeType.symm, rowOf.modality.trans otherOf.modality.symm,
    rowOf.byteLength.trans otherOf.byteLength.symm, durationMs,
    rowOf.lastReferencedAt.trans otherOf.lastReferencedAt.symm,
    rowOf.deletedAt.trans otherOf.deletedAt.symm,
    rowOf.createdAt.trans otherOf.createdAt.symm⟩

/-- The row that an admission writes is a row of its descriptor. -/
theorem rowOf_rowAfter (agrees : ∀ row, existing = some row → AgreesWithRow row item) :
    RowOf ts existing item (rowAfter existing item ts) := by
  cases existing with
  | none => exact ⟨rfl, rfl, rfl, rfl, rfl, rfl⟩
  | some row =>
    exact ⟨rfl, (agrees row rfl).modality, (agrees row rfl).byteLength, rfl, rfl, rfl⟩

/-- The row written states a duration when the old row or the item does. -/
theorem rowAfter_durationMs
    (agrees : ∀ row, existing = some row → AgreesWithRow row item) (duration : SafeAmount) :
    (rowAfter existing item ts).durationMs = some duration ↔
      States existing [item] item.handle duration := by
  unfold States
  cases existing with
  | none => simp [rowAfter, newObjectRow]
  | some row =>
    simp only [rowAfter, readmittedRow_durationMs, Option.some.injEq, exists_eq_left',
      List.mem_singleton, exists_eq_left, true_and]
    cases stored : row.durationMs with
    | none => simp
    | some known =>
      simp only [Option.some_or, Option.some.injEq]
      constructor
      · exact .inl
      · rintro (same | stated)
        · exact same
        · have equal := (agrees row rfl).durationMs_eq (by simp [stored])
            (by simp [stated])
          rw [stored, stated] at equal
          exact Option.some.inj equal

variable
  {before after : MediaTables}

/-- The admission of one descriptor. -/
theorem admittedAs_of_admitOne (commits : Commits (admitOne ts item) before () after) :
    AdmittedAs [item] ts before after := by
  obtain ⟨stored, rfl⟩ := commits_admitOne.mp commits
  have agrees := stored item (by simp)
  constructor
  · rfl
  · intro handle notHandle
    exact OrderedMap.get_set_of_ne _ (Ne.symm (notHandle item (by simp))) _
  · intro other isItem
    obtain rfl := List.mem_singleton.mp isItem
    exact ⟨_, OrderedMap.get_set_self .., rowOf_rowAfter agrees⟩
  · intro handle row isRow duration
    rw [OrderedMap.get_set] at isRow
    split at isRow
    · rename_i sameHandle
      subst sameHandle
      cases isRow
      exact rowAfter_durationMs agrees duration
    · next different => simp [States, isRow, Ne.symm different]

namespace AdmittedAs

theorem createdAt
    {given : List DurableMediaMeta} {ts : Int} {before after : MediaTables}
    (admitted : AdmittedAs given ts before after) (handle : JsString) :
    ((after.objects.get handle).map MediaObjectRow.createdAt).getD ts =
      ((before.objects.get handle).map MediaObjectRow.createdAt).getD ts := by
  by_cases isGiven : ∃ item ∈ given, item.handle = handle
  · obtain ⟨item, isItem, rfl⟩ := isGiven
    obtain ⟨row, isRow, rowOf⟩ := admitted.rows item isItem
    rw [isRow, ← rowOf.createdAt]
    rfl
  · rw [admitted.others handle (by simpa using isGiven)]

/-- What states a duration after an admission, and in what comes after it. -/
theorem states_append
    {first second : List DurableMediaMeta} {ts : Int} {before middle : MediaTables}
    (admitted : AdmittedAs first ts before middle) (handle : JsString) (duration : SafeAmount) :
    States (middle.objects.get handle) second handle duration ↔
      States (before.objects.get handle) (first ++ second) handle duration := by
  cases found : middle.objects.get handle with
  | some row =>
    have stated := admitted.durations handle row found duration
    unfold States at stated ⊢
    simp only [Option.some.injEq, exists_eq_left', List.mem_append, stated]
    grind
  | none =>
    have notGiven : ∀ item ∈ first, item.handle ≠ handle := by
      rintro item isItem rfl
      obtain ⟨row, isRow, -⟩ := admitted.rows item isItem
      rw [found] at isRow
      cases isRow
    rw [← admitted.others handle notGiven, found]
    unfold States
    simp only [List.mem_append]
    grind

/-- One admission after another, when the later descriptors agree with what the
earlier ones left. -/
theorem append
    {first second : List DurableMediaMeta} {ts : Int} {before middle after : MediaTables}
    (earlier : AdmittedAs first ts before middle) (later : AdmittedAs second ts middle after)
    (agrees : AgreesWithStore second middle) :
    AdmittedAs (first ++ second) ts before after := by
  constructor
  · exact later.references.trans earlier.references
  · intro handle notGiven
    exact (later.others handle fun item isItem => notGiven item (by simp [isItem])).trans
      (earlier.others handle fun item isItem => notGiven item (by simp [isItem]))
  · intro item isItem
    by_cases again : ∃ other ∈ second, other.handle = item.handle
    · obtain ⟨other, isOther, sameHandle⟩ := again
      obtain ⟨row, isRow, rowOf⟩ := later.rows other isOther
      rw [sameHandle] at isRow rowOf
      refine ⟨row, isRow, ?_⟩
      have createdAt := rowOf.createdAt.trans (earlier.createdAt item.handle)
      obtain isFirst | isSecond := List.mem_append.mp isItem
      · -- Both descriptors say of the row between them what they say of the object.
        obtain ⟨between, isBetween, betweenOf⟩ := earlier.rows item isFirst
        have agree := agrees other isOther between (by rw [sameHandle]; exact isBetween)
        have sameMime : item.mimeType = other.mimeType := by
          simpa [betweenOf.mimeType] using agree.mimeType
        exact ⟨by rw [rowOf.mimeType, sameMime],
          rowOf.modality.trans (agree.modality.symm.trans betweenOf.modality),
          rowOf.byteLength.trans (agree.byteLength.symm.trans betweenOf.byteLength),
          rowOf.lastReferencedAt, rowOf.deletedAt, createdAt⟩
      · obtain ⟨same, isSame, sameOf⟩ := later.rows item isSecond
        cases isRow.symm.trans isSame
        exact { sameOf with createdAt := createdAt }
    · have isFirst : item ∈ first :=
        (List.mem_append.mp isItem).resolve_right fun isSecond => again ⟨item, isSecond, rfl⟩
      rw [later.others item.handle (by simpa using again)]
      exact earlier.rows item isFirst
  · intro handle row isRow duration
    rw [later.durations handle row isRow duration]
    exact earlier.states_append handle duration

/-- The admission of the same descriptors leaves the same store. -/
theorem sameStore
    {given other : List DurableMediaMeta} {ts : Int} {before first second : MediaTables}
    (admitted : AdmittedAs given ts before first)
    (otherAdmitted : AdmittedAs other ts before second)
    (sameMembers : ∀ item, item ∈ given ↔ item ∈ other) :
    SameStore first second where
  references := admitted.references.trans otherAdmitted.references.symm
  objects handle := by
    by_cases isGiven : ∃ item ∈ given, item.handle = handle
    · obtain ⟨item, isItem, rfl⟩ := isGiven
      obtain ⟨row, isRow, rowOf⟩ := admitted.rows item isItem
      obtain ⟨otherRow, isOther, otherOf⟩ :=
        otherAdmitted.rows item ((sameMembers item).mp isItem)
      have durationMs : row.durationMs = otherRow.durationMs := by
        ext duration
        rw [admitted.durations _ _ isRow, otherAdmitted.durations _ _ isOther]
        simp only [States, sameMembers]
      rw [isRow, isOther, rowOf.eq otherOf durationMs]
    · have notGiven : ∀ item ∈ given, item.handle ≠ handle := by simpa using isGiven
      rw [admitted.others handle notGiven, otherAdmitted.others handle fun item isOther =>
        notGiven item ((sameMembers item).mpr isOther)]

end AdmittedAs

/-- A committed batch leaves the rows its descriptors name. -/
theorem admittedAs_of_admitBatchTxn (commits : Commits (admitBatchTxn given ts) before () after) :
    AdmittedAs given ts before after := by
  induction given generalizing before with
  | nil =>
    obtain ⟨-, rfl⟩ := commits_pure.mp commits
    refine ⟨rfl, fun _ _ => rfl, by simp, ?_⟩
    intro handle row isRow duration
    simp [States, isRow]
  | cons head rest ih =>
    obtain ⟨_, middle, first, remaining⟩ := commits_bind.mp commits
    have compatible := exists_commits_admitBatchTxn_iff.mp ⟨after, remaining⟩
    exact (admittedAs_of_admitOne first).append (ih remaining) compatible.stored

/-! ## The representatives of a batch -/

/-- A batch is compatible with a store when its representatives are. -/
theorem compatible_values_iff
    {result : OrderedMap JsString DurableMediaMeta} (represents : Represents given result)
    (tables : MediaTables) :
    Compatible result.values tables ↔ Compatible given tables := by
  constructor
  · intro compatible
    refine ⟨represents.pairwiseAgree, fun item isItem row isRow => ?_⟩
    obtain ⟨representative, isValue, sameHandle, agree, stated⟩ := represents.stated isItem
    exact (compatible.stored representative isValue row (by rw [sameHandle]; exact isRow)).trans
      agree stated
  · rintro ⟨pairwise, stored⟩
    exact ⟨fun first isFirst second isSecond =>
      pairwise first (represents.mem_of_mem_values isFirst)
        second (represents.mem_of_mem_values isSecond),
      fun item isItem => stored item (represents.mem_of_mem_values isItem)⟩

/-- The admission of the representatives is the admission of the batch. -/
theorem admittedAs_of_values
    {result : OrderedMap JsString DurableMediaMeta} (represents : Represents given result)
    (admitted : AdmittedAs result.values ts before after) :
    AdmittedAs given ts before after where
  references := admitted.references
  others handle notGiven := by
    exact admitted.others handle fun item isItem =>
      notGiven item (represents.mem_of_mem_values isItem)
  rows item isItem := by
    obtain ⟨representative, isValue, sameHandle, agree, -⟩ := represents.stated isItem
    obtain ⟨row, isRow, rowOf⟩ := admitted.rows representative isValue
    rw [sameHandle] at isRow rowOf
    exact ⟨row, isRow, rowOf.mimeType.trans (by rw [agree.mimeType]),
      rowOf.modality.trans agree.modality.symm,
      rowOf.byteLength.trans agree.byteLength.symm, rowOf.lastReferencedAt, rowOf.deletedAt,
      rowOf.createdAt⟩
  durations handle row isRow duration := by
    rw [admitted.durations handle row isRow duration]
    unfold States
    constructor
    · rintro (stored | ⟨item, isItem, isHandle, stated⟩)
      · exact .inl stored
      · exact .inr ⟨item, represents.mem_of_mem_values isItem, isHandle, stated⟩
    · rintro (stored | ⟨item, isItem, isHandle, stated⟩)
      · exact .inl stored
      · obtain ⟨representative, isValue, sameHandle, -, same⟩ := represents.stated isItem
        exact .inr ⟨representative, isValue, sameHandle.trans isHandle,
          (same (by simp [stated])).trans stated⟩

/-! ## The calls of the store -/

theorem mapM_admitSlot_batchOf (list : List ValidDescriptor) :
    (list.map fun descriptor => OwnProperty.data descriptor.input).mapM admitSlot =
      .ok (admittedOf list) := by
  induction list with
  | nil => rfl
  | cons descriptor rest ih =>
    have first : admitSlot (.data descriptor.input) = .ok descriptor.admitted :=
      descriptor.isAdmitted
    simp only [List.map_cons, List.mapM_cons, first, ih]
    rfl

/-- Reconciling well-formed descriptors folds them one by one. -/
theorem reconcileMediaDescriptors_batchOf (list : List ValidDescriptor) :
    reconcileMediaDescriptors (batchOf list) =
      ((admittedOf list).foldlM reconcileOne .empty).map OrderedMap.values := by
  unfold reconcileMediaDescriptors batchOf
  simp only [mapM_admitSlot_batchOf]
  rfl

variable
  {list : List ValidDescriptor}

/-- An admission succeeds when its batch has representatives and their transaction
commits. -/
theorem admitProducedMedia_ok_iff {before after : MediaTables} :
    admitProducedMedia (batchOf list) ts before = (.ok (), after) ↔
      ∃ result, (admittedOf list).foldlM reconcileOne .empty = .ok result ∧
        Commits (admitBatchTxn result.values ts) before () after := by
  unfold admitProducedMedia
  rw [reconcileMediaDescriptors_batchOf]
  cases reconciled : (admittedOf list).foldlM reconcileOne .empty with
  | error code => simp [Except.map]
  | ok result =>
    simp only [Except.map, Except.ok.injEq, exists_eq_left']
    cases owned : result.values with
    | nil =>
      unfold admitBatchTxn
      simp only [List.isEmpty_nil, if_true, Prod.mk.injEq, true_and]
      exact (commits_pure.trans (by simp)).symm
    | cons first rest => exact transaction_ok_iff

/-- An admission that fails leaves the store alone. -/
theorem tables_of_admitProducedMedia_error
    {batch : DescriptorBatch} {before : MediaTables}
    (failed : (admitProducedMedia batch ts before).1 ≠ .ok ()) :
    (admitProducedMedia batch ts before).2 = before := by
  unfold admitProducedMedia at failed ⊢
  split
  · rfl
  · rename_i owned reconciled
    simp only [reconciled] at failed
    split
    · rfl
    · rename_i nonempty
      rw [if_neg nonempty] at failed
      cases ran : transaction (admitBatchTxn owned ts) before with
      | mk outcome after =>
        cases outcome with
        | error refusal => exact tables_of_transaction_error ran
        | ok answer => simp [ran] at failed

/-- An admission succeeds when its descriptors are compatible. -/
theorem exists_admitProducedMedia_iff {before : MediaTables} :
    (∃ after, admitProducedMedia (batchOf list) ts before = (.ok (), after)) ↔
      Compatible (admittedOf list) before := by
  simp only [admitProducedMedia_ok_iff]
  constructor
  · rintro ⟨after, result, reconciled, commits⟩
    have represents : Represents (admittedOf list) result := by
      simpa using Represents.empty.run reconciled
    exact (compatible_values_iff represents before).mp
      (exists_commits_admitBatchTxn_iff.mp ⟨after, commits⟩)
  · intro compatible
    obtain ⟨result, reconciled⟩ := exists_representatives_iff.mpr compatible.pairwise
    have represents : Represents (admittedOf list) result := by
      simpa using Represents.empty.run reconciled
    obtain ⟨after, commits⟩ := exists_commits_admitBatchTxn_iff.mpr
      ((compatible_values_iff represents before).mpr compatible)
    exact ⟨after, result, reconciled, commits⟩

/-- An admitted batch of well-formed descriptors leaves the rows they name. -/
theorem admittedAs_of_admitProducedMedia
    (succeeded : admitProducedMedia (batchOf list) ts before = (.ok (), after)) :
    AdmittedAs (admittedOf list) ts before after := by
  obtain ⟨result, reconciled, commits⟩ := admitProducedMedia_ok_iff.mp succeeded
  exact admittedAs_of_values (by simpa using Represents.empty.run reconciled)
    (admittedAs_of_admitBatchTxn commits)

/-- `recordObject` on one element of a list. -/
def recordOne (descriptor : ValidDescriptor)
    (ts : Int) : MediaStatements Unit :=
  recordObject descriptor.input ts

/-- `recordObject` on the elements of a list, one at a time, up to the first that is
refused. -/
def recordEach (list : List ValidDescriptor)
    (ts : Int) : MediaStatements Unit :=
  list.forM fun descriptor => recordOne descriptor ts

/-- One object is recorded as one turn of the loop would admit it. -/
theorem commits_recordOne {descriptor : ValidDescriptor} {before after : MediaTables} :
    Commits (recordOne descriptor ts) before () after ↔
      Commits (admitOne ts descriptor.admitted) before () after := by
  have alone := @admitProducedMedia_ok_iff ts [descriptor] before after
  have represented : (admittedOf [descriptor]).foldlM reconcileOne .empty =
      .ok (OrderedMap.set .empty descriptor.admitted.handle descriptor.admitted) := rfl
  rw [represented] at alone
  simp only [Except.ok.injEq, exists_eq_left'] at alone
  refine alone.trans ?_
  have turn : admitBatchTxn [descriptor.admitted] ts =
      (do admitOne ts descriptor.admitted; pure ()) := rfl
  change Commits (admitBatchTxn [descriptor.admitted] ts) before () after ↔ _
  rw [turn, bind_pure_unit]

/-- Objects are recorded one at a time as one transaction would admit them. -/
theorem commits_recordEach {before after : MediaTables} :
    Commits (recordEach list ts) before () after ↔
      Commits (admitBatchTxn (admittedOf list) ts) before () after := by
  induction list generalizing before with
  | nil => rfl
  | cons descriptor rest ih =>
    have recorded : recordEach (descriptor :: rest) ts =
      (do recordOne descriptor ts; recordEach rest ts) := rfl
    have admitted : admitBatchTxn (admittedOf (descriptor :: rest)) ts =
      (do admitOne ts descriptor.admitted; admitBatchTxn (admittedOf rest) ts) := rfl
    rw [recorded, admitted, commits_bind, commits_bind]
    refine exists_congr fun answer => exists_congr fun middle => ?_
    cases answer
    rw [commits_recordOne, ih]

/-! ## Any order -/

theorem Compatible.of_perm
    {given other : List DurableMediaMeta} {tables : MediaTables}
    (compatible : Compatible given tables) (permuted : other.Perm given) :
    Compatible other tables where
  pairwise first isFirst second isSecond := by
    exact compatible.pairwise first (permuted.mem_iff.mp isFirst)
      second (permuted.mem_iff.mp isSecond)
  stored item isItem := compatible.stored item (permuted.mem_iff.mp isItem)

/-- The admission of a batch succeeded. -/
def Succeeds (list : List ValidDescriptor) (ts : Int)
    (tables : MediaTables) : Prop :=
  (admitProducedMedia (batchOf list) ts tables).1 = .ok ()

instance (list : List ValidDescriptor) (ts : Int) (tables : MediaTables) :
    Decidable (Succeeds list ts tables) :=
  inferInstanceAs (Decidable (_ = _))

/-- A batch is admitted when its descriptors agree with the store and one another. -/
theorem succeeds_iff {tables : MediaTables} :
    Succeeds list ts tables ↔ Compatible (admittedOf list) tables := by
  rw [← @exists_admitProducedMedia_iff ts list tables]
  constructor
  · intro succeeds
    exact ⟨_, Prod.ext succeeds rfl⟩
  · rintro ⟨after, ran⟩
    exact congrArg Prod.fst ran

/-- The order of a batch does not matter, nor whether it is admitted as a batch or
one descriptor at a time. -/
theorem admission_ignores_order (list : List ValidDescriptor) (ts : Int) (tables : MediaTables) :
    (Succeeds list ts tables ↔ Compatible (admittedOf list) tables) ∧
      (∀ order : List ValidDescriptor, order.Perm list →
        (Succeeds order ts tables ↔ Succeeds list ts tables) ∧
          SameStore (admitProducedMedia (batchOf order) ts tables).2
            (admitProducedMedia (batchOf list) ts tables).2) ∧
      (Succeeds list ts tables → ∀ order : List ValidDescriptor, order.Perm list →
        (recordEach order ts tables).1 = .ok () ∧
          SameStore (recordEach order ts tables).2
            (admitProducedMedia (batchOf list) ts tables).2) ∧
      (¬Succeeds list ts tables →
        (admitProducedMedia (batchOf list) ts tables).2 = tables) := by
  have verdict : ∀ order : List ValidDescriptor, order.Perm list →
      (Succeeds order ts tables ↔ Succeeds list ts tables) := by
    intro order permuted
    have admitted : (admittedOf order).Perm (admittedOf list) := permuted.map _
    rw [succeeds_iff, succeeds_iff]
    exact ⟨fun compatible => compatible.of_perm admitted.symm,
      fun compatible => compatible.of_perm admitted⟩
  refine ⟨succeeds_iff, ?_, ?_, tables_of_admitProducedMedia_error⟩
  · intro order permuted
    refine ⟨verdict order permuted, ?_⟩
    by_cases succeeds : Succeeds list ts tables
    · have admitted := admittedAs_of_admitProducedMedia (Prod.ext succeeds rfl)
      have reordered := admittedAs_of_admitProducedMedia
        (Prod.ext ((verdict order permuted).mpr succeeds) rfl)
      exact reordered.sameStore admitted fun item => (permuted.map _).mem_iff
    · rw [tables_of_admitProducedMedia_error succeeds,
        tables_of_admitProducedMedia_error fun ran => succeeds ((verdict order permuted).mp ran)]
      exact ⟨fun _ => rfl, rfl⟩
  · intro succeeds order permuted
    have admitted := admittedAs_of_admitProducedMedia (Prod.ext succeeds rfl)
    have compatible : Compatible (admittedOf order) tables :=
      (succeeds_iff.mp succeeds).of_perm (permuted.map _)
    obtain ⟨recorded, commits⟩ := exists_commits_admitBatchTxn_iff.mpr compatible
    have ran : recordEach order ts tables = (.ok (), recorded) := commits_recordEach.mpr commits
    rw [ran]
    exact ⟨rfl, (admittedAs_of_admitBatchTxn commits).sameStore admitted
      fun item => (permuted.map _).mem_iff⟩

example : Succeeds [jpegDescriptor, jpegDescriptor] 0 .empty := by decide

end Relavium.Store
