import Relavium.Shared.MediaWalkAgreement

/-!
# Publication of a media graph

The graph of a value is refused by the collection of its descriptors exactly if
it is refused by the snapshot, and otherwise the collection answers what the
admission of the nodes listed by the snapshot answers; but for arrays that inherit
from a collection, which the snapshot clones as arrays and the walk refuses.
-/

namespace Relavium.Shared

open Library
open Library.Statements

/-! ## Descriptors of nodes and of their clones -/

/-- A property with its object under another address. -/
def OwnProperty.rename
    (place : Nat → Nat) : OwnProperty HeapValue → OwnProperty HeapValue
  | .absent => .absent
  | .accessor => .accessor
  | .data value => .data (value.rename place)

theorem mediaDataField_rename (place : Nat → Nat) (property : OwnProperty HeapValue) :
    mediaDataField (property.rename place) =
      (mediaDataField property).map (Option.map (HeapValue.rename place)) := by
  cases property <;> rfl

@[simp] theorem descriptorValueOf_rename (place : Nat → Nat) (value : Option HeapValue) :
    descriptorValueOf (value.map (HeapValue.rename place)) = descriptorValueOf value := by
  cases value with
  | none => rfl
  | some value => cases value <;> rfl

@[simp] theorem modalityField_rename (place : Nat → Nat) (value : Option HeapValue) :
    modalityField (value.map (HeapValue.rename place)) = modalityField value := by
  cases value with
  | none => rfl
  | some value => cases value <;> rfl

@[simp] theorem rename_eq_string
    (place : Nat → Nat) (value : Option HeapValue) (text : JsString) :
    value.map (HeapValue.rename place) = some (.string text) ↔
      value = some (.string text) := by
  cases value with
  | none => simp
  | some value => cases value <;> simp [HeapValue.rename]

@[simp] theorem fieldIfPresent_rename (place : Nat → Nat) (property : OwnProperty HeapValue) :
    fieldIfPresent (property.rename place) = fieldIfPresent property := by
  cases property with
  | data value =>
    cases value <;> rfl
  | _ => rfl

theorem bind_map (first : Except ε α) (change : α → β) (next : β → Except ε γ) :
    (first.map change >>= next) = (first >>= fun value => next (change value)) := by
  cases first <;> rfl

/-- A node has the descriptor of a node with the same fields, up to the address of
its source. -/
theorem admitNode_congr
    {read other : Reflection} {node twin : Nat} (place : Nat → Nat)
    (same : ∀ key, other twin key = (read node key).rename place)
    (sameSource : ∀ source, read node sourceKey = .data (.object source) →
      ∀ key, other (place source) key = (read source key).rename place) :
    admitNode other twin = admitNode read node := by
  unfold admitNode
  simp only [same, mediaDataField_rename, bind_map, descriptorValueOf_rename,
    modalityField_rename, fieldIfPresent_rename]
  cases isSource : read node sourceKey with
  | absent | accessor => rfl
  | data value =>
    cases value with
    | object source =>
      have fields := sameSource source isSource
      change (do
        let kind ← mediaDataField (other (place source) kindKey)
        _ : Except MediaAdmissionErrorCode DurableMediaMeta) = _
      simp only [fields, mediaDataField_rename, bind_map, descriptorValueOf_rename,
        rename_eq_string]
      rfl
    | _ => rfl

/-! ## Reflection -/

variable
  {heap : ObjectHeap}

/-- An object in a snapshot has no accessors. -/
theorem InertObject.accessors_eq {object : HeapObject} (inert : InertObject object) :
    object.accessors = [] := by
  have passes := inert.keys
  unfold keysPass at passes
  exact List.isEmpty_iff.mp ((Bool.and_eq_true _ _).mp passes).1

/-- Reflection on such an object finds data or nothing. -/
theorem reflect_of_inert
    {address : Nat} {object : HeapObject} (isObject : heap[address]? = some object)
    (inert : InertObject object) (key : JsString) :
    reflect heap address key = (object.field key).elim .absent .data := by
  simp only [reflect, isObject, inert.accessors_eq]
  cases object.field key <;> simp

variable
  {place : Nat → Nat}

theorem reflect_clone
    {heap after : ObjectHeap} {address clone : Nat} {object : HeapObject}
    (isObject : heap[address]? = some object) (inert : InertObject object)
    (isClone : after[clone]? = some (object.rename place)) (key : JsString) :
    reflect after clone key = (reflect heap address key).rename place := by
  rw [reflect_of_inert isObject inert]
  simp only [reflect, isClone, HeapObject.field_rename]
  cases object.field key with
  | none => simp [HeapObject.rename, OwnProperty.rename]
  | some value => rfl

variable
  {root : HeapValue}

theorem reachable_source
    {node source : Nat} (reachable : Reachable heap root node)
    (isSource : reflect heap node sourceKey = .data (.object source)) :
    Reachable heap root source := by
  unfold reflect at isSource
  cases isObject : heap[node]? with
  | none => simp [isObject] at isSource
  | some object =>
    simp only [isObject] at isSource
    cases isField : object.field sourceKey with
    | none =>
      simp only [isField] at isSource
      split at isSource <;> simp at isSource
    | some value =>
      simp only [isField, OwnProperty.data.injEq] at isSource
      exact .child reachable isObject (HeapObject.mem_values_of_field (isSource ▸ isField))

/-- Reflection on an inert graph finds no accessors. -/
theorem InertGraph.readable
    {address : Nat} (inert : InertGraph heap root) (closed : ClosedHeap heap root)
    (reachable : Reachable heap root address) (key : JsString) :
    reflect heap address key ≠ .accessor := by
  have isObject := List.getElem?_eq_getElem (closed.lt_of_reachable reachable)
  rw [reflect_of_inert isObject (inert.objects _ _ reachable isObject).1]
  generalize HeapObject.field _ key = found
  cases found <;> simp

variable
  {snapshot : MediaSnapshot}

/-- A clone has the descriptor of the node it is a clone of. -/
theorem GraphCopy.admitNode_place
    {heap after : ObjectHeap} {node : Nat} (closed : ClosedHeap heap root)
    (copy : GraphCopy heap root place snapshot after) (reachable : Reachable heap root node) :
    admitNode (reflect after) (place node) = admitNode (reflect heap) node := by
  have same : ∀ address, Reachable heap root address → ∀ key,
      reflect after (place address) key = (reflect heap address key).rename place := by
    intro address isReached key
    have isObject := List.getElem?_eq_getElem (closed.lt_of_reachable isReached)
    exact reflect_clone isObject (copy.inert.objects _ _ isReached isObject).1
      (copy.copied _ _ isReached isObject) key
  exact admitNode_congr place (same node reachable) fun source isSource =>
    same source (reachable_source reachable isSource)

/-! ## What is not unsafe -/

theorem mediaDataField_ok {property : OwnProperty α} (readable : property ≠ .accessor) :
    ∃ value, mediaDataField property = .ok value := by
  cases property with
  | absent => exact ⟨_, rfl⟩
  | accessor => exact absurd rfl readable
  | data value => exact ⟨_, rfl⟩

/-- A computation that is refused as invalid or unsupported at most. -/
def NotUnsafe (computation : Except MediaAdmissionErrorCode α) : Prop :=
  computation ≠ .error .unsafeValue

namespace NotUnsafe

theorem pure (value : α) :
    NotUnsafe (Pure.pure value : Except MediaAdmissionErrorCode α) :=
  fun failed => nomatch failed

theorem bind
    {first : Except MediaAdmissionErrorCode α} {next : α → Except MediaAdmissionErrorCode β}
    (firstSafe : NotUnsafe first) (nextSafe : ∀ value, NotUnsafe (next value)) :
    NotUnsafe (first >>= next) := by
  intro failed
  obtain stopped | ⟨value, -, later⟩ := bind_eq_error.mp failed
  · exact firstSafe stopped
  · exact nextSafe value later

theorem mediaDataField {property : OwnProperty α} (readable : property ≠ .accessor) :
    NotUnsafe (Shared.mediaDataField property) := by
  obtain ⟨value, isValue⟩ := mediaDataField_ok readable
  rw [isValue]
  exact fun failed => nomatch failed

theorem require
    {code : MediaAdmissionErrorCode} {condition : Prop} [Decidable condition]
    (notUnsafe : code ≠ .unsafeValue) :
    NotUnsafe (Library.require code condition) := by
  unfold Library.require
  split
  · exact fun failed => nomatch failed
  · exact fun failed => notUnsafe (Except.error.inj failed)

end NotUnsafe

theorem notUnsafe_canonicalMediaMimeType (input : JsString) :
    NotUnsafe (canonicalMediaMimeType input) := by
  unfold canonicalMediaMimeType
  split <;> simp [NotUnsafe]

theorem notUnsafe_admitDuration
    (modality : MediaModality) (field : OwnProperty DescriptorValue)
    (value : Option DescriptorValue) :
    NotUnsafe (admitDuration modality field value) := by
  unfold admitDuration
  split
  · split
    · split <;> simp [NotUnsafe]
    · simp [NotUnsafe]
  · simp [NotUnsafe]

/-- A descriptor whose properties can be read is not unsafe. -/
theorem notUnsafe_admitMediaDescriptor
    {fields : DescriptorObject} (handle : fields.handle ≠ .accessor)
    (mimeType : fields.mimeType ≠ .accessor) (modality : fields.modality ≠ .accessor)
    (byteLength : fields.byteLength ≠ .accessor) (durationMs : fields.durationMs ≠ .accessor) :
    NotUnsafe (admitMediaDescriptor (.object fields)) := by
  refine .bind (.mediaDataField handle) fun _ => .bind (.mediaDataField mimeType) fun _ =>
    .bind (.mediaDataField modality) fun _ => .bind (.mediaDataField byteLength) fun _ =>
    .bind (.mediaDataField durationMs) fun _ => ?_
  split
  · refine .bind (.require (by decide)) fun _ =>
      .bind (notUnsafe_canonicalMediaMimeType _) fun _ => ?_
    split
    · exact .bind (.require (by decide)) fun _ =>
        .bind (notUnsafe_admitDuration _ _ _) fun _ => .pure _
    · simp [NotUnsafe]
  · simp [NotUnsafe]

variable {property : OwnProperty HeapValue}

theorem notUnsafe_fieldIfPresent (readable : property ≠ .accessor) :
    NotUnsafe (fieldIfPresent property) := by
  unfold fieldIfPresent
  split
  · exact (NotUnsafe.mediaDataField readable).bind fun _ => .pure _
  · exact .pure _

theorem fieldIfPresent_ne_accessor
    {durationMs : OwnProperty DescriptorValue}
    (isField : fieldIfPresent property = .ok durationMs) :
    durationMs ≠ .accessor := by
  rintro rfl
  unfold fieldIfPresent at isField
  split at isField
  · obtain ⟨value, -, isPure⟩ := bind_eq_ok.mp isField
    cases isPure
  · cases isField

theorem data_of_mediaDataField
    {value : Option HeapValue} {source : Nat} (isValue : mediaDataField property = .ok value)
    (isSource : value.bind HeapValue.address? = some source) :
    property = .data (.object source) := by
  obtain ⟨found, rfl, isAddress⟩ := Option.bind_eq_some_iff.mp isSource
  obtain rfl := HeapValue.address?_eq_some_iff.mp isAddress
  cases property <;> cases isValue
  rfl

/-- Nor is the descriptor of a node whose properties, and those of whose source, can be
read. -/
theorem notUnsafe_admitNode
    {read : Reflection} {node : Nat} (readable : ∀ key, read node key ≠ .accessor)
    (readableSource : ∀ source, read node sourceKey = .data (.object source) →
      ∀ key, read source key ≠ .accessor) :
    NotUnsafe (admitNode read node) := by
  intro failed
  obtain stopped | ⟨value, isValue, later⟩ := bind_eq_error.mp failed
  · exact NotUnsafe.mediaDataField (readable sourceKey) stopped
  revert later
  split
  · simp
  · rename_i source isSource
    have fields := readableSource source (data_of_mediaDataField isValue isSource)
    refine NotUnsafe.bind (.mediaDataField (fields _)) fun _ => .bind (.require (by decide))
      fun _ => .bind (.mediaDataField (readable _)) fun _ => .bind (.mediaDataField (fields _))
      fun _ => .bind (.mediaDataField (readable _)) fun _ => ?_
    intro failed
    obtain stopped | ⟨durationMs, isField, refused⟩ := bind_eq_error.mp failed
    · exact notUnsafe_fieldIfPresent (readable durationMsKey) stopped
    · exact notUnsafe_admitMediaDescriptor (by simp) (by simp) (by simp) (by simp)
        (fieldIfPresent_ne_accessor isField) refused

/-- The descriptors of an inert graph can be read. -/
theorem InertGraph.notUnsafe_admitNode
    {node : Nat} (inert : InertGraph heap root) (closed : ClosedHeap heap root)
    (reachable : Reachable heap root node) :
    NotUnsafe (admitNode (reflect heap) node) :=
  Shared.notUnsafe_admitNode (inert.readable closed reachable) fun _ isSource =>
    inert.readable closed (reachable_source reachable isSource)

theorem notUnsafe_reconcile (items : List DurableMediaMeta) :
    NotUnsafe (reconcileMediaDescriptors (batchOfItems items)) := by
  have slots : NotUnsafe
      ((items.map fun item => OwnProperty.data (offerAgain item)).mapM admitSlot) := by
    intro failed
    rw [mapM_eq_of_failures] at failed
    cases isFailure : (items.map fun item => OwnProperty.data (offerAgain item)).findSome?
        fun slot => failureOf (admitSlot slot) with
    | none => simp [isFailure] at failed
    | some refusal =>
      simp only [isFailure, Except.error.injEq] at failed
      obtain ⟨slot, isSlot, refused⟩ := List.exists_of_findSome?_eq_some isFailure
      obtain ⟨item, -, rfl⟩ := List.mem_map.mp isSlot
      rw [failureOf_eq_some_iff, failed] at refused
      have offered : NotUnsafe (admitMediaDescriptor (offerAgain item)) :=
        notUnsafe_admitMediaDescriptor (by simp) (by simp) (by simp) (by simp)
          (by cases item.durationMs <;> simp)
      exact offered refused
  refine slots.bind fun owned => .bind (fun failed => ?_) fun _ => .pure _
  obtain ⟨reached, item, refused⟩ := foldlM_error failed
  unfold reconcileOne at refused
  split at refused
  · cases refused
  · split at refused
    · cases refused
    · split at refused <;> cases refused

/-! ## The refusals of a snapshot -/

theorem eq_unsafeValue_of_mediaContainer
    {value : HeapValue} {countOnly : Bool} {code : MediaAdmissionErrorCode}
    (refused : mediaContainer value countOnly heap = .error code) :
    code = .unsafeValue := by
  unfold mediaContainer at refused
  cases value with
  | object address =>
    cases isObject : heap[address]? with
    | none =>
      simp only [isObject, Except.error.injEq] at refused
      exact refused.symm
    | some object =>
      simp only [isObject] at refused
      split at refused
      · split at refused <;> cases refused
        rfl
      · split at refused <;> cases refused
        rfl
  | string text | symbol | function =>
    dsimp only at refused
    split at refused <;> cases refused
    rfl
  | _ => cases refused

/-- Statements that refuse what is unsafe and nothing else. -/
abbrev RefusesUnsafe (statements : SnapshotStatements α) : Prop :=
  Triple (fun _ => True) statements (fun _ _ => True) fun code _ => code = .unsafeValue

theorem refusesUnsafe_update (write : SnapshotState → SnapshotState) :
    RefusesUnsafe (update write) :=
  Triple.update fun _ _ => trivial

theorem refusesUnsafe_copyValue (countOnly : Bool) (item : HeapValue) :
    RefusesUnsafe (copyValue countOnly item) := by
  refine Triple.via (fun _ _ => True) (Triple.select fun _ _ => trivial) fun heap =>
    Triple.via (fun _ _ => True) ?_ fun container => ?_
  · intro before _
    cases accepted : mediaContainer item countOnly heap with
    | ok container => trivial
    | error code => exact eq_unsafeValue_of_mediaContainer accepted
  · cases container with
    | none => exact Triple.pure fun _ _ => trivial
    | some source =>
      refine Triple.via (fun _ _ => True) (Triple.select fun _ _ => trivial) fun state => ?_
      split
      · exact Triple.bind (refusesUnsafe_update _) fun _ => Triple.pure fun _ _ => trivial
      · exact Triple.bind (refusesUnsafe_update _) fun _ => Triple.pure fun _ _ => trivial

theorem refusesUnsafe_copySlots (countOnly : Bool) (slots : ObjectSlots) :
    RefusesUnsafe (copySlots countOnly slots) := by
  unfold copySlots
  split
  · refine Triple.via (fun _ _ => True) (Triple.mapM (fun entry => ?_) _) fun _ =>
      Triple.pure fun _ _ => trivial
    exact Triple.bind (refusesUnsafe_copyValue _ _) fun _ =>
      Triple.bind (refusesUnsafe_copyValue _ _) fun _ => Triple.pure fun _ _ => trivial
  · exact Triple.bind (Triple.mapM (refusesUnsafe_copyValue countOnly) _) fun _ =>
      Triple.pure fun _ _ => trivial
  · exact Triple.pure fun _ _ => trivial

theorem refusesUnsafe_copyContents (countOnly : Bool) (object : HeapObject) :
    RefusesUnsafe (copyContents countOnly object) := by
  refine Triple.via (fun _ _ => True) ?_ fun shape =>
    Triple.via (fun _ _ => True) (Triple.require (fun _ _ _ => trivial) fun _ _ => rfl) fun _ =>
    Triple.via (fun _ _ => True) ?_ fun properties => Triple.pure fun _ _ => trivial
  · unfold copyEntries
    repeat' split
    all_goals
      first
        | exact refusesUnsafe_copySlots _ _
        | exact Triple.refuse fun _ _ => rfl
        | exact Triple.pure fun _ _ => trivial
  · refine Triple.foldlM (fun clone entry => ?_) _ _
    exact Triple.bind (refusesUnsafe_copyValue _ _) fun _ => Triple.pure fun _ _ => trivial

theorem refusesUnsafe_copyPending (countOnly : Bool) (fuel index : Nat) :
    RefusesUnsafe (copyPending countOnly fuel index) := by
  induction fuel generalizing index with
  | zero => exact Triple.refuse fun _ _ => rfl
  | succ fuel ih =>
    refine Triple.via (fun _ _ => True) (Triple.select fun _ _ => trivial) fun pending => ?_
    split
    · exact Triple.pure fun _ _ => trivial
    · refine Triple.via (fun _ _ => True) ?_ fun _ => ih _
      refine Triple.via (fun _ _ => True) (Triple.select fun _ _ => trivial) fun heap => ?_
      split
      · exact Triple.refuse fun _ _ => rfl
      · exact Triple.bind (refusesUnsafe_copyContents _ _) fun _ =>
          Triple.bind (refusesUnsafe_update _) fun _ => refusesUnsafe_update _

theorem eq_unsafeValue_of_snapshotMediaValue
    {value : HeapValue} {countOnly : Bool} {code : MediaAdmissionErrorCode}
    (refused : (snapshotMediaValue value countOnly heap).1 = .error code) :
    code = .unsafeValue := by
  have taken : RefusesUnsafe (takeSnapshot value countOnly heap.length) :=
    Triple.bind (refusesUnsafe_copyValue _ _) fun _ =>
      Triple.bind (refusesUnsafe_copyPending _ _ _) fun _ =>
        Triple.via (fun _ _ => True) (Triple.select fun _ _ => trivial) fun _ =>
          Triple.via (fun _ _ => True)
            (Triple.require (fun _ _ _ => trivial) fun _ _ => rfl) fun _ =>
              Triple.pure fun _ _ => trivial
  exact taken.of_error trivial (Prod.ext refused rfl)

/-! ## Both walks -/

/-- A value in a heap, all of whose addresses are those of objects. -/
structure MediaGraph where
  heap : ObjectHeap
  root : HeapValue
  closed : ClosedHeap heap root

theorem graphCopy_of_snapshotMediaValue
    (graph : MediaGraph) {after : ObjectHeap}
    (taken : snapshotMediaValue graph.root false graph.heap = (.ok snapshot, after)) :
    ∃ place, GraphCopy graph.heap graph.root place snapshot after := by
  unfold snapshotMediaValue at taken
  cases ran : takeSnapshot graph.root false graph.heap.length (startSnapshot graph.heap) with
  | mk outcome state =>
    rw [ran] at taken
    cases taken
    exact graphCopy_of_takeSnapshot graph.closed ran

/-- The walk refuses what is not inert, and arrays that inherit from a collection. -/
theorem collectMediaForAdmission_of_unsafeValue (graph : MediaGraph)
    (isUnsafe : ¬(InertGraph graph.heap graph.root ∧ SealedSources graph.heap graph.root ∧
      NoCollectionArray graph.heap graph.root)) :
    collectMediaForAdmission graph.root graph.heap = .error .unsafeValue := by
  unfold collectMediaForAdmission
  cases ran : walkGraph (reflect graph.heap) graph.heap graph.root startWalk with
  | mk outcome walk =>
    cases outcome with
    | error code => rfl
    | ok answer =>
      have collected := collected_of_walkGraph ran
      exact absurd ⟨collected.inert, collected.sealed, collected.apart⟩ isUnsafe

/-- The walk ends on a graph of which there is a copy. -/
theorem GraphCopy.collected
    {heap after : ObjectHeap} (copy : GraphCopy heap root place snapshot after)
    (closed : ClosedHeap heap root) (apart : NoCollectionArray heap root) :
    ∃ walk, Commits (walkGraph (reflect heap) heap root) startWalk () walk ∧
      Collected (reflect heap) heap root walk := by
  have readable : ∀ node, Reachable heap root node →
      failureOf (admitNode (reflect heap) node) ≠ some .unsafeValue := by
    intro node reachable
    rw [ne_eq, failureOf_eq_some_iff]
    exact copy.inert.notUnsafe_admitNode closed reachable
  obtain ⟨walk, commits⟩ := commits_walkGraph copy.inert apart copy.sealed readable
  exact ⟨walk, commits, collected_of_walkGraph commits⟩

theorem collectMediaForAdmission_of_copy
    (graph : MediaGraph) {after : ObjectHeap}
    (copy : GraphCopy graph.heap graph.root place snapshot after)
    (apart : NoCollectionArray graph.heap graph.root) :
    collectMediaForAdmission graph.root graph.heap = admitSnapshotNodes snapshot after := by
  obtain ⟨walk, commits, collected⟩ := copy.collected graph.closed apart
  have admitted : snapshot.nodes.mapM (admitNode (reflect after)) =
      (mediaAmong graph.heap (foundOrder graph.heap graph.root)).mapM
        (admitNode (reflect graph.heap)) := by
    refine mapM_congr_of_map ?_
    rw [copy.nodes, List.map_map]
    refine List.map_congr_left fun node isMedia => ?_
    have reachable := collected.reached node (List.mem_of_mem_filter isMedia)
    rw [Function.comp_apply, copy.admitNode_place graph.closed reachable]
  unfold collectMediaForAdmission admitSnapshotNodes
  rw [show walkGraph (reflect graph.heap) graph.heap graph.root startWalk =
      (.ok (), walk) from commits, admitted, mapM_eq_of_failures]
  simp only [collected.failure, collected.items]
  cases (mediaAmong graph.heap (foundOrder graph.heap graph.root)).findSome?
      fun node => failureOf (admitNode (reflect graph.heap) node) with
  | none | some refusal => rfl

/-- The descriptors of a snapshot can be read. -/
theorem GraphCopy.notUnsafe_admitSnapshotNodes
    {heap after : ObjectHeap} (copy : GraphCopy heap root place snapshot after)
    (closed : ClosedHeap heap root)
    (reached : ∀ node ∈ foundOrder heap root, Reachable heap root node) :
    NotUnsafe (admitSnapshotNodes snapshot after) := by
  refine .bind (fun failed => ?_) notUnsafe_reconcile
  rw [mapM_eq_of_failures] at failed
  cases isFailure : snapshot.nodes.findSome?
      fun node => failureOf (admitNode (reflect after) node) with
  | none => simp [isFailure] at failed
  | some refusal =>
    simp only [isFailure, Except.error.injEq] at failed
    obtain ⟨node, isNode, refused⟩ := List.exists_of_findSome?_eq_some isFailure
    rw [copy.nodes, List.mem_map] at isNode
    obtain ⟨original, isOriginal, rfl⟩ := isNode
    have reachable := reached original (List.mem_of_mem_filter isOriginal)
    rw [failureOf_eq_some_iff, failed, copy.admitNode_place closed reachable] at refused
    exact copy.inert.notUnsafe_admitNode closed reachable refused

/-- The two walks agree on a graph: the collection of the descriptors refuses it as
unsafe exactly if the snapshot does, and otherwise answers what the admission of the
snapshot's nodes, in order and then reconciled, answers. -/
def WalksAgree (graph : MediaGraph) : Prop :=
  (collectMediaForAdmission graph.root graph.heap = .error .unsafeValue ↔
      (snapshotMediaValue graph.root false graph.heap).1 = .error .unsafeValue) ∧
    ((snapshotMediaValue graph.root false graph.heap).1 ≠ .error .unsafeValue →
      ∃ snapshot after,
        snapshotMediaValue graph.root false graph.heap = (.ok snapshot, after) ∧
          collectMediaForAdmission graph.root graph.heap = admitSnapshotNodes snapshot after)

theorem walksAgree_of_refused
    {graph : MediaGraph}
    (refused : ¬(InertGraph graph.heap graph.root ∧ SealedSources graph.heap graph.root)) :
    WalksAgree graph := by
  have collected := collectMediaForAdmission_of_unsafeValue graph fun safe =>
    refused ⟨safe.1, safe.2.1⟩
  have snapshot : (snapshotMediaValue graph.root false graph.heap).1 = .error .unsafeValue := by
    cases taken : (snapshotMediaValue graph.root false graph.heap).1 with
    | error code => rw [eq_unsafeValue_of_snapshotMediaValue taken]
    | ok snapshot => exact absurd ((snapshotMediaValue_ok_iff graph.closed).mp ⟨_, taken⟩) refused
  exact ⟨iff_of_true collected snapshot, fun passed => absurd snapshot passed⟩

/-- On a graph that the snapshot passes they agree exactly if no array in it inherits
from a collection. -/
theorem walksAgree_iff_of_passed
    {graph : MediaGraph} (inert : InertGraph graph.heap graph.root)
    (sealed : SealedSources graph.heap graph.root) :
    WalksAgree graph ↔ NoCollectionArray graph.heap graph.root := by
  obtain ⟨snapshot, isSnapshot⟩ := (snapshotMediaValue_ok_iff graph.closed).mpr ⟨inert, sealed⟩
  have taken : snapshotMediaValue graph.root false graph.heap =
      (.ok snapshot, (snapshotMediaValue graph.root false graph.heap).2) :=
    Prod.ext isSnapshot rfl
  have passed : (snapshotMediaValue graph.root false graph.heap).1 ≠ .error .unsafeValue := by
    simp [isSnapshot]
  obtain ⟨place, copy⟩ := graphCopy_of_snapshotMediaValue graph taken
  constructor
  · rintro ⟨alike, -⟩
    by_contra apart
    exact passed (alike.mp (collectMediaForAdmission_of_unsafeValue graph fun safe =>
      apart safe.2.2))
  · intro apart
    have same := collectMediaForAdmission_of_copy graph copy apart
    obtain ⟨walk, -, collected⟩ := copy.collected graph.closed apart
    refine ⟨iff_of_false ?_ passed, fun _ => ⟨snapshot, _, taken, same⟩⟩
    rw [same]
    exact copy.notUnsafe_admitSnapshotNodes graph.closed collected.reached

/-- The two walks agree on a graph exactly if no array in it inherits from a collection
or the snapshot refuses something else in it. -/
theorem publication_walks_agree (graph : MediaGraph) :
    WalksAgree graph ↔
      (InertGraph graph.heap graph.root → SealedSources graph.heap graph.root →
        NoCollectionArray graph.heap graph.root) := by
  by_cases passes : InertGraph graph.heap graph.root ∧ SealedSources graph.heap graph.root
  · rw [walksAgree_iff_of_passed passes.1 passes.2]
    exact ⟨fun apart _ _ => apart, fun apart => apart passes.1 passes.2⟩
  · exact iff_of_true (walksAgree_of_refused passes) fun inert sealed =>
      absurd ⟨inert, sealed⟩ passes

/-- An empty array with the prototype of a `Map`. -/
def prototypedArray : MediaGraph where
  heap := [⟨.array 0, [.map, .object], .empty, [], []⟩]
  root := .object 0
  closed :=
    ⟨fun address isRoot => by simp_all, fun object isObject address isValue => by
      rw [List.mem_singleton.mp isObject] at isValue
      simp [show HeapObject.values ⟨.array 0, [.map, .object], .empty, [], []⟩ = [] from rfl]
        at isValue⟩

/-- The snapshot clones it as an empty array, and the walk refuses it. -/
theorem publication_walks_disagree :
    (snapshotMediaValue prototypedArray.root false prototypedArray.heap).1 =
        .ok { value := .object 1, nodes := [] } ∧
      collectMediaForAdmission prototypedArray.root prototypedArray.heap =
        .error .unsafeValue ∧
      ¬WalksAgree prototypedArray := by
  have snapshot : (snapshotMediaValue prototypedArray.root false prototypedArray.heap).1 =
      .ok { value := .object 1, nodes := [] } := by decide +kernel
  have collected : collectMediaForAdmission prototypedArray.root prototypedArray.heap =
      .error .unsafeValue := by rfl
  refine ⟨snapshot, collected, fun agree => ?_⟩
  have refused := agree.1.mp collected
  rw [snapshot] at refused
  cases refused

end Relavium.Shared
