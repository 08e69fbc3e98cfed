import Mathlib.Algebra.Order.BigOperators.Group.List
import Relavium.Library.Counting
import Relavium.Shared.MediaSnapshotCopies

/-!
# The edges of a snapshot

The loop of a snapshot copies every object that can be reached, each once, and
counts the edges into it.  A snapshot succeeds exactly on a graph of inert data
in which objects of kind `base64` are held by source slots of media nodes only.
-/

namespace Relavium.Shared

open Library
open Library.Statements

/-! ## One object -/

theorem copies_copySlots (slots : ObjectSlots) :
    Copies (copySlots false slots) slots.values (fun place => slots.rename place) := by
  cases slots with
  | map entries =>
    have copies := Copies.mapM
      (fun entry : HeapValue × HeapValue =>
        (copies_copyValue entry.1).bind fun key =>
          (copies_copyValue entry.2).map (Prod.mk key)) entries
    exact copies.map ObjectSlots.map
  | set elements =>
    have copies := Copies.mapM copies_copyValue elements
    rw [List.flatMap_singleton'] at copies
    exact copies.map ObjectSlots.set
  | ordinary | array length | view => exact .pure _

/-- The clone of an object inherits from a collection when the object is taken for
one. -/
theorem instanceOf_blankOf (object : HeapObject) :
    ((object.instanceOf .map ∧ (blankOf object).instanceOf .map) ↔ object.kind = .map) ∧
      ((object.instanceOf .set ∧ (blankOf object).instanceOf .set) ↔
        object.kind = .set) := by
  unfold blankOf HeapObject.kind
  cases object.isArray <;> cases isMap : object.instanceOf .map <;>
    cases isSet : object.instanceOf .set <;> simp [HeapObject.instanceOf,
      ContainerKind.prototypes]

/-- What is copied are the slots of the object as what it is taken for. -/
theorem copyEntries_eq (countOnly : Bool) (object : HeapObject) :
    copyEntries countOnly object =
      object.contents.elim (refuse .unsafeValue) (copySlots countOnly) := by
  unfold copyEntries HeapObject.contents
  simp only [instanceOf_blankOf object]
  cases isKind : object.kind with
  | array =>
    have isArray : object.isArray = true := by
      unfold HeapObject.kind at isKind
      split at isKind
      · assumption
      · split at isKind
        · cases isKind
        · split at isKind <;> cases isKind
    unfold HeapObject.isArray at isArray
    cases isSlots : object.slots <;> simp_all [copySlots]
  | map | set => cases object.slots <;> simp
  | plain =>
    have notArray : object.isArray = false := by
      unfold HeapObject.kind at isKind
      cases isArray : object.isArray with
      | false => rfl
      | true => simp [isArray] at isKind
    unfold HeapObject.isArray at notArray
    cases isSlots : object.slots <;> simp_all [copySlots]

theorem copies_copyProperties (properties : OrderedMap JsString HeapProperty) :
    Copies (copyProperties false properties.entries) (properties.values.map HeapProperty.value)
      (fun place => properties.mapValues fun _ property =>
        { property with value := property.value.rename place }) := by
  have copies := Copies.foldlM
    (fun (clone : OrderedMap JsString HeapProperty) (entry : JsString × HeapProperty) =>
      (copies_copyValue entry.2.value).map fun value =>
        clone.set entry.1 { entry.2 with value })
    properties.entries .empty
  have items : (properties.entries.flatMap fun entry => [entry.2.value]) =
      properties.values.map HeapProperty.value := by
    rw [← List.map_eq_flatMap, OrderedMap.values, List.map_map]
    rfl
  have built : ∀ place : Nat → Nat,
      properties.entries.foldl
        (fun clone entry =>
          clone.set entry.1 { entry.2 with value := entry.2.value.rename place })
        (.empty : OrderedMap JsString HeapProperty) =
      properties.mapValues fun _ property =>
        { property with value := property.value.rename place } := by
    intro place
    apply OrderedMap.eq_of_entries
    have stored := OrderedMap.entries_foldl_set_empty
      (show ((properties.entries.map fun entry =>
          (entry.1, { entry.2 with value := entry.2.value.rename place })).map
            Prod.fst).Nodup by
        rw [List.map_map]
        exact properties.nodupKeys)
    rw [List.foldl_map] at stored
    exact stored
  rw [items, funext built] at copies
  exact copies

variable
  {object : HeapObject}

/-- An object that may be in a snapshot: it is the collection that it is taken for,
and its keys pass. -/
structure InertObject (object : HeapObject) : Prop where
  contents : object.contents.isSome = true
  keys : keysPass object false = true

theorem copies_copyContents (inert : InertObject object) :
    Copies (copyContents false object) object.values (fun place => object.rename place) := by
  obtain ⟨slots, isContents⟩ := Option.isSome_iff_exists.mp inert.contents
  have copies := (copies_copySlots slots).bind fun slots =>
    (copies_copyProperties object.properties).map fun properties =>
      (⟨slots, object.kind.prototypes, properties, [], []⟩ : HeapObject)
  have required : (Statements.require (keysPass object false = true) .unsafeValue :
      SnapshotStatements Unit) = pure () := if_pos inert.keys
  have renamed : ∀ place : Nat → Nat, object.rename place =
      ⟨slots.rename place, object.kind.prototypes,
        object.properties.mapValues fun _ property =>
          { property with value := property.value.rename place }, [], []⟩ := by
    intro place
    rw [HeapObject.rename, isContents]
    rfl
  rw [funext renamed, HeapObject.values, HeapObject.entries, isContents]
  unfold copyContents
  simp only [copyEntries_eq, isContents, Option.elim_some, required, pure_bind]
  exact copies

variable
  {before after : SnapshotState}

theorem inert_of_copyContents
    {object copied : HeapObject}
    (commits : Commits (copyContents false object) before copied after) :
    InertObject object := by
  simp only [copyContents, commits_bind, commits_require, copyEntries_eq] at commits
  obtain ⟨_, _, entered, _, _, ⟨keys, _⟩, _⟩ := commits
  refine ⟨?_, keys⟩
  cases isContents : object.contents with
  | none =>
    rw [isContents] at entered
    exact absurd entered commits_refuse
  | some slots => rfl

/-! ## The objects that are copied so far -/

/-- The values an object holds. -/
def valuesAt (heap : ObjectHeap)
    (address : Nat) : List HeapValue :=
  (heap[address]?.map HeapObject.values).getD []

/-- The object in the source slot of a media node. -/
def slots (object : HeapObject) : List Nat :=
  if isMediaNode object then (sourceSlot object).toList else []

def slotsAt (heap : ObjectHeap)
    (address : Nat) : List Nat :=
  (heap[address]?.map slots).getD []

theorem mem_values_of_slots {address : Nat} (isSlot : address ∈ slots object) :
    .object address ∈ object.values := by
  unfold slots sourceSlot at isSlot
  split at isSlot
  · rw [Option.mem_toList, Option.bind_eq_some_iff] at isSlot
    obtain ⟨value, isField, isAddress⟩ := isSlot
    obtain rfl := HeapValue.address?_eq_some_iff.mp isAddress
    exact HeapObject.mem_values_of_field isField
  · exact absurd isSlot List.not_mem_nil

@[simp] theorem isMediaNode_rename (place : Nat → Nat) (object : HeapObject) :
    isMediaNode (object.rename place) = isMediaNode object := by
  unfold isMediaNode
  rw [HeapObject.field_rename]
  cases object.field typeKey with
  | none => rfl
  | some value => cases value <;> simp [HeapValue.rename]

@[simp] theorem isBase64Kind_rename (place : Nat → Nat) (object : HeapObject) :
    isBase64Kind (object.rename place) = isBase64Kind object := by
  unfold isBase64Kind
  rw [HeapObject.field_rename]
  cases object.field kindKey with
  | none => rfl
  | some value => cases value <;> simp [HeapValue.rename]

@[simp] theorem sourceSlot_rename (place : Nat → Nat) (object : HeapObject) :
    sourceSlot (object.rename place) = (sourceSlot object).map place := by
  unfold sourceSlot
  rw [HeapObject.field_rename]
  cases object.field sourceKey with
  | none => rfl
  | some value => cases value <;> rfl

/-- The values that are copied when some objects are. -/
def seenOf (heap : ObjectHeap) (root : HeapValue)
    (entries : List (Nat × Nat)) : List HeapValue :=
  root :: entries.flatMap fun entry => valuesAt heap entry.1

/-- The source slots that are counted when some objects are copied. -/
def slotsOf (heap : ObjectHeap)
    (entries : List (Nat × Nat)) : List Nat :=
  entries.flatMap fun entry => slotsAt heap entry.1

variable
  {heap : ObjectHeap}
  {entries : List (Nat × Nat)}

theorem mem_seenOf_of_slotsOf
    {address : Nat} (isSlot : address ∈ slotsOf heap entries) (root : HeapValue) :
    .object address ∈ seenOf heap root entries := by
  obtain ⟨entry, isEntry, isSlot⟩ := List.mem_flatMap.mp isSlot
  refine List.mem_cons_of_mem _ (List.mem_flatMap.mpr ⟨entry, isEntry, ?_⟩)
  unfold slotsAt at isSlot
  unfold valuesAt
  cases isObject : heap[entry.1]? with
  | none => simp [isObject] at isSlot
  | some object =>
    rw [isObject] at isSlot
    exact mem_values_of_slots isSlot

/-- What a breadth-first walk from the root has found after some turns. -/
def foundAfter (heap : ObjectHeap)
    (root : HeapValue) : Nat → OrderedSet Nat :=
  breadthFirst (fun address => (valuesAt heap address).filterMap HeapValue.address?)
    (foundIn [root])

variable
  {root : HeapValue}
  {seen : List HeapValue}

theorem foundAfter_succ
    {turns node : Nat} (found : foundAfter heap root turns = foundIn seen)
    (isNext : (foundIn seen).elements[turns]? = some node)
    (isObject : heap[node]? = some object) :
    foundAfter heap root (turns + 1) = foundIn (seen ++ object.values) := by
  have isValues : valuesAt heap node = object.values := by
    rw [valuesAt, isObject]
    rfl
  rw [← found] at isNext
  rw [foundIn_append, ← found, ← isValues]
  exact breadthFirst.succ_of_some isNext

/-- The loop has copied the first objects of the queue. -/
structure Filled (heap : ObjectHeap) (root : HeapValue) (done : Nat)
    (state : SnapshotState) : Prop where
  bound : done ≤ state.pending.length
  turns : foundAfter heap root done = foundIn (seenOf heap root (state.pending.take done))
  snap : Snap heap (seenOf heap root (state.pending.take done)) state
  inert : ∀ value ∈ seenOf heap root (state.pending.take done), InertValue heap value
  reach : ∀ address, .object address ∈ seenOf heap root (state.pending.take done) →
    Reachable heap root address
  copied : ∀ entry ∈ state.pending.take done, ∃ object,
    heap[entry.1]? = some object ∧ InertObject object ∧
      state.heap[entry.2]? = some (object.rename (placeOf state.memo))
  nodes : state.nodes =
    ((state.pending.take done).filter fun entry =>
      heap[entry.1]?.any isMediaNode).map Prod.snd
  loose : state.loose =
    ((state.pending.take done).filter fun entry =>
      heap[entry.1]?.any isBase64Kind).map Prod.snd
  sourceEdges : ∀ clone, (state.sourceEdges.get clone).getD 0 =
    ((slotsOf heap (state.pending.take done)).map (placeOf state.memo)).count clone

variable
  {state : SnapshotState}
  {entry : Nat × Nat}

theorem Snap.clone_at
    {position : Nat} (snap : Snap heap seen state)
    (isEntry : state.pending[position]? = some entry) :
    entry.2 = heap.length + position ∧ state.memo.get entry.1 = some entry.2 := by
  constructor
  · have placed : (state.pending.map Prod.snd)[position]? = some entry.2 := by
      rw [List.getElem?_map, isEntry]
      rfl
    rw [snap.placed, List.getElem?_range'] at placed
    · simpa using placed.symm
    · exact (List.getElem?_eq_some_iff.mp isEntry).1
  · refine (OrderedMap.mem_entries_iff _ _ _).mp ?_
    rw [snap.memo]
    exact List.mem_of_getElem? isEntry

/-- Writing a clone keeps what is found and counted. -/
theorem Snap.write
    {clone : Nat} (snap : Snap heap seen state) (isClone : heap.length ≤ clone)
    (object : HeapObject) :
    Snap heap seen { state with heap := state.heap.set clone object } := by
  obtain ⟨clones, isHeap, isLength⟩ := snap.clones
  refine ⟨⟨clones.set (clone - heap.length) object, ?_, ?_⟩, snap.memo, snap.placed,
    snap.found, snap.order, snap.incoming⟩
  · simp only [isHeap]
    exact List.set_append_right clone object isClone
  · rw [List.length_set]
    exact isLength

/-- Notes about a clone change neither the heap nor what is found. -/
theorem Snap.note (snap : Snap heap seen state) (clone : Nat) (object : HeapObject) :
    Snap heap seen (noteClone clone object state) :=
  ⟨snap.clones, snap.memo, snap.placed, snap.found, snap.order, snap.incoming⟩

theorem seenOf_append (isObject : heap[entry.1]? = some object) :
    seenOf heap root (entries ++ [entry]) = seenOf heap root entries ++ object.values := by
  simp [seenOf, valuesAt, isObject]

theorem get_bump (counts : OrderedMap Nat Nat) (bumped clone : Nat) :
    ((bump counts bumped).get clone).getD 0 =
      (counts.get clone).getD 0 + [bumped].count clone := by
  rw [bump, OrderedMap.get_set, List.count_singleton]
  by_cases same : clone = bumped
  · simp [same]
  · simp [same, Ne.symm same]

/-- One turn of the loop copies one more object. -/
theorem Filled.step
    {done : Nat} (filled : Filled heap root done before) (closed : ClosedHeap heap root)
    (isEntry : before.pending[done]? = some entry)
    (commits : Commits (copyObject false entry.1 entry.2) before () after) :
    Filled heap root (done + 1) after ∧
      ∀ address clone, before.memo.get address = some clone →
        after.memo.get address = some clone := by
  obtain ⟨isPlace, isMemo⟩ := filled.snap.clone_at isEntry
  obtain ⟨clones, isHeap, -⟩ := filled.snap.clones
  have found : HeapValue.object entry.1 ∈ seenOf heap root (before.pending.take done) :=
    (filled.snap.found entry.1).mp ((OrderedMap.has_iff _ _).mpr ⟨_, isMemo⟩)
  obtain ⟨object, isObject, -⟩ := filled.inert _ found
  have inHeap := (List.getElem?_eq_some_iff.mp isObject).1
  have hereObject : before.heap[entry.1]? = some object := by
    rw [isHeap, getElem?_of_clones inHeap, isObject]
  obtain ⟨_, _, selected, branch⟩ := commits_bind.mp commits
  obtain ⟨rfl, rfl⟩ := commits_select.mp selected
  simp only [hereObject, commits_bind, commits_update] at branch
  obtain ⟨copied, middle, copies, _, _, rfl, rfl⟩ := branch
  have inert := inert_of_copyContents copies
  obtain ⟨middleSnap, grows, valuesInert, rfl⟩ := (copies_copyContents inert).copied heap
    _ before copied middle
    (fun address isValue => closed.objects object (List.mem_of_getElem? isObject) address
      isValue) filled.snap copies
  have bound := (List.getElem?_eq_some_iff.mp isEntry).1
  have taken : middle.pending.take (done + 1) = before.pending.take done ++ [entry] := by
    obtain ⟨more, isMore⟩ := grows.pending
    rw [← isMore, List.take_append_of_le_length bound, List.take_add_one, isEntry]
    rfl
  have seen := @seenOf_append object heap (before.pending.take done) root entry isObject
  have middleLength : entry.2 < middle.heap.length := by
    obtain ⟨middleClones, isMiddle, isLength⟩ := middleSnap.clones
    have longer := grows.pending.length_le
    rw [isMiddle, List.length_append, isLength, isPlace]
    omega
  refine ⟨⟨?_, ?_, ?_, ?_, ?_, ?_, ?_, ?_, ?_⟩, grows.memo⟩
  · exact bound.trans_le grows.pending.length_le
  · change foundAfter heap root (done + 1) =
      foundIn (seenOf heap root (middle.pending.take (done + 1)))
    rw [taken, seen]
    refine foundAfter_succ filled.turns ?_ isObject
    rw [← filled.snap.order, List.getElem?_map, isEntry]
    rfl
  · have written := (middleSnap.write (isPlace ▸ Nat.le_add_right _ _)
      (object.rename (placeOf middle.memo))).note entry.2
      (object.rename (placeOf middle.memo))
    rw [← seen, ← taken] at written
    exact written
  · intro value isValue
    change value ∈ seenOf heap root (middle.pending.take (done + 1)) at isValue
    rw [taken, seen, List.mem_append] at isValue
    exact isValue.elim (filled.inert value) (valuesInert value)
  · intro address isValue
    change _ ∈ seenOf heap root (middle.pending.take (done + 1)) at isValue
    rw [taken, seen, List.mem_append] at isValue
    exact isValue.elim (filled.reach address) (.child (filled.reach entry.1 found) isObject)
  · intro other isOther
    change other ∈ middle.pending.take (done + 1) at isOther
    change ∃ object', heap[other.1]? = some object' ∧ InertObject object' ∧
      (middle.heap.set entry.2 (object.rename (placeOf middle.memo)))[other.2]? =
        some (object'.rename (placeOf middle.memo))
    rw [taken, List.mem_append, List.mem_singleton] at isOther
    obtain isEarlier | rfl := isOther
    · obtain ⟨earlier, isThere, earlierInert, isCopied⟩ := filled.copied other isEarlier
      obtain ⟨position, within, isPosition⟩ := List.getElem_of_mem isEarlier
      rw [List.length_take] at within
      rw [List.getElem_take] at isPosition
      have otherPlace := (filled.snap.clone_at
        (List.getElem?_eq_some_iff.mpr ⟨by omega, isPosition⟩)).1
      refine ⟨earlier, isThere, earlierInert, ?_⟩
      rw [List.getElem?_set_ne (by omega)]
      obtain ⟨more, isMore⟩ := grows.heap
      rw [← isMore, List.getElem?_append_left (List.getElem?_eq_some_iff.mp isCopied).1, isCopied]
      congr 1
      refine (copies_copyContents earlierInert).congr _ _ fun address isValue => ?_
      refine (grows.placeOf_eq ((filled.snap.found address).mpr ?_)).symm
      refine List.mem_cons_of_mem _ (List.mem_flatMap.mpr ⟨other, isEarlier, ?_⟩)
      rw [valuesAt, isThere]
      exact isValue
    · refine ⟨object, isObject, inert, ?_⟩
      rw [List.getElem?_set_self middleLength]
  · simp only [noteClone, isMediaNode_rename]
    rw [taken, List.filter_append, List.map_append, grows.noted.1, filled.nodes]
    cases isMedia : isMediaNode object <;> simp [isObject, isMedia]
  · simp only [noteClone, isBase64Kind_rename]
    rw [taken, List.filter_append, List.map_append, grows.noted.2.2, filled.loose]
    cases isBase64 : isBase64Kind object <;> simp [isObject, isBase64]
  · intro clone
    have slotsOfTaken : slotsOf heap (middle.pending.take (done + 1)) =
        slotsOf heap (before.pending.take done) ++ slots object := by
      simp [taken, slotsOf, slotsAt, isObject]
    have samePlaces : (slotsOf heap (before.pending.take done)).map (placeOf middle.memo) =
        (slotsOf heap (before.pending.take done)).map (placeOf before.memo) :=
      List.map_congr_left fun address isSlot =>
        grows.placeOf_eq ((filled.snap.found address).mpr (mem_seenOf_of_slotsOf isSlot root))
    change ((noteClone entry.2 (object.rename (placeOf middle.memo))
        { middle with
          heap := middle.heap.set entry.2
            (object.rename (placeOf middle.memo)) }).sourceEdges.get clone).getD 0 =
      ((slotsOf heap (middle.pending.take (done + 1))).map (placeOf middle.memo)).count clone
    rw [slotsOfTaken, List.map_append, List.count_append, samePlaces, ← filled.sourceEdges,
      ← grows.noted.2.1]
    simp only [noteClone, isMediaNode_rename, sourceSlot_rename, slots]
    cases isMediaNode object with
    | false => simp
    | true =>
      cases sourceSlot object with
      | none => simp
      | some slot => exact get_bump middle.sourceEdges (placeOf middle.memo slot) clone

/-! ## The whole loop -/

/-- A loop that ends has copied its whole queue. -/
theorem filled_of_copyPending
    {fuel done : Nat} (closed : ClosedHeap heap root) (filled : Filled heap root done before)
    (commits : Commits (copyPending false fuel done) before () after) :
    Filled heap root after.pending.length after ∧
      ∀ address clone, before.memo.get address = some clone →
        after.memo.get address = some clone := by
  induction fuel generalizing done before with
  | zero => exact absurd commits commits_refuse
  | succ fuel ih =>
    obtain ⟨_, _, selected, branch⟩ := commits_bind.mp commits
    obtain ⟨rfl, rfl⟩ := commits_select.mp selected
    cases isEntry : before.pending[done]? with
    | none =>
      simp only [isEntry, commits_pure, true_and] at branch
      subst branch
      rw [List.getElem?_eq_none_iff] at isEntry
      rw [Nat.le_antisymm isEntry filled.bound]
      exact ⟨filled, fun _ _ found => found⟩
    | some entry =>
      simp only [isEntry, commits_bind] at branch
      obtain ⟨_, middle, copied, rest⟩ := branch
      obtain ⟨stepped, kept⟩ := filled.step closed isEntry copied
      obtain ⟨whole, keptAfter⟩ := ih stepped rest
      exact ⟨whole, fun address clone found =>
        keptAfter address clone (kept address clone found)⟩

/-- The queue holds every object once. -/
theorem Filled.length_pending_le {done : Nat} (filled : Filled heap root done state) :
    state.pending.length ≤ heap.length := by
  have distinct : (state.pending.map Prod.fst).Nodup := by
    rw [← filled.snap.memo]
    exact state.memo.nodupKeys
  have inHeap : state.pending.map Prod.fst ⊆ List.range heap.length := by
    intro address isPending
    rw [← filled.snap.memo] at isPending
    have isKey := (OrderedMap.mem_keys_iff state.memo address).mp isPending
    obtain ⟨object, isObject, -⟩ := filled.inert _ ((filled.snap.found address).mp isKey)
    exact List.mem_range.mpr (List.getElem?_eq_some_iff.mp isObject).1
  calc state.pending.length = (state.pending.map Prod.fst).length := (List.length_map _).symm
    _ ≤ (List.range heap.length).length :=
        (List.subperm_of_subset distinct inHeap).length_le
    _ = heap.length := List.length_range

/-- A graph of inert data: every value that can be reached may be in a snapshot, and
so may every object. -/
structure InertGraph (heap : ObjectHeap)
    (root : HeapValue) : Prop where
  rootInert : InertValue heap root
  objects : ∀ address object, Reachable heap root address →
    heap[address]? = some object →
    InertObject object ∧ ∀ value ∈ object.values, InertValue heap value

/-- The loop ends on a graph of inert data. -/
theorem commits_copyPending
    {fuel done : Nat} {before : SnapshotState} (closed : ClosedHeap heap root)
    (graph : InertGraph heap root) (filled : Filled heap root done before)
    (enough : heap.length < done + fuel) :
    ∃ after, Commits (copyPending false fuel done) before () after := by
  induction fuel generalizing done before with
  | zero =>
    have := filled.bound
    have := filled.length_pending_le
    omega
  | succ fuel ih =>
    cases isEntry : before.pending[done]? with
    | none =>
      refine ⟨before, commits_bind.mpr ⟨_, before, commits_select.mpr ⟨rfl, rfl⟩, ?_⟩⟩
      simp only [isEntry, commits_pure, and_self]
    | some entry =>
      obtain ⟨copied, committed⟩ :
          ∃ copied, Commits (copyObject false entry.1 entry.2) before () copied := by
        have isMemo := (filled.snap.clone_at isEntry).2
        have found : HeapValue.object entry.1 ∈
            seenOf heap root (before.pending.take done) :=
          (filled.snap.found entry.1).mp ((OrderedMap.has_iff _ _).mpr ⟨_, isMemo⟩)
        obtain ⟨object, isObject, -⟩ := filled.inert _ found
        obtain ⟨objectInert, valuesInert⟩ :=
          graph.objects entry.1 object (filled.reach entry.1 found) isObject
        obtain ⟨clones, isHeap, -⟩ := filled.snap.clones
        have hereObject : before.heap[entry.1]? = some object := by
          rw [isHeap, getElem?_of_clones (List.getElem?_eq_some_iff.mp isObject).1, isObject]
        obtain ⟨copied, middle, commits⟩ :=
          (copies_copyContents objectInert).commits heap _ before valuesInert filled.snap
        refine ⟨noteClone entry.2 copied
            { middle with heap := middle.heap.set entry.2 copied },
          commits_bind.mpr ⟨_, before, commits_select.mpr ⟨rfl, rfl⟩, ?_⟩⟩
        simp only [hereObject, commits_bind, commits_update]
        exact ⟨copied, middle, commits, (), _, rfl, rfl⟩
      obtain ⟨after, rest⟩ := ih (filled.step closed isEntry committed).1 (by omega)
      refine ⟨after, commits_bind.mpr ⟨_, before, commits_select.mpr ⟨rfl, rfl⟩, ?_⟩⟩
      simp only [isEntry, commits_bind]
      exact ⟨(), copied, committed, rest⟩

theorem snap_startSnapshot (heap : ObjectHeap) :
    Snap heap [] (startSnapshot heap) :=
  ⟨⟨[], (List.append_nil heap).symm, rfl⟩, rfl, rfl, fun address => by
    simp [startSnapshot, OrderedMap.has], rfl, fun address clone isClone => by
    simp [startSnapshot] at isClone⟩

/-- After the root nothing is copied yet. -/
theorem filled_of_copyValue
    {root owned : HeapValue} {after : SnapshotState} (closed : ClosedHeap heap root)
    (commits : Commits (copyValue false root) (startSnapshot heap) owned after) :
    Filled heap root 0 after ∧ owned = root.rename (placeOf after.memo) := by
  obtain ⟨snap, grows, inert, rfl⟩ := (copies_copyValue root).copied heap []
    (startSnapshot heap) owned after
    (fun address isRoot => closed.root address (List.mem_singleton.mp isRoot).symm)
    (snap_startSnapshot heap) commits
  refine ⟨⟨Nat.zero_le _, rfl, snap, inert, fun address isRoot => ?_,
    fun _ impossible => absurd impossible List.not_mem_nil, grows.noted.1,
    grows.noted.2.2, fun clone => ?_⟩, rfl⟩
  · exact .root (List.mem_singleton.mp isRoot).symm
  · rw [grows.noted.2.1]
    rfl

/-- What is seen of a queue that holds every object it sees is what can be reached. -/
theorem mem_seenOf_iff_reachable
    (queued : ∀ address, .object address ∈ seenOf heap root entries →
      ∃ clone, (address, clone) ∈ entries)
    (reach : ∀ address, .object address ∈ seenOf heap root entries →
      Reachable heap root address)
    (address : Nat) :
    .object address ∈ seenOf heap root entries ↔ Reachable heap root address := by
  refine ⟨reach address, fun reachable => ?_⟩
  induction reachable with
  | root isRoot => exact isRoot ▸ List.mem_cons_self
  | @child parent address object _ isObject isValue ih =>
    obtain ⟨clone, isEntry⟩ := queued parent ih
    refine List.mem_cons_of_mem _ (List.mem_flatMap.mpr ⟨_, isEntry, ?_⟩)
    rw [valuesAt, isObject]
    exact isValue

/-- What a complete loop has found is what can be reached. -/
theorem Filled.found_iff (filled : Filled heap root state.pending.length state) (address : Nat) :
    state.memo.has address = true ↔ Reachable heap root address := by
  have found := filled.snap.found
  have reach := filled.reach
  rw [List.take_length] at found reach
  rw [found]
  refine mem_seenOf_iff_reachable (fun other isSeen => ?_) reach address
  obtain ⟨clone, isClone⟩ := (OrderedMap.has_iff _ _).mp ((found other).mpr isSeen)
  have isEntry := (OrderedMap.mem_entries_iff _ _ _).mpr isClone
  rw [filled.snap.memo] at isEntry
  exact ⟨clone, isEntry⟩

/-- The order in which a walk finds what can be reached. -/
def foundOrder (heap : ObjectHeap)
    (root : HeapValue) : List Nat :=
  (foundAfter heap root heap.length).elements

theorem eq_foundOrder
    {queue : List Nat} (isQueue : queue = (foundAfter heap root queue.length).elements)
    (inHeap : queue.length ≤ heap.length) :
    queue = foundOrder heap root := by
  have isDone : (foundAfter heap root queue.length).size ≤ queue.length := by
    rw [OrderedSet.size, ← isQueue]
  have final := breadthFirst.eq_of_size_le isDone inHeap
  rw [foundOrder]
  change _ = (breadthFirst _ _ heap.length).elements
  rw [final]
  exact isQueue

/-- A complete loop has its objects in the order of the walk. -/
theorem Filled.order (filled : Filled heap root state.pending.length state) :
    state.pending.map Prod.fst = foundOrder heap root := by
  apply eq_foundOrder
  · rw [List.length_map, filled.turns]
    exact filled.snap.order
  · rw [List.length_map]
    exact filled.length_pending_le

/-! ## Who holds an object -/

/-- An object holds another one in the source slot of a media node and nowhere
else. -/
structure HoldsAsSource (object : HeapObject)
    (address : Nat) : Prop where
  entries : .object address ∉ object.entries
  slot : ∀ key, object.field key = some (.object address) →
    isMediaNode object = true ∧ key = sourceKey

/-- Objects of kind `base64` are held by source slots of media nodes only. -/
def SealedSources (heap : ObjectHeap)
    (root : HeapValue) : Prop :=
  ∀ address object, Reachable heap root address →
    heap[address]? = some object →
    isBase64Kind object = true →
    root ≠ .object address ∧
      ∀ parent holder, Reachable heap root parent →
        heap[parent]? = some holder →
        HoldsAsSource holder address

theorem count_values (object : HeapObject) (value : HeapValue) :
    object.values.count value =
      object.entries.count value +
        ((object.properties.delete sourceKey).values.map HeapProperty.value).count value +
        if object.field sourceKey = some value then 1 else 0 := by
  have counted := object.properties.countP_values
    (fun property => property.value == value) sourceKey
  have isField : (object.properties.get sourceKey).any
        (fun property => property.value == value) = true ↔
      object.field sourceKey = some value := by
    unfold HeapObject.field
    cases object.properties.get sourceKey with
    | none | some property => simp
  rw [HeapObject.values, List.count_append, List.count_eq_countP, List.count_eq_countP,
    List.count_eq_countP, List.countP_map, List.countP_map]
  simp only [isField] at counted
  simp only [Function.comp_def]
  omega

theorem count_slots (object : HeapObject) (address : Nat) :
    (slots object).count address =
      if isMediaNode object = true ∧ object.field sourceKey = some (.object address) then 1
      else 0 := by
  unfold slots sourceSlot
  cases isMediaNode object with
  | false => simp
  | true =>
    cases isField : object.field sourceKey with
    | none => simp
    | some value => cases value <;> simp [HeapValue.address?, List.count_singleton]

/-- An object has as many edges into another one as it has source slots for it
exactly if it holds it as a source. -/
theorem count_slots_le (object : HeapObject) (address : Nat) :
    (slots object).count address ≤ object.values.count (.object address) ∧
      (object.values.count (.object address) = (slots object).count address ↔
        HoldsAsSource object address) := by
  rw [count_values, count_slots]
  have inShape : object.entries.count (.object address) = 0 ↔
      .object address ∉ object.entries := List.count_eq_zero
  have inOthers :
      ((object.properties.delete sourceKey).values.map HeapProperty.value).count
          (.object address) = 0 ↔
        ∀ key, object.field key = some (.object address) → key = sourceKey := by
    rw [List.count_eq_zero, List.mem_map]
    constructor
    · intro absent key isField
      by_contra different
      obtain ⟨property, isProperty, isValue⟩ := Option.map_eq_some_iff.mp isField
      refine absent ⟨property, (OrderedMap.mem_values_iff _ _).mpr ⟨key, ?_⟩, isValue⟩
      rw [OrderedMap.get_delete_of_ne _ different]
      exact isProperty
    · rintro only ⟨property, isValue, isObject⟩
      obtain ⟨key, isProperty⟩ := (OrderedMap.mem_values_iff _ _).mp isValue
      rw [OrderedMap.get_delete] at isProperty
      split at isProperty
      · cases isProperty
      · rename_i different
        exact different (only key (by rw [HeapObject.field, isProperty, ← isObject]; rfl))
  have holds : HoldsAsSource object address ↔
      .object address ∉ object.entries ∧
        (∀ key, object.field key = some (.object address) → key = sourceKey) ∧
        (object.field sourceKey = some (.object address) → isMediaNode object = true) := by
    constructor
    · intro held
      exact ⟨held.entries, fun key isField => (held.slot key isField).2,
        fun isField => (held.slot _ isField).1⟩
    · rintro ⟨shape, only, media⟩
      exact ⟨shape, fun key isField => by
        obtain rfl := only key isField
        exact ⟨media isField, rfl⟩⟩
  rw [holds, ← inShape, ← inOthers]
  by_cases isField : object.field sourceKey = some (.object address)
  · by_cases isMedia : isMediaNode object = true
    · simp [isField, isMedia]
    · simp [isField, isMedia]
  · simp [isField]

/-- The edges of a graph into an object are its source slots exactly if it is held
as a source only. -/
theorem count_seenOf_eq_iff {address : Nat} :
    (seenOf heap root entries).count (.object address) =
        (slotsOf heap entries).count address ↔
      root ≠ .object address ∧
        ∀ entry ∈ entries, ∀ holder, heap[entry.1]? = some holder →
          HoldsAsSource holder address := by
  obtain ⟨sumLe, sumEq⟩ := @sum_map_eq_iff_of_le _ entries
    (fun entry => (slotsAt heap entry.1).count address)
    (fun entry => (valuesAt heap entry.1).count (.object address)) (by
      intro entry _
      unfold slotsAt valuesAt
      cases heap[entry.1]? with
      | none => simp
      | some holder => exact (count_slots_le holder address).1)
  have each : (∀ entry ∈ entries, (valuesAt heap entry.1).count (.object address) =
        (slotsAt heap entry.1).count address) ↔
      ∀ entry ∈ entries, ∀ holder, heap[entry.1]? = some holder →
        HoldsAsSource holder address := by
    refine forall₂_congr fun entry _ => ?_
    unfold slotsAt valuesAt
    cases heap[entry.1]? with
    | none => simp
    | some holder =>
      simp only [Option.map_some, Option.getD_some, Option.some.injEq, forall_eq']
      exact (count_slots_le holder address).2
  rw [seenOf, slotsOf, List.count_cons, List.count_flatMap, List.count_flatMap, ← each, ← sumEq]
  simp only [Function.comp_def, beq_iff_eq]
  by_cases isRoot : root = .object address
  · simp only [isRoot, if_true, ne_eq, not_true_eq_false, false_and, iff_false]
    omega
  · simp [isRoot]

/-- Sources are sealed if every object of kind `base64` has as many edges as source
slots. -/
theorem sealedSources_iff_counts
    (complete : ∀ address, Reachable heap root address ↔
      ∃ clone, (address, clone) ∈ entries) :
    SealedSources heap root ↔
      ∀ entry ∈ entries, heap[entry.1]?.any isBase64Kind = true →
        (seenOf heap root entries).count (.object entry.1) =
          (slotsOf heap entries).count entry.1 := by
  constructor
  · intro sealed entry isEntry isBase64
    obtain ⟨object, isObject, isBase64⟩ := (Option.any_eq_true _ _).mp isBase64
    obtain ⟨notRoot, holders⟩ :=
      sealed entry.1 object ((complete entry.1).mpr ⟨entry.2, isEntry⟩) isObject isBase64
    refine count_seenOf_eq_iff.mpr ⟨notRoot, fun other isOther holder isHolder => ?_⟩
    exact holders other.1 holder ((complete other.1).mpr ⟨other.2, isOther⟩) isHolder
  · intro counted address object reachable isObject isBase64
    obtain ⟨clone, isEntry⟩ := (complete address).mp reachable
    obtain ⟨notRoot, holders⟩ := count_seenOf_eq_iff.mp
      (counted _ isEntry (by simp [isObject, isBase64]))
    refine ⟨notRoot, fun parent holder parentReachable isHolder => ?_⟩
    obtain ⟨parentClone, isParent⟩ := (complete parent).mp parentReachable
    exact holders _ isParent holder isHolder

/-- A count that is missing differs from one that is not zero. -/
theorem get_eq_iff_counts
    {counts : OrderedMap Nat Nat} {key count other : Nat}
    (isCount : (counts.get key).getD 0 = other) (some : 0 < count) :
    Option.some count = counts.get key ↔ count = other := by
  cases isStored : counts.get key with
  | none =>
    rw [isStored, Option.getD_none] at isCount
    simp only [reduceCtorEq, false_iff]
    omega
  | some stored =>
    rw [isStored, Option.getD_some] at isCount
    rw [Option.some.injEq, isCount]

theorem Filled.check_iff (filled : Filled heap root state.pending.length state) :
    (∀ clone ∈ state.loose,
        state.incoming.get clone = state.sourceEdges.get clone) ↔
      SealedSources heap root := by
  have snap := filled.snap
  have sourceEdges := filled.sourceEdges
  have loose := filled.loose
  rw [List.take_length] at snap sourceEdges loose
  have isPending : ∀ address, Reachable heap root address ↔
      ∃ clone, (address, clone) ∈ state.pending := by
    intro address
    rw [← filled.found_iff, OrderedMap.has_iff, ← snap.memo]
    exact exists_congr fun clone => (OrderedMap.mem_entries_iff _ _ _).symm
  -- What the check says about one loose object.
  have one : ∀ entry ∈ state.pending,
      (state.incoming.get entry.2 = state.sourceEdges.get entry.2 ↔
        (seenOf heap root state.pending).count (.object entry.1) =
          (slotsOf heap state.pending).count entry.1) := by
    intro entry isEntry
    have isClone : state.memo.get entry.1 = some entry.2 := by
      rw [← snap.memo] at isEntry
      exact (OrderedMap.mem_entries_iff _ _ _).mp isEntry
    have found :=
      (snap.found entry.1).mp ((OrderedMap.has_iff _ _).mpr ⟨entry.2, isClone⟩)
    have isPlace : placeOf state.memo entry.1 = entry.2 := by rw [placeOf, isClone]; rfl
    have slotCount := sourceEdges entry.2
    rw [← isPlace, count_map_of_injOn, isPlace] at slotCount
    · rw [snap.incoming entry.1 entry.2 isClone]
      exact get_eq_iff_counts slotCount (List.count_pos_iff.mpr found)
    · intro other isSlot samePlace
      obtain ⟨otherClone, isOther⟩ := (OrderedMap.has_iff _ _).mp
        ((snap.found other).mpr (mem_seenOf_of_slotsOf isSlot root))
      rw [isPlace, placeOf, isOther, Option.getD_some] at samePlace
      exact snap.injective (samePlace ▸ isOther) isClone
  rw [loose, sealedSources_iff_counts isPending]
  constructor
  · intro checked entry isEntry isBase64
    exact (one entry isEntry).mp (checked entry.2
      (List.mem_map.mpr ⟨entry, List.mem_filter.mpr ⟨isEntry, isBase64⟩, rfl⟩))
  · intro counted clone isLoose
    obtain ⟨entry, isKept, rfl⟩ := List.mem_map.mp isLoose
    obtain ⟨isEntry, isBase64⟩ := List.mem_filter.mp isKept
    exact (one entry isEntry).mpr (counted entry isEntry isBase64)

/-! ## The whole snapshot -/

/-- A copy of a graph beside it. -/
structure GraphCopy
    (heap : ObjectHeap) (root : HeapValue) (place : Nat → Nat) (snapshot : MediaSnapshot)
    (after : ObjectHeap) : Prop where
  inert : InertGraph heap root
  sealed : SealedSources heap root
  beside : ∃ clones, after = heap ++ clones
  value : snapshot.value = root.rename place
  placed : ∀ address, Reachable heap root address →
    heap.length ≤ place address ∧ place address < after.length
  injective : ∀ first second, Reachable heap root first → Reachable heap root second →
    place first = place second → first = second
  copied : ∀ address object, Reachable heap root address →
    heap[address]? = some object →
    after[place address]? = some (object.rename place)
  nodes : snapshot.nodes =
    ((foundOrder heap root).filter fun address => heap[address]?.any isMediaNode).map place

/-- A complete loop has made a copy. -/
theorem Filled.graphCopy
    (filled : Filled heap root state.pending.length state) (sealed : SealedSources heap root) :
    GraphCopy heap root (placeOf state.memo)
      { value := root.rename (placeOf state.memo), nodes := state.nodes } state.heap := by
  have found := filled.found_iff
  have snap := filled.snap
  have inert := filled.inert
  have copied := filled.copied
  have nodes := filled.nodes
  rw [List.take_length] at inert copied nodes
  obtain ⟨clones, isHeap, isLength⟩ := snap.clones
  have entryOf : ∀ address, Reachable heap root address →
      state.memo.get address = some (placeOf state.memo address) ∧
        (address, placeOf state.memo address) ∈ state.pending := by
    intro address reachable
    obtain ⟨clone, isClone⟩ := (OrderedMap.has_iff _ _).mp ((found address).mpr reachable)
    have isPlace : placeOf state.memo address = clone := by rw [placeOf, isClone]; rfl
    rw [isPlace, ← snap.memo]
    exact ⟨isClone, (OrderedMap.mem_entries_iff _ _ _).mpr isClone⟩
  refine ⟨⟨inert root List.mem_cons_self, fun address object reachable isObject => ?_⟩,
    sealed, ⟨clones, isHeap⟩, rfl, fun address reachable => ?_,
    fun first second firstReachable secondReachable samePlace => ?_,
    fun address object reachable isObject => ?_, ?_⟩
  · obtain ⟨other, isOther, objectInert, -⟩ := copied _ (entryOf address reachable).2
    obtain rfl : other = object := Option.some.inj (isOther.symm.trans isObject)
    refine ⟨objectInert, fun value isValue => inert value ?_⟩
    refine List.mem_cons_of_mem _ (List.mem_flatMap.mpr ⟨_, (entryOf address reachable).2, ?_⟩)
    rw [valuesAt, isObject]
    exact isValue
  · have bounds := snap.place_ge (entryOf address reachable).1
    rw [isHeap, List.length_append, isLength]
    exact bounds
  · exact snap.injective (entryOf first firstReachable).1
      (samePlace ▸ (entryOf second secondReachable).1)
  · obtain ⟨other, isOther, -, isCopied⟩ := copied _ (entryOf address reachable).2
    obtain rfl : other = object := Option.some.inj (isOther.symm.trans isObject)
    exact isCopied
  · rw [← filled.order, List.filter_map, List.map_map, nodes]
    refine List.map_congr_left fun entry isEntry => ?_
    have isPending := List.mem_of_mem_filter isEntry
    rw [← snap.memo, OrderedMap.mem_entries_iff] at isPending
    rw [Function.comp_apply, placeOf, isPending, Option.getD_some]

theorem graphCopy_of_takeSnapshot
    {snapshot : MediaSnapshot} {after : SnapshotState} (closed : ClosedHeap heap root)
    (commits : Commits (takeSnapshot root false heap.length) (startSnapshot heap) snapshot
      after) :
    ∃ place, GraphCopy heap root place snapshot after.heap := by
  simp only [takeSnapshot, commits_bind, commits_select, commits_require, commits_pure,
    Bool.false_eq_true, false_or] at commits
  obtain ⟨owned, first, rootCopied, _, final, looped, _, _, ⟨rfl, rfl⟩, _, _,
    ⟨checked, rfl⟩, rfl, rfl⟩ := commits
  obtain ⟨filledRoot, rfl⟩ := filled_of_copyValue closed rootCopied
  obtain ⟨filled, kept⟩ := filled_of_copyPending closed filledRoot looped
  have copy := filled.graphCopy (filled.check_iff.mp checked)
  have samePlace : root.rename (placeOf first.memo) = root.rename (placeOf final.memo) := by
    refine HeapValue.rename_congr fun address isRoot => ?_
    obtain ⟨clone, isClone⟩ := (OrderedMap.has_iff _ _).mp
      ((filledRoot.snap.found address).mpr (isRoot ▸ List.mem_cons_self))
    rw [placeOf, placeOf, isClone, kept address clone isClone]
  rw [← samePlace] at copy
  exact ⟨_, copy⟩

theorem commits_takeSnapshot
    (closed : ClosedHeap heap root) (inert : InertGraph heap root)
    (sealed : SealedSources heap root) :
    ∃ snapshot after,
      Commits (takeSnapshot root false heap.length) (startSnapshot heap) snapshot after := by
  obtain ⟨owned, first, rootCopied⟩ := (copies_copyValue root).commits heap []
    (startSnapshot heap) (fun value isRoot => List.mem_singleton.mp isRoot ▸ inert.rootInert)
    (snap_startSnapshot heap)
  obtain ⟨filledRoot, rfl⟩ := filled_of_copyValue closed rootCopied
  obtain ⟨final, looped⟩ := @commits_copyPending heap root (heap.length + 1) 0 first closed
    inert filledRoot (by omega)
  have filled := (filled_of_copyPending closed filledRoot looped).1
  refine ⟨{ value := root.rename (placeOf first.memo), nodes := final.nodes }, final, ?_⟩
  simp only [takeSnapshot, commits_bind, commits_select, commits_require, commits_pure,
    Bool.false_eq_true, false_or]
  exact ⟨_, first, rootCopied, (), final, looped, final, final, ⟨rfl, rfl⟩, (), final,
    ⟨filled.check_iff.mpr sealed, rfl⟩, rfl, rfl⟩

/-- A snapshot is taken exactly of inert data with sealed sources. -/
theorem snapshotMediaValue_ok_iff (closed : ClosedHeap heap root) :
    (∃ snapshot, (snapshotMediaValue root false heap).1 = .ok snapshot) ↔
      InertGraph heap root ∧ SealedSources heap root := by
  constructor
  · rintro ⟨snapshot, taken⟩
    obtain ⟨place, copy⟩ := @graphCopy_of_takeSnapshot heap root snapshot _ closed
      (Prod.ext taken rfl)
    exact ⟨copy.inert, copy.sealed⟩
  · rintro ⟨inert, sealed⟩
    obtain ⟨snapshot, after, taken⟩ := commits_takeSnapshot closed inert sealed
    exact ⟨snapshot, congrArg Prod.fst taken⟩

end Relavium.Shared
