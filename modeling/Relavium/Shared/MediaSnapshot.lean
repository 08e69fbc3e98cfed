import Relavium.Library.ObjectHeap
import Relavium.Library.Transaction
import Relavium.Shared.MediaDescriptor

/-!
# Snapshots of media graphs

`snapshotMediaValue` copies the graph of a value object by object, breadth
first, into fresh objects.  It refuses what is not inert data, and counts the
edges into every object: an object of kind `base64` may be held by the source
slots of media nodes and by nothing else.
-/

namespace Relavium.Shared

open Library
open Library.Statements

/-- The source slot and the discriminants of media objects. -/
def mediaKey : JsString := jsText "media"
def typeKey : JsString := jsText "type"
def kindKey : JsString := jsText "kind"
def sourceKey : JsString := jsText "source"
def base64Key : JsString := jsText "base64"

/-- `isBase64DataUri`: what stands before the first comma ends in `;base64`. -/
def isBase64DataUri (value : JsString) : Bool :=
  match JsText.afterStart (jsText "data:") (JsText.lowerLatin value) with
  | some rest =>
    (jsText ";base64").isSuffixOf (rest.takeWhile (· ≠ 0x2C)) &&
      !(rest.dropWhile (· ≠ 0x2C)).isEmpty
  | none => false

/-- The object is a media node. -/
def isMediaNode (object : HeapObject) : Bool :=
  object.field typeKey = some (.string mediaKey)

/-- The object is of kind `base64`. -/
def isBase64Kind (object : HeapObject) : Bool :=
  object.field kindKey = some (.string base64Key)

/-- The object in the source slot. -/
def sourceSlot (object : HeapObject) : Option Nat :=
  (object.field sourceKey).bind HeapValue.address?

/-- What `snapshotMediaValue` keeps while it runs, with the heap it writes to. -/
structure SnapshotState where
  heap : ObjectHeap
  memo : OrderedMap Nat Nat
  /-- Sources with their clones, in the order in which they were found. -/
  pending : List (Nat × Nat)
  incoming : OrderedMap Nat Nat
  nodes : List Nat
  sourceEdges : OrderedMap Nat Nat
  loose : List Nat

abbrev SnapshotStatements :=
  Statements SnapshotState MediaAdmissionErrorCode

/-- `isBinaryBuffer`. -/
def isBinaryBuffer (object : HeapObject) : Bool :=
  object.slots = .view || object.instanceOf .buffer

/-- Whether `mediaContainer` lets an object pass that is no buffer. -/
def isContainer (object : HeapObject) : Bool :=
  object.isArray || object.instanceOf .map || object.instanceOf .set ||
    object.prototypes.head? = some .object || object.prototypes.head? = none

/-- `mediaContainer`: the object that is to be copied, if the value is one. -/
def mediaContainer (value : HeapValue) (countOnly : Bool)
    (heap : ObjectHeap) : Except MediaAdmissionErrorCode (Option Nat) :=
  match value with
  | .string text =>
    if countOnly = false ∧ isBase64DataUri text then .error .unsafeValue else .ok none
  | .function | .symbol => if countOnly then .ok none else .error .unsafeValue
  | .object address =>
    match heap[address]? with
    | none => .error .unsafeValue
    | some object =>
      if isBinaryBuffer object then
        if countOnly then .ok none else .error .unsafeValue
      else if isContainer object then .ok (some address)
      else .error .unsafeValue
  | _ => .ok none

/-- The clone of an object before anything is copied into it. -/
def blankOf (object : HeapObject) : HeapObject where
  slots :=
    match object.kind with
    | .array => .array 0
    | .map => .map []
    | .set => .set []
    | .plain => .ordinary
  prototypes := object.kind.prototypes
  properties := .empty
  accessors := []
  symbols := []

/-- One more edge into a clone. -/
def bump (counts : OrderedMap Nat Nat)
    (clone : Nat) : OrderedMap Nat Nat :=
  counts.set clone ((counts.get clone).getD 0 + 1)

/-- A blank clone of an object, which is next in the queue. -/
def addClone (source : Nat)
    (state : SnapshotState) : SnapshotState :=
  { state with
    heap := state.heap ++ (state.heap[source]?.map blankOf).toList
    memo := state.memo.set source state.heap.length
    pending := state.pending ++ [(source, state.heap.length)]
    incoming := state.incoming.set state.heap.length 1 }

/-- An object is given its clone, and counts one more edge into it. -/
def copyReference
    (source : Nat) : SnapshotStatements HeapValue := do
  let state ← select id
  match state.memo.get source with
  | some prior =>
    update fun state => { state with incoming := bump state.incoming prior }
    pure (.object prior)
  | none =>
    update (addClone source)
    pure (.object state.heap.length)

/-- `copy`: a primitive as it is, an object as its clone. -/
def copyValue (countOnly : Bool)
    (item : HeapValue) : SnapshotStatements HeapValue := do
  let heap ← select SnapshotState.heap
  match ← ofExcept (mediaContainer item countOnly heap) with
  | none => pure item
  | some source => copyReference source

/-- The entries of a collection, copied in order. -/
def copySlots
    (countOnly : Bool) : ObjectSlots → SnapshotStatements ObjectSlots
  | .map entries => do
      let copied ← entries.mapM fun entry => do
        let key ← copyValue countOnly entry.1
        let value ← copyValue countOnly entry.2
        pure (key, value)
      pure (.map copied)
  | .set elements => do
      let copied ← elements.mapM (copyValue countOnly)
      pure (.set copied)
  | slots => pure slots

/-- The entries of the object, if it and its clone are collections.  The methods of a
collection throw on what has no such entries. -/
def copyEntries (countOnly : Bool)
    (object : HeapObject) : SnapshotStatements ObjectSlots :=
  if object.instanceOf .map ∧ (blankOf object).instanceOf .map then
    match object.slots with
    | .map entries => copySlots countOnly (.map entries)
    | _ => refuse .unsafeValue
  else if object.instanceOf .set ∧ (blankOf object).instanceOf .set then
    match object.slots with
    | .set elements => copySlots countOnly (.set elements)
    | _ => refuse .unsafeValue
  else
    match object.slots with
    -- The length of an array is one of its own properties.
    | .array length => pure (.array length)
    | _ => pure .ordinary

/-- Whether `forEachMediaProperty` visits the whole object: there is no accessor, and
no symbol but the iterator of a collection.  Where there is one, it is refused alike
wherever it stands among the keys. -/
def keysPass (object : HeapObject)
    (countOnly : Bool) : Bool :=
  let collection := object.instanceOf .map || object.instanceOf .set
  object.accessors.isEmpty &&
    object.symbols.all fun symbol =>
      (collection && symbol.isIterator) || (!symbol.isAccessor && countOnly)

/-- The own properties, copied and defined on the clone in order. -/
def copyProperties (countOnly : Bool) (properties : List (JsString × HeapProperty)) :
    SnapshotStatements (OrderedMap JsString HeapProperty) :=
  properties.foldlM
    (fun clone entry => do
      let value ← copyValue countOnly entry.2.value
      pure (clone.set entry.1 { entry.2 with value }))
    .empty

/-- What is noted about a clone that is complete. -/
def noteClone (clone : Nat) (object : HeapObject)
    (state : SnapshotState) : SnapshotState :=
  { state with
    nodes := if isMediaNode object then state.nodes ++ [clone] else state.nodes
    sourceEdges :=
      match isMediaNode object, sourceSlot object with
      | true, some source => bump state.sourceEdges source
      | _, _ => state.sourceEdges
    loose := if isBase64Kind object then state.loose ++ [clone] else state.loose }

/-- What is copied of an object: its entries and then its own properties. -/
def copyContents (countOnly : Bool)
    (object : HeapObject) : SnapshotStatements HeapObject := do
  let slots ← copyEntries countOnly object
  Statements.require (keysPass object countOnly = true) .unsafeValue
  let properties ← copyProperties countOnly object.properties.entries
  pure
    { slots, prototypes := (blankOf object).prototypes, properties, accessors := [],
      symbols := [] }

/-- One turn of the loop over the pending objects.  The clone is written when all
of it is copied, as nothing reads it before. -/
def copyObject (countOnly : Bool)
    (source clone : Nat) : SnapshotStatements Unit := do
  match (← select SnapshotState.heap)[source]? with
  | none => refuse .unsafeValue
  | some object =>
    let copied ← copyContents countOnly object
    update fun state => { state with heap := state.heap.set clone copied }
    update (noteClone clone copied)

/-- The loop over the pending objects, which grow while it runs. -/
def copyPending
    (countOnly : Bool) : Nat → Nat → SnapshotStatements Unit
  | 0, _ => refuse .unsafeValue
  | fuel + 1, index => do
      match (← select SnapshotState.pending)[index]? with
      | none => pure ()
      | some entry =>
        copyObject countOnly entry.1 entry.2
        copyPending countOnly fuel (index + 1)

/-- `MediaSnapshot`. -/
structure MediaSnapshot where
  value : HeapValue
  nodes : List Nat
  deriving DecidableEq

/-- The statements of `snapshotMediaValue`, on a heap of the given size. -/
def takeSnapshot (value : HeapValue) (countOnly : Bool)
    (size : Nat) : SnapshotStatements MediaSnapshot := do
  let owned ← copyValue countOnly value
  -- Every object is found once at most.
  copyPending countOnly (size + 1) 0
  let state ← select id
  Statements.require
    (countOnly ∨ ∀ clone ∈ state.loose,
      state.incoming.get clone = state.sourceEdges.get clone)
    .unsafeValue
  pure { value := owned, nodes := state.nodes }

/-- What `snapshotMediaValue` starts with. -/
def startSnapshot (heap : ObjectHeap) : SnapshotState where
  heap
  memo := .empty
  pending := []
  incoming := .empty
  nodes := []
  sourceEdges := .empty
  loose := []

/-- `snapshotMediaValue`: the snapshot and the heap with the clones in it. -/
def snapshotMediaValue (value : HeapValue) (countOnly : Bool) (heap : ObjectHeap) :
    Except MediaAdmissionErrorCode MediaSnapshot × ObjectHeap :=
  let (outcome, state) := takeSnapshot value countOnly heap.length (startSnapshot heap)
  (outcome, state.heap)

end Relavium.Shared
