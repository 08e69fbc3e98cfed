import Relavium.Library.OrderedSet
import Relavium.Shared.MediaSnapshot

/-!
# Collecting descriptors from a media graph

`collectMediaForAdmission` visits the graph of a value in place, breadth first.
It counts the edges into every object, admits the descriptor of every media node
as soon as it has visited what the node holds, and reconciles the descriptors
when the whole graph has passed.  An unsafe graph is refused before any of its
descriptors is.
-/

namespace Relavium.Shared

open Library
open Library.Statements

/-- The fields of media nodes and of their sources. -/
def handleKey : JsString := jsText "handle"
def refKey : JsString := jsText "ref"
def mimeTypeKey : JsString := jsText "mimeType"
def byteLengthKey : JsString := jsText "byteLength"
def durationMsKey : JsString := jsText "durationMs"

/-- A finite number as an integer guard sees it. -/
def integerOf (value : Binary64) : Quantity :=
  let sign : Int := if value.negative then -1 else 1
  if 0 ≤ value.exponent then
    .integer (sign * (value.mantissa * 2 ^ value.exponent.toNat : Nat))
  else if value.mantissa % 2 ^ (-value.exponent).toNat = 0 then
    .integer (sign * (value.mantissa / 2 ^ (-value.exponent).toNat : Nat))
  else
    .nonInteger

/-- A number as an integer guard sees it. -/
def quantityOf : JsNumber → Quantity
  | .finite value => integerOf value
  | .infinity _ => .nonInteger
  | .notANumber => .nonInteger

/-- The value of a field as admission sees it. -/
def descriptorValueOf : Option HeapValue → DescriptorValue
  | some (.string text) => .string text
  | some (.number value) => .number (quantityOf value)
  | _ => .other

/-- What reflection finds under a key of an object. -/
abbrev Reflection := Nat → JsString → OwnProperty HeapValue

/-- Reflection on a heap. -/
def reflect (heap : ObjectHeap) : Reflection :=
  fun address key =>
    match heap[address]? with
    | none => .absent
    | some object =>
      match object.field key with
      | some value => .data value
      | none => if key ∈ object.accessors then .accessor else .absent

/-- The modality that goes with the text of a MIME type. -/
def modalityOfText (mimeType : JsString) : MediaModality :=
  let lower := JsText.lowerLatin mimeType
  if (jsText "image/").isPrefixOf lower then .image
  else if (jsText "audio/").isPrefixOf lower then .audio
  else if (jsText "video/").isPrefixOf lower then .video
  else .document

/-- The modality of a descriptor, which is missing without a MIME type. -/
def modalityField : Option HeapValue → DescriptorValue
  | some (.string mimeType) => .string (modalityOfText mimeType).text
  | _ => .other

/-- A field that is there only if the node has it. -/
def fieldIfPresent (property : OwnProperty HeapValue) :
    Except MediaAdmissionErrorCode (OwnProperty DescriptorValue) :=
  if mediaHasField property then do
    let value ← mediaDataField property
    pure (.data (descriptorValueOf value))
  else
    pure .absent

/-- The descriptor of a media node, admitted.  The source has to be a handle. -/
def admitNode (read : Reflection)
    (node : Nat) : Except MediaAdmissionErrorCode DurableMediaMeta := do
  let source ← mediaDataField (read node sourceKey)
  match source.bind HeapValue.address? with
  | none => .error .invalidDescriptor
  | some source =>
    let kind ← mediaDataField (read source kindKey)
    Library.require .invalidDescriptor (kind = some (.string handleKey))
    let mimeType ← mediaDataField (read node mimeTypeKey)
    let handle ← mediaDataField (read source refKey)
    let byteLength ← mediaDataField (read node byteLengthKey)
    let durationMs ← fieldIfPresent (read node durationMsKey)
    admitMediaDescriptor
      (.object
        { handle := .data (descriptorValueOf handle)
          mimeType := .data (descriptorValueOf mimeType)
          modality := .data (modalityField mimeType)
          byteLength := .data (descriptorValueOf byteLength)
          durationMs })

/-- An admitted descriptor, offered again. -/
def offerAgain (item : DurableMediaMeta) : DescriptorInput :=
  .object
    { handle := .data (.string item.handle)
      mimeType := .data (.string item.mimeType.text)
      modality := .data (.string item.modality.text)
      byteLength := .data (.number (.integer item.byteLength.value))
      durationMs :=
        match item.durationMs with
        | some duration => .data (.number (.integer duration.value))
        | none => .absent }

/-- A list of admitted descriptors as a batch. -/
def batchOfItems (items : List DurableMediaMeta) : DescriptorBatch :=
  .array (items.map fun item => .data (offerAgain item))

/-! ## The walk -/

/-- What `collectMediaForAdmission` keeps while it runs. -/
structure AdmissionWalk where
  visited : OrderedSet Nat
  pending : List Nat
  incoming : OrderedMap Nat Nat
  sourceEdges : OrderedMap Nat Nat
  loose : List Nat
  items : List DurableMediaMeta
  descriptorFailure : Option MediaAdmissionErrorCode

abbrev WalkStatements :=
  Statements AdmissionWalk MediaAdmissionErrorCode

/-- One more edge into an object, which is queued when it is new. -/
def meet (source : Nat)
    (walk : AdmissionWalk) : AdmissionWalk :=
  { walk with
    incoming := bump walk.incoming source
    visited := walk.visited.add source
    pending := if source ∈ walk.visited then walk.pending else walk.pending ++ [source] }

/-- `visit`. -/
def visit (heap : ObjectHeap)
    (item : HeapValue) : WalkStatements Unit := do
  match ← ofExcept (mediaContainer item false heap) with
  | none => pure ()
  | some source => update (meet source)

/-- The entries of a node that inherits from a collection.  The methods of a
collection throw on what has no such entries. -/
def visitEntries (heap : ObjectHeap)
    (object : HeapObject) : WalkStatements Unit :=
  if object.instanceOf .map then
    match object.slots with
    | .map entries => (ObjectSlots.map entries).values.forM (visit heap)
    | _ => refuse .unsafeValue
  else if object.instanceOf .set then
    match object.slots with
    | .set elements => elements.forM (visit heap)
    | _ => refuse .unsafeValue
  else pure ()

/-- What is noted about a node. -/
def noteNode (node : Nat) (object : HeapObject)
    (walk : AdmissionWalk) : AdmissionWalk :=
  { walk with
    loose := if isBase64Kind object then walk.loose ++ [node] else walk.loose
    sourceEdges :=
      match isMediaNode object, sourceSlot object with
      | true, some source => bump walk.sourceEdges source
      | _, _ => walk.sourceEdges }

/-- The descriptor of a media node is kept, or the first failure is.  What is unsafe
ends the walk. -/
def admitInPlace (read : Reflection)
    (node : Nat) : WalkStatements Unit :=
  match admitNode read node with
  | .ok item => update fun walk => { walk with items := walk.items ++ [item] }
  | .error .unsafeValue => refuse .unsafeValue
  | .error code =>
    update fun walk =>
      { walk with descriptorFailure := walk.descriptorFailure.or (some code) }

/-- One turn of the loop over the pending objects. -/
def walkNode (read : Reflection) (heap : ObjectHeap)
    (node : Nat) : WalkStatements Unit := do
  match heap[node]? with
  | none => refuse .unsafeValue
  | some object =>
    visitEntries heap object
    Statements.require (keysPass object false = true) .unsafeValue
    (object.properties.values.map HeapProperty.value).forM (visit heap)
    update (noteNode node object)
    if isMediaNode object then admitInPlace read node

/-- The loop over the pending objects, which grow while it runs. -/
def walkPending (read : Reflection)
    (heap : ObjectHeap) : Nat → Nat → WalkStatements Unit
  | 0, _ => refuse .unsafeValue
  | fuel + 1, index => do
      match (← select AdmissionWalk.pending)[index]? with
      | none => pure ()
      | some node =>
        walkNode read heap node
        walkPending read heap fuel (index + 1)

/-- The walk through the whole graph, with the check of its aliases. -/
def walkGraph (read : Reflection) (heap : ObjectHeap)
    (root : HeapValue) : WalkStatements Unit := do
  visit heap root
  -- Every object is found once at most.
  walkPending read heap (heap.length + 1) 0
  let walk ← select id
  Statements.require (∀ node ∈ walk.loose, walk.incoming.get node = walk.sourceEdges.get node)
    .unsafeValue

/-- What the walk starts with. -/
def startWalk : AdmissionWalk where
  visited := .empty
  pending := []
  incoming := .empty
  sourceEdges := .empty
  loose := []
  items := []
  descriptorFailure := none

/-- `collectMediaForAdmission`. -/
def collectMediaForAdmission (root : HeapValue)
    (heap : ObjectHeap) : Except MediaAdmissionErrorCode (List DurableMediaMeta) :=
  match walkGraph (reflect heap) heap root startWalk with
  | (.error _, _) => .error .unsafeValue
  | (.ok (), walk) =>
    match walk.descriptorFailure with
    | some failure => .error failure
    | none => reconcileMediaDescriptors (batchOfItems walk.items)

/-- The descriptors of the nodes that a snapshot lists, admitted in order and then
reconciled. -/
def admitSnapshotNodes (snapshot : MediaSnapshot)
    (heap : ObjectHeap) : Except MediaAdmissionErrorCode (List DurableMediaMeta) := do
  let items ← snapshot.nodes.mapM (admitNode (reflect heap))
  reconcileMediaDescriptors (batchOfItems items)

end Relavium.Shared
