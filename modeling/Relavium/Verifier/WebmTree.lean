import Relavium.Library.TiledTree
import Relavium.Verifier.Webm

/-!
# Trees of EBML elements

What a verified WebM document is: elements whose ids and sizes are EBML numbers
tile it, the elements of the profile are read as trees, and an inspection of the
trees collects the evidence.
-/

namespace Relavium.Verifier
namespace Webm

open Library
open Shared

/-! ## Numbers and headers -/

/-- Bytes with a length marker: after the marker bit there are seven bits of the
number for every byte. -/
structure MarkedNumber (length value : Nat)
    (bytes : Bytes) : Prop where
  isLength : bytes.length = length
  bound : value < 2 ^ (7 * length)
  digits : bigEndian bytes = 2 ^ (7 * length) + value

/-- An id keeps its marker. -/
def IsEbmlId (id : Nat)
    (bytes : Bytes) : Prop :=
  ∃ length value, 1 ≤ length ∧ length ≤ 4 ∧ MarkedNumber length value bytes ∧
    id = 2 ^ (7 * length) + value

/-- A size that is known: not all of its bits are set, and it is exact. -/
def IsEbmlSize (size : Nat)
    (bytes : Bytes) : Prop :=
  ∃ length, 1 ≤ length ∧ length ≤ 8 ∧ MarkedNumber length size bytes ∧
    size ≠ 2 ^ (7 * length) - 1 ∧ size < 2 ^ 53

/-- A size that is not known: all of its bits are set. -/
def IsUnknownSize (bytes : Bytes) : Prop :=
  ∃ length, 1 ≤ length ∧ length ≤ 8 ∧ MarkedNumber length (2 ^ (7 * length) - 1) bytes

/-- The header of an element. -/
def ebmlHeader (id size : Nat)
    (bytes : Bytes) : Prop :=
  ∃ idBytes sizeBytes, bytes = idBytes ++ sizeBytes ∧ IsEbmlId id idBytes ∧
    IsEbmlSize size sizeBytes

/-! ## Elements -/

abbrev Element := TiledTree Nat UInt8

/-- Bytes that are tiled by elements. -/
abbrev ElementTiles (elements : List Element) (bytes : Bytes) : Prop :=
  TiledTree.Tiles ebmlHeader elements bytes

/-- The elements of a document.  The last one may be a segment of unknown size,
which runs to the end. -/
inductive DocumentTiles : List Element → Bytes → Prop
  | closed {elements : List Element} {bytes : Bytes} :
      ElementTiles elements bytes →
      DocumentTiles elements bytes
  | opened {elements children : List Element} {bytes idBytes sizeBytes content : Bytes} :
      ElementTiles elements bytes →
      IsEbmlId segmentId idBytes →
      IsUnknownSize sizeBytes →
      ElementTiles children content →
      DocumentTiles (elements ++ [.master segmentId [] children])
        (bytes ++ (idBytes ++ sizeBytes ++ content))

theorem DocumentTiles.cons
    {element : Element} {rest : List Element} {first bytes : Bytes}
    (encodes : TiledTree.Encodes ebmlHeader element first) (tiles : DocumentTiles rest bytes) :
    DocumentTiles (element :: rest) (first ++ bytes) := by
  cases tiles with
  | closed tiles => exact .closed (.cons encodes tiles)
  | opened tiles isId isSize content =>
    rw [← List.append_assoc]
    exact .opened (.cons encodes tiles) isId isSize content

/-- The elements that are parsed, by the context they stand in. -/
def childContext : WebmContext → Nat → Option WebmContext
  | .root, id =>
    if id = ebmlHeaderId then some .header
    else if id = segmentId then some .segment
    else none
  | .segment, id =>
    if id = tracksId then some .tracks
    else if id = clusterId then some .cluster
    else none
  | .tracks, id => if id = trackEntryId then some .track else none
  | .track, id => if id = videoId then some .video else none
  | .cluster, id => if id = blockGroupId then some .blockGroup else none
  | _, _ => none

/-- The content of a block that names a track: the number of the track, a time,
flags without lacing, and data. -/
def IsBlock (id number : Nat)
    (payload : Bytes) : Prop :=
  ∃ numberBytes time data : Bytes, ∃ flags : UInt8,
    payload = numberBytes ++ (time ++ (flags :: data)) ∧ time.length = 2 ∧ data ≠ [] ∧
      IsEbmlSize number numberBytes ∧ number ≠ 0 ∧
      flags.toNat &&& (if id = simpleBlockId then 0x76 else 0xf7) = 0

/-! ## Inspection -/

/-- The evidence so far, with the track whose fields are read. -/
structure Inspection where
  evidence : WebmEvidence
  track : Option Track

/-- What an element that is not parsed says. -/
inductive ReadsLeaf
    (inspection : Inspection) : WebmContext → Nat → Bytes → Inspection → Prop
  | docType {payload : Bytes} :
      payload.length = 4 →
      ascii payload = jsText "webm" →
      ReadsLeaf inspection .header docTypeId payload
        { inspection with evidence := { inspection.evidence with doc := true } }
  | headerNumber {id : Nat} {payload : Bytes} :
      id ∈ [0x4286, 0x42f7, 0x42f2, 0x42f3, 0x4287, 0x4285] →
      ReadsLeaf inspection .header id payload inspection
  | codec {track : Track} {payload : Bytes} :
      inspection.track = some track →
      ReadsLeaf inspection .track codecId payload
        { inspection with track := some { track with codec := ascii payload } }
  | number {track : Track} {payload : Bytes} :
      inspection.track = some track →
      bigEndian payload ≠ 0 →
      ReadsLeaf inspection .track trackNumberId payload
        { inspection with track := some { track with number := bigEndian payload } }
  | type {track : Track} {payload : Bytes} :
      inspection.track = some track →
      bigEndian payload ≠ 0 →
      ReadsLeaf inspection .track trackTypeId payload
        { inspection with track := some { track with type := bigEndian payload } }
  | width {track : Track} {payload : Bytes} :
      inspection.track = some track →
      bigEndian payload ≠ 0 →
      ReadsLeaf inspection .video widthId payload
        { inspection with track := some { track with width := bigEndian payload } }
  | height {track : Track} {payload : Bytes} :
      inspection.track = some track →
      bigEndian payload ≠ 0 →
      ReadsLeaf inspection .video heightId payload
        { inspection with track := some { track with height := bigEndian payload } }
  | block {id number : Nat} {payload : Bytes} :
      id = simpleBlockId ∨ id = blockId →
      IsBlock id number payload →
      ReadsLeaf inspection (if id = simpleBlockId then .cluster else .blockGroup) id payload
        { inspection with
          evidence :=
            { inspection.evidence with blocks := inspection.evidence.blocks.add number } }
  | skipped {context : WebmContext} {id : Nat} {payload : Bytes} :
      childContext context id = none →
      id ≠ contentEncodingsId →
      ReadsLeaf inspection context id payload inspection

/-- What is known when the children of an element are reached. -/
inductive Enters
    (inspection : Inspection) : WebmContext → Nat → WebmContext → Inspection → Prop
  | header :
      inspection.evidence.header = false →
      Enters inspection .root ebmlHeaderId .header
        ⟨{ inspection.evidence with header := true }, none⟩
  | segment :
      inspection.evidence.segment = false →
      inspection.evidence.header = true →
      Enters inspection .root segmentId .segment
        ⟨{ inspection.evidence with segment := true }, none⟩
  | tracks : Enters inspection .segment tracksId .tracks ⟨inspection.evidence, none⟩
  | entry : Enters inspection .tracks trackEntryId .track ⟨inspection.evidence, some blankTrack⟩
  | video {track : Track} :
      inspection.track = some track →
      Enters inspection .track videoId .video inspection
  | cluster : Enters inspection .segment clusterId .cluster ⟨inspection.evidence, none⟩
  | blockGroup : Enters inspection .cluster blockGroupId .blockGroup ⟨inspection.evidence, none⟩

/-- A track that may be declared. -/
structure CompleteTrack (track : Track) : Prop where
  number : track.number ≠ 0
  type : track.type ≠ 0
  codec : track.codec ≠ []

/-- A video track in the profile. -/
structure SupportedVideo (track : Track) : Prop where
  codec : track.codec ∈ [jsText "V_VP8", jsText "V_VP9", jsText "V_AV1"]
  width : track.width ≠ 0
  height : track.height ≠ 0

/-- The evidence after a track entry. -/
def declared (track : Track)
    (evidence : WebmEvidence) : WebmEvidence :=
  { evidence with
    allTracks := evidence.allTracks.add track.number
    tracks :=
      if track.type = 1 then evidence.tracks.add track.number else evidence.tracks }

/-- What is known after the children of an element. -/
inductive Leaves
    (inspection : Inspection) : WebmContext → Inspection → Inspection → Prop
  | header {inside : Inspection} :
      inside.evidence.doc = true →
      Leaves inspection .header inside ⟨inside.evidence, inspection.track⟩
  | entry {inside : Inspection} {track : Track} :
      inside.track = some track →
      CompleteTrack track →
      track.number ∉ inside.evidence.allTracks →
      (track.type = 1 → SupportedVideo track) →
      Leaves inspection .track inside ⟨declared track inside.evidence, inspection.track⟩
  | video {inside : Inspection} : Leaves inspection .video inside inside
  | other {context : WebmContext} {inside : Inspection} :
      context ∈ [.segment, .tracks, .cluster, .blockGroup] →
      Leaves inspection context inside ⟨inside.evidence, inspection.track⟩

/-- The singletons seen after one more element. -/
def seenAfter (context : WebmContext) (id : Nat)
    (seen : List Nat) : List Nat :=
  if isSingleton context id then id :: seen else seen

/-- An inspection of the children of an element. -/
inductive Inspects :
    WebmContext → Nat → List Nat → Inspection → List Element → Inspection → Prop
  | nil {context : WebmContext} {depth : Nat} {seen : List Nat} {inspection : Inspection} :
      Inspects context depth seen inspection [] inspection
  | leaf {context : WebmContext} {depth id : Nat} {seen : List Nat} {payload : Bytes}
      {rest : List Element} {before middle after : Inspection} :
      depth ≤ 16 →
      (isSingleton context id = true → id ∉ seen) →
      ReadsLeaf before context id payload middle →
      Inspects context depth (seenAfter context id seen) middle rest after →
      Inspects context depth seen before (.leaf id payload :: rest) after
  | master {context below : WebmContext} {depth id : Nat} {seen : List Nat}
      {children rest : List Element} {before start inside middle after : Inspection} :
      depth ≤ 16 →
      (isSingleton context id = true → id ∉ seen) →
      Enters before context id below start →
      Inspects below (depth + 1) [] start children inside →
      Leaves before below inside middle →
      Inspects context depth (seenAfter context id seen) middle rest after →
      Inspects context depth seen before (.master id [] children :: rest) after

/-- One element is handled. -/
def Handles (context : WebmContext) (depth : Nat)
    (before : Inspection) : Element → Inspection → Prop
  | .leaf id payload, after => ReadsLeaf before context id payload after
  | .master id preamble children, after =>
    preamble = [] ∧ ∃ below start inside, Enters before context id below start ∧
      Inspects below (depth + 1) [] start children inside ∧ Leaves before below inside after

theorem Inspects.cons
    {context : WebmContext} {depth : Nat} {seen : List Nat} {element : Element}
    {rest : List Element} {before middle after : Inspection} (bound : depth ≤ 16)
    (isNew : isSingleton context element.tag = true → element.tag ∉ seen)
    (handles : Handles context depth before element middle)
    (inspects : Inspects context depth (seenAfter context element.tag seen) middle rest after) :
    Inspects context depth seen before (element :: rest) after := by
  cases element with
  | leaf id payload => exact .leaf bound isNew handles inspects
  | master id preamble children =>
    obtain ⟨rfl, below, start, inside, enters, inspectsChildren, leaves⟩ := handles
    exact .master bound isNew enters inspectsChildren leaves inspects

end Webm
end Relavium.Verifier
