import Relavium.Library.OrderedSet
import Relavium.Verifier.Reader

/-!
# The WebM verifier

`webm` walks the elements of an EBML document with one running offset.  It
descends into the elements of the profile, skips every other one, and keeps the
evidence for a declared video track with a block.
-/

namespace Relavium.Verifier

open Library
open Shared

/-- Whose children a walk is at. -/
inductive WebmContext
  | root
  | header
  | segment
  | tracks
  | track
  | video
  | cluster
  | blockGroup
  deriving DecidableEq

/-- The text of some bytes. -/
def ascii (bytes : Bytes) : JsString :=
  bytes.map UInt8.toUInt16

/-- `Track`. -/
structure Track where
  number : Nat
  type : Nat
  codec : JsString
  width : Nat
  height : Nat

/-- What the walk has found. -/
structure WebmEvidence where
  doc : Bool
  segment : Bool
  header : Bool
  tracks : OrderedSet Nat
  blocks : OrderedSet Nat
  allTracks : OrderedSet Nat

/-- The variables of `webm`. -/
structure WebmState where
  offset : Nat
  count : Nat
  evidence : WebmEvidence

abbrev WebmScript := MediaScript WebmState

namespace Webm

def take (size : Nat)
    (isOptional : Bool) : WebmScript Bytes := do
  let bytes ← read size isOptional
  Script.write fun state => { state with offset := state.offset + bytes.length }
  pure bytes

/-- `omit`. -/
def omitBytes (size : Nat) : WebmScript Unit := do
  skip size
  Script.write fun state => { state with offset := state.offset + size }

/-- The answer of `vint`. -/
inductive Vint
  | value (number : Nat)
  /-- An unknown size, `-1` in the source. -/
  | unknown
  /-- The end of the input, `-2` in the source. -/
  | absent
  deriving DecidableEq

/-- The mask of the length marker in a first byte, with the length it marks. -/
def marker (first : Nat) : Nat → Nat → Nat → Nat × Nat
  | 0, mask, length => (mask, length)
  | fuel + 1, mask, length =>
    if mask ≠ 0 ∧ first &&& mask = 0 then marker first fuel (mask >>> 1) (length + 1)
    else (mask, length)

/-- The bytes of a number after the first one.  Up to where the number is refused it
is exact. -/
def vintRest : Nat → Nat → Bool → WebmScript (Nat × Bool)
  | 0, value, unknown => pure (value, unknown)
  | more + 1, value, unknown => do
      let next ← byte (← take 1 false) 0
      let unknown := unknown && decide (next = 255)
      let value := value * 256 + next
      check (value < 2 ^ 53 ∨ unknown = true)
      vintRest more value unknown

/-- `vint`. -/
def vint
    (isId isOptional : Bool) : WebmScript Vint := do
  let head ← take 1 isOptional
  if head = [] then pure .absent
  else
    let first ← byte head 0
    let (mask, length) := marker first 8 128 1
    check (mask ≠ 0 ∧ length ≤ if isId then 4 else 8)
    let value := if isId then first else first &&& (mask - 1)
    let unknown := !isId && decide (value = mask - 1)
    let (value, unknown) ← vintRest (length - 1) value unknown
    pure (if unknown then .unknown else .value value)

def uintFrom : Nat → Bytes → WebmScript Nat
  | value, [] => pure value
  | value, next :: rest => do
      let value := value * 256 + next.toNat
      check (value < 2 ^ 53)
      uintFrom value rest

/-- `uint`. -/
def uint (size : Nat) : WebmScript Nat := do
  check (1 ≤ size ∧ size ≤ 8)
  uintFrom 0 (← take size false)

/-- The ids of the elements in the profile. -/
def ebmlHeaderId : Nat := 0x1a45dfa3
def segmentId : Nat := 0x18538067
def docTypeId : Nat := 0x4282
def tracksId : Nat := 0x1654ae6b
def trackEntryId : Nat := 0xae
def videoId : Nat := 0xe0
def contentEncodingsId : Nat := 0x6d80
def trackNumberId : Nat := 0xd7
def trackTypeId : Nat := 0x83
def codecId : Nat := 0x86
def widthId : Nat := 0xb0
def heightId : Nat := 0xba
def clusterId : Nat := 0x1f43b675
def blockGroupId : Nat := 0xa0
def simpleBlockId : Nat := 0xa3
def blockId : Nat := 0xa1

/-- Elements that occur once among the children of one element. -/
def isSingleton (context : WebmContext)
    (id : Nat) : Bool :=
  context = .header || (context = .segment && id = tracksId) ||
    (context = .track && id ∈ [trackNumberId, trackTypeId, codecId, videoId]) ||
    (context = .video && id ∈ [widthId, heightId])

/-- Where a walk is: the end of the element whose children it is at, which is
missing when it runs to the end of the input. -/
structure WebmScope where
  stop : Option Nat
  context : WebmContext
  depth : Nat

/-- The scope of an element's children. -/
def WebmScope.inner (scope : WebmScope) (stop : Option Nat)
    (context : WebmContext) : WebmScope where
  stop
  context
  depth := scope.depth + 1

/-- A walk through the children of an element, which may set fields of a track. -/
abbrev WebmWalk := WebmScope → Option Track → WebmScript (Option Track)

def changeEvidence (change : WebmEvidence → WebmEvidence) : WebmScript Unit :=
  Script.write fun state => { state with evidence := change state.evidence }

/-- A field of the EBML header. -/
def headerField
    (id size : Nat) : WebmScript Unit := do
  if id = docTypeId then
    check (size = 4)
    check (ascii (← take size false) = jsText "webm")
    changeEvidence fun evidence => { evidence with doc := true }
  else
    check (id ∈ [0x4286, 0x42f7, 0x42f2, 0x42f3, 0x4287, 0x4285])
    let value ← uint size
    check (¬(value = 0 ∨ (id = 0x42f7 ∧ value ≠ 1) ∨ (id = 0x42f2 ∧ 4 < value) ∨
      (id = 0x42f3 ∧ 8 < value) ∨ (id = 0x4285 ∧ 2 < value)))

/-- A complete track entry is declared. -/
def declareTrack (track : Track) : WebmScript Unit := do
  let allTracks ← Script.read fun state => state.evidence.allTracks
  check (¬(track.number = 0 ∨ track.type = 0 ∨ track.codec = [] ∨ track.number ∈ allTracks))
  changeEvidence fun evidence =>
    { evidence with allTracks := evidence.allTracks.add track.number }
  if track.type = 1 then
    let tracks ← Script.read fun state => state.evidence.tracks
    check (¬(track.number = 0 ∨
      track.codec ∉ [jsText "V_VP8", jsText "V_VP9", jsText "V_AV1"] ∨
      track.width = 0 ∨ track.height = 0 ∨ track.number ∈ tracks))
    changeEvidence fun evidence =>
      { evidence with tracks := evidence.tracks.add track.number }

/-- A field of a track or of its video element. -/
def trackField (id size : Nat)
    (track : Track) : WebmScript Track := do
  if id = codecId then
    check (size ≤ 32)
    let codec := ascii (← take size false)
    pure { track with codec }
  else
    let value ← uint size
    check (value ≠ 0)
    pure (if id = trackNumberId then { track with number := value }
      else if id = trackTypeId then { track with type := value }
      else if id = widthId then { track with width := value }
      else { track with height := value })

/-- A block or a simple block, without lacing. -/
def block (id : Nat)
    (stop : Nat) : WebmScript Unit := do
  match ← vint false false with
  | .value number =>
    check (number ≠ 0)
    check ((← Script.read WebmState.offset) + 3 < stop)
    let flags ← byte (← take 3 false) 2
    check (flags &&& (if id = simpleBlockId then 0x76 else 0xf7) = 0)
    let blocks ← Script.read fun state => state.evidence.blocks
    checkLimit (¬(32 ≤ blocks.size ∧ number ∉ blocks))
    changeEvidence fun evidence => { evidence with blocks := evidence.blocks.add number }
    omitBytes (stop - (← Script.read WebmState.offset))
  | _ => fail

/-- The blank track of a new entry. -/
def blankTrack : Track where
  number := 0
  type := 0
  codec := []
  width := 0
  height := 0

/-- The elements of clusters, and every other one. -/
def clusterElement (walk : WebmWalk) (scope : WebmScope) (track : Option Track) (id size : Nat)
    (stop : Option Nat) : WebmScript (Option Track) := do
  if id = clusterId then
    check (scope.context = .segment)
    let _ ← walk (scope.inner stop .cluster) none
    pure track
  else if id = blockGroupId then
    check (scope.context = .cluster)
    let _ ← walk (scope.inner stop .blockGroup) none
    pure track
  else if id = simpleBlockId ∨ id = blockId then
    check (scope.context = if id = simpleBlockId then .cluster else .blockGroup)
    -- The end is known: only a segment has none.
    block id (stop.getD 0)
    pure track
  else
    omitBytes size
    pure track

/-- What is read of one element after its id and size. -/
def element (walk : WebmWalk) (scope : WebmScope) (track : Option Track) (id size : Nat)
    (stop : Option Nat) : WebmScript (Option Track) := do
  let context := scope.context
  let evidence ← Script.read WebmState.evidence
  if id = ebmlHeaderId then
    check (context = .root ∧ evidence.header = false)
    changeEvidence fun evidence => { evidence with header := true }
    let _ ← walk (scope.inner stop .header) none
    check ((← Script.read fun state => state.evidence.doc) = true)
    pure track
  else if id = segmentId then
    check (context = .root ∧ evidence.segment = false ∧ evidence.header = true)
    changeEvidence fun evidence => { evidence with segment := true }
    let _ ← walk (scope.inner stop .segment) none
    pure track
  else if context = .header then
    headerField id size
    pure track
  else if id = tracksId then
    check (context = .segment)
    let _ ← walk (scope.inner stop .tracks) none
    pure track
  else if id = trackEntryId then
    checkLimit (context = .tracks ∧ evidence.allTracks.size < 32)
    match ← walk (scope.inner stop .track) (some blankTrack) with
    | some entry =>
      declareTrack entry
      pure track
    -- A walk with a track returns it.
    | none => fail
  else if id = videoId then
    check (context = .track ∧ track.isSome = true)
    walk (scope.inner stop .video) track
  else if id = contentEncodingsId then
    fail
  else
    let isField := context = .track ∧ id ∈ [trackNumberId, trackTypeId, codecId] ∨
      context = .video ∧ id ∈ [widthId, heightId]
    match track, decide isField with
    | some track, true =>
      let changed ← trackField id size track
      pure (some changed)
    | _, _ => clusterElement walk scope track id size stop

/-- The size of an element after its id, which is missing when it is unknown.  The
element ends within the one that holds it. -/
def elementSize (scope : WebmScope) (seen : List Nat)
    (id : Nat) : WebmScript (Option Nat) := do
  let length ← vint false false
  let count ← countStructure (← Script.read WebmState.count) 65536
  Script.write fun state => { state with count }
  check (length = .unknown → id = segmentId)
  let size := match length with | .value size => some size | _ => none
  let offset ← Script.read WebmState.offset
  check (∀ limit ∈ scope.stop, ∃ known ∈ size, offset + known ≤ limit)
  check (size.getD 0 ≤ maxMediaObjectBytes)
  check (isSingleton scope.context id = true → id ∉ seen)
  pure size

/-- `elements`: the loop over the children of one element.  The depth of a loop does
not change, and every turn is counted, so the turns of all loops are fewer than
the limit of the count. -/
def elements : Nat → List Nat → WebmWalk
  | 0, _ => fun _ _ => Script.throw .inspectionLimit
  | fuel + 1, seen => fun scope track => do
      checkLimit (scope.depth ≤ 16)
      let offset ← Script.read WebmState.offset
      if scope.stop.any (· ≤ offset) then pure track
      else
        match ← vint true scope.stop.isNone with
        | .value id =>
          let size ← elementSize scope seen id
          let offset ← Script.read WebmState.offset
          let stop := size.map (offset + ·)
          let track ← element (elements fuel []) scope track id (size.getD 0) stop
          match stop with
          | none => pure track
          | some stop =>
            check ((← Script.read WebmState.offset) = stop)
            elements fuel (if isSingleton scope.context id then id :: seen else seen) scope track
        -- The end of the input; an id is never unknown.
        | _ => pure track

end Webm

/-- What `webm` starts with. -/
def startWebm : WebmState where
  offset := 0
  count := 0
  evidence :=
    { doc := false
      segment := false
      header := false
      tracks := .empty
      blocks := .empty
      allTracks := .empty }

/-- The statements of `webm`, with more turns than the limit of the count allows. -/
def webmStatements : WebmScript CanonicalMediaMimeType := do
  let _ ← Webm.elements 65537 [] { stop := none, context := .root, depth := 0 } none
  let evidence ← Script.read WebmState.evidence
  check (evidence.doc = true ∧ evidence.segment = true ∧
    ∃ number ∈ evidence.tracks.elements, number ∈ evidence.blocks)
  pure .videoWebm

/-- `webm`. -/
def webm : MediaScript Unit CanonicalMediaMimeType :=
  Script.withLocals startWebm webmStatements

end Relavium.Verifier
