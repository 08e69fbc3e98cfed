import Relavium.Library.BreadthFirst
import Relavium.Verifier.WebmTiling

/-!
# What a verified WebM document guarantees

The elements of an accepted document tile it, those of the profile stand where
they belong and once where they are singular, and one of the blocks names a
declared video track.
-/

namespace Relavium.Verifier
namespace Webm

open Library
open Library.Script
open Shared

abbrev ElementPlace := TiledTree.Place Nat UInt8 WebmContext

/-- The elements below some elements, with the contexts they stand in. -/
abbrev placesBelow (context : WebmContext) (depth : Nat)
    (elements : List Element) : List ElementPlace :=
  TiledTree.placesIn childContext context depth elements

/-! ## Shapes -/

/-- Elements that are singular occur once. -/
def SingularOnce (context : WebmContext)
    (elements : List Element) : Prop :=
  ((elements.map TiledTree.tag).filter fun id => isSingleton context id).Nodup

/-- An element is parsed exactly if it belongs to the profile, and its singular
children occur once. -/
def WellShaped (place : ElementPlace) : Prop :=
  match place.tree with
  | .leaf id _ => childContext place.context id = none
  | .master id preamble children =>
    preamble = [] ∧ ∃ below, childContext place.context id = some below ∧
      SingularOnce below children

/-- What holds of every element of a document. -/
structure Proper (place : ElementPlace) : Prop where
  depth : place.depth ≤ 16
  shape : WellShaped place
  notEncodings : place.tree.tag ≠ contentEncodingsId

variable
  {before after : Inspection}
  {context : WebmContext}
  {id : Nat}

theorem ReadsLeaf.notParsed
    {payload : Bytes} (reads : ReadsLeaf before context id payload after) :
    childContext context id = none ∧ id ≠ contentEncodingsId := by
  cases reads with
  | docType => decide
  | headerNumber isKnown =>
    refine ⟨rfl, ?_⟩
    rintro rfl
    exact absurd isKnown (by decide)
  | codec | number | type | width | height => decide
  | block isBlock =>
    obtain rfl | rfl := isBlock <;> decide
  | skipped notParsed notEncodings => exact ⟨notParsed, notEncodings⟩

theorem Enters.parsed
    {before start : Inspection} {context below : WebmContext}
    (enters : Enters before context id below start) :
    childContext context id = some below ∧ id ≠ contentEncodingsId := by
  cases enters <;> decide

variable
  {seen : List Nat}

/-- The singular ids among some elements are new and occur once. -/
theorem singular_cons {ids : List Nat} (isNew : isSingleton context id = true → id ∉ seen)
    (rest : (ids.filter fun id => isSingleton context id).Nodup ∧
      ∀ other ∈ ids, isSingleton context other = true → other ∉ seenAfter context id seen) :
    ((id :: ids).filter fun id => isSingleton context id).Nodup ∧
      ∀ other ∈ id :: ids, isSingleton context other = true → other ∉ seen := by
  obtain ⟨once, later⟩ := rest
  unfold seenAfter at later
  by_cases isSingle : isSingleton context id = true
  · rw [if_pos isSingle] at later
    rw [List.filter_cons_of_pos isSingle, List.nodup_cons]
    refine ⟨⟨fun again => ?_, once⟩, List.forall_mem_cons.mpr ⟨isNew, fun other isOther single =>
      fun isSeen => later other isOther single (List.mem_cons_of_mem _ isSeen)⟩⟩
    obtain ⟨isOther, single⟩ := List.mem_filter.mp again
    exact later id isOther single List.mem_cons_self
  · rw [if_neg isSingle] at later
    rw [List.filter_cons_of_neg isSingle]
    exact ⟨once, List.forall_mem_cons.mpr ⟨isNew, later⟩⟩

variable
  {depth : Nat}
  {elements : List Element}

theorem Inspects.proper (inspects : Inspects context depth seen before elements after) :
    ((∀ place ∈ placesBelow context depth elements, Proper place) ∧
      SingularOnce context elements) ∧
        ∀ element ∈ elements, isSingleton context element.tag = true → element.tag ∉ seen := by
  induction inspects with
  | nil => exact ⟨⟨by simp [placesBelow], List.nodup_nil⟩, by simp⟩
  | leaf bound isNew reads rest ih =>
    obtain ⟨⟨places, once⟩, later⟩ := ih
    obtain ⟨notParsed, notEncodings⟩ := reads.notParsed
    obtain ⟨onceAll, laterAll⟩ := singular_cons isNew ⟨once, List.forall_mem_map.mpr later⟩
    refine ⟨⟨?_, onceAll⟩, fun element isElement =>
      laterAll element.tag (List.mem_map_of_mem (f := TiledTree.tag) isElement)⟩
    rw [placesBelow, TiledTree.placesIn_cons, TiledTree.placesOf_leaf]
    exact List.forall_mem_cons.mpr ⟨⟨bound, notParsed, notEncodings⟩, places⟩
  | master bound isNew enters children leaves rest childrenHypothesis ih =>
    obtain ⟨⟨inner, onceInner⟩, -⟩ := childrenHypothesis
    obtain ⟨⟨places, once⟩, later⟩ := ih
    obtain ⟨isParsed, notEncodings⟩ := enters.parsed
    obtain ⟨onceAll, laterAll⟩ := singular_cons isNew ⟨once, List.forall_mem_map.mpr later⟩
    refine ⟨⟨?_, onceAll⟩, fun element isElement =>
      laterAll element.tag (List.mem_map_of_mem (f := TiledTree.tag) isElement)⟩
    rw [placesBelow, TiledTree.placesIn_cons, TiledTree.placesOf_master isParsed]
    refine List.forall_mem_cons.mpr ⟨⟨bound, ⟨rfl, _, isParsed, onceInner⟩, notEncodings⟩, ?_⟩
    exact List.forall_mem_append.mpr ⟨inner, places⟩

/-! ## Where the evidence comes from -/

/-- Where some evidence may come from: paths to elements, with their ids. -/
abbrev Sources := WebmContext → List (List Nat × Nat)

/-- An element at one of the paths. -/
def Comes (sources : Sources) (context : WebmContext) (elements : List Element)
    (source : Element → Prop) : Prop :=
  ∃ path id, (path, id) ∈ sources context ∧
    ∃ element ∈ TiledTree.descend path elements, element.tag = id ∧ source element

theorem Comes.later
    {sources : Sources} {element : Element} {rest : List Element} {source : Element → Prop}
    (comes : Comes sources context rest source) :
    Comes sources context (element :: rest) source := by
  obtain ⟨path, id, isPath, found, isFound, isTag, holds⟩ := comes
  exact ⟨path, id, isPath, found, TiledTree.mem_descend_cons isFound, isTag, holds⟩

/-- What holds after an inspection held before or comes from one of its elements. -/
theorem Inspects.traced
    (property : Inspection → Prop) (sources : Sources) (source : Element → Prop)
    (atLeaf : ∀ {before after : Inspection} {context : WebmContext} {id : Nat}
      {payload : Bytes}, ReadsLeaf before context id payload after → property after →
      property before ∨ ([], id) ∈ sources context ∧ source (.leaf id payload))
    (atMaster : ∀ {before start inside after : Inspection} {context below : WebmContext}
      {id depth : Nat} {children : List Element}, Enters before context id below start →
      Inspects below depth [] start children inside → Leaves before below inside after →
      property after →
      property before ∨ ([], id) ∈ sources context ∧ source (.master id [] children) ∨
        property inside ∧ (property start → property before) ∧
          ∀ path last, (path, last) ∈ sources below → (id :: path, last) ∈ sources context)
    {context : WebmContext}
    {depth : Nat}
    {seen : List Nat}
    {before after : Inspection}
    {elements : List Element}
    (inspects : Inspects context depth seen before elements after)
    (holds : property after) :
    property before ∨ Comes sources context elements source := by
  induction inspects with
  | nil => exact .inl holds
  | leaf bound isNew reads rest ih =>
    obtain holdsMiddle | comes := ih holds
    · obtain holdsBefore | ⟨isSource, isFirst⟩ := atLeaf reads holdsMiddle
      · exact .inl holdsBefore
      · exact .inr ⟨[], _, isSource, _, List.mem_cons_self, rfl, isFirst⟩
    · exact .inr comes.later
  | master bound isNew enters children leaves rest childrenHypothesis ih =>
    obtain holdsMiddle | comes := ih holds
    · obtain holdsBefore | ⟨isSource, isFirst⟩ | ⟨holdsInside, back, continues⟩ :=
        atMaster enters children leaves holdsMiddle
      · exact .inl holdsBefore
      · exact .inr ⟨[], _, isSource, _, List.mem_cons_self, rfl, isFirst⟩
      · obtain holdsStart | ⟨path, last, isPath, found, isFound, isTag, isSource⟩ :=
          childrenHypothesis holdsInside
        · exact .inl (back holdsStart)
        · exact .inr ⟨_, last, continues path last isPath, found,
            TiledTree.mem_descend_children isFound, isTag, isSource⟩
    · exact .inr comes.later

/-- The paths to the document type. -/
def docTypeSources : Sources
  | .root => [([ebmlHeaderId], docTypeId)]
  | .header => [([], docTypeId)]
  | _ => []

variable
  {roots : List Element}

theorem Inspects.docType
    (inspects : Inspects .root depth seen before roots after)
    (isDoc : after.evidence.doc = true) :
    before.evidence.doc = true ∨
      ∃ payload, TiledTree.leaf docTypeId payload ∈ TiledTree.descend [ebmlHeaderId] roots ∧
        ascii payload = jsText "webm" := by
  have traced := inspects.traced (fun inspection => inspection.evidence.doc = true) docTypeSources
    (fun element => ∃ payload, element = .leaf docTypeId payload ∧
      ascii payload = jsText "webm") ?_ ?_ isDoc
  · obtain isBefore | ⟨path, id, isPath, found, isFound, -, payload, rfl, isWebm⟩ := traced
    · exact .inl isBefore
    · cases List.mem_singleton.mp isPath
      exact .inr ⟨payload, isFound, isWebm⟩
  · intro before after context id payload reads isAfter
    cases reads with
    | docType isLength isWebm => exact .inr ⟨List.mem_singleton_self _, payload, rfl, isWebm⟩
    | _ => exact .inl isAfter
  · intro before start inside after context below id depth children enters _ leaves isAfter
    have back : start.evidence.doc = true → before.evidence.doc = true := by
      cases enters <;> exact id
    have isInside : inside.evidence.doc = true := by
      cases leaves <;> exact isAfter
    refine .inr (.inr ⟨isInside, back, ?_⟩)
    cases enters <;> simp [docTypeSources]

/-! ## Tracks -/

/-- The path from a track entry to the elements of a context. -/
def fieldPath : WebmContext → List Nat
  | .video => [videoId]
  | _ => []

/-- The paths to a field of a track. -/
def fieldSources (home : WebmContext)
    (field : Nat) : Sources
  | .track => [(fieldPath home, field)]
  | .video => if home = .video then [([], field)] else []
  | _ => []

/-- A field of a track after a leaf: the field of the track before it, or the content
of the leaf in its own place. -/
def FieldAfter
    (view : Track → γ) (content : Bytes → γ) (home : WebmContext) (field : Nat)
    (context : WebmContext) (id : Nat) (payload : Bytes)
    (track changed : Track) : Prop :=
  view track = view changed ∨ context = home ∧ id = field ∧ content payload = view changed

/-- The fields of a track after a leaf. -/
structure FieldsAfter (context : WebmContext) (id : Nat) (payload : Bytes)
    (track changed : Track) : Prop where
  number : FieldAfter Track.number bigEndian .track trackNumberId context id payload track changed
  type : FieldAfter Track.type bigEndian .track trackTypeId context id payload track changed
  codec : FieldAfter Track.codec ascii .track codecId context id payload track changed
  width : FieldAfter Track.width bigEndian .video widthId context id payload track changed
  height : FieldAfter Track.height bigEndian .video heightId context id payload track changed

theorem FieldsAfter.refl (context : WebmContext) (id : Nat) (payload : Bytes) (track : Track) :
    FieldsAfter context id payload track track :=
  ⟨.inl rfl, .inl rfl, .inl rfl, .inl rfl, .inl rfl⟩

theorem ReadsLeaf.fieldsAfter
    {payload : Bytes} {changed : Track} (reads : ReadsLeaf before context id payload after)
    (isChanged : after.track = some changed) :
    ∃ track ∈ before.track, FieldsAfter context id payload track changed := by
  cases reads with
  | number isHeld =>
    cases isChanged
    exact ⟨_, isHeld, .inr ⟨rfl, rfl, rfl⟩, .inl rfl, .inl rfl, .inl rfl, .inl rfl⟩
  | type isHeld =>
    cases isChanged
    exact ⟨_, isHeld, .inl rfl, .inr ⟨rfl, rfl, rfl⟩, .inl rfl, .inl rfl, .inl rfl⟩
  | codec isHeld =>
    cases isChanged
    exact ⟨_, isHeld, .inl rfl, .inl rfl, .inr ⟨rfl, rfl, rfl⟩, .inl rfl, .inl rfl⟩
  | width isHeld =>
    cases isChanged
    exact ⟨_, isHeld, .inl rfl, .inl rfl, .inl rfl, .inr ⟨rfl, rfl, rfl⟩, .inl rfl⟩
  | height isHeld =>
    cases isChanged
    exact ⟨_, isHeld, .inl rfl, .inl rfl, .inl rfl, .inl rfl, .inr ⟨rfl, rfl, rfl⟩⟩
  | _ => exact ⟨changed, isChanged, .refl ..⟩

theorem Inspects.field
    {view : Track → γ} {content : Bytes → γ} {home : WebmContext} {field : Nat}
    (isHome : home = .track ∨ home = .video)
    (isField : ∀ {context : WebmContext} {id : Nat} {payload : Bytes} {track changed : Track},
      FieldsAfter context id payload track changed →
      FieldAfter view content home field context id payload track changed)
    {depth : Nat}
    {seen : List Nat}
    {before after : Inspection}
    {fields : List Element}
    {changed : Track}
    (inspects : Inspects .track depth seen before fields after)
    (isChanged : after.track = some changed) :
    (∃ track ∈ before.track, view track = view changed) ∨
      ∃ payload, TiledTree.leaf field payload ∈ TiledTree.descend (fieldPath home) fields ∧
        content payload = view changed := by
  have traced := inspects.traced
    (fun inspection => ∃ track ∈ inspection.track, view track = view changed)
    (fieldSources home field)
    (fun element => ∃ payload, element = .leaf field payload ∧ content payload = view changed)
    ?_ ?_ ⟨changed, isChanged, rfl⟩
  · obtain isBefore | ⟨path, id, isPath, found, isFound, -, payload, rfl, isContent⟩ := traced
    · exact .inl isBefore
    · cases List.mem_singleton.mp isPath
      exact .inr ⟨payload, isFound, isContent⟩
  · rintro before after context id payload reads ⟨track, isTrack, sameView⟩
    obtain ⟨earlier, isEarlier, fields⟩ := reads.fieldsAfter isTrack
    obtain same | ⟨rfl, rfl, isContent⟩ := isField fields
    · exact .inl ⟨earlier, isEarlier, same.trans sameView⟩
    · refine .inr ⟨?_, payload, rfl, isContent.trans sameView⟩
      obtain rfl | rfl := isHome <;> exact List.mem_singleton_self _
  · intro before start inside after context below id depth children enters _ leaves isAfter
    cases leaves with
    | video =>
      cases enters with
      | video isHeld =>
        refine .inr (.inr ⟨isAfter, id, ?_⟩)
        obtain rfl | rfl := isHome <;> simp [fieldSources, fieldPath]
    | _ => exact .inl isAfter

/-- The value of a field among some elements. -/
def HasField (content : Bytes → γ) (field : Nat) (elements : List Element)
    (value : γ) : Prop :=
  ∃ payload, TiledTree.leaf field payload ∈ elements ∧ content payload = value

/-- A track entry with the number of its track. -/
def DeclaresNumber (entry : Element)
    (number : Nat) : Prop :=
  HasField bigEndian trackNumberId entry.children number

/-- A track entry of a video track in the profile. -/
structure DeclaresVideo (number : Nat)
    (entry : Element) : Prop where
  number : DeclaresNumber entry number
  type : HasField bigEndian trackTypeId entry.children 1
  codec : ∃ codec ∈ [jsText "V_VP8", jsText "V_VP9", jsText "V_AV1"],
    HasField ascii codecId entry.children codec
  width : ∃ width, width ≠ 0 ∧
    HasField bigEndian widthId (TiledTree.descend [videoId] entry.children) width
  height : ∃ height, height ≠ 0 ∧
    HasField bigEndian heightId (TiledTree.descend [videoId] entry.children) height

variable {start inside : Inspection} {track : Track}

/-- A field that is set in a new track is read from an element of its entry. -/
theorem Inspects.set_field
    {view : Track → γ} {content : Bytes → γ} {home : WebmContext} {field : Nat}
    (isHome : home = .track ∨ home = .video)
    (isField : ∀ {context : WebmContext} {id : Nat} {payload : Bytes} {track changed : Track},
      FieldsAfter context id payload track changed →
      FieldAfter view content home field context id payload track changed)
    {depth : Nat} {fields : List Element}
    (inspects : Inspects .track depth [] start fields inside)
    (isBlank : start.track = some blankTrack) (isTrack : inside.track = some track)
    (isSet : view track ≠ view blankTrack) :
    HasField content field (TiledTree.descend (fieldPath home) fields) (view track) := by
  obtain ⟨blank, isStart, same⟩ | found := inspects.field isHome isField isTrack
  · rw [isBlank] at isStart
    cases isStart
    exact absurd same.symm isSet
  · exact found

theorem Inspects.declaresNumber
    {children : List Element} (inspects : Inspects .track depth [] start children inside)
    (isBlank : start.track = some blankTrack) (isTrack : inside.track = some track)
    (complete : CompleteTrack track) :
    DeclaresNumber (.master trackEntryId [] children) track.number :=
  inspects.set_field (.inl rfl) FieldsAfter.number isBlank isTrack complete.number

theorem Inspects.declaresVideo
    {children : List Element} (inspects : Inspects .track depth [] start children inside)
    (isBlank : start.track = some blankTrack) (isTrack : inside.track = some track)
    (complete : CompleteTrack track) (isVideo : track.type = 1) (supported : SupportedVideo track) :
    DeclaresVideo track.number (.master trackEntryId [] children) where
  number := inspects.declaresNumber isBlank isTrack complete
  type :=
    isVideo ▸ inspects.set_field (.inl rfl) FieldsAfter.type isBlank isTrack complete.type
  codec :=
    ⟨track.codec, supported.codec,
      inspects.set_field (.inl rfl) FieldsAfter.codec isBlank isTrack complete.codec⟩
  width :=
    ⟨track.width, supported.width,
      inspects.set_field (.inr rfl) FieldsAfter.width isBlank isTrack supported.width⟩
  height :=
    ⟨track.height, supported.height,
      inspects.set_field (.inr rfl) FieldsAfter.height isBlank isTrack supported.height⟩

/-- The paths to the track entries. -/
def entrySources : Sources
  | .root => [([segmentId, tracksId], trackEntryId)]
  | .segment => [([tracksId], trackEntryId)]
  | .tracks => [([], trackEntryId)]
  | _ => []

theorem Inspects.videoTrack
    {number : Nat} (inspects : Inspects .root depth seen before roots after)
    (isTrack : number ∈ after.evidence.tracks) :
    number ∈ before.evidence.tracks ∨
      ∃ entry ∈ TiledTree.descend [segmentId, tracksId] roots,
        entry.tag = trackEntryId ∧ DeclaresVideo number entry := by
  have traced := inspects.traced (fun inspection => number ∈ inspection.evidence.tracks)
    entrySources (DeclaresVideo number) ?_ ?_ isTrack
  · obtain isBefore | ⟨path, id, isPath, entry, isFound, isTag, isVideo⟩ := traced
    · exact .inl isBefore
    · cases List.mem_singleton.mp isPath
      exact .inr ⟨entry, isFound, isTag, isVideo⟩
  · intro before after context id payload reads isAfter
    cases reads <;> exact .inl isAfter
  · intro before start inside after context below id depth children enters inspects leaves isAfter
    have back : number ∈ start.evidence.tracks → number ∈ before.evidence.tracks := by
      cases enters <;> exact fun isStart => isStart
    have continues : below ≠ .track → ∀ path last,
        (path, last) ∈ entrySources below → (id :: path, last) ∈ entrySources context := by
      cases enters <;> simp [entrySources]
    cases leaves with
    | header isDoc | video => exact .inr (.inr ⟨isAfter, back, continues nofun⟩)
    | other isContext =>
      refine .inr (.inr ⟨isAfter, back, continues ?_⟩)
      rintro rfl
      exact absurd isContext (by decide)
    | @entry _ track isHeld complete isNew supported =>
      cases enters with
      | entry =>
        simp only [declared] at isAfter
        split at isAfter
        · rename_i isVideo
          obtain rfl | isInside := (OrderedSet.mem_add _ _ _).mp isAfter
          · exact .inr (.inl ⟨List.mem_singleton_self _,
              inspects.declaresVideo rfl isHeld complete isVideo (supported isVideo)⟩)
          · exact .inr (.inr ⟨isInside, back, by simp [entrySources]⟩)
        · exact .inr (.inr ⟨isAfter, back, by simp [entrySources]⟩)

/-- The track entries among some elements. -/
def entriesIn (context : WebmContext)
    (elements : List Element) : List Element :=
  (entrySources context).flatMap fun (path, id) =>
    (TiledTree.descend path elements).filter (·.tag = id)

theorem entriesIn_cons (context : WebmContext) (element : Element) (rest : List Element) :
    entriesIn context (element :: rest) =
      entriesIn context [element] ++ entriesIn context rest := by
  have split (path : List Nat) : TiledTree.descend path (element :: rest) =
      TiledTree.descend path [element] ++ TiledTree.descend path rest :=
    TiledTree.descend_append path [element] rest
  cases context <;> simp [entriesIn, entrySources, split, -TiledTree.descend_nil]

theorem entriesIn_leaf (notParsed : childContext context id = none) (payload : Bytes) :
    entriesIn context [.leaf id payload] = [] := by
  have notEntry : context = .tracks → id ≠ trackEntryId := by
    rintro rfl rfl
    exact absurd notParsed (by decide)
  cases context with
  | tracks => simp [entriesIn, entrySources, TiledTree.tag, notEntry]
  | _ =>
    simp [entriesIn, entrySources, TiledTree.descend_cons_cons, TiledTree.children]

theorem Enters.entriesIn
    {before start : Inspection} {context below : WebmContext}
    (enters : Enters before context id below start) (notEntry : below ≠ .track)
    (children : List Element) :
    entriesIn context [.master id [] children] = entriesIn below children := by
  cases enters with
  | entry => exact absurd rfl notEntry
  | _ => simp +decide [Webm.entriesIn, entrySources, TiledTree.descend_cons_cons,
      TiledTree.children, TiledTree.tag]

theorem Inspects.numbers (inspects : Inspects context depth seen before elements after) :
    ∃ numbers, List.Forall₂ DeclaresNumber (entriesIn context elements) numbers ∧
      0 ∉ numbers ∧ after.evidence.allTracks.elements =
        before.evidence.allTracks.elements ++ numbers := by
  induction inspects with
  | @nil context =>
    refine ⟨[], ?_, by simp, by simp⟩
    cases context <;> exact .nil
  | leaf bound isNew reads rest ih =>
    obtain ⟨numbers, declare, notZero, isAfter⟩ := ih
    rw [entriesIn_cons, entriesIn_leaf reads.notParsed.1]
    refine ⟨numbers, declare, notZero, isAfter.trans ?_⟩
    cases reads <;> rfl
  | @master context below depth id seen children rest before start inside middle after bound
      isNew enters inspectsChildren leaves inspectsRest childrenHypothesis ih =>
      obtain ⟨numbers, declare, notZero, isAfter⟩ := ih
      obtain ⟨inner, declareInner, notZeroInner, isInside⟩ := childrenHypothesis
      have isStart : start.evidence.allTracks = before.evidence.allTracks := by
        cases enters <;> rfl
      rw [isStart] at isInside
      rw [entriesIn_cons]
      by_cases isTrack : below = .track
      · subst isTrack
        cases enters with
        | entry =>
          cases leaves with
          | @entry _ track isHeld complete isNewTrack supported =>
            cases declareInner
            refine ⟨track.number :: numbers,
              .cons (inspectsChildren.declaresNumber rfl isHeld complete) declare,
              List.not_mem_cons_of_ne_of_not_mem complete.number.symm notZero,
              isAfter.trans ?_⟩
            rw [List.append_nil] at isInside
            simp [declared, OrderedSet.elements_add_of_not_mem isNewTrack, isInside]
          | other isContext => exact absurd isContext (by decide)
      · rw [enters.entriesIn isTrack]
        refine ⟨inner ++ numbers, List.rel_append declareInner declare,
          by simp [notZero, notZeroInner], isAfter.trans ?_⟩
        rw [← List.append_assoc, ← isInside]
        cases leaves with
        | entry => exact absurd rfl isTrack
        | _ => rfl

/-! ## The roots -/

/-- The roots that have not been found. -/
def awaited (evidence : WebmEvidence) : List Nat :=
  (if evidence.header then [] else [ebmlHeaderId]) ++
    (if evidence.segment then [] else [segmentId])

/-- The ids of the header and of the segments among some elements. -/
def rootIds (context : WebmContext)
    (elements : List Element) : List Nat :=
  if context = .root then
    (elements.map TiledTree.tag).filter fun id => id = ebmlHeaderId ∨ id = segmentId
  else []

/-- The header is found before the segment, and each of them once. -/
theorem Inspects.rootIds (inspects : Inspects context depth seen before elements after) :
    rootIds context elements ++ awaited after.evidence = awaited before.evidence := by
  induction inspects with
  | nil => simp [Webm.rootIds]
  | @leaf context depth id seen payload rest before middle after bound isNew reads _
      ih =>
      have same : awaited middle.evidence = awaited before.evidence := by
        cases reads <;> rfl
      have notRoot : context = .root → ¬(id = ebmlHeaderId ∨ id = segmentId) := by
        have notParsed := reads.notParsed.1
        rintro rfl (rfl | rfl) <;> exact absurd notParsed (by decide)
      rw [← same, ← ih]
      congr 1
      unfold Webm.rootIds
      split
      · next isRoot => exact List.filter_cons_of_neg (by simp [TiledTree.tag, notRoot isRoot])
      · rfl
  | @master context below depth id seen children rest before start inside middle after bound
      isNew enters _ leaves _ childrenHypothesis ih =>
      have sameMiddle : awaited middle.evidence = awaited inside.evidence := by
        cases leaves <;> rfl
      have notRoot : below ≠ .root := by
        cases enters <;> decide
      have sameInside : awaited inside.evidence = awaited start.evidence := by
        simpa [Webm.rootIds, notRoot] using childrenHypothesis
      rw [sameMiddle, sameInside] at ih
      cases enters with
      | header isFirst =>
        have isRoots : Webm.rootIds .root (.master ebmlHeaderId [] children :: rest) =
            ebmlHeaderId :: Webm.rootIds .root rest :=
          by simp [Webm.rootIds, TiledTree.tag]
        rw [isRoots, List.cons_append, ih]
        simp [awaited, isFirst]
      | segment isFirst isHeaded =>
        have isRoots : Webm.rootIds .root (.master segmentId [] children :: rest) =
            segmentId :: Webm.rootIds .root rest :=
          by simp [Webm.rootIds, TiledTree.tag]
        rw [isRoots, List.cons_append, ih]
        simp [awaited, isFirst, isHeaded]
      | _ => exact ih

/-! ## Blocks -/

/-- The paths to the blocks. -/
def blockSources : Sources
  | .root =>
    [([segmentId, clusterId], simpleBlockId), ([segmentId, clusterId, blockGroupId], blockId)]
  | .segment => [([clusterId], simpleBlockId), ([clusterId, blockGroupId], blockId)]
  | .cluster => [([], simpleBlockId), ([blockGroupId], blockId)]
  | .blockGroup => [([], blockId)]
  | _ => []

theorem Inspects.block
    {number : Nat} (inspects : Inspects .root depth seen before roots after)
    (isBlock : number ∈ after.evidence.blocks) :
    number ∈ before.evidence.blocks ∨
      ∃ path id, (path, id) ∈ blockSources .root ∧
        ∃ payload, TiledTree.leaf id payload ∈ TiledTree.descend path roots ∧
          IsBlock id number payload := by
  have traced := inspects.traced (fun inspection => number ∈ inspection.evidence.blocks)
    blockSources
    (fun element => ∃ payload, element = .leaf element.tag payload ∧
      IsBlock element.tag number payload) ?_ ?_ isBlock
  · obtain isBefore | ⟨path, id, isPath, found, isFound, rfl, payload, isLeaf, isBlock⟩ := traced
    · exact .inl isBefore
    · exact .inr ⟨path, found.tag, isPath, payload, isLeaf ▸ isFound, isBlock⟩
  · intro before after context id payload reads isAfter
    cases reads with
    | block isId isBlock =>
      obtain rfl | isBefore := (OrderedSet.mem_add _ _ _).mp isAfter
      · refine .inr ⟨?_, payload, rfl, isBlock⟩
        obtain rfl | rfl := isId <;> decide
      · exact .inl isBefore
    | _ => exact .inl isAfter
  · intro before start inside after context below id depth children enters _ leaves isAfter
    have back : number ∈ start.evidence.blocks → number ∈ before.evidence.blocks := by
      cases enters <;> exact fun isStart => isStart
    have isInside : number ∈ inside.evidence.blocks := by
      cases leaves <;> exact isAfter
    refine .inr (.inr ⟨isInside, back, ?_⟩)
    cases enters <;> simp [blockSources]

/-! ## The guarantee -/

/-- The track entries of a document. -/
def trackEntries (roots : List Element) : List Element :=
  (TiledTree.descend [segmentId, tracksId] roots).filter (·.tag = trackEntryId)

/-- What a verified document is. -/
structure Verified (bytes : Bytes)
    (roots : List Element) : Prop where
  /-- The elements tile the document. -/
  tiles : DocumentTiles roots bytes
  /-- Among the roots there are a header and, after it, one segment. -/
  headed :
    (roots.map TiledTree.tag).filter (fun id => id = ebmlHeaderId ∨ id = segmentId) =
      [ebmlHeaderId, segmentId]
  /-- Every element is as deep as allowed, parsed as its context says, and not transformed. -/
  proper : ∀ place ∈ placesBelow .root 0 roots, Proper place
  /-- The header names the document type. -/
  docType : ∃ payload,
    TiledTree.leaf docTypeId payload ∈ TiledTree.descend [ebmlHeaderId] roots ∧
      ascii payload = jsText "webm"
  /-- The numbers of the tracks are distinct and not zero. -/
  numbers : ∃ numbers, List.Forall₂ DeclaresNumber (trackEntries roots) numbers ∧
    0 ∉ numbers ∧ numbers.Nodup
  /-- A block names a declared video track. -/
  block : ∃ number, (∃ entry ∈ trackEntries roots, DeclaresVideo number entry) ∧
    ∃ path id,
      (path, id) ∈ [([segmentId, clusterId], simpleBlockId),
        ([segmentId, clusterId, blockGroupId], blockId)] ∧
      ∃ payload, TiledTree.leaf id payload ∈ TiledTree.descend path roots ∧
        IsBlock id number payload

/-- Every accepted byte string is a verified document. -/
theorem verified_of_accepts
    {bytes : Bytes} {type : CanonicalMediaMimeType} (accepted : accepts webm bytes = some type) :
    ∃ roots, Verified bytes roots := by
  obtain ⟨⟨_, unread⟩, runs, isEnd⟩ := runs_of_accepts accepted
  obtain ⟨-, final, statements⟩ := runs_withLocals.mp runs
  simp only [webmStatements, runs_bind, Script.runs_read, runs_check, runs_pure] at statements
  obtain ⟨track, last, walked, evidence, _, ⟨rfl, rfl⟩, _, _,
    ⟨⟨isDoc, isSegment, number, isTrack, isBlock⟩, rfl⟩, -, isLast⟩ := statements
  obtain ⟨roots, content, advances, inspects, tiles, -⟩ := runs_elements walked
  have isAll : content = bytes := by
    have rest : bytes = content ++ last.2.rest := advances.rest
    rw [rest, show last.2.rest = [] from isLast ▸ isEnd, List.append_nil]
  have rootIds := inspects.rootIds
  have isHeaded : last.1.evidence.header = true := by
    by_contra notHeaded
    simp [awaited, startWebm, isSegment, notHeaded] at rootIds
    have lasts := congrArg List.getLast? rootIds
    simp [ebmlHeaderId, segmentId] at lasts
  obtain ⟨numbers, declare, notZero, isNumbers⟩ := inspects.numbers
  refine ⟨roots, isAll ▸ tiles, ?_, inspects.proper.1.1, ?_, ⟨numbers, ?_, notZero, ?_⟩, number,
    ?_, ?_⟩
  · simpa [Webm.rootIds, awaited, startWebm, isHeaded, isSegment] using rootIds
  · exact (inspects.docType isDoc).resolve_left (by simp [startWebm])
  · simpa [entriesIn, entrySources, trackEntries] using declare
  · have nodup := last.1.evidence.allTracks.nodup
    rw [isNumbers] at nodup
    exact nodup.of_append_right
  · obtain ⟨entry, isEntry, isTag, isVideo⟩ :=
      (inspects.videoTrack isTrack).resolve_left (OrderedSet.not_mem_empty number)
    exact ⟨entry, List.mem_filter.mpr ⟨isEntry, by simpa using isTag⟩, isVideo⟩
  · exact (inspects.block isBlock).resolve_left (OrderedSet.not_mem_empty number)

/-- A document with a segment of unknown size. -/
theorem verified_document :
    ∃ roots, Verified
      [26, 69, 223, 163, 135, 66, 130, 132, 119, 101, 98, 109, 24, 83, 128, 103, 255, 31, 67, 182,
        117, 135, 163, 133, 129, 0, 0, 128, 0, 22, 84, 174, 107, 151, 174, 149, 215, 129, 1, 131,
        129, 1, 134, 133, 86, 95, 86, 80, 56, 224, 134, 176, 129, 1, 186, 129, 1] roots :=
  verified_of_accepts (show accepts webm _ = some .videoWebm by decide +kernel)

end Webm
end Relavium.Verifier
