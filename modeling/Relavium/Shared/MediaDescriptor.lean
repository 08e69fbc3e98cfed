import Relavium.Library.JsText
import Relavium.Library.OrderedMap
import Relavium.Library.SafeInteger

/-!
# Media descriptors

What a producer says about a media object: its content-addressed handle, its
MIME type, modality and length, and for audio and video a duration.  Descriptors
arrive as values of any kind.  `admitMediaDescriptor` reads their own data and
checks it, and `reconcileMediaDescriptors` makes of a batch one descriptor for
each handle.
-/

namespace Relavium.Shared

open Library

inductive MediaModality
  | image
  | audio
  | video
  | document
  deriving DecidableEq

/-- `CanonicalMediaMimeType`. -/
inductive CanonicalMediaMimeType
  | imagePng
  | imageJpeg
  | imageGif
  | imageWebp
  | audioWav
  | audioMpeg
  | audioFlac
  | audioOgg
  | audioOpus
  | audioAac
  | audioL16
  | videoMp4
  | videoWebm
  | applicationPdf
  deriving DecidableEq

inductive MediaAdmissionErrorCode
  | unsupportedMime
  | invalidDescriptor
  | descriptorConflict
  | invalidFormat
  | inspectionLimit
  | objectLimit
  | inlineLimit
  | unsafeValue
  | storeUnavailable
  | storeContract
  | sourceUnavailable
  | sourceFailed
  | streamIncomplete
  | verifierState
  deriving DecidableEq

/-- The spelling of a canonical type. -/
def CanonicalMediaMimeType.text : CanonicalMediaMimeType → JsString
  | .imagePng => jsText "image/png"
  | .imageJpeg => jsText "image/jpeg"
  | .imageGif => jsText "image/gif"
  | .imageWebp => jsText "image/webp"
  | .audioWav => jsText "audio/wav"
  | .audioMpeg => jsText "audio/mpeg"
  | .audioFlac => jsText "audio/flac"
  | .audioOgg => jsText "audio/ogg"
  | .audioOpus => jsText "audio/opus"
  | .audioAac => jsText "audio/aac"
  | .audioL16 => jsText "audio/L16"
  | .videoMp4 => jsText "video/mp4"
  | .videoWebm => jsText "video/webm"
  | .applicationPdf => jsText "application/pdf"

/-- The spellings in lower case, with the reviewed aliases. -/
def mediaMimeSpellings : List (JsString × CanonicalMediaMimeType) :=
  [(jsText "image/png", .imagePng), (jsText "image/jpeg", .imageJpeg),
    (jsText "image/jpg", .imageJpeg),
    (jsText "image/gif", .imageGif),
    (jsText "image/webp", .imageWebp),
    (jsText "audio/wav", .audioWav),
    (jsText "audio/x-wav", .audioWav),
    (jsText "audio/mpeg", .audioMpeg),
    (jsText "audio/flac", .audioFlac),
    (jsText "audio/x-flac", .audioFlac),
    (jsText "audio/ogg", .audioOgg),
    (jsText "audio/opus", .audioOpus),
    (jsText "audio/aac", .audioAac),
    (jsText "audio/l16", .audioL16),
    (jsText "video/mp4", .videoMp4),
    (jsText "video/webm", .videoWebm),
    (jsText "application/pdf", .applicationPdf)]

/-- The type a spelling stands for. -/
def canonicalMediaMimeType
    (input : JsString) : Except MediaAdmissionErrorCode CanonicalMediaMimeType :=
  -- Outside Latin capitals only the Kelvin sign lowers to ASCII, to a letter
  -- that no spelling has.
  match OrderedMap.lookupEntry (JsText.lowerLatin input) mediaMimeSpellings with
  | some mimeType => .ok mimeType
  | none => .error .unsupportedMime

/-- The modality of a type, which is what stands before its slash. -/
def mediaModalityOf (mimeType : JsString) : Option MediaModality :=
  let lower := JsText.lowerLatin mimeType
  if (jsText "image/").isPrefixOf lower then some .image
  else if (jsText "audio/").isPrefixOf lower then some .audio
  else if (jsText "video/").isPrefixOf lower then some .video
  else if lower = jsText "application/pdf" then some .document
  else none

/-- `[0-9a-f]`. -/
def isHexDigit (unit : UInt16) : Bool :=
  JsText.isDigit unit || decide (97 ≤ unit.toNat ∧ unit.toNat ≤ 102)

/-- `MEDIA_HANDLE_PATTERN`. -/
def isMediaHandle (text : JsString) : Bool :=
  match JsText.afterStart (jsText "media://sha256-") text with
  | some digest => digest.length = 64 && digest.all isHexDigit
  | none => false

@[simp] theorem canonicalMediaMimeType_text (mimeType : CanonicalMediaMimeType) :
    canonicalMediaMimeType mimeType.text = .ok mimeType := by
  cases mimeType <;> decide

/-! ## Reading a value's own data -/

/-- An own property as reflection finds it. -/
inductive OwnProperty (α : Type)
  | absent
  /-- An accessor, or a property whose reflection throws. -/
  | accessor
  | data (value : α)

/-- `mediaDataField`: the value of a data property, `undefined` when there is none. -/
def mediaDataField : OwnProperty α → Except MediaAdmissionErrorCode (Option α)
  | .absent => .ok none
  | .accessor => .error .unsafeValue
  | .data value => .ok (some value)

/-- `mediaHasField`. -/
def mediaHasField : OwnProperty α → Bool
  | .absent => false
  | .accessor => true
  | .data _ => true

/-- The value of a descriptor's property. -/
inductive DescriptorValue
  | string (text : JsString)
  | number (quantity : Quantity)
  | other

/-- An object that is offered as a descriptor. -/
structure DescriptorObject where
  handle : OwnProperty DescriptorValue
  mimeType : OwnProperty DescriptorValue
  modality : OwnProperty DescriptorValue
  byteLength : OwnProperty DescriptorValue
  durationMs : OwnProperty DescriptorValue

/-- A value that is offered as a descriptor. -/
inductive DescriptorInput
  | notObject
  | object (fields : DescriptorObject)

/-- A batch of descriptors: an array with its slots, or something else. -/
inductive DescriptorBatch
  | notArray
  | array (slots : List (OwnProperty DescriptorInput))

/-! ## Admission -/

/-- `DurableMediaMeta` as admission leaves it. -/
structure DurableMediaMeta where
  handle : JsString
  mimeType : CanonicalMediaMimeType
  modality : MediaModality
  byteLength : SafeAmount
  durationMs : Option SafeAmount

/-- The name of a modality. -/
def MediaModality.text : MediaModality → JsString
  | .image => jsText "image"
  | .audio => jsText "audio"
  | .video => jsText "video"
  | .document => jsText "document"

/-- The text of a descriptor's property. -/
def DescriptorValue.asText : Option DescriptorValue → Option JsString
  | some (.string text) => some text
  | _ => none

/-- The safe non-negative integer of a descriptor's property. -/
def DescriptorValue.asAmount : Option DescriptorValue → Option SafeAmount
  | some (.number quantity) => quantity.safeAmount
  | _ => none

/-- The duration of a descriptor that has one: positive, and of sound or video. -/
def admitDuration
    (modality : MediaModality) (field : OwnProperty DescriptorValue)
    (value : Option DescriptorValue) :
    Except MediaAdmissionErrorCode (Option SafeAmount) :=
  if mediaHasField field then
    match DescriptorValue.asAmount value with
    | some duration =>
      if duration.value ≤ 0 ∨ (modality ≠ .audio ∧ modality ≠ .video) then
        .error .invalidDescriptor
      else
        .ok (some duration)
    | none => .error .invalidDescriptor
  else
    .ok none

/-- `admitMediaDescriptor`. -/
def admitMediaDescriptor :
    DescriptorInput → Except MediaAdmissionErrorCode DurableMediaMeta
  | .notObject => .error .invalidDescriptor
  | .object fields => do
      let handle ← mediaDataField fields.handle
      let mime ← mediaDataField fields.mimeType
      let modality ← mediaDataField fields.modality
      let byteLength ← mediaDataField fields.byteLength
      let durationMs ← mediaDataField fields.durationMs
      match DescriptorValue.asText handle, DescriptorValue.asText mime,
          DescriptorValue.asAmount byteLength with
      | some handle, some mime, some byteLength =>
        require .invalidDescriptor (isMediaHandle handle)
        let mimeType ← canonicalMediaMimeType mime
        match mediaModalityOf mimeType.text with
        | some actualModality =>
          require .invalidDescriptor (DescriptorValue.asText modality = some actualModality.text)
          let durationMs ← admitDuration actualModality fields.durationMs durationMs
          pure { handle, mimeType, modality := actualModality, byteLength, durationMs }
        | none => .error .invalidDescriptor
      | _, _, _ => .error .invalidDescriptor

/-- Two durations that are both given and differ. -/
def durationsDisagree (known given : Option SafeAmount) : Prop :=
  known ≠ none ∧ given ≠ none ∧ known ≠ given

instance (known given : Option SafeAmount) : Decidable (durationsDisagree known given) :=
  inferInstanceAs (Decidable (_ ∧ _ ∧ _))

/-- One more descriptor of a batch. -/
def reconcileOne (result : OrderedMap JsString DurableMediaMeta) (next : DurableMediaMeta) :
    Except MediaAdmissionErrorCode (OrderedMap JsString DurableMediaMeta) :=
  match result.get next.handle with
  | none => .ok (result.set next.handle next)
  | some previous =>
    if previous.mimeType ≠ next.mimeType ∨
        previous.modality ≠ next.modality ∨
        previous.byteLength ≠ next.byteLength ∨
        durationsDisagree previous.durationMs next.durationMs then
      .error .descriptorConflict
    else if previous.durationMs ≠ none then
      .ok result
    else
      .ok (result.set next.handle next)

/-- The descriptor in a slot of a batch. -/
def admitSlot (slot : OwnProperty DescriptorInput) :
    Except MediaAdmissionErrorCode DurableMediaMeta := do
  match ← mediaDataField slot with
  | some input => admitMediaDescriptor input
  -- A hole: `mediaHasField` is false.
  | none => .error .unsafeValue

/-- `reconcileMediaDescriptors`: one descriptor for each handle of the batch. -/
def reconcileMediaDescriptors :
    DescriptorBatch → Except MediaAdmissionErrorCode (List DurableMediaMeta)
  | .notArray => .error .unsafeValue
  | .array slots => do
      let owned ← slots.mapM admitSlot
      let result ← owned.foldlM reconcileOne .empty
      pure result.values

end Relavium.Shared
