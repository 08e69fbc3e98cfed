import Relavium.Library.JsonStringify
import Relavium.Llm.ContinuationTokens
import Relavium.Shared.MediaDescriptor

/-!
# The request estimator

Model of `packages/llm/src/request-estimator.ts`, for requests that offer no tools
and fix no response format.  The fields of a tool result are a JSON object here.
-/

namespace Relavium.Llm

open Library Shared

/-- `CHARS_PER_TOKEN`. -/
def charsPerToken : Nat := 4

/-- `MESSAGE_ENVELOPE_TOKENS`. -/
def messageEnvelopeTokens : Nat := 2

/-- `MEDIA_INPUT_TOKENS`. -/
def mediaInputTokens : MediaModality → Nat
  | .image => 48169
  | .document => 80000
  | .audio => 20000
  | .video => 200000

/-- `UNSERIALIZABLE_INPUT_TOKENS`. -/
def unserializableInputTokens : Nat := 1048576

/-- `Math.ceil(length / CHARS_PER_TOKEN)`. -/
def tokensOfLength (length : Nat) : Nat :=
  (length + charsPerToken - 1) / charsPerToken

section Estimator

-- what `JSON.stringify` writes for an object of another class, if it can
variable (exoticText : Option JsString)

/-- `serializedTokens`. -/
def serializedTokens (value : JsValue) : Nat :=
  match JsonText.write exoticText value with
  | some serialized => tokensOfLength serialized.length
  | none => unserializableInputTokens

/-- `mediaTokens`, of a part with the given type. -/
def mediaTokens (mimeType : JsString) : Nat :=
  match mediaModalityOf mimeType with
  | some modality => mediaInputTokens modality
  | none => unserializableInputTokens

/-- The charge of one of the media of a tool result. -/
def attachedMediaTokens : JsValue → Nat
  | .object fields =>
    match fields.lookup (jsText "mimeType") with
    | some (.string mimeType) => mediaTokens mimeType
    | _ => unserializableInputTokens
  | _ => unserializableInputTokens

/-- The media of a tool result. -/
def attachedMedia (fields : List (JsString × JsValue)) : List JsValue :=
  match fields.lookup (jsText "media") with
  | some (.array items) => items
  | _ => []

/-- An optional text as the member of an object. -/
def textMember (key : String) (text : Option JsString) : List (JsString × JsValue) :=
  text.toList.map fun given => (jsText key, .string given)

/-- An optional flag as the member of an object. -/
def flagMember (key : String) (flag : Option Bool) : List (JsString × JsValue) :=
  flag.toList.map fun given => (jsText key, .boolean given)

/-- A part of the given type with its other members. -/
def partObject (type : String)
    (members : List (JsString × JsValue)) : JsValue :=
  .object ((jsText "type", .string (jsText type)) :: members)

/-- `partTokens`. -/
def partTokens : ContentPart JsValue → Nat
  | .media mimeType _ _ _ => mediaTokens mimeType
  | .toolResult (.object fields) =>
    serializedTokens exoticText
        (partObject "tool_result" (fields.filter (·.1 ≠ jsText "media"))) +
      ((attachedMedia fields).map attachedMediaTokens).sum
  | .toolResult _ => unserializableInputTokens
  | .text text => serializedTokens exoticText (partObject "text" [(jsText "text", .string text)])
  | .toolCall id name args providerExecuted signature =>
    serializedTokens exoticText
      (partObject "tool_call"
        ([(jsText "id", .string id), (jsText "name", .string name), (jsText "args", args)] ++
          flagMember "providerExecuted" providerExecuted ++
          textMember "signature" (signature.map CallSignature.value)))
  | .reasoning text signature redacted _ =>
    serializedTokens exoticText
      (partObject "reasoning"
        ((jsText "text", .string text) ::
          (textMember "signature" signature ++ flagMember "redacted" redacted)))

/-- The charge of a message: its envelope and its parts. -/
def messageTokens (message : LlmMessage JsValue) : Nat :=
  messageEnvelopeTokens + (message.content.map (partTokens exoticText)).sum

/-- The charge of the messages of a request. -/
def messagesTokens (messages : List (LlmMessage JsValue)) : Nat :=
  (messages.map (messageTokens exoticText)).sum

end Estimator

end Relavium.Llm
