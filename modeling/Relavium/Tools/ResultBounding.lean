import Relavium.Library.JsText
import Relavium.Library.JsonString
import Relavium.Library.JsValue

/-!
# Bounding a tool result

Model of `boundForModel` of `packages/core/src/tools/bounding.ts`: a result within
the ceiling is handed to the model as it is, and any other as a preview with a
marker, its full text spilled to the host.
-/

namespace Relavium.Tools

open Library

/-- `ToolResultLimits`. -/
structure ToolResultLimits where
  maxBytes : Nat
  maxLines : Nat

/-- The texts that are made of a result: the one the model would see, with inline
media left out, the display summary, and the preview of a text over the ceiling. -/
structure ResultRendering where
  text : JsValue → JsString
  /-- The bytes of the inline media that the text leaves out. -/
  omittedBytes : JsValue → Nat
  summary : JsValue → JsString
  makePreview : JsString → ToolResultLimits → JsString

/-- `utf8ByteLength`. -/
def utf8ByteLength : JsString → Nat
  | [] => 0
  | unit :: rest =>
    if unit.toNat < 0x80 then 1 + utf8ByteLength rest
    else if unit.toNat < 0x800 then 2 + utf8ByteLength rest
    else if isLeadSurrogate unit then
      match rest with
      | [] => 3
      | next :: later =>
        if isTrailSurrogate next then 4 + utf8ByteLength later
        else 3 + utf8ByteLength (next :: later)
    else 3 + utf8ByteLength rest

/-- `countLines`. -/
def countLines (text : JsString) : Nat :=
  if text = [] then 0 else 1 + text.count 0x0A

/-- What the host's output store answers, if there is one. -/
inductive SpillAnswer
  | noStore
  | stored (ref : JsString)
  | failed
  /-- The spill was given up because of an abort. -/
  | aborted
  deriving DecidableEq

/-- `BoundedResult`. -/
structure BoundedResult where
  value : JsValue
  truncated : Bool
  summary : JsString

/-- A number in decimal. -/
def decimalText (value : Nat) : JsString :=
  jsText (toString value)

/-- The marker at the end of a truncated result. -/
def truncationMarker (bytes lines : Nat) : SpillAnswer → JsString
  | .stored ref =>
    jsText "\n\n[… truncated: " ++ decimalText bytes ++ jsText " bytes / " ++
      decimalText lines ++ jsText " lines; full output at " ++ ref ++ jsText " …]"
  | .noStore | .aborted =>
    jsText "\n\n[… truncated: " ++ decimalText bytes ++ jsText " bytes / " ++ decimalText lines ++
      jsText " lines; full output unavailable (no output store) …]"
  | .failed =>
    jsText "\n\n[… truncated: " ++ decimalText bytes ++ jsText " bytes / " ++ decimalText lines ++
      jsText " lines; full output unavailable (spill failed) …]"

namespace ResultRendering

variable (rendering : ResultRendering)

/-- The bytes that count against the ceiling. -/
def bytes (result : JsValue) : Nat :=
  utf8ByteLength (rendering.text result) + rendering.omittedBytes result

/-- The lines that count against the ceiling. -/
def lines (result : JsValue) : Nat :=
  countLines (rendering.text result)

/-- Whether a result is within the ceiling. -/
def withinLimits (result : JsValue) (limits : ToolResultLimits) : Bool :=
  decide (rendering.bytes result ≤ limits.maxBytes ∧
    rendering.lines result ≤ limits.maxLines)

/-- The preview of a result over the ceiling, with its marker. -/
def truncatedText (result : JsValue) (limits : ToolResultLimits)
    (spill : SpillAnswer) : JsString :=
  let text := rendering.text result
  let preview :=
    if utf8ByteLength text ≤ limits.maxBytes ∧
        rendering.lines result ≤ limits.maxLines then text
    else rendering.makePreview text limits
  preview ++ truncationMarker (rendering.bytes result) (rendering.lines result) spill

/-- `boundForModel`; it only gives up when the spill is aborted. -/
def boundForModel (result : JsValue) (limits : ToolResultLimits) (spill : SpillAnswer)
    (aborted : Bool) : Option BoundedResult :=
  if rendering.withinLimits result limits then
    some {
      value := result
      truncated := false
      summary := rendering.summary result }
  else if spill = .aborted ∨ (spill = .failed ∧ aborted = true) then none
  else
    some {
      value := .string (rendering.truncatedText result limits spill)
      truncated := true
      summary := rendering.summary result }

end ResultRendering

end Relavium.Tools
