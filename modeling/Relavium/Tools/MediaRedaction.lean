import Relavium.Library.DecimalRounding
import Relavium.Library.JsonStringify
import Relavium.Library.ValueGraph
import Relavium.Shared.MediaSnapshot
import Relavium.Tools.TruncationPreview

/-!
# Redaction of inline media

Model of `redactInlineMedia`, `toText` and `boundForModel` of
`packages/core/src/tools/bounding.ts`.  The walk makes a tree of a value graph, with
markers for inline media and for references to an object that is being walked.
-/

namespace Relavium.Tools

open Library
open Shared (isBase64DataUri kindKey base64Key)

def dataKey : JsString := jsText "data"
def base64LengthKey : JsString := jsText "base64Length"

def dataUriMarker : JsString := jsText "[base64 data URI omitted]"
def cyclicMarker : JsString := jsText "[cyclic]"
def binaryMarker : JsString := jsText "[binary buffer omitted]"
def unserializable : JsString := jsText "[unserializable]"

/-- `isCanonicalBase64Source`. -/
def isCanonicalBase64Source (properties : OrderedMap JsString GraphValue) : Bool :=
  decide (properties.get kindKey = some (.primitive (.string base64Key))) &&
    match properties.get dataKey with
    | some (.primitive (.string _)) => true
    | _ => false

/-- The length of the `data` of a canonical source. -/
def base64Length (properties : OrderedMap JsString GraphValue) : Nat :=
  match properties.get dataKey with
  | some (.primitive (.string data)) => data.length
  | _ => 0

/-- The integer as a number. -/
def lengthNumber (length : Nat) : JsNumber :=
  .ofNearest false (Binary64.nearest false length 1)

/-- What stands for a canonical source. -/
def byteFreeSource (length : Nat) : ValueTree :=
  .plain
    [(kindKey, .primitive (.string base64Key)),
      (base64LengthKey, .primitive (.number (lengthNumber length)))]

/-- `seen`, the objects being walked, and `omitted.bytes`. -/
structure RedactionState where
  seen : List Nat
  omitted : Nat

/-- `seen.delete` of the object that is left. -/
def RedactionState.leave (state : RedactionState)
    (address : Nat) : RedactionState :=
  { state with seen := state.seen.filter fun other => decide (other ≠ address) }

/-- Omitted bytes are counted. -/
def RedactionState.addOmitted (state : RedactionState)
    (bytes : Nat) : RedactionState :=
  { state with omitted := state.omitted + bytes }

/-- A walk over the items of a list, each going on from the state that the one before
left. -/
def redactEach (redact : α → RedactionState → Option (β × RedactionState)) :
    List α → RedactionState → Option (List β × RedactionState)
  | [], state => some ([], state)
  | item :: rest, state =>
    (redact item state).bind fun first =>
      (redactEach redact rest first.2).map fun others =>
        (first.1 :: others.1, others.2)

/-- The walk of an object, with the walk of the values that it holds. -/
def redactNode
    (redact : GraphValue → RedactionState → Option (ValueTree × RedactionState)) (address : Nat)
    (node : GraphNode)
    (entered : RedactionState) : Option (ValueTree × RedactionState) :=
  match node with
  | .array items =>
    (redactEach redact items entered).map fun result => (.array result.1, result.2)
  | .binary byteLength =>
    some (.primitive (.string binaryMarker), entered.addOmitted byteLength)
  | .foreign => some (.foreign address, entered)
  | .plain properties =>
    if isCanonicalBase64Source properties then
      some (byteFreeSource (base64Length properties),
        entered.addOmitted (base64Length properties))
    else
      (redactEach
        (fun property state =>
          (redact property.2 state).map fun result => ((property.1, result.1), result.2))
        properties.entries entered).map
        fun result => (.plain result.1, result.2)

/-- `redactInlineMediaForText`; `none` when the fuel does not last. -/
def redactInlineMediaForText (nodes : List GraphNode) :
    Nat → GraphValue → RedactionState → Option (ValueTree × RedactionState)
  | _, .primitive (.string text), state =>
    if isBase64DataUri text then
      some (.primitive (.string dataUriMarker), state.addOmitted (utf8ByteLength text))
    else some (.primitive (.string text), state)
  | _, .primitive value, state => some (.primitive value, state)
  | 0, .object _, _ => none
  | fuel + 1, .object address, state =>
    if address ∈ state.seen then some (.primitive (.string cyclicMarker), state)
    else
      -- the entry is taken back on every way out
      (nodes[address]?.bind fun node =>
        redactNode (redactInlineMediaForText nodes fuel) address node
          { state with seen := address :: state.seen }).map
        fun result => (result.1, result.2.leave address)

/-- The walk of a whole graph.  A path without repeated objects is no longer than the
graph has objects. -/
def redactGraph (graph : ValueGraph) : Option (ValueTree × RedactionState) :=
  redactInlineMediaForText graph.nodes (graph.nodes.length + 1) graph.root
    { seen := [], omitted := 0 }

/-- `redactInlineMedia`. -/
def redactInlineMedia (graph : ValueGraph) : Option ValueTree :=
  (redactGraph graph).map Prod.fst

/-! ## The model-facing bound -/

/-- What the texts of a result depend on besides: the JSON of the instances, `none`
where it throws, and how the display summary is made. -/
structure TextHost where
  instanceJson : Nat → Option JsValue
  structuredSummary : ValueTree → JsString
  makeSummary : JsString → JsString

section Json

variable (instanceJson : Nat → Option JsValue)

mutual

/-- The value that `JSON.stringify` is given; `none` where it throws. -/
def jsonValue : ValueTree → Option JsValue
  | .primitive .undefined | .primitive .symbol | .primitive .function => some .undefined
  | .primitive .null => some .null
  | .primitive (.boolean value) => some (.boolean value)
  | .primitive (.number value) => some (.number value)
  | .primitive (.bigint _) => none
  | .primitive (.string value) => some (.string value)
  | .array items => (jsonItems items).map .array
  | .plain properties => (jsonProperties properties).map .object
  | .foreign address => instanceJson address

def jsonItems : List ValueTree → Option (List JsValue)
  | [] => some []
  | item :: rest => (jsonValue item).bind fun first => (jsonItems rest).map (first :: ·)

def jsonProperties : List (JsString × ValueTree) → Option (List (JsString × JsValue))
  | [] => some []
  | property :: rest =>
    (jsonValue property.2).bind fun first =>
      (jsonProperties rest).map ((property.1, first) :: ·)

end

/-- `jsonText`. -/
def jsonText (tree : ValueTree) : JsString :=
  match jsonValue instanceJson tree with
  | some value =>
    if value.isUndefined then unserializable
    else (JsonText.write none value).getD unserializable
  | none => unserializable

end Json

/-- What `toText` returns. -/
structure ResultTexts where
  text : JsString
  summaryText : JsString
  omittedBytes : Nat

/-- `toText`. -/
def toText (host : TextHost)
    (graph : ValueGraph) : ResultTexts :=
  match graph.root with
  | .primitive (.string text) =>
    if isBase64DataUri text then
      { text := dataUriMarker
        summaryText := dataUriMarker
        omittedBytes := utf8ByteLength text }
    else { text, summaryText := text, omittedBytes := 0 }
  | .primitive .undefined => { text := [], summaryText := [], omittedBytes := 0 }
  | _ =>
    match redactGraph graph with
    | none => { text := unserializable, summaryText := unserializable, omittedBytes := 0 }
    | some (safe, state) =>
      { text := jsonText host.instanceJson safe
        summaryText := host.structuredSummary safe
        omittedBytes := state.omitted }

/-- The value that the model is given: the result itself, or a preview of its text. -/
inductive ModelValue
  | untouched
  | preview (text : JsString)

/-- `BoundedResult` of a value graph. -/
structure BoundedGraph where
  value : ModelValue
  truncated : Bool
  summary : JsString

/-- `boundForModel`; it gives up only when the spill is aborted. -/
def boundForModel
    (host : TextHost) (graph : ValueGraph) (limits : ToolResultLimits) (spill : SpillAnswer)
    (aborted : Bool) : Option BoundedGraph :=
  let texts := toText host graph
  let summary := host.makeSummary texts.summaryText
  let bytes := utf8ByteLength texts.text + texts.omittedBytes
  let lines := countLines texts.text
  if bytes ≤ limits.maxBytes ∧ lines ≤ limits.maxLines then
    some { value := .untouched, truncated := false, summary }
  else if spill = .aborted ∨ (spill = .failed ∧ aborted = true) then none
  else
    let preview :=
      if utf8ByteLength texts.text ≤ limits.maxBytes ∧ lines ≤ limits.maxLines then texts.text
      else makePreview texts.text limits
    some
      { value := .preview (preview ++ truncationMarker bytes lines spill)
        truncated := true
        summary }

/-- The texts that are made of results, each laid out as a graph. -/
def TextHost.rendering (host : TextHost)
    (layOut : JsValue → ValueGraph) : ResultRendering where
  text result := (toText host (layOut result)).text
  omittedBytes result := (toText host (layOut result)).omittedBytes
  summary result := host.makeSummary (toText host (layOut result)).summaryText
  makePreview := makePreview

/-- The value that the model is given for a result. -/
def ModelValue.valueOf (result : JsValue) : ModelValue → JsValue
  | .untouched => result
  | .preview text => .string text

/-- The bound of a result is that of its graph. -/
theorem boundForModel_rendering
    (host : TextHost) (layOut : JsValue → ValueGraph) (result : JsValue)
    (limits : ToolResultLimits) (spill : SpillAnswer) (aborted : Bool) :
    (host.rendering layOut).boundForModel result limits spill aborted =
      (boundForModel host (layOut result) limits spill aborted).map fun bounded =>
        { value := bounded.value.valueOf result
          truncated := bounded.truncated
          summary := bounded.summary } := by
  have bytes : (host.rendering layOut).bytes result =
      utf8ByteLength (toText host (layOut result)).text +
        (toText host (layOut result)).omittedBytes := rfl
  have lines : (host.rendering layOut).lines result =
      countLines (toText host (layOut result)).text := rfl
  simp only [ResultRendering.boundForModel, ResultRendering.withinLimits, boundForModel,
    decide_eq_true_eq, bytes, lines]
  split
  · rfl
  · split <;> rfl

end Relavium.Tools
