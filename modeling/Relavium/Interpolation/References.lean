import Relavium.Library.JsText
import Relavium.Library.NumericLiteral

/-!
# Interpolation references

The lexer of `packages/core/src/interpolation/references.ts`: a template is
split into literal text and references in double braces, which are parsed but
not evaluated.
-/

namespace Relavium.Interpolation

open Library
open Library.JsText

/-- Which namespace a reference reads from. -/
inductive ReferenceKind
  | inputs
  | ctx
  | node
  | run
  | secrets
  | unknown
  deriving DecidableEq

/-- A literal argument of a pipe filter. -/
inductive FilterArg
  | string (value : JsString)
  | number (value : JsNumber)
  | boolean (value : Bool)
  deriving DecidableEq

/-- A pipe filter, not applied. -/
structure PipeFilter where
  name : JsString
  args : List FilterArg
  deriving DecidableEq

/-- A reference, not evaluated. -/
structure InterpolationReference where
  kind : ReferenceKind
  /-- Input name, context key, node id or secret name; the whole head for
  `unknown`. -/
  identifier : JsString
  /-- The access after the head, verbatim. -/
  path : JsString
  filters : List PipeFilter
  /-- The whole occurrence, verbatim. -/
  raw : JsString
  deriving DecidableEq

inductive TemplateSegment
  | literal (text : JsString)
  | reference (reference : InterpolationReference)
  deriving DecidableEq

/-! ## Characters -/

/-- The double quote. -/
def doubleQuote : UInt16 := 0x22

/-- The single quote. -/
def singleQuote : UInt16 := 0x27

def openParen : UInt16 := 0x28
def closeParen : UInt16 := 0x29
def comma : UInt16 := 0x2C
def openBracket : UInt16 := 0x5B
def backslash : UInt16 := 0x5C
def closeBracket : UInt16 := 0x5D
def openBrace : UInt16 := 0x7B
def pipe : UInt16 := 0x7C
def closeBrace : UInt16 := 0x7D

/-- `isQuoteChar`. -/
def isQuoteChar (unit : UInt16) : Bool :=
  unit = doubleQuote || unit = singleQuote

/-! ## Finding the end and splitting -/

/-- What the scanners remember: the quote they are in, the brackets they are in
and whether the next character is escaped. -/
structure ScanState where
  quote : Option UInt16
  depth : Nat
  escaped : Bool
  deriving DecidableEq

namespace ScanState

def initial : ScanState where
  quote := none
  depth := 0
  escaped := false

/-- Outside of quotes and brackets. -/
def topLevel (state : ScanState) : Bool :=
  !state.escaped && state.quote = none && state.depth = 0

/-- The state after one more character. -/
def step (state : ScanState)
    (unit : UInt16) : ScanState :=
  if state.escaped then
    { state with escaped := false }
  else
    match state.quote with
    | some quote =>
      if unit = backslash then { state with escaped := true }
      else if unit = quote then { state with quote := none }
      else state
    | none =>
      if isQuoteChar unit then { state with quote := some unit }
      else if unit = openBracket ∨ unit = openParen then
        { state with depth := state.depth + 1 }
      else if unit = closeBracket ∨ unit = closeParen then
        { state with depth := state.depth - 1 }
      else state

end ScanState

/-- `findClose`: what stands before the first top-level close and after it. -/
def findClose : ScanState → JsString → Option (JsString × JsString)
  | _, [] => none
  | _, [_] => none
  | state, unit :: next :: rest =>
    if state.topLevel ∧ unit = closeBrace ∧ next = closeBrace then
      some ([], rest)
    else
      (findClose (state.step unit) (next :: rest)).map fun found =>
        (unit :: found.1, found.2)

/-- `splitTopLevel`, from a state and what the current piece holds already.  The
source reads code points; as a delimiter, a quote, a bracket or a backslash is
a single unit, the pieces are the same. -/
def splitFrom
    (delim : UInt16) : ScanState → JsString → JsString → List JsString
  | _, buf, [] => [buf]
  | state, buf, unit :: rest =>
    if state.topLevel ∧ unit = delim then
      buf :: splitFrom delim state [] rest
    else
      splitFrom delim (state.step unit) (buf ++ [unit]) rest

/-- `splitTopLevel`. -/
def splitTopLevel (text : JsString)
    (delim : UInt16) : List JsString :=
  splitFrom delim .initial [] text

/-! ## Filters -/

/-- `decodeQuotedArg`: only the delimiter and the backslash are unescaped. -/
def decodeQuotedArg (quote : UInt16) : JsString → JsString
  | [] => []
  | [unit] => [unit]
  | unit :: next :: rest =>
    if unit = backslash ∧ (next = quote ∨ next = backslash) then
      next :: decodeQuotedArg quote rest
    else
      unit :: decodeQuotedArg quote (next :: rest)

/-- `QUOTED`: the quote and what it encloses. -/
def quotedBody : JsString → Option (UInt16 × JsString)
  | [] => none
  | quote :: rest =>
    if isQuoteChar quote ∧ rest.getLast? = some quote then
      some (quote, rest.dropLast)
    else none

/-- `/^-?\d+(?:\.\d+)?$/`, read as a number. -/
def decimalArg (text : JsString) : Option JsNumber :=
  let negative := text.head? = some 0x2D
  let unsigned := if negative then text.drop 1 else text
  let (whole, rest) := spanDigits unsigned
  if whole = [] then none
  else
    match rest with
    | [] =>
      some (NumericLiteral.value {
        negative, whole, fraction := [], exponent := none })
    | point :: rest =>
      let (fraction, rest) := spanDigits rest
      if point = 0x2E ∧ fraction ≠ [] ∧ rest = [] then
        some (NumericLiteral.value {
          negative, whole, fraction, exponent := none })
      else none

/-- `parseArg`: a quoted string, a boolean, a decimal, or a bare word. -/
def parseArg (piece : JsString) : Option FilterArg :=
  let trimmed := trim piece
  if trimmed = [] then none
  else
    match quotedBody trimmed with
    | some (quote, body) => some (.string (decodeQuotedArg quote body))
    | none =>
      if trimmed = jsText "true" then some (.boolean true)
      else if trimmed = jsText "false" then some (.boolean false)
      else
        match decimalArg trimmed with
        | some value => some (.number value)
        | none => some (.string trimmed)

/-- `FILTER`: the name and what its parentheses enclose. -/
def filterParts (text : JsString) : Option (JsString × Option JsString) :=
  match text with
  | [] => none
  | first :: _ =>
    if isLetter first ∨ first = 0x5F then
      let name := text.takeWhile isWord
      match (text.dropWhile isWord).dropWhile isWhiteSpace with
      | [] => some (name, none)
      | unit :: rest =>
        if unit = openParen ∧ rest.getLast? = some closeParen then
          some (name, some rest.dropLast)
        else none
    else none

/-- `parseFilter`. -/
def parseFilter (part : JsString) : PipeFilter :=
  let trimmed := trim part
  match filterParts trimmed with
  | none => { name := trimmed, args := [] }
  | some (name, none) => { name, args := [] }
  | some (name, some rawArgs) =>
    if trim rawArgs = [] then { name, args := [] }
    else { name, args := (splitTopLevel rawArgs comma).filterMap parseArg }

/-! ## The head of a reference -/

/-- `NODE_OUTPUT`: the node id and the path. -/
def nodeOutputHead (head : JsString) : Option (JsString × JsString) := do
  let inside ← afterStart (jsText "run.outputs[") head
  match inside.dropWhile isWhiteSpace with
  | [] => none
  | quote :: rest =>
    if isQuoteChar quote then
      match rest.dropWhile (fun unit => !isQuoteChar unit) with
      | [] => none
      | close :: rest' =>
        if close = quote then
          match rest'.dropWhile isWhiteSpace with
          | [] => none
          | bracket :: path =>
            if bracket = closeBracket then
              some (rest.takeWhile (fun unit => !isQuoteChar unit), path)
            else none
        else none
    else none

/-- `RUN_ID`: the path after it. -/
def runIdHead (head : JsString) : Option JsString := do
  let path ← afterStart (jsText "run.id") head
  match path with
  | [] => some []
  | unit :: _ => if isWord unit ∨ unit = 0x2D then none else some path

/-- The letters of `[A-Za-z0-9_-]`. -/
def isNameUnit (unit : UInt16) : Bool :=
  isWord unit || unit = 0x2D

/-- `NAMESPACED`, for one namespace: the name and the path. -/
def namespacedHead (space : String)
    (head : JsString) : Option (JsString × JsString) := do
  let named ← afterStart (jsText space ++ [0x2E]) head
  let name := named.takeWhile isNameUnit
  if name = [] then none else some (name, named.dropWhile isNameUnit)

/-- `parseHead`: kind, identifier and path. -/
def parseHead (head : JsString) : ReferenceKind × JsString × JsString :=
  match nodeOutputHead head with
  | some (identifier, path) => (.node, identifier, trim path)
  | none =>
    match runIdHead head with
    | some path => (.run, jsText "id", trim path)
    | none =>
      match namespacedHead "inputs" head with
      | some (name, path) => (.inputs, name, trim path)
      | none =>
        match namespacedHead "ctx" head with
        | some (name, path) => (.ctx, name, trim path)
        | none =>
          match namespacedHead "secrets" head with
          | some (name, path) => (.secrets, name, trim path)
          | none => (.unknown, head, [])

/-- `parseReference`. -/
def parseReference (inner raw : JsString) : InterpolationReference :=
  let parts := splitTopLevel inner pipe
  let (kind, identifier, path) := parseHead (trim (parts.headD []))
  { kind, identifier, path, filters := parts.tail.map parseFilter, raw }

/-! ## Templates -/

/-- What stands before the first open and after it. -/
def findOpen : JsString → Option (JsString × JsString)
  | [] => none
  | [_] => none
  | unit :: next :: rest =>
    if unit = openBrace ∧ next = openBrace then some ([], rest)
    else
      (findOpen (next :: rest)).map fun found => (unit :: found.1, found.2)

/-- `pushLiteral`: an empty text makes no segment. -/
def literalSegments (text : JsString) : List TemplateSegment :=
  if text = [] then [] else [.literal text]

/-- The occurrence of a reference, verbatim. -/
def rawOccurrence (inner : JsString) : JsString :=
  [openBrace, openBrace] ++ inner ++ [closeBrace, closeBrace]

/-- The loop of `parseTemplate`; every turn consumes a reference. -/
def parseSegments : Nat → JsString → List TemplateSegment
  | 0, _ => []
  | fuel + 1, text =>
    match findOpen text with
    | none => literalSegments text
    | some (before, afterOpen) =>
      match findClose .initial afterOpen with
      | none => literalSegments text
      | some (inner, rest) =>
        literalSegments before ++
          .reference (parseReference inner (rawOccurrence inner)) :: parseSegments fuel rest

/-- `parseTemplate`. -/
def parseTemplate (text : JsString) : List TemplateSegment :=
  parseSegments (text.length + 1) text

/-- The reference of a segment. -/
def TemplateSegment.reference? : TemplateSegment → Option InterpolationReference
  | .literal _ => none
  | .reference found => some found

/-- `templateReferences`. -/
def templateReferences (text : JsString) : List InterpolationReference :=
  (parseTemplate text).filterMap TemplateSegment.reference?

example :
    (templateReferences
        (jsText "a \x7b\x7b run.outputs[\x22x\x22].y | default(1) \x7d\x7d b")).map
        (fun reference => (reference.kind, reference.identifier, reference.path)) =
      [(.node, jsText "x", jsText ".y")] := by
  decide

end Relavium.Interpolation
