import Relavium.Library.JsText

/-!
# Literal output reads

Model of `packages/core/src/expression/literal-output-reads.ts`: a scan for the
node ids that an expression literally reads out of `run.outputs`.  Comments and
literals are masked, and where the scan cannot tell, it reports nothing.

Which code points continue an identifier is a parameter.
-/

namespace Relavium.Expression

open Library
open Library.JsText

/-- How an access is written. -/
inductive ReadForm
  | bracket
  | dot
  deriving DecidableEq

structure LiteralOutputRead where
  id : JsString
  form : ReadForm
  deriving DecidableEq

/-! ## Characters -/

/-- `NUL`: what is not code. -/
def nul : UInt16 := 0x00

def lineFeed : UInt16 := 0x0A
def doubleQuote : UInt16 := 0x22
def dollar : UInt16 := 0x24
def singleQuote : UInt16 := 0x27
def asterisk : UInt16 := 0x2A
def fullStop : UInt16 := 0x2E
def solidus : UInt16 := 0x2F
def questionMark : UInt16 := 0x3F
def backslash : UInt16 := 0x5C
def closeBracket : UInt16 := 0x5D
def backquote : UInt16 := 0x60
def openBrace : UInt16 := 0x7B

/-! ## The mask -/

/-- What is appended to the mask, and the text where the scan resumes. -/
structure MaskStep where
  masked : JsString
  rest : JsString

/-- A mask of the length of a construct. -/
def blank
    (construct rest : JsString) : MaskStep where
  masked := List.replicate construct.length nul
  rest := rest

/-- What stands before the close of a block comment, and after it. -/
def splitBlockClose : JsString → Option (JsString × JsString)
  | [] => none
  | [_] => none
  | unit :: next :: rest =>
    if unit = asterisk ∧ next = solidus then some ([], rest)
    else
      (splitBlockClose (next :: rest)).map fun found =>
        (unit :: found.1, found.2)

/-- The loop of `maskStringLiteral`: the literal behind its opening quote, and
what follows it. -/
def splitLiteral (quote : UInt16) : JsString → Option (JsString × JsString)
  | [] => none
  | [unit] => if unit ≠ backslash ∧ unit = quote then some ([unit], []) else none
  | unit :: next :: rest =>
    if unit = backslash then
      (splitLiteral quote rest).map fun found =>
        (unit :: next :: found.1, found.2)
    else if quote = backquote ∧ unit = dollar ∧ next = openBrace then none
    else if unit = quote then some ([unit], next :: rest)
    else
      (splitLiteral quote (next :: rest)).map fun found =>
        (unit :: found.1, found.2)

/-- `maskStringLiteral`. -/
def maskStringLiteral (quote : UInt16)
    (tail : JsString) : Option MaskStep :=
  (splitLiteral quote tail).map fun found => blank (quote :: found.1) found.2

/-- `maskStep`; `none` where the scan is abandoned. -/
def maskStep (ch : UInt16)
    (tail : JsString) : Option MaskStep :=
  let text := ch :: tail
  if ch = solidus ∧ tail.head? = some solidus then
    some (blank (text.takeWhile (fun unit => unit ≠ lineFeed))
      (text.dropWhile fun unit => unit ≠ lineFeed))
  else if ch = solidus ∧ tail.head? = some asterisk then
    (splitBlockClose (tail.drop 1)).map fun found =>
      blank (solidus :: asterisk :: (found.1 ++ [asterisk, solidus])) found.2
  else if ch = solidus then none
  else if (afterStart (jsText "<!--") text).isSome ∨
      (afterStart (jsText "-->") text).isSome then none
  else if ch = singleQuote ∨ ch = doubleQuote ∨ ch = backquote then
    maskStringLiteral ch tail
  else some { masked := [ch], rest := tail }

/-- The loop of `maskLiterals`; every turn consumes a code unit. -/
def maskFrom : Nat → JsString → Option JsString
  | _, [] => some []
  | 0, _ :: _ => none
  | fuel + 1, ch :: tail =>
    (maskStep ch tail).bind fun step =>
      (maskFrom fuel step.rest).map fun mask => step.masked ++ mask

/-- `maskLiterals`. -/
def maskLiterals (text : JsString) : Option JsString :=
  maskFrom text.length text

/-! ## Guards -/

/-- The code point that a surrogate pair stands for. -/
def pairCodePoint (high low : UInt16) : Nat :=
  0x10000 + (high.toNat - 0xD800) * 0x400 + (low.toNat - 0xDC00)

def isHighSurrogate (unit : UInt16) : Bool :=
  decide (0xD800 ≤ unit.toNat ∧ unit.toNat ≤ 0xDBFF)

def isLowSurrogate (unit : UInt16) : Bool :=
  decide (0xDC00 ≤ unit.toNat ∧ unit.toNat ≤ 0xDFFF)

/-- The first code point of a text. -/
def firstCodePoint : JsString → Option Nat
  | [] => none
  | [unit] => some unit.toNat
  | unit :: next :: _ =>
    if isHighSurrogate unit && isLowSurrogate next then
      some (pairCodePoint unit next)
    else some unit.toNat

/-- The last code point of a text that is given from its end. -/
def lastCodePoint : JsString → Option Nat
  | [] => none
  | [unit] => some unit.toNat
  | unit :: before :: _ =>
    if isHighSurrogate before && isLowSurrogate unit then
      some (pairCodePoint before unit)
    else some unit.toNat

/-- `\s*\??\.`: what follows the access of a member. -/
def memberAccess (text : JsString) : Option JsString :=
  let text := text.dropWhile isWhiteSpace
  let text := if text.head? = some questionMark then text.tail else text
  if text.head? = some fullStop then some text.tail else none

/-- `hasIdentifierEscape`. -/
def hasIdentifierEscape (code : JsString) : Bool :=
  decide (backslash ∈ code)

/-- `[.?\w$]`: what no access follows at once. -/
def continuesAccess (unit : UInt16) : Bool :=
  unit = fullStop || unit = questionMark || isWord unit || unit = dollar

section Identifiers

variable (idContinue : Nat → Bool)

/-- `[\p{ID_Continue}$]`. -/
def isIdentifierPart (codePoint : Nat) : Bool :=
  idContinue codePoint || codePoint = dollar.toNat

/-- The search of `rebindsRun`, from what stands before, in reverse. -/
def rebindsFrom (before : JsString) : JsString → Bool
  | [] => false
  | unit :: rest =>
    (match afterStart (jsText "run") (unit :: rest) with
      | none => false
      | some tail =>
        !(lastCodePoint before).any (isIdentifierPart idContinue) &&
          !(firstCodePoint tail).any (isIdentifierPart idContinue) &&
          (memberAccess tail).isNone) ||
      rebindsFrom (unit :: before) rest

/-- `rebindsRun`: a `run` that nothing is accessed on may be a binding. -/
def rebindsRun (code : JsString) : Bool :=
  rebindsFrom idContinue [] code

/-- The walk of `isFreeRunReference`, over what stands before, in reverse. -/
def isFreeBehind : JsString → Bool
  | [] => true
  | ch :: before =>
    if ch = nul || isWhiteSpace ch then isFreeBehind before
    else
      !(ch = fullStop || ch = questionMark || isIdentifierPart idContinue ch.toNat)

/-- `isFreeRunReference`. -/
def isFreeRunReference (mask : JsString)
    (index : Nat) : Bool :=
  isFreeBehind idContinue (mask.take index).reverse

end Identifiers

/-! ## The patterns -/

/-- `run\s*\??\.\s*outputs`, which both patterns begin with. -/
def runOutputs (text : JsString) : Option JsString := do
  let member ← memberAccess (← afterStart (jsText "run") text)
  afterStart (jsText "outputs") (member.dropWhile isWhiteSpace)

/-- `[^'"\\]`. -/
def isKeyUnit (unit : UInt16) : Bool :=
  unit ≠ singleQuote && unit ≠ doubleQuote && unit ≠ backslash

/-- `(['"])([^'"\\]*)\1\s*\]`: the key and what follows the bracket. -/
def bracketKey : JsString → Option (JsString × JsString)
  | [] => none
  | quote :: text =>
    if quote = singleQuote ∨ quote = doubleQuote then
      match text.dropWhile isKeyUnit with
      | [] => none
      | close :: rest =>
        let rest := rest.dropWhile isWhiteSpace
        if close = quote ∧ rest.head? = some closeBracket then
          some (text.takeWhile isKeyUnit, rest.tail)
        else none
    else none

/-- `BRACKET_ACCESS`, behind its lookbehind: the key and what follows. -/
def bracketAccess (text : JsString) : Option (JsString × JsString) := do
  let rest := (← runOutputs text).dropWhile isWhiteSpace
  let rest :=
    match afterStart (jsText "?.") rest with
    | some optional => optional.dropWhile isWhiteSpace
    | none => rest
  bracketKey ((← afterStart (jsText "[") rest).dropWhile isWhiteSpace)

/-- `DOT_ACCESS`, behind its lookbehind: the name and what follows. -/
def dotAccess (text : JsString) : Option (JsString × JsString) := do
  let name := (← memberAccess (← runOutputs text)).dropWhile isWhiteSpace
  let isPart := fun unit => isWord unit || unit = dollar
  if name.head?.any (fun unit => isPart unit && !isDigit unit) then
    some (name.takeWhile isPart, name.dropWhile isPart)
  else none

/-- The matches of a pattern with the positions where they begin.  The search
goes on behind a match: `skip` code units of it are left. -/
def accessesFrom (pattern : JsString → Option (JsString × JsString)) :
    Option UInt16 → Nat → Nat → JsString → List (Nat × JsString)
  | _, _, _, [] => []
  | _, index, skip + 1, unit :: rest =>
    accessesFrom pattern (some unit) (index + 1) skip rest
  | before, index, 0, unit :: rest =>
    match before.any continuesAccess, pattern (unit :: rest) with
    | false, some (id, follows) =>
      (index, id) :: accessesFrom pattern (some unit) (index + 1)
        (rest.length - follows.length) rest
    | _, _ => accessesFrom pattern (some unit) (index + 1) 0 rest

/-- All matches of a global pattern. -/
def accesses (pattern : JsString → Option (JsString × JsString))
    (text : JsString) : List (Nat × JsString) :=
  accessesFrom pattern none 0 0 text

/-! ## The scan -/

/-- A read, and where the match that produced it begins. -/
structure FoundRead where
  read : LiteralOutputRead
  index : Nat
  deriving DecidableEq

/-- One turn of `collect`. -/
def collectAccess
    (idContinue : Nat → Bool) (mask : JsString) (form : ReadForm) (found : List FoundRead)
    (access : Nat × JsString) : List FoundRead :=
  if access.2 ≠ [] ∧ mask[access.1]? ≠ some nul ∧
      isFreeRunReference idContinue mask access.1 ∧
      ¬found.any (fun earlier => earlier.read.id = access.2) then
    found ++ [{ read := { id := access.2, form }, index := access.1 }]
  else found

/-- `literalOutputReads`, with the positions of the matches. -/
def foundReads (idContinue : Nat → Bool)
    (expression : JsString) : List FoundRead :=
  match maskLiterals expression with
  | none => []
  | some mask =>
    if hasIdentifierEscape mask || rebindsRun idContinue mask then []
    else
      let bracketed := (accesses bracketAccess expression).foldl
        (collectAccess idContinue mask .bracket) []
      (accesses dotAccess expression).foldl (collectAccess idContinue mask .dot) bracketed

/-- `literalOutputReads`. -/
def literalOutputReads (idContinue : Nat → Bool)
    (expression : JsString) : List LiteralOutputRead :=
  (foundReads idContinue expression).map FoundRead.read

/-- The ASCII code points that continue an identifier. -/
def asciiContinue (codePoint : Nat) : Bool :=
  isWord (UInt16.ofNat codePoint) && decide (codePoint < 0x80)

example :
    (foundReads asciiContinue
        (jsText "'run.outputs.b' + run?.outputs [ 'a' ] // run.outputs.c")).map
        (fun found => (found.read.id, found.read.form, found.index)) =
      [(jsText "a", .bracket, 18)] := by
  decide

end Relavium.Expression
