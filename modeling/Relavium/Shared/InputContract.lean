import Relavium.Library.JsText
import Relavium.Library.JsonStringify
import Relavium.Shared.Workflow

/-!
# The contract of a declared input

Model of `violatesDeclaredType` and `violatesInputContract` of
`packages/shared/src/workflow.ts`.  Matching a text against a regular expression
is left to the language.
-/

namespace Relavium.Shared

open Library

/-- A value of type `unknown`: one that shares no part with another, or a reference
to any other object. -/
inductive Unknown
  | tree (value : JsValue)
  /-- An instance of a class, a function, a structure that contains itself, ... -/
  | reference (object : Nat)

/-- `undefined`. -/
def Unknown.undefined : Unknown :=
  .tree .undefined

def Unknown.isUndefined : Unknown → Bool
  | .tree value => value.isUndefined
  | .reference _ => false

/-- A regular expression. -/
structure RegExp where
  source : JsString
  ignoreCase : Bool

/-- `RegExp.test`, for every regular expression. -/
abbrev RegExpTest := RegExp → JsString → Bool

/-- A finite number in units of the least exponent. -/
def scaled (number : Binary64) : Int :=
  let magnitude : Int := number.mantissa * 2 ^ (number.exponent + 1074).toNat
  if number.negative then -magnitude else magnitude

/-- `left < right` on numbers. -/
def lessThan : (left right : JsNumber) → Bool
  | .notANumber, _ => false
  | _, .notANumber => false
  | .infinity leftNegative, .infinity rightNegative => leftNegative && !rightNegative
  | .infinity negative, .finite _ => negative
  | .finite _, .infinity negative => !negative
  | .finite left, .finite right => scaled left < scaled right

/-- `Object.is` on a value and one that shares no part with it. -/
def objectIs : (member : JsValue) → (value : Unknown) → Bool
  | .undefined, .tree .undefined => true
  | .null, .tree .null => true
  | .boolean left, .tree (.boolean right) => left == right
  | .number left, .tree (.number right) => left == right
  | .string left, .tree (.string right) => left == right
  | _, _ => false

/-- `isReferenceableInputName`. -/
def isReferenceableInputName (name : JsString) : Bool :=
  name ≠ [] && name.all fun unit => JsText.isWord unit || unit = 0x2D

/-- `FORMAT_CHECKS`. -/
def formatChecks : List (JsString × RegExp) :=
  [(jsText "email",
      { source := jsText ("^[^\\s\\u0000-\\u001f\\u007f@]+@[^\\s\\u0000-\\u001f\\u007f@.]+" ++
          "(?:\\.[^\\s\\u0000-\\u001f\\u007f@.]+)+$")
        ignoreCase := false }),
    (jsText "uri",
      { source := jsText "^[a-z][a-z\\d+.-]*:[^\\s\\u0000-\\u001f\\u007f]+$"
        ignoreCase := true }),
    (jsText "uuid",
      { source := jsText ("^[0-9a-f]\x7b8\x7d-[0-9a-f]\x7b4\x7d-[0-9a-f]\x7b4\x7d-" ++
          "[0-9a-f]\x7b4\x7d-[0-9a-f]\x7b12\x7d$")
        ignoreCase := true }),
    (jsText "date-time",
      { source := jsText ("^\\d\x7b4\x7d-(?:0[1-9]|1[0-2])-(?:0[1-9]|[12]\\d|3[01])[Tt]" ++
          "(?:[01]\\d|2[0-3]):[0-5]\\d:(?:[0-5]\\d|60)(?:\\.\\d+)?" ++
          "(?:[Zz]|[+-](?:[01]\\d|2[0-3]):[0-5]\\d)$")
        ignoreCase := false })]

/-- `anchoredPattern`. -/
def anchoredPattern (source : JsString) : RegExp where
  source := jsText "^(?:" ++ source ++ jsText ")$"
  ignoreCase := false

/-- `matchesDeclaredType`. -/
def matchesDeclaredType : Unknown → InputType → Bool
  | .tree (.number (.finite _)), .number => true
  | .tree (.boolean _), .boolean => true
  | .tree (.string _), .string => true
  | .tree (.string _), .filePath => true
  | .tree (.string _), .codeDiff => true
  | .tree (.string _), .secret => true
  | _, _ => false

/-- `DECLARED_TYPE_NOUN`. -/
def declaredTypeNoun : InputType → String
  | .number => "finite number"
  | .boolean => "boolean"
  | _ => "string"

def violatesDeclaredType (value : Unknown) (type : InputType) : Option JsString :=
  if matchesDeclaredType value type then none
  else some (jsText ("expected a " ++ declaredTypeNoun type))

def violatesNumericBounds (value : JsNumber)
    (validation : InputValidation) : Option JsString :=
  if validation.min.any (lessThan value ·) then
    some (jsText "value is below the declared minimum")
  else if validation.max.any (lessThan · value) then
    some (jsText "value is above the declared maximum")
  else none

def violatesStringRules (test : RegExpTest) (value : JsString)
    (validation : InputValidation) : Option JsString :=
  if validation.minLength.any (value.length < ·) then
    some (jsText "value is shorter than min_length")
  else if validation.maxLength.any (· < value.length) then
    some (jsText "value is longer than max_length")
  else
    match validation.format.filter fun format =>
        (formatChecks.lookup format).any fun check => !test check value with
    | some format => some (jsText "value is not a valid " ++ format)
    | none =>
      if validation.pattern.any fun pattern => !test (anchoredPattern pattern) value then
        some (jsText "value does not match the declared pattern")
      else none

def violatesInputContract (test : RegExpTest) (value : Unknown) (type : InputType)
    (validation : Option InputValidation) : Option JsString :=
  match violatesDeclaredType value type with
  | some reason => some reason
  | none =>
    match validation with
    | none => none
    | some given =>
      if given.enum.any fun members => !members.any (objectIs · value) then
        some (jsText "value is not one of the allowed enum members")
      else
        match value with
        | .tree (.number number) => violatesNumericBounds number given
        | .tree (.string text) => violatesStringRules test text given
        | _ => none

/-- What parsing has checked of a declared input and its default. -/
structure WorkflowInput.Parsed (test : RegExpTest)
    (input : WorkflowInput) : Prop where
  secretWithoutDefault : input.type = .secret → input.default = none
  defaultInContract : ∀ value, input.default = some value →
    violatesInputContract test (.tree value) input.type input.validation = none

theorem matches_of_contract
    {test : RegExpTest} {value : Unknown} {type : InputType} {validation : Option InputValidation}
    (passes : violatesInputContract test value type validation = none) :
    matchesDeclaredType value type = true := by
  unfold violatesInputContract at passes
  cases violated : violatesDeclaredType value type with
  | some reason =>
    rw [violated] at passes
    cases passes
  | none =>
    unfold violatesDeclaredType at violated
    split at violated
    · assumption
    · cases violated

theorem violatesDeclaredType_eq_none_iff (value : Unknown) (type : InputType) :
    violatesDeclaredType value type = none ↔ matchesDeclaredType value type = true := by
  unfold violatesDeclaredType
  split
  · simp [*]
  · simp [*]

end Relavium.Shared
