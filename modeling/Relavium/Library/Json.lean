import Relavium.Library.Binary64

/-!
# Values of JSON shape

The values that parsing a JSON text yields: strings are sequences of UTF-16
code units, numbers are finite, and an object lists its properties in order.
-/

namespace Relavium.Library

/-- An ECMAScript string: its UTF-16 code units. -/
abbrev JsString := List UInt16

instance : LawfulBEq JsString := inferInstance

/-- A property of all units of a text is decided unit by unit. -/
instance decidableForallUnits (text : JsString) (holds : UInt16 → Prop)
    [DecidablePred holds] : Decidable (∀ unit ∈ text, holds unit) :=
  List.decidableBAll holds text

inductive Json
  | null
  | boolean (value : Bool)
  | number (value : Binary64)
  | string (value : JsString)
  | array (items : List Json)
  | object (properties : List (JsString × Json))

namespace Json

mutual

/-- Equality of values, decided by their structure. -/
def decideEq : (left right : Json) → Decidable (left = right)
  | .null, .null => .isTrue rfl
  | .boolean left, .boolean right =>
    decidable_of_iff (left = right) (by simp)
  | .number left, .number right =>
    decidable_of_iff (left = right) (by simp)
  | .string left, .string right =>
    decidable_of_iff (left = right) (by simp)
  | .array left, .array right =>
    letI := decideEqItems left right
    decidable_of_iff (left = right) (by simp)
  | .object left, .object right =>
    letI := decideEqProperties left right
    decidable_of_iff (left = right) (by simp)
  | .null, .boolean _ | .null, .number _ | .null, .string _ | .null, .array _
  | .null, .object _ | .boolean _, .null | .boolean _, .number _
  | .boolean _, .string _ | .boolean _, .array _ | .boolean _, .object _
  | .number _, .null | .number _, .boolean _ | .number _, .string _
  | .number _, .array _ | .number _, .object _ | .string _, .null
  | .string _, .boolean _ | .string _, .number _ | .string _, .array _
  | .string _, .object _ | .array _, .null | .array _, .boolean _
  | .array _, .number _ | .array _, .string _ | .array _, .object _
  | .object _, .null | .object _, .boolean _ | .object _, .number _
  | .object _, .string _ | .object _, .array _ => .isFalse (by simp)

def decideEqItems : (left right : List Json) → Decidable (left = right)
  | [], [] => .isTrue rfl
  | [], _ :: _ => .isFalse (by simp)
  | _ :: _, [] => .isFalse (by simp)
  | left :: lefts, right :: rights =>
    letI := decideEq left right
    letI := decideEqItems lefts rights
    decidable_of_iff (left = right ∧ lefts = rights) (by simp)

def decideEqProperties :
    (left right : List (JsString × Json)) → Decidable (left = right)
  | [], [] => .isTrue rfl
  | [], _ :: _ => .isFalse (by simp)
  | _ :: _, [] => .isFalse (by simp)
  | (leftKey, left) :: lefts, (rightKey, right) :: rights =>
    letI := decideEq left right
    letI := decideEqProperties lefts rights
    decidable_of_iff ((leftKey = rightKey ∧ left = right) ∧ lefts = rights) (by simp)

end

instance : DecidableEq Json := decideEq

end Json

end Relavium.Library
