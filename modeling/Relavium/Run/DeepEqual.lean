import Relavium.Library.Json
import Relavium.Shared.InputContract

/-!
# Structural equality

Model of `packages/shared/src/deep-equal.ts` on separately parsed values, which
share no object and contain no cycle.
-/

namespace Relavium.Run

open Library

/-- `MAX_DEPTH`. -/
def maxDepth : Nat := 64

/-- Equality of two values found at a depth from which `levels` more may be
entered. -/
def equalsWithin : (levels : Nat) → (left right : Json) → Bool
  | _, .null, .null => true
  | _, .boolean left, .boolean right => left == right
  | _, .number left, .number right => left == right
  | _, .string left, .string right => left == right
  | levels + 1, .array left, .array right =>
    left.length == right.length &&
      (left.zip right).all fun pair => equalsWithin levels pair.1 pair.2
  | levels + 1, .object left, .object right =>
    left.length == right.length &&
      left.all fun property =>
        match right.lookup property.1 with
        | none => false
        | some value => equalsWithin levels property.2 value
  | _, _, _ => false

def deepStructuralEquals (left right : Json) : Bool :=
  equalsWithin (maxDepth + 1) left right

/-- Equality of two optional values, `undefined` being equal to itself only. -/
def deepStructuralEqualsOptional : Option Json → Option Json → Bool
  | none, none => true
  | some left, some right => deepStructuralEquals left right
  | _, _ => false

/-! ## Values of any shape -/

open Shared

/-- Equality of two values that share no part, found at a depth from which
`levels` more may be entered. -/
def treesEqualWithin : (levels : Nat) → (left right : JsValue) → Bool
  | _, .undefined, .undefined => true
  | _, .null, .null => true
  | _, .boolean left, .boolean right => left == right
  | _, .number left, .number right => left == right
  | _, .string left, .string right => left == right
  | levels + 1, .array left, .array right =>
    left.length == right.length &&
      (left.zip right).all fun pair => treesEqualWithin levels pair.1 pair.2
  | levels + 1, .object left, .object right =>
    left.length == right.length &&
      left.all fun property =>
        match right.lookup property.1 with
        | none => false
        | some value => treesEqualWithin levels property.2 value
  | _, _, _ => false

/-- Equality of two values; where one is a reference, the graphs of objects decide. -/
def unknownsEqual
    (referencesEqual : (left right : Unknown) → Bool) : (left right : Unknown) → Bool
  | .tree left, .tree right => treesEqualWithin (maxDepth + 1) left right
  | left, right => referencesEqual left right

end Relavium.Run
