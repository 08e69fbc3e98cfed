import Relavium.Library.NumericLiteral
import Relavium.Library.JsonString

/-!
# ECMAScript values

The values that a program hands to a serializer: the primitive values, arrays,
plain objects, and objects of any other class.  Among them are the JSON values.
Two JSON values are equal up to key order when they differ only in the order
of the properties of their objects.
-/

namespace Relavium.Library

inductive JsValue
  | undefined
  | null
  | boolean (value : Bool)
  | number (value : JsNumber)
  | string (value : JsString)
  /-- The items in order; a hole reads as `undefined`. -/
  | array (items : List JsValue)
  /-- A plain object with its own enumerable properties. -/
  | object (properties : List (JsString × JsValue))
  /-- An object that is neither an array nor plain. -/
  | exotic

namespace JsValue

/-- A JSON value whose numbers are not the negative zero, whose strings and keys
have their surrogates in pairs, and whose objects have distinct keys. -/
inductive IsJson : JsValue → Prop
  | null : IsJson .null
  | boolean (value : Bool) : IsJson (.boolean value)
  | number
      {value : Binary64}
      (notNegativeZero : ¬(value.negative = true ∧ value.mantissa = 0)) :
      IsJson (.number (.finite value))
  | string
      {text : JsString}
      (wellFormed : WellFormedUtf16 text) :
      IsJson (.string text)
  | array
      {items : List JsValue}
      (itemsJson : ∀ item ∈ items, IsJson item) :
      IsJson (.array items)
  | object
      {properties : List (JsString × JsValue)}
      (distinct : (properties.map Prod.fst).Nodup)
      (keysWellFormed : ∀ property ∈ properties, WellFormedUtf16 property.1)
      (valuesJson : ∀ property ∈ properties, IsJson property.2) :
      IsJson (.object properties)

mutual

/-- How many levels of arrays and objects lie around the innermost value. -/
def depth : JsValue → Nat
  | .array items => depthOfItems items
  | .object properties => depthOfProperties properties
  | .undefined | .null | .boolean _ | .number _ | .string _ | .exotic => 0

def depthOfItems : List JsValue → Nat
  | [] => 0
  | item :: rest => max (item.depth + 1) (depthOfItems rest)

def depthOfProperties : List (JsString × JsValue) → Nat
  | [] => 0
  | property :: rest => max (property.2.depth + 1) (depthOfProperties rest)

end

theorem depth_lt_depthOfItems {items : List JsValue} {item : JsValue} (member : item ∈ items) :
    item.depth < depthOfItems items := by
  induction items with
  | nil => cases member
  | cons head rest ih =>
    rw [depthOfItems]
    obtain rfl | later := List.mem_cons.mp member
    · omega
    · have below := ih later
      omega

theorem depth_lt_depthOfProperties
    {properties : List (JsString × JsValue)} {property : JsString × JsValue}
    (member : property ∈ properties) :
    property.2.depth < depthOfProperties properties := by
  induction properties with
  | nil => cases member
  | cons head rest ih =>
    rw [depthOfProperties]
    obtain rfl | later := List.mem_cons.mp member
    · omega
    · have below := ih later
      omega

/-- Equality up to the order of the properties of objects, at every depth. -/
inductive EqUpToKeyOrder : JsValue → JsValue → Prop
  | refl (value : JsValue) : EqUpToKeyOrder value value
  | array
      {left right : List JsValue}
      (lengths : left.length = right.length)
      (items : ∀ pair ∈ left.zip right, EqUpToKeyOrder pair.1 pair.2) :
      EqUpToKeyOrder (.array left) (.array right)
  | object
      {left right leftOrdered rightOrdered : List (JsString × JsValue)}
      (leftReordered : leftOrdered.Perm left)
      (rightReordered : rightOrdered.Perm right)
      (keys : leftOrdered.map Prod.fst = rightOrdered.map Prod.fst)
      (values :
        ∀ pair ∈ leftOrdered.zip rightOrdered,
          EqUpToKeyOrder pair.1.2 pair.2.2) :
      EqUpToKeyOrder (.object left) (.object right)

end JsValue
end Relavium.Library
