import Mathlib.Tactic.Common
import Relavium.Library.JsText
import Relavium.Library.NumericLiteral
import Relavium.Library.OrderedMap

/-!
# Objects with identity

The values of a program with mutable objects: primitives, and addresses of
objects in a heap.  An object has internal slots, with the entries of a
collection in them, a chain of prototypes, and its own properties in their order;
slots and prototypes need not agree on what it is.  A placement of addresses
carries values and objects from one part of the heap to another.
-/

namespace Relavium.Library

/-- A value: a primitive, or the address of an object. -/
inductive HeapValue
  | undefined
  | null
  | boolean (value : Bool)
  | number (value : JsNumber)
  | bigint (value : Int)
  | string (value : JsString)
  | symbol
  | function
  | object (address : Nat)
  deriving DecidableEq

/-- The internal slots of an object, which a change of its prototype does not touch. -/
inductive ObjectSlots
  | ordinary
  | array (length : Nat)
  | map (entries : List (HeapValue × HeapValue))
  | set (elements : List HeapValue)
  /-- Those of a typed array or another view of a buffer. -/
  | view
  deriving DecidableEq

/-- The prototypes that are told apart. -/
inductive Prototype
  | object
  | array
  | map
  | set
  /-- The prototype of a buffer of bytes, shared or not. -/
  | buffer
  | other
  deriving DecidableEq

/-- An own data property. -/
structure HeapProperty where
  value : HeapValue
  enumerable : Bool

/-- An own property with a symbol for its key. -/
structure SymbolProperty where
  /-- The key is `Symbol.iterator`. -/
  isIterator : Bool
  isAccessor : Bool

structure HeapObject where
  slots : ObjectSlots
  /-- The chain of prototypes, the prototype of the object first. -/
  prototypes : List Prototype
  /-- The own data properties with string keys, in order.  The length of an array
  is in its slots. -/
  properties : OrderedMap JsString HeapProperty
  /-- The string keys of the own accessors. -/
  accessors : List JsString
  symbols : List SymbolProperty

/-- The objects by address. -/
abbrev ObjectHeap := List HeapObject

namespace HeapValue

/-- The address of an object. -/
def address? : HeapValue → Option Nat
  | .object address => some address
  | _ => none

/-- The value with its object under another address. -/
def rename (placement : Nat → Nat) : HeapValue → HeapValue
  | .object address => .object (placement address)
  | value => value

@[simp] theorem address?_eq_some_iff {value : HeapValue} {address : Nat} :
    value.address? = some address ↔ value = .object address := by
  cases value <;> simp [address?]

@[simp] theorem rename_object (placement : Nat → Nat) (address : Nat) :
    rename placement (.object address) = .object (placement address) := rfl

theorem rename_of_address?_none
    {value : HeapValue} (primitive : value.address? = none) (placement : Nat → Nat) :
    value.rename placement = value := by
  cases value <;> first | rfl | simp [address?] at primitive

theorem rename_congr
    {first second : Nat → Nat} {value : HeapValue}
    (agree : ∀ address, value = .object address → first address = second address) :
    value.rename first = value.rename second := by
  cases value with
  | object address => rw [rename_object, rename_object, agree address rfl]
  | _ => rfl

end HeapValue

namespace ObjectSlots

/-- The values of the entries, in the order in which they are visited. -/
def values : ObjectSlots → List HeapValue
  | .map entries => entries.flatMap fun entry => [entry.1, entry.2]
  | .set elements => elements
  | _ => []

def rename (placement : Nat → Nat) : ObjectSlots → ObjectSlots
  | .map entries =>
    .map (entries.map fun entry => (entry.1.rename placement, entry.2.rename placement))
  | .set elements => .set (elements.map (HeapValue.rename placement))
  | slots => slots

end ObjectSlots

/-- What an object is taken for. -/
inductive ContainerKind
  | array
  | map
  | set
  | plain
  deriving DecidableEq

/-- The chain of prototypes of a new object of the kind. -/
def ContainerKind.prototypes : ContainerKind → List Prototype
  | .array => [.array, .object]
  | .map => [.map, .object]
  | .set => [.set, .object]
  | .plain => [.object]

namespace HeapObject

/-- `Array.isArray`. -/
def isArray (object : HeapObject) : Bool :=
  match object.slots with
  | .array _ => true
  | _ => false

/-- `instanceof` the constructor with the prototype. -/
def instanceOf (object : HeapObject)
    (prototype : Prototype) : Bool :=
  object.prototypes.contains prototype

/-- An array first, then what the prototypes say. -/
def kind (object : HeapObject) : ContainerKind :=
  if object.isArray then .array
  else if object.instanceOf .map then .map
  else if object.instanceOf .set then .set
  else .plain

/-- The slots of the object as what it is taken for; nothing where it inherits the
methods of a collection without being one, which then throw. -/
def contents (object : HeapObject) : Option ObjectSlots :=
  match object.kind, object.slots with
  | .array, slots => some slots
  | .map, .map entries => some (.map entries)
  | .map, _ => none
  | .set, .set elements => some (.set elements)
  | .set, _ => none
  | .plain, _ => some .ordinary

/-- The values of the entries of the object. -/
def entries (object : HeapObject) : List HeapValue :=
  (object.contents.map ObjectSlots.values).getD []

/-- Every value the object holds, in the order in which they are visited. -/
def values (object : HeapObject) : List HeapValue :=
  object.entries ++ object.properties.values.map HeapProperty.value

/-- The value of an own data property. -/
def field (object : HeapObject)
    (key : JsString) : Option HeapValue :=
  (object.properties.get key).map HeapProperty.value

/-- A new object of the same kind that holds the same values, with the objects
among them under other addresses. -/
def rename (placement : Nat → Nat)
    (object : HeapObject) : HeapObject where
  slots := (object.contents.map (ObjectSlots.rename placement)).getD .ordinary
  prototypes := object.kind.prototypes
  properties := object.properties.mapValues fun _ property =>
    { property with value := property.value.rename placement }
  accessors := []
  symbols := []

theorem mem_values_of_field
    {object : HeapObject} {key : JsString} {value : HeapValue}
    (found : object.field key = some value) :
    value ∈ object.values := by
  obtain ⟨property, isProperty, rfl⟩ := Option.map_eq_some_iff.mp found
  refine List.mem_append_right _ (List.mem_map.mpr ⟨property, ?_, rfl⟩)
  exact (OrderedMap.mem_values_iff _ _).mpr ⟨key, isProperty⟩

@[simp] theorem field_rename (placement : Nat → Nat) (object : HeapObject) (key : JsString) :
    (object.rename placement).field key =
      (object.field key).map (HeapValue.rename placement) := by
  simp [field, rename, Function.comp_def]

end HeapObject

/-- The objects that can be reached from a value. -/
inductive Reachable (heap : ObjectHeap)
    (root : HeapValue) : Nat → Prop
  | root {address : Nat} : root = .object address → Reachable heap root address
  | child {parent address : Nat} {object : HeapObject} :
      Reachable heap root parent →
      heap[parent]? = some object →
      .object address ∈ object.values →
      Reachable heap root address

/-- Every address in the heap and in a value is that of an object. -/
structure ClosedHeap (heap : ObjectHeap)
    (root : HeapValue) : Prop where
  root : ∀ address, root = .object address → address < heap.length
  objects : ∀ object ∈ heap, ∀ address, .object address ∈ object.values →
    address < heap.length

/-- Nothing reachable lies outside a closed heap. -/
theorem ClosedHeap.lt_of_reachable
    {heap : ObjectHeap} {root : HeapValue} {address : Nat} (closed : ClosedHeap heap root)
    (reachable : Reachable heap root address) :
    address < heap.length := by
  cases reachable with
  | root isRoot => exact closed.root address isRoot
  | child _ isParent isChild =>
    exact closed.objects _ (List.mem_of_getElem? isParent) address isChild

end Relavium.Library
