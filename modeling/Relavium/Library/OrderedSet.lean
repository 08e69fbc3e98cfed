import Mathlib.Data.List.Nodup

/-!
# Insertion-ordered sets

A set whose elements are kept in the order in which they were first added.
This is the iteration order of an ECMAScript `Set`.
-/

namespace Relavium.Library

/-- Elements in insertion order, each occurring once. -/
structure OrderedSet (α : Type u) where
  /-- The elements, first added first. -/
  elements : List α
  /-- No element occurs twice. -/
  nodup : elements.Nodup
  deriving DecidableEq

namespace OrderedSet

/-- The set without elements. -/
def empty : OrderedSet α where
  elements := []
  nodup := List.nodup_nil

/-- The number of elements. -/
def size (set : OrderedSet α) : Nat :=
  set.elements.length

instance : Membership α (OrderedSet α) where
  mem set element := element ∈ set.elements

theorem mem_elements {set : OrderedSet α} {element : α} :
    element ∈ set.elements ↔ element ∈ set :=
  Iff.rfl

@[simp] theorem not_mem_empty (element : α) :
    element ∉ (empty : OrderedSet α) :=
  List.not_mem_nil

variable [DecidableEq α]

instance (element : α) (set : OrderedSet α) : Decidable (element ∈ set) :=
  inferInstanceAs (Decidable (element ∈ set.elements))

/-- Add an element at the end, unless it is there already. -/
def add (set : OrderedSet α) (element : α) : OrderedSet α :=
  if present : element ∈ set.elements then set
  else
    { elements := set.elements.concat element
      nodup := set.nodup.concat present }

@[simp] theorem mem_add (set : OrderedSet α) (element other : α) :
    other ∈ set.add element ↔ other = element ∨ other ∈ set := by
  unfold add
  split
  · next present =>
      refine ⟨Or.inr, ?_⟩
      rintro (rfl | member)
      · exact present
      · exact member
  · rw [← mem_elements, ← mem_elements]
    simp only [List.concat_eq_append, List.mem_append, List.mem_singleton, or_comm]

/-- The set of the elements of a list, in order of first occurrence. -/
def ofList (list : List α) : OrderedSet α :=
  list.foldl add empty

theorem mem_foldl_add (list : List α) (set : OrderedSet α) (element : α) :
    element ∈ list.foldl add set ↔ element ∈ list ∨ element ∈ set := by
  induction list generalizing set with
  | nil => simp
  | cons head rest ih =>
    rw [List.foldl_cons, ih, mem_add, List.mem_cons]
    tauto

@[simp] theorem mem_ofList (list : List α) (element : α) :
    element ∈ ofList list ↔ element ∈ list := by
  simp [ofList, mem_foldl_add]

end OrderedSet
end Relavium.Library
