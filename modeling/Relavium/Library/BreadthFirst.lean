import Mathlib.Data.List.Infix
import Relavium.Library.OrderedSet

/-!
# Breadth-first walks

A walk keeps what it has found in the order in which it found it.  In its `n`th
turn it takes the `n`th of them and adds those of its children that are new.
-/

namespace Relavium.Library

namespace OrderedSet

variable [DecidableEq α]

theorem elements_add_of_mem {set : OrderedSet α} {element : α} (present : element ∈ set) :
    set.add element = set :=
  dif_pos present

theorem elements_add_of_not_mem {set : OrderedSet α} {element : α} (absent : element ∉ set) :
    (set.add element).elements = set.elements ++ [element] := by
  have unfolded : set.add element =
      { elements := set.elements.concat element
        nodup := set.nodup.concat absent } := dif_neg absent
  rw [unfolded]
  exact List.concat_eq_append

theorem elements_prefix_foldl_add (list : List α) (set : OrderedSet α) :
    set.elements <+: (list.foldl add set).elements := by
  induction list generalizing set with
  | nil => exact List.prefix_refl _
  | cons item rest ih =>
    refine List.IsPrefix.trans ?_ (ih (set.add item))
    by_cases present : item ∈ set
    · rw [elements_add_of_mem present]
    · rw [elements_add_of_not_mem present]
      exact List.prefix_append _ _

theorem ofList_append (first second : List α) :
    ofList (first ++ second) = second.foldl add (ofList first) :=
  List.foldl_append

end OrderedSet

variable [DecidableEq α]

/-- What a walk has found after some turns. -/
def breadthFirst (children : α → List α)
    (start : OrderedSet α) : Nat → OrderedSet α
  | 0 => start
  | turns + 1 =>
    let found := breadthFirst children start turns
    match found.elements[turns]? with
    | some node => (children node).foldl OrderedSet.add found
    | none => found

namespace breadthFirst

variable
  {children : α → List α}
  {start : OrderedSet α}

theorem succ_of_some
    {turns : Nat} {node : α}
    (isNext : (breadthFirst children start turns).elements[turns]? = some node) :
    breadthFirst children start (turns + 1) =
      (children node).foldl OrderedSet.add (breadthFirst children start turns) := by
  rw [breadthFirst]
  simp only [isNext]

/-- A walk whose queue is done finds nothing more. -/
theorem eq_of_size_le
    {turns later : Nat} (isDone : (breadthFirst children start turns).size ≤ turns)
    (isLater : turns ≤ later) :
    breadthFirst children start later = breadthFirst children start turns := by
  induction isLater with
  | refl => rfl
  | @step later isLater ih =>
    have beyond : (breadthFirst children start later).elements[later]? = none := by
      rw [List.getElem?_eq_none_iff, ih]
      exact isDone.trans isLater
    rw [breadthFirst]
    simp only [beyond]
    exact ih

end breadthFirst

end Relavium.Library
