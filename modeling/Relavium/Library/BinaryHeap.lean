import Mathlib.Data.List.Basic

/-!
# Array-backed binary heaps

The children of position `index` are the positions `2 * index + 1` and
`2 * index + 2`.  An item is inserted and the root is removed by moving a hole
along a path: the items on the path are shifted by one step and the moving item
is written once, where the hole stops.
-/

namespace Relavium.Library

/-- A comparator that orders its items totally, up to ties. -/
structure ConsistentComparator (compare : α → α → Int) : Prop where
  /-- Swapping the arguments changes the sign. -/
  antisymmetric : ∀ left right, compare right left = -compare left right
  /-- Being not after is transitive. -/
  transitive :
    ∀ {first second third},
      compare first second ≤ 0 →
      compare second third ≤ 0 →
        compare first third ≤ 0

theorem ConsistentComparator.self_le
    {compare : α → α → Int} (consistent : ConsistentComparator compare) (item : α) :
    compare item item ≤ 0 := by
  have swapped := consistent.antisymmetric item item
  omega

theorem ConsistentComparator.le_of_not_le
    {compare : α → α → Int} (consistent : ConsistentComparator compare) {left right : α}
    (after : ¬compare left right ≤ 0) :
    compare right left ≤ 0 := by
  have swapped := consistent.antisymmetric left right
  omega

namespace BinaryHeap

/-- Move the hole at `index` towards the root until `item` may stand there. -/
def siftUp (compare : α → α → Int) (item : α) (heap : List α)
    (index : Nat) : List α :=
  if 0 < index then
    match heap[(index - 1) / 2]? with
    | none => heap.set index item
    | some parentItem =>
      if compare parentItem item ≤ 0 then heap.set index item
      else
        siftUp compare item (heap.set index parentItem) ((index - 1) / 2)
  else heap.set index item
termination_by index
decreasing_by omega

/-- Append an item and move it to its place. -/
def push (compare : α → α → Int) (heap : List α)
    (item : α) : List α :=
  siftUp compare item (heap ++ [item]) heap.length

/-- The position of the child that comes first, the left one on a tie. -/
def firstChild (compare : α → α → Int) (heap : List α) (index : Nat)
    (left : α) : Nat :=
  match heap[2 * index + 2]? with
  | none => 2 * index + 1
  | some right =>
    if compare right left < 0 then 2 * index + 2 else 2 * index + 1

theorem firstChild_eq_or (compare : α → α → Int) (heap : List α) (index : Nat) (left : α) :
    firstChild compare heap index left = 2 * index + 1 ∨
      firstChild compare heap index left = 2 * index + 2 := by
  unfold firstChild
  split
  · exact Or.inl rfl
  · split
    · exact Or.inr rfl
    · exact Or.inl rfl

/-- Move the hole at `index` towards the leaves until `item` may stand there. -/
def siftDown (compare : α → α → Int) (item : α) (heap : List α)
    (index : Nat) : List α :=
  if _inside : 2 * index + 1 < heap.length then
    match heap[2 * index + 1]? with
    | none => heap.set index item
    | some left =>
      match heap[firstChild compare heap index left]? with
      | none => heap.set index item
      | some childItem =>
        if compare item childItem ≤ 0 then heap.set index item
        else
          siftDown compare item (heap.set index childItem) (firstChild compare heap index left)
  else heap.set index item
termination_by heap.length - index
decreasing_by
  have children := firstChild_eq_or compare heap index left
  rw [List.length_set]
  omega

/-- Remove the root: the last item refills it. -/
def pop (compare : α → α → Int)
    (heap : List α) : Option α × List α :=
  match heap.getLast? with
  | none => (heap[0]?, heap)
  | some last =>
    if heap.dropLast.length = 0 then (heap[0]?, heap.dropLast)
    else (heap[0]?, siftDown compare last heap.dropLast 0)

/-- No item comes before its parent. -/
def Ordered (compare : α → α → Int)
    (heap : List α) : Prop :=
  ∀ child parentItem childItem,
    0 < child →
    heap[(child - 1) / 2]? = some parentItem →
    heap[child]? = some childItem →
      compare parentItem childItem ≤ 0

/-- Items off the hole are in order, and so are the hole's neighbours. -/
structure OrderedAround (compare : α → α → Int) (heap : List α)
    (index : Nat) : Prop where
  /-- The hole is a position of the heap. -/
  inside : index < heap.length
  /-- No item comes before its parent, the hole apart. -/
  offHole :
    ∀ child parentItem childItem,
      0 < child →
      child ≠ index →
      (child - 1) / 2 ≠ index →
      heap[(child - 1) / 2]? = some parentItem →
      heap[child]? = some childItem →
        compare parentItem childItem ≤ 0
  /-- The parent of the hole does not come after the children of the hole. -/
  acrossHole :
    ∀ child parentItem childItem,
      0 < index →
      0 < child →
      (child - 1) / 2 = index →
      heap[(index - 1) / 2]? = some parentItem →
      heap[child]? = some childItem →
        compare parentItem childItem ≤ 0

/-- The item may stand above the children of the hole. -/
def AboveChildren (compare : α → α → Int) (heap : List α) (index : Nat)
    (item : α) : Prop :=
  ∀ child childItem,
    0 < child →
    (child - 1) / 2 = index →
    heap[child]? = some childItem →
      compare item childItem ≤ 0

/-- The item may stand below the parent of the hole. -/
def BelowParent (compare : α → α → Int) (heap : List α) (index : Nat)
    (item : α) : Prop :=
  ∀ parentItem,
    0 < index →
    heap[(index - 1) / 2]? = some parentItem →
      compare parentItem item ≤ 0

section Order

variable {compare : α → α → Int}

variable
  {heap : List α}
  {index : Nat}

/-- Writing an item that fits its neighbours into the hole restores the order. -/
theorem OrderedAround.fill
    {item : α} (around : OrderedAround compare heap index)
    (above : AboveChildren compare heap index item)
    (below : BelowParent compare heap index item) :
    Ordered compare (heap.set index item) := by
  intro child parentItem childItem positive atParent atChild
  have inside := around.inside
  rw [List.getElem?_set] at atParent atChild
  by_cases hole : index = child
  · subst hole
    have parentOff : index ≠ (index - 1) / 2 := by omega
    simp only [parentOff, if_false, if_true, inside, Option.some.injEq] at atParent atChild
    subst atChild
    exact below parentItem positive atParent
  · simp only [hole, if_false] at atChild
    by_cases parentHole : index = (child - 1) / 2
    · simp only [parentHole, if_true] at atParent
      rw [if_pos (by omega), Option.some.injEq] at atParent
      subst atParent
      exact above child childItem positive parentHole.symm atChild
    · simp only [parentHole, if_false] at atParent
      exact around.offHole child parentItem childItem positive
        (Ne.symm hole) (Ne.symm parentHole) atParent atChild

/-- Shifting the parent into the hole moves the hole one step up. -/
theorem OrderedAround.moveUp
    (consistent : ConsistentComparator compare) {parentItem : α}
    (around : OrderedAround compare heap index) (positive : 0 < index)
    (atParent : heap[(index - 1) / 2]? = some parentItem) :
    OrderedAround compare (heap.set index parentItem) ((index - 1) / 2) := by
  have inside := around.inside
  refine ⟨by rw [List.length_set]; omega, ?_, ?_⟩
  · intro child upper lower childPositive childOff parentOff atUpper atLower
    have notHole : index ≠ child := fun same => parentOff (by rw [same])
    rw [List.getElem?_set_ne notHole] at atLower
    by_cases underHole : index = (child - 1) / 2
    · rw [← underHole, List.getElem?_set_self inside, Option.some.injEq] at atUpper
      subst atUpper
      exact around.acrossHole child parentItem lower positive childPositive
        underHole.symm atParent atLower
    · rw [List.getElem?_set_ne underHole] at atUpper
      exact around.offHole child upper lower childPositive (Ne.symm notHole)
        (Ne.symm underHole) atUpper atLower
  · intro child upper lower parentPositive childPositive siblings atUpper atLower
    rw [List.getElem?_set_ne (by omega)] at atUpper
    have grandparent : compare upper parentItem ≤ 0 :=
      around.offHole ((index - 1) / 2) upper parentItem parentPositive
        (by omega) (by omega) atUpper atParent
    by_cases hole : index = child
    · rw [← hole, List.getElem?_set_self inside, Option.some.injEq] at atLower
      exact atLower ▸ grandparent
    · rw [List.getElem?_set_ne hole] at atLower
      refine consistent.transitive grandparent ?_
      exact around.offHole child parentItem lower childPositive (Ne.symm hole)
        (by omega) (siblings ▸ atParent) atLower

/-- An item before the parent also comes before the parent's other child. -/
theorem OrderedAround.aboveChildren_moveUp
    (consistent : ConsistentComparator compare) {parentItem item : α}
    (around : OrderedAround compare heap index) (positive : 0 < index)
    (atParent : heap[(index - 1) / 2]? = some parentItem) (after : ¬compare parentItem item ≤ 0) :
    AboveChildren compare (heap.set index parentItem) ((index - 1) / 2)
      item := by
  intro child lower childPositive siblings atLower
  have above : compare item parentItem ≤ 0 := consistent.le_of_not_le after
  by_cases hole : index = child
  · rw [← hole, List.getElem?_set_self around.inside, Option.some.injEq] at atLower
    exact atLower ▸ above
  · rw [List.getElem?_set_ne hole] at atLower
    refine consistent.transitive above ?_
    exact around.offHole child parentItem lower childPositive (Ne.symm hole)
      (by omega) (siblings ▸ atParent) atLower

/-- Sifting up restores the order around one index. -/
theorem ordered_siftUp
    (consistent : ConsistentComparator compare) (item : α) (heap : List α) (index : Nat)
    (around : OrderedAround compare heap index) (above : AboveChildren compare heap index item) :
    Ordered compare (siftUp compare item heap index) := by
  induction heap, index using siftUp.induct compare item with
  | case1 heap index positive noParent =>
    have inside := around.inside
    rw [List.getElem?_eq_none_iff] at noParent
    omega
  | case2 heap index positive parentItem atParent fits =>
    rw [siftUp, if_pos positive]
    simp only [atParent, fits, if_true]
    refine around.fill above fun upper _ atUpper => ?_
    rw [atParent, Option.some.injEq] at atUpper
    exact atUpper ▸ fits
  | case3 heap index positive parentItem atParent after ih =>
    rw [siftUp, if_pos positive]
    simp only [atParent, after, if_false]
    apply ih
    · exact around.moveUp consistent positive atParent
    · exact around.aboveChildren_moveUp consistent positive atParent after
  | case4 heap index atRoot =>
    rw [siftUp, if_neg atRoot]
    exact around.fill above fun _ positive => absurd positive atRoot

/-- Shifting an item into the hole leaves the items as they are, up to order. -/
theorem set_set_perm_set
    {index other : Nat} {item moved : α} (inside : index < heap.length) (distinct : index ≠ other)
    (atOther : heap[other]? = some moved) :
    ((heap.set index moved).set other item).Perm (heap.set index item) := by
  obtain ⟨otherInside, rfl⟩ := List.getElem?_eq_some_iff.mp atOther
  have swapped :
      (((heap.set index item).set index heap[other]).set other item).Perm
        (heap.set index item) := by
    have exchange :=
      List.set_set_perm (show index < (heap.set index item).length by rwa [List.length_set])
        (show other < (heap.set index item).length by rwa [List.length_set])
    rwa [List.getElem_set_ne distinct, List.getElem_set_self] at exchange
  rwa [List.set_set] at swapped

theorem siftUp_perm (item : α) (heap : List α) (index : Nat) (inside : index < heap.length) :
    (siftUp compare item heap index).Perm (heap.set index item) := by
  induction heap, index using siftUp.induct compare item with
  | case1 heap index positive noParent =>
    rw [siftUp, if_pos positive]
    simp only [noParent]
    exact List.Perm.refl _
  | case2 heap index positive parentItem atParent fits =>
    rw [siftUp, if_pos positive]
    simp only [atParent, fits, if_true]
    exact List.Perm.refl _
  | case3 heap index positive parentItem atParent after ih =>
    rw [siftUp, if_pos positive]
    simp only [atParent, after, if_false]
    refine (ih (by rw [List.length_set]; omega)).trans ?_
    exact set_set_perm_set inside (by omega) atParent
  | case4 heap index atRoot =>
    rw [siftUp, if_neg atRoot]

theorem ordered_push
    (consistent : ConsistentComparator compare) (ordered : Ordered compare heap) (item : α) :
    Ordered compare (push compare heap item) := by
  have atLeaf : ∀ child childItem,
      (child - 1) / 2 = heap.length →
      (heap ++ [item])[child]? = some childItem →
        child = 0 := by
    intro child childItem under atChild
    have inside := (List.getElem?_eq_some_iff.mp atChild).1
    rw [List.length_append, List.length_singleton] at inside
    omega
  refine ordered_siftUp consistent item _ _ ⟨by simp, ?_, ?_⟩ ?_
  · intro child upper lower positive off _ atUpper atLower
    have inside := (List.getElem?_eq_some_iff.mp atLower).1
    rw [List.length_append, List.length_singleton] at inside
    rw [List.getElem?_append_left (by omega)] at atUpper atLower
    exact ordered child upper lower positive atUpper atLower
  · intro child _ lower _ positive under _ atLower
    have atRoot := atLeaf child lower under atLower
    omega
  · intro child lower positive under atLower
    have atRoot := atLeaf child lower under atLower
    omega

/-- Inserting adds the item and nothing else. -/
theorem push_perm (compare : α → α → Int) (heap : List α) (item : α) :
    (push compare heap item).Perm (item :: heap) := by
  refine (siftUp_perm item _ _ (by simp)).trans ?_
  rw [List.set_append_right _ _ (Nat.le_refl _), Nat.sub_self]
  exact List.perm_append_singleton item heap

theorem firstChild_le
    (consistent : ConsistentComparator compare) {left childItem : α}
    (atLeft : heap[2 * index + 1]? = some left)
    (atFirst : heap[firstChild compare heap index left]? = some childItem) {child : Nat}
    {lower : α} (positive : 0 < child) (under : (child - 1) / 2 = index)
    (atLower : heap[child]? = some lower) :
    compare childItem lower ≤ 0 := by
  have sides : child = 2 * index + 1 ∨ child = 2 * index + 2 := by omega
  unfold firstChild at atFirst
  cases atRight : heap[2 * index + 2]? with
  | none =>
    simp only [atRight] at atFirst
    rcases sides with rfl | rfl
    · rw [atLower, Option.some.injEq] at atFirst
      exact atFirst ▸ consistent.self_le lower
    · simp [atRight] at atLower
  | some right =>
    simp only [atRight] at atFirst
    split at atFirst
    · next rightFirst =>
        rw [atRight, Option.some.injEq] at atFirst
        subst atFirst
        rcases sides with rfl | rfl
        · rw [atLeft, Option.some.injEq] at atLower
          exact atLower ▸ Int.le_of_lt rightFirst
        · rw [atRight, Option.some.injEq] at atLower
          exact atLower ▸ consistent.self_le right
    · next notRight =>
        rw [atLeft, Option.some.injEq] at atFirst
        subst atFirst
        rcases sides with rfl | rfl
        · rw [atLeft, Option.some.injEq] at atLower
          exact atLower ▸ consistent.self_le left
        · rw [atRight, Option.some.injEq] at atLower
          have swapped := consistent.antisymmetric left right
          rw [← atLower]
          omega

/-- Shifting the first child into the hole moves the hole one step down. -/
theorem OrderedAround.moveDown
    {index child : Nat} {childItem : α} (around : OrderedAround compare heap index)
    (childPositive : 0 < child) (under : (child - 1) / 2 = index) (distinct : index ≠ child)
    (atChild : heap[child]? = some childItem)
    (first :
      ∀ sibling lower,
        0 < sibling →
        (sibling - 1) / 2 = index →
        heap[sibling]? = some lower →
          compare childItem lower ≤ 0) :
    OrderedAround compare (heap.set index childItem) child := by
  have inside := around.inside
  have childInside := (List.getElem?_eq_some_iff.mp atChild).1
  refine ⟨by rwa [List.length_set], ?_, ?_⟩
  · intro other upper lower positive off parentOff atUpper atLower
    by_cases hole : index = other
    · subst hole
      rw [List.getElem?_set_self inside, Option.some.injEq] at atLower
      rw [List.getElem?_set_ne (by omega)] at atUpper
      subst atLower
      exact around.acrossHole child upper childItem positive childPositive under atUpper atChild
    · rw [List.getElem?_set_ne hole] at atLower
      by_cases underHole : index = (other - 1) / 2
      · rw [← underHole, List.getElem?_set_self inside, Option.some.injEq] at atUpper
        subst atUpper
        exact first other lower positive underHole.symm atLower
      · rw [List.getElem?_set_ne underHole] at atUpper
        exact around.offHole other upper lower positive (Ne.symm hole)
          (Ne.symm underHole) atUpper atLower
  · intro grandchild upper lower _ positive grandUnder atUpper atLower
    rw [under, List.getElem?_set_self inside, Option.some.injEq] at atUpper
    rw [List.getElem?_set_ne (by omega)] at atLower
    subst atUpper
    exact around.offHole grandchild childItem lower positive (by omega)
      (by omega) (grandUnder ▸ atChild) atLower

theorem firstChild_under (compare : α → α → Int) (heap : List α) (index : Nat) (left : α) :
    0 < firstChild compare heap index left ∧
      (firstChild compare heap index left - 1) / 2 = index ∧
      index ≠ firstChild compare heap index left := by
  have children := firstChild_eq_or compare heap index left
  omega

/-- Sifting down restores the order around one index. -/
theorem ordered_siftDown
    (consistent : ConsistentComparator compare) (item : α) (heap : List α) (index : Nat)
    (around : OrderedAround compare heap index) (below : BelowParent compare heap index item) :
    Ordered compare (siftDown compare item heap index) := by
  induction heap, index using siftDown.induct compare item with
  | case1 heap index inside noLeft =>
    rw [List.getElem?_eq_none_iff] at noLeft
    omega
  | case2 heap index inside left atLeft noChild =>
    obtain children | children := firstChild_eq_or compare heap index left
    · simp [children, atLeft] at noChild
    · simp only [children] at noChild
      unfold firstChild at children
      simp only [noChild] at children
      omega
  | case3 heap index inside left atLeft childItem atFirst fits =>
    rw [siftDown, dif_pos inside]
    simp only [atLeft, atFirst, fits, if_true]
    refine around.fill (fun child lower positive under atLower => ?_) below
    exact consistent.transitive fits
      (firstChild_le consistent atLeft atFirst positive under atLower)
  | case4 heap index inside left atLeft childItem atFirst after
      ih =>
      rw [siftDown, dif_pos inside]
      simp only [atLeft, atFirst, after, if_false]
      obtain ⟨positive, under, distinct⟩ :=
        firstChild_under compare heap index left
      apply ih
      · refine around.moveDown positive under distinct atFirst ?_
        intro sibling lower siblingPositive siblingUnder atLower
        exact firstChild_le consistent atLeft atFirst siblingPositive siblingUnder atLower
      · intro upper _ atUpper
        rw [under, List.getElem?_set_self around.inside, Option.some.injEq] at atUpper
        exact atUpper ▸ consistent.le_of_not_le after
  | case5 heap index noChildren =>
    rw [siftDown, dif_neg noChildren]
    refine around.fill (fun child lower positive under atLower => ?_) below
    have inside := (List.getElem?_eq_some_iff.mp atLower).1
    omega

theorem siftDown_perm (item : α) (heap : List α) (index : Nat) (inside : index < heap.length) :
    (siftDown compare item heap index).Perm (heap.set index item) := by
  induction heap, index using siftDown.induct compare item with
  | case1 heap index hasLeft noLeft =>
    rw [siftDown, dif_pos hasLeft]
    simp only [noLeft]
    exact List.Perm.refl _
  | case2 heap index hasLeft left atLeft noChild =>
    rw [siftDown, dif_pos hasLeft]
    simp only [atLeft, noChild]
    exact List.Perm.refl _
  | case3 heap index hasLeft left atLeft childItem atFirst fits =>
    rw [siftDown, dif_pos hasLeft]
    simp only [atLeft, atFirst, fits, if_true]
    exact List.Perm.refl _
  | case4 heap index hasLeft left atLeft childItem atFirst after
      ih =>
      rw [siftDown, dif_pos hasLeft]
      simp only [atLeft, atFirst, after, if_false]
      have childInside := (List.getElem?_eq_some_iff.mp atFirst).1
      refine (ih (by rwa [List.length_set])).trans ?_
      exact set_set_perm_set (by omega)
        (firstChild_under compare heap index left).2.2 atFirst
  | case5 heap index noChildren =>
    rw [siftDown, dif_neg noChildren]

/-- The root of an ordered heap comes first. -/
theorem Ordered.root_le
    (consistent : ConsistentComparator compare) {root : α} (ordered : Ordered compare heap)
    (atRoot : heap[0]? = some root) {item : α} (present : item ∈ heap) :
    compare root item ≤ 0 := by
  obtain ⟨index, atIndex⟩ := List.mem_iff_getElem?.mp present
  clear present
  induction index using Nat.strongRecOn generalizing item with
  | _ index ih =>
    by_cases positive : 0 < index
    · have inside := (List.getElem?_eq_some_iff.mp atIndex).1
      have atParent : heap[(index - 1) / 2]? = some heap[(index - 1) / 2] :=
        List.getElem?_eq_getElem (by omega)
      refine consistent.transitive (ih _ (by omega) atParent) ?_
      exact ordered index _ item positive atParent atIndex
    · have zero : index = 0 := by omega
      rw [zero, atRoot, Option.some.injEq] at atIndex
      exact atIndex ▸ consistent.self_le root

/-- Removing the root of a heap with items returns an item that comes first and
keeps the others in order. -/
theorem pop_cons
    (consistent : ConsistentComparator compare) {root : α} {below : List α}
    (ordered : Ordered compare (root :: below)) :
    ∃ rest,
      pop compare (root :: below) = (some root, rest) ∧
      Ordered compare rest ∧
      rest.Perm below ∧
      ∀ item ∈ below, compare root item ≤ 0 := by
  have first : ∀ item ∈ below, compare root item ≤ 0 := fun item present =>
    ordered.root_le consistent rfl (List.mem_cons_of_mem root present)
  obtain rfl | ⟨middle, last, rfl⟩ := List.eq_nil_or_concat' below
  · refine ⟨[], rfl, ?_, List.Perm.refl [], first⟩
    intro child upper lower _ _ atLower
    simp at atLower
  · refine ⟨siftDown compare last (root :: middle) 0, ?_, ?_, ?_, first⟩
    · have shape : root :: (middle ++ [last]) = (root :: middle) ++ [last] := rfl
      rw [pop, shape, List.getLast?_concat, List.dropLast_concat]
      rfl
    · refine ordered_siftDown consistent last _ 0 ⟨by simp, ?_, ?_⟩ ?_
      · intro child upper lower positive _ _ atUpper atLower
        have inside := (List.getElem?_eq_some_iff.mp atLower).1
        apply ordered child upper lower positive
        · rw [← List.cons_append, List.getElem?_append_left (by omega)]
          exact atUpper
        · rw [← List.cons_append, List.getElem?_append_left inside]
          exact atLower
      · intro _ _ _ impossible
        omega
      · intro _ impossible
        omega
    · refine (siftDown_perm last _ 0 (by simp)).trans ?_
      exact (List.perm_append_singleton last middle).symm

end Order

end BinaryHeap
end Relavium.Library
