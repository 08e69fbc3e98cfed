import Mathlib.Data.List.Nodup
import Mathlib.Algebra.BigOperators.Group.List.Basic
import Mathlib.Algebra.Ring.Int.Defs
import Mathlib.Algebra.Ring.Nat

/-!
# Counting and summing after a change at one element

A count, or a sum of weights, over a duplicate-free list moves by exactly the
contribution of the one element whose contribution changed.
-/

namespace Relavium.Library

/-- Contribution of a decided property to a count. -/
def indicator (holds : Bool) : Int :=
  if holds then 1 else 0

@[simp] theorem indicator_true : indicator true = 1 := rfl

@[simp] theorem indicator_false : indicator false = 0 := rfl

variable
  {list : List α}

/-- A sum over a duplicate-free list follows the change of one summand. -/
theorem sum_map_of_eq_off
    {before after : α → Int} {changed : α} (nodup : list.Nodup) (member : changed ∈ list)
    (agree : ∀ other ∈ list, other ≠ changed → after other = before other) :
    (list.map after).sum =
      (list.map before).sum - before changed + after changed := by
  induction list with
  | nil => simp at member
  | cons head tail ih =>
    rw [List.nodup_cons] at nodup
    simp only [List.map_cons, List.sum_cons]
    by_cases same : head = changed
    · have unchanged : tail.map after = tail.map before :=
        List.map_congr_left fun other present =>
          agree other (List.mem_cons_of_mem head present) fun equal =>
            nodup.1 (same ▸ equal ▸ present)
      rw [same, unchanged]
      omega
    · have inTail : changed ∈ tail :=
        (List.mem_cons.mp member).resolve_left (Ne.symm same)
      rw [agree head List.mem_cons_self same,
        ih nodup.2 inTail fun other present =>
          agree other (List.mem_cons_of_mem head present)]
      omega

theorem countP_eq_sum_indicator (holds : α → Bool) (list : List α) :
    (list.countP holds : Int) =
      (list.map fun element => indicator (holds element)).sum := by
  induction list with
  | nil => rfl
  | cons head tail ih =>
    rw [List.countP_cons, List.map_cons, List.sum_cons, ← ih]
    cases holds head <;> simp [indicator, Int.add_comm]

/-- A function that tells an element from the others of a list keeps its count. -/
theorem count_map_of_injOn
    [DecidableEq α] [DecidableEq β] {change : α → β} {counted : α}
    (injective : ∀ other ∈ list, change other = change counted → other = counted) :
    (list.map change).count (change counted) = list.count counted := by
  rw [List.count_eq_countP, List.count_eq_countP, List.countP_map]
  refine List.countP_congr fun other member => ?_
  simp only [Function.comp_apply, beq_iff_eq]
  exact ⟨injective other member, congrArg change⟩

/-- Sums of ordered summands are equal when the summands are. -/
theorem sum_map_eq_iff_of_le
    {smaller larger : α → Nat} (ordered : ∀ element ∈ list, smaller element ≤ larger element) :
    (list.map smaller).sum ≤ (list.map larger).sum ∧
      ((list.map larger).sum = (list.map smaller).sum ↔
        ∀ element ∈ list, larger element = smaller element) := by
  induction list with
  | nil => simp
  | cons head tail ih =>
    obtain ⟨tailLe, tailEq⟩ := ih fun element member =>
      ordered element (List.mem_cons_of_mem head member)
    have headLe := ordered head List.mem_cons_self
    simp only [List.map_cons, List.sum_cons, List.forall_mem_cons, ← tailEq]
    omega

/-- A count over a duplicate-free list follows the change of one element. -/
theorem countP_of_eq_off
    {before after : α → Bool} {changed : α} (nodup : list.Nodup) (member : changed ∈ list)
    (agree : ∀ other ∈ list, other ≠ changed → after other = before other) :
    (list.countP after : Int) =
      list.countP before - indicator (before changed) +
        indicator (after changed) := by
  rw [countP_eq_sum_indicator, countP_eq_sum_indicator]
  exact sum_map_of_eq_off nodup member fun other present different => by
    rw [agree other present different]

variable
  {element : α}
  {position : Nat}

/-- Two changes that agree on the element they are made at. -/
theorem modify_congr
    {first second : α → α} (found : list[position]? = some element)
    (agree : first element = second element) :
    list.modify position first = list.modify position second := by
  refine List.ext_getElem? fun other => ?_
  rw [List.getElem?_modify, List.getElem?_modify]
  split
  case isTrue here =>
    rw [← here, found, Option.map_eq_map, Option.map_some, Option.map_eq_map,
      Option.map_some, agree]
  case isFalse => rfl

theorem modify_eq_self_of_eq
    {change : α → α} (found : list[position]? = some element) (kept : change element = element) :
    list.modify position change = list := by
  have same : list.modify position change = list.modify position id :=
    modify_congr found kept
  rw [same, List.modify_id]

theorem getElem?_modify_eq_some
    {change : α → α} {changed position : Nat}
    (found : (list.modify changed change)[position]? = some element) :
    (position = changed ∧ ∃ given, list[changed]? = some given ∧
        element = change given) ∨
      (position ≠ changed ∧ list[position]? = some element) := by
  by_cases same : position = changed
  · subst same
    rw [List.getElem?_modify_eq] at found
    obtain ⟨given, there, rfl⟩ := Option.map_eq_some_iff.mp found
    exact .inl ⟨rfl, given, there, rfl⟩
  · rw [List.getElem?_modify_ne _ _ (Ne.symm same)] at found
    exact .inr ⟨same, found⟩

theorem getElem?_append_singleton_eq_some
    {last element : α} (found : (list ++ [last])[position]? = some element) :
    list[position]? = some element ∨ (position = list.length ∧ element = last) := by
  by_cases inside : position < list.length
  · rw [List.getElem?_append_left inside] at found
    exact .inl found
  · rw [List.getElem?_append_right (by omega)] at found
    have isFirst : position - list.length = 0 := by
      by_contra other
      rw [List.getElem?_eq_none (by simp; omega)] at found
      cases found
    rw [isFirst] at found
    exact .inr ⟨by omega, (Option.some.inj found).symm⟩

theorem countP_modify
    (holds : α → Bool) (change : α → α) {changed : Nat} (found : list[changed]? = some element) :
    (list.modify changed change).countP holds + (holds element).toNat =
      list.countP holds + (holds (change element)).toNat := by
  induction list generalizing changed with
  | nil => simp at found
  | cons head tail ih =>
    cases changed with
    | zero =>
      obtain rfl : head = element := by simpa using found
      rw [List.modify_zero_cons, List.countP_cons, List.countP_cons]
      cases holds head <;> cases holds (change head) <;> simp
    | succ changed =>
      have inTail := ih (by simpa using found : tail[changed]? = _)
      rw [List.modify_succ_cons, List.countP_cons, List.countP_cons]
      omega

end Relavium.Library
