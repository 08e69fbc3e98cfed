import Mathlib.Data.List.Nodup
import Mathlib.Data.List.Perm.Basic
import Mathlib.Tactic.SplitIfs
import Relavium.Run.HostWorkRegistry

/-!
# Quiescence of host work

Every registered operation is held once: by a frame, by a reaction or a microtask, as
one whose promise cannot be observed, or as one that ended.  The counter is the number
of those that did not end.  A join that waits is held by the registry or by a
microtask, and the registry holds none once it is idle and `#finish` returned.
-/

namespace Relavium.Run

open Library

namespace HostWork

/-! ## What a step does -/

variable {work next : HostWork}

/-- The operation that a frame holds. -/
def frameSlot : HostWorkFrame → Option HostWorkSlot
  | .entering slot | .running slot | .observing slot _ => some slot
  | .finishing _ _ => none

/-- The operation that a microtask holds. -/
def jobSlot : HostWorkJob → Option HostWorkSlot
  | .settled slot => some slot
  | .resume _ => none

/-- The operations that frames, microtasks and reactions hold. -/
def slots (work : HostWork) : List HostWorkSlot :=
  work.stack.filterMap frameSlot ++ (work.jobs.filterMap jobSlot ++ work.reactions.map Prod.snd)

def registeredOperation : HostWorkEvent → Option Nat
  | .registered operation _ => some operation
  | _ => none

def endedOperation : HostWorkEvent → Option Nat
  | .ended operation _ => some operation
  | _ => none

def lostOperation : HostWorkEvent → Option Nat
  | .unobservable operation _ => some operation
  | _ => none

/-- The operations that were registered, in order. -/
def registeredOperations (work : HostWork) : List Nat :=
  work.log.filterMap registeredOperation

/-- The operations that ended. -/
def endedOperations (work : HostWork) : List Nat :=
  work.log.filterMap endedOperation

/-- The operations whose promises cannot be observed. -/
def lostOperations (work : HostWork) : List Nat :=
  work.log.filterMap lostOperation

/-- The operations that did not end. -/
def unfinished (work : HostWork) : List Nat :=
  work.slots.map HostWorkSlot.operation ++ work.lostOperations

/-- The events that say nothing about who holds an operation. -/
structure Silent (news : List HostWorkEvent) : Prop where
  registered : news.filterMap registeredOperation = []
  ended : news.filterMap endedOperation = []
  lost : news.filterMap lostOperation = []

variable {slot : HostWorkSlot}

theorem Silent.append
    {first second : List HostWorkEvent} (firstSilent : Silent first)
    (secondSilent : Silent second) :
    Silent (first ++ second) where
  registered := by rw [List.filterMap_append, firstSilent.registered, secondSilent.registered]; rfl
  ended := by rw [List.filterMap_append, firstSilent.ended, secondSilent.ended]; rfl
  lost := by rw [List.filterMap_append, firstSilent.lost, secondSilent.lost]; rfl

/-- Every registered operation is unfinished or ended, once, and the counter is the
number of those unfinished.  A scope is active until its operation ends. -/
structure Counted (work : HostWork) : Prop where
  registered : work.registeredOperations = List.range work.operations
  held : (work.unfinished ++ work.endedOperations).Perm (List.range work.operations)
  pending : work.pending = work.unfinished.length
  active : ∀ scope, work.active scope = some true →
    scope ∈ work.lostOperations ∨ ⟨scope, .scoped⟩ ∈ work.slots
  inactive : ∀ scope, work.active scope = some false → scope ∈ work.endedOperations

theorem Counted.nodup (counted : Counted work) :
    (work.unfinished ++ work.endedOperations).Nodup :=
  counted.held.nodup_iff.mpr List.nodup_range

/-- What did not end before a step, where its slots are those after it but one. -/
theorem unfinished_perm_of_slots
    (slots : work.slots.Perm (slot :: next.slots))
    (lost : next.lostOperations = work.lostOperations) :
    work.unfinished.Perm (slot.operation :: next.unfinished) := by
  rw [unfinished, unfinished, lost, ← List.cons_append, ← List.map_cons]
  exact (slots.map _).append_right _

theorem setActive_of_ne {scope : Nat} (other : scope ≠ slot.operation) (value : Bool) :
    work.setActive slot value scope = work.active scope := by
  unfold setActive
  split
  · exact Function.update_of_ne other _ _
  · rfl

/-- An operation whose flag is set has a scope. -/
theorem Counted.kind_of_active
    (counted : Counted work) (isHeld : slot ∈ work.slots)
    (active : work.active slot.operation = some true) :
    slot.kind = .scoped := by
  have nodup := (List.nodup_append.mp counted.nodup).1
  obtain ⟨slotsNodup, -, disjoint⟩ := List.nodup_append.mp nodup
  obtain isLost | isScoped := counted.active slot.operation active
  · exact absurd rfl (disjoint slot.operation (List.mem_map_of_mem isHeld) _ isLost)
  · have same := List.inj_on_of_nodup_map slotsNodup isHeld isScoped rfl
    exact congrArg HostWorkSlot.kind same

theorem Counted.ended
    (counted : Counted work) (slots : work.slots.Perm (slot :: next.slots))
    (registered : next.registeredOperations = work.registeredOperations)
    (ended : next.endedOperations = work.endedOperations ++ [slot.operation])
    (lost : next.lostOperations = work.lostOperations)
    (operations : next.operations = work.operations) (pending : next.pending = work.pending - 1)
    (active : next.active = work.setActive slot false) :
    Counted next where
  registered := by rw [registered, operations, counted.registered]
  held := by
    have unfinished := unfinished_perm_of_slots slots lost
    rw [operations, ended]
    refine .trans ?_ ((unfinished.append_right _).symm.trans counted.held)
    exact List.perm_iff_count.mpr fun held => by
      simp only [List.count_append, List.count_cons, List.count_nil]
      omega
  pending := by
    have length := (unfinished_perm_of_slots slots lost).length_eq
    rw [List.length_cons] at length
    rw [pending, counted.pending, length]
    omega
  active scope isActive := by
    have isHeld : slot ∈ work.slots := slots.mem_iff.mpr List.mem_cons_self
    rw [active] at isActive
    by_cases same : scope = slot.operation
    · -- The flag of the operation itself is taken away; without a scope it had none.
      rw [same] at isActive
      unfold setActive at isActive
      split at isActive
      · simp at isActive
      · next notScoped => exact absurd (counted.kind_of_active isHeld isActive) notScoped
    · rw [setActive_of_ne same] at isActive
      rw [lost]
      refine (counted.active scope isActive).imp_right fun isScoped => ?_
      obtain isSlot | isNext := List.mem_cons.mp (slots.mem_iff.mp isScoped)
      · exact absurd (congrArg HostWorkSlot.operation isSlot) same
      · exact isNext
  inactive scope isInactive := by
    rw [active] at isInactive
    rw [ended, List.mem_append, List.mem_singleton]
    by_cases same : scope = slot.operation
    · exact .inr same
    · rw [setActive_of_ne same] at isInactive
      exact .inl (counted.inactive scope isInactive)

end HostWork

end Relavium.Run
