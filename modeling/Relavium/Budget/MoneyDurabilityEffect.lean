import Mathlib.Data.List.Basic
import Relavium.Budget.MoneyDurability

/-!
# What one event does to the money durability barrier

One constructor for each branch, with everything the branch has checked.  Of the
chained operations an event leaves all alone, chains one more, or moves one of
them a stage on.
-/

namespace Relavium.Budget
namespace Durability

open Library

/-- The stage that the reaction of an operation leaves it in. -/
inductive Starts (attached : Bool) (money : MoneyDurability) :
    OperationKind → Stage → Prop
  | record : Starts attached money .record .running
  | dispose : attached = true → Starts attached money .usageDisposition .running
  | detached : attached = false → Starts attached money .usageDisposition (.settled false)
  | begin :
      attached = true → money.broken = false →
      Starts attached money .beginUsageInvocation .running
  | refuse :
      money.broken = true ∨ attached = false →
      Starts attached money .beginUsageInvocation (.handled .refused)

/-- The ways an event can go. -/
inductive Happens (attached : Bool)
    (money : MoneyDurability) : Event → MoneyDurability → Prop
  | record : Happens attached money .record (money.chain .record)
  | usageDisposition : Happens attached money .usageDisposition (money.chain .usageDisposition)
  | accountingFailure :
      Happens attached money .accountingFailure
        { money.fail (.accounting money.accountings) with
          accountings := money.accountings + 1 }
  | call (begins : Bool) :
      Happens attached money (.call begins)
        { money with
          callers := money.callers ++ [{ begins, phase := money.observe }] }
  | wake (caller observed : Nat) (begins : Bool) :
      money.callers[caller]? = some { begins, phase := .awaiting observed } →
      money.tailSettled observed = true →
      Happens attached money (.wake caller) (money.setPhase caller (.flushing observed))
  | again (caller observed : Nat) (begins : Bool) :
      money.callers[caller]? = some { begins, phase := .flushing observed } →
      observed ≠ money.inFlight →
      Happens attached money (.flushed caller true) (money.setPhase caller money.observe)
  | throw (caller : Nat) (begins : Bool) (fault : Fault) :
      money.callers[caller]? = some { begins, phase := .flushing money.inFlight } →
      money.failure = some fault →
      Happens attached money (.flushed caller true)
        ({ money with failure := none }.setPhase caller (.thrown (.ledger fault)))
  | join (caller : Nat) (begins : Bool) :
      money.callers[caller]? = some { begins, phase := .flushing money.inFlight } →
      money.failure = none →
      Happens attached money (.flushed caller true) (money.setPhase caller .joined)
  | conservative (caller observed : Nat) (begins : Bool) :
      money.callers[caller]? = some { begins, phase := .flushing observed } →
      Happens attached money (.flushed caller false)
        (money.setPhase caller (.thrown .conservative))
  | resume (caller : Nat) :
      money.callers[caller]? = some { begins := true, phase := .joined } →
      Happens attached money (.resume caller)
        ((money.chain .beginUsageInvocation).setPhase caller (.chained money.operations.length))
  | start (operation : Nat) (given : Operation) (stage : Stage) :
      money.operations[operation]? = some given →
      given.stage = .queued →
      money.tailSettled given.after = true →
      Starts attached money given.kind stage →
      Happens attached money (.start operation) (money.setStage operation stage)
  | settle (operation : Nat) (given : Operation) (succeeded : Bool) :
      money.operations[operation]? = some given →
      given.stage = .running →
      Happens attached money (.settle operation succeeded)
        (money.setStage operation (.settled succeeded))
  | succeed (operation : Nat) (given : Operation) :
      money.operations[operation]? = some given →
      given.stage = .settled true →
      Happens attached money (.handle operation) (money.setStage operation (.handled .succeeded))
  | reject (operation : Nat) (given : Operation) :
      money.operations[operation]? = some given →
      given.stage = .settled false →
      given.kind = .beginUsageInvocation →
      Happens attached money (.handle operation)
        { money.setStage operation (.handled .failed) with broken := true }
  | fail (operation : Nat) (given : Operation) :
      money.operations[operation]? = some given →
      given.stage = .settled false →
      given.kind ≠ .beginUsageInvocation →
      Happens attached money (.handle operation)
        ((money.setStage operation (.handled .failed)).fail (.write operation))
  | finish (operation : Nat) (given : Operation) (result : OperationResult) :
      money.operations[operation]? = some given →
      given.stage = .handled result →
      Happens attached money (.finish operation)
        { money.setStage operation (.done result) with
          pending := money.pending - 1 }

variable
  {attached : Bool}
  {money : MoneyDurability}

/-- A flush whose tail is settled throws the retained fault or returns. -/
theorem happens_flushed
    {caller observed : Nat} {begins : Bool}
    (found : money.callers[caller]? = some { begins, phase := .flushing observed }) :
    Happens attached money (.flushed caller true)
      (money.leaveBarrier caller observed) := by
  unfold MoneyDurability.leaveBarrier
  by_cases moved : observed ≠ money.inFlight
  · rw [if_pos moved]
    exact .again caller observed begins found moved
  · obtain rfl : observed = money.inFlight := by simpa using moved
    rw [if_neg moved]
    cases slot : money.failure with
    | some fault => exact .throw caller begins fault found slot
    | none => exact .join caller begins found slot

/-- An operation starts when its tail is settled. -/
theorem happens_start
    {operation : Nat} {given : Operation} (found : money.operations[operation]? = some given)
    (queued : given.stage = .queued) (settled : money.tailSettled given.after = true) :
    Happens attached money (.start operation)
      (money.startOperation attached operation given.kind) := by
  have starts : ∀ stage, Starts attached money given.kind stage →
      Happens attached money (.start operation) (money.setStage operation stage) :=
    fun stage => .start operation given stage found queued settled
  cases kind : given.kind with
  | record => exact starts _ (kind ▸ .record)
  | usageDisposition =>
    simp only [MoneyDurability.startOperation]
    cases attached with
    | true => exact starts _ (kind ▸ .dispose rfl)
    | false => exact starts _ (kind ▸ .detached rfl)
  | beginUsageInvocation =>
    simp only [MoneyDurability.startOperation]
    by_cases refused : (money.broken || !attached) = true
    · rw [if_pos refused]
      exact starts _ (kind ▸ .refuse (by simpa using refused))
    · rw [if_neg refused]
      have both : money.broken = false ∧ attached = true := by simpa using refused
      exact starts _ (kind ▸ .begin both.2 both.1)

/-- The answer to an operation is handled once. -/
theorem happens_handle
    {operation : Nat} {given : Operation} {succeeded : Bool}
    (found : money.operations[operation]? = some given)
    (settled : given.stage = .settled succeeded) :
    Happens attached money (.handle operation)
      (money.handleOperation operation given.kind succeeded) := by
  cases succeeded with
  | true => exact .succeed operation given found settled
  | false =>
    cases kind : given.kind with
    | record | usageDisposition => exact .fail operation given found settled (by simp [kind])
    | beginUsageInvocation => exact .reject operation given found settled kind

/-- A step is one of the ways its event can go. -/
theorem happens_of_step
    {money next : MoneyDurability} {event : Event} (step : Step attached money event next) :
    Happens attached money event next := by
  unfold Step at step
  cases event with
  | record =>
    cases step
    exact .record
  | usageDisposition =>
    cases step
    exact .usageDisposition
  | accountingFailure =>
    cases step
    exact .accountingFailure
  | call begins =>
    cases step
    exact .call begins
  | wake caller =>
    simp only [apply] at step
    split at step
    · rename_i begins observed found
      split at step
      · rename_i settled
        cases step
        exact .wake caller observed begins found settled
      · cases step
    · cases step
  | flushed caller succeeded =>
    simp only [apply] at step
    split at step
    · rename_i begins observed found
      cases succeeded with
      | true =>
        cases step
        exact happens_flushed found
      | false =>
        cases step
        exact .conservative caller observed begins found
    · cases step
  | resume caller =>
    simp only [apply] at step
    split at step
    · rename_i found
      cases step
      exact .resume caller found
    · cases step
  | start operation =>
    simp only [apply] at step
    split at step
    · rename_i kind after found
      split at step
      · rename_i settled
        cases step
        exact happens_start found rfl settled
      · cases step
    · cases step
  | settle operation succeeded =>
    simp only [apply] at step
    split at step
    · rename_i found
      cases step
      exact .settle operation _ succeeded found rfl
    · cases step
  | handle operation =>
    simp only [apply] at step
    split at step
    · rename_i kind after succeeded found
      cases step
      exact happens_handle found rfl
    · cases step
  | finish operation =>
    simp only [apply] at step
    split at step
    · rename_i kind after result found
      cases step
      exact .finish operation _ result found rfl
    · cases step

/-! ## The chained operations -/

/-- How an operation goes from stage to stage. -/
inductive Advances (operation : Operation) : Stage → Prop
  | run : operation.stage = .queued → Advances operation .running
  | detached :
      operation.stage = .queued → operation.kind = .usageDisposition →
      Advances operation (.settled false)
  | refuse :
      operation.stage = .queued → operation.kind = .beginUsageInvocation →
      Advances operation (.handled .refused)
  | settle (succeeded : Bool) :
      operation.stage = .running → Advances operation (.settled succeeded)
  | succeed : operation.stage = .settled true → Advances operation (.handled .succeeded)
  | fail : operation.stage = .settled false → Advances operation (.handled .failed)
  | finish (result : OperationResult) :
      operation.stage = .handled result → Advances operation (.done result)

theorem Advances.not_done
    {operation : Operation} {stage : Stage} (advances : Advances operation stage) :
    operation.stage.isDone = false := by
  cases advances with
  | run queued | detached queued | refuse queued => rw [queued]; rfl
  | settle succeeded running => rw [running]; rfl
  | succeed settled | fail settled => rw [settled]; rfl
  | finish result handled => rw [handled]; rfl

theorem advances_of_starts
    {operation : Operation} {stage : Stage} (queued : operation.stage = .queued)
    (starts : Starts attached money operation.kind stage) :
    Advances operation stage := by
  generalize kind : operation.kind = given at starts
  cases starts with
  | record | dispose _ => exact .run queued
  | detached _ => exact .detached queued kind
  | begin _ _ => exact .run queued
  | refuse _ => exact .refuse queued kind

/-- What an event does to the chained operations. -/
inductive OperationsEffect
    (money next : MoneyDurability) : Prop
  | kept :
      next.operations = money.operations →
      next.inFlight = money.inFlight →
      next.pending = money.pending →
      OperationsEffect money next
  | chained (kind : OperationKind) :
      next.operations = money.operations ++
        [{ kind, after := money.inFlight, stage := .queued }] →
      next.inFlight = money.operations.length + 1 →
      next.pending = money.pending + 1 →
      OperationsEffect money next
  | advanced (position : Nat) (operation : Operation) (stage : Stage) :
      money.operations[position]? = some operation →
      Advances operation stage →
      (operation.stage = .queued → money.tailSettled operation.after = true) →
      next.operations =
        (money.operations.modify position fun given => { given with stage }) →
      next.inFlight = money.inFlight →
      next.pending = money.pending - stage.isDone.toNat →
      OperationsEffect money next

/-- Every event advances, appends or keeps the operations. -/
theorem operations_effect
    {money next : MoneyDurability} {event : Event} (happens : Happens attached money event next) :
    OperationsEffect money next := by
  cases happens with
  | record => exact .chained .record rfl rfl rfl
  | usageDisposition => exact .chained .usageDisposition rfl rfl rfl
  | accountingFailure | call begins | wake caller observed begins found settled
  | again caller observed begins found moved | throw caller begins fault found retained
  | join caller begins found empty | conservative caller observed begins found =>
    exact .kept rfl rfl rfl
  | resume caller found => exact .chained .beginUsageInvocation rfl rfl rfl
  | start operation given stage found queued settled starts =>
    have undone : stage.isDone = false := by
      generalize given.kind = kind at starts
      cases starts <;> rfl
    exact .advanced operation given stage found (advances_of_starts queued starts)
      (fun _ => settled) rfl rfl
      (by rw [undone]; exact (Int.sub_zero _).symm)
  | settle operation given succeeded found running =>
    exact .advanced operation given (.settled succeeded) found
      (.settle succeeded running) (fun queued => by rw [running] at queued; cases queued)
      rfl rfl (Int.sub_zero _).symm
  | succeed operation given found settled =>
    exact .advanced operation given (.handled .succeeded) found (.succeed settled)
      (fun queued => by rw [settled] at queued; cases queued) rfl rfl
      (Int.sub_zero _).symm
  | reject operation given found settled kind | fail operation given found settled kind =>
    exact .advanced operation given (.handled .failed) found (.fail settled)
      (fun queued => by rw [settled] at queued; cases queued) rfl rfl
      (Int.sub_zero _).symm
  | finish operation given result found handled =>
    exact .advanced operation given (.done result) found (.finish result handled)
      (fun queued => by rw [handled] at queued; cases queued) rfl rfl rfl

end Durability
end Relavium.Budget
