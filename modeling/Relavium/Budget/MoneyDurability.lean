import Relavium.Library.Trace

/-!
# The money durability barrier

Model of `packages/core/src/engine/money-durability.ts`.  Realized charges, usage
dispositions and the allocation of invocation identities are chained behind each
other's promises.  A barrier waits for the chain, then for the conservative one,
and throws a retained failure.

Every synchronous stretch of the code is one event.  What happens in separate
jobs is separate events in any order that the promises allow: a reaction runs
some time after its promise settled.
-/

namespace Relavium.Budget
namespace Durability

open Library

/-- A retained failure: the chained operation that failed, or the call of
`accountingFailure`. -/
inductive Fault
  | write (operation : Nat)
  | accounting (call : Nat)
  deriving DecidableEq

/-- What is chained. -/
inductive OperationKind
  | record
  | usageDisposition
  | beginUsageInvocation
  deriving DecidableEq

inductive OperationResult
  | succeeded
  /-- The callback threw or rejected. -/
  | failed
  /-- The durability was broken or not attached, and no callback ran. -/
  | refused
  deriving DecidableEq

/-- How far a chained operation is. -/
inductive Stage
  /-- Its reaction has not run. -/
  | queued
  /-- Its callback runs. -/
  | running
  /-- Its callback has settled. -/
  | settled (succeeded : Bool)
  /-- Its failure, if any, is recorded. -/
  | handled (result : OperationResult)
  /-- Its promise is settled. -/
  | done (result : OperationResult)
  deriving DecidableEq

def Stage.isDone : Stage → Bool
  | .done _ => true
  | _ => false

/-- An operation, chained behind the promise that was the tail. -/
structure Operation where
  kind : OperationKind
  /-- The tail at its `then`: zero is the first promise, `n + 1` that of the
  operation `n`. -/
  after : Nat
  stage : Stage

/-- What a barrier throws. -/
inductive BarrierError
  | ledger (fault : Fault)
  | conservative
  deriving DecidableEq

/-- How far a call of `join` or of `beginUsageInvocation` is. -/
inductive CallerPhase
  /-- Awaiting the observed tail. -/
  | awaiting (observed : Nat)
  /-- Awaiting `flushConservative`, after the observed tail. -/
  | flushing (observed : Nat)
  /-- The barrier has resolved. -/
  | joined
  /-- The barrier has thrown. -/
  | thrown (error : BarrierError)
  /-- `beginUsageInvocation` has chained its operation. -/
  | chained (operation : Nat)
  deriving DecidableEq

structure Caller where
  /-- A call of `beginUsageInvocation`, else of `join`. -/
  begins : Bool
  phase : CallerPhase

structure MoneyDurability where
  /-- `#inFlight`. -/
  inFlight : Nat
  /-- `#pending`. -/
  pending : Int
  /-- `#failure`. -/
  failure : Option Fault
  /-- `#broken`. -/
  broken : Bool
  /-- The chained operations, first chained first. -/
  operations : List Operation
  /-- The calls of `join` and `beginUsageInvocation`. -/
  callers : List Caller
  /-- The number of calls of `accountingFailure`. -/
  accountings : Nat

def initial : MoneyDurability where
  inFlight := 0
  pending := 0
  failure := none
  broken := false
  operations := []
  callers := []
  accountings := 0

/-- What can happen. -/
inductive Event
  | record
  | usageDisposition
  | accountingFailure
  /-- `join`, or `beginUsageInvocation` up to its `await`. -/
  | call (begins : Bool)
  /-- The observed tail has settled and the barrier goes on. -/
  | wake (caller : Nat)
  /-- `flushConservative` has settled and the barrier goes on. -/
  | flushed (caller : Nat) (succeeded : Bool)
  /-- `beginUsageInvocation` goes on after its barrier. -/
  | resume (caller : Nat)
  /-- The reaction of an operation runs. -/
  | start (operation : Nat)
  /-- The callback of an operation returns or throws, or its promise settles. -/
  | settle (operation : Nat) (succeeded : Bool)
  /-- The handler of a settled callback runs. -/
  | handle (operation : Nat)
  /-- The `finally` of an operation runs and its promise settles. -/
  | finish (operation : Nat)

/-- `#failure ??= fault; #broken = true`. -/
def MoneyDurability.fail (money : MoneyDurability)
    (fault : Fault) : MoneyDurability :=
  { money with failure := money.failure.or (some fault), broken := true }

/-- `#pending += 1; #inFlight = #inFlight.then(…)`. -/
def MoneyDurability.chain (money : MoneyDurability)
    (kind : OperationKind) : MoneyDurability :=
  { money with
    pending := money.pending + 1
    operations := money.operations ++
      [{ kind, after := money.inFlight, stage := .queued }]
    inFlight := money.operations.length + 1 }

/-- Whether the promise of a tail is settled. -/
def MoneyDurability.tailSettled (money : MoneyDurability) : Nat → Bool
  | 0 => true
  | tail + 1 => money.operations[tail]?.any (·.stage.isDone)

def MoneyDurability.setStage (money : MoneyDurability) (operation : Nat)
    (stage : Stage) : MoneyDurability :=
  { money with
    operations := money.operations.modify operation fun given =>
      { given with stage } }

def MoneyDurability.setPhase (money : MoneyDurability) (caller : Nat)
    (phase : CallerPhase) : MoneyDurability :=
  { money with
    callers := money.callers.modify caller fun given => { given with phase } }

/-- One turn of the loop of `join`, up to its first `await`. -/
def MoneyDurability.observe (money : MoneyDurability) : CallerPhase :=
  if 0 < money.pending ∨ money.failure.isSome then .awaiting money.inFlight
  else .flushing money.inFlight

/-- `join` after the conservative flush. -/
def MoneyDurability.leaveBarrier (money : MoneyDurability)
    (caller observed : Nat) : MoneyDurability :=
  if observed ≠ money.inFlight then money.setPhase caller money.observe
  else
    match money.failure with
    | some fault =>
      { money with failure := none }.setPhase caller (.thrown (.ledger fault))
    | none => money.setPhase caller .joined

/-- The reaction of an operation: it calls the callback, unless that is missing or,
for a new invocation, the durability is broken. -/
def MoneyDurability.startOperation (attached : Bool) (money : MoneyDurability)
    (operation : Nat) : OperationKind → MoneyDurability
  | .record => money.setStage operation .running
  | .usageDisposition =>
    money.setStage operation (if attached then .running else .settled false)
  | .beginUsageInvocation =>
    money.setStage operation (if money.broken || !attached then .handled .refused else .running)

/-- The handler of a settled callback. -/
def MoneyDurability.handleOperation
    (money : MoneyDurability) (operation : Nat) (kind : OperationKind)
    (succeeded : Bool) : MoneyDurability :=
  if succeeded then money.setStage operation (.handled .succeeded)
  else
    let handled := money.setStage operation (.handled .failed)
    match kind with
    | .beginUsageInvocation => { handled with broken := true }
    | _ => handled.fail (.write operation)

/-- One event, when it can happen. -/
def apply (attached : Bool)
    (money : MoneyDurability) : Event → Option MoneyDurability
  | .record => some (money.chain .record)
  | .usageDisposition => some (money.chain .usageDisposition)
  | .accountingFailure =>
    some { money.fail (.accounting money.accountings) with
      accountings := money.accountings + 1 }
  | .call begins =>
    some { money with callers := money.callers ++ [{ begins, phase := money.observe }] }
  | .wake caller =>
    match money.callers[caller]? with
    | some { phase := .awaiting observed, .. } =>
      if money.tailSettled observed then
        some (money.setPhase caller (.flushing observed))
      else none
    | _ => none
  | .flushed caller succeeded =>
    match money.callers[caller]? with
    | some { phase := .flushing observed, .. } =>
      if succeeded then some (money.leaveBarrier caller observed)
      else some (money.setPhase caller (.thrown .conservative))
    | _ => none
  | .resume caller =>
    match money.callers[caller]? with
    | some { begins := true, phase := .joined } =>
      some ((money.chain .beginUsageInvocation).setPhase caller
        (.chained money.operations.length))
    | _ => none
  | .start operation =>
    match money.operations[operation]? with
    | some { kind, after, stage := .queued } =>
      if money.tailSettled after then
        some (money.startOperation attached operation kind)
      else none
    | _ => none
  | .settle operation succeeded =>
    match money.operations[operation]? with
    | some { stage := .running, .. } =>
      some (money.setStage operation (.settled succeeded))
    | _ => none
  | .handle operation =>
    match money.operations[operation]? with
    | some { kind, stage := .settled succeeded, .. } =>
      some (money.handleOperation operation kind succeeded)
    | _ => none
  | .finish operation =>
    match money.operations[operation]? with
    | some { stage := .handled result, .. } =>
      some { money.setStage operation (.done result) with
        pending := money.pending - 1 }
    | _ => none

/-- One event takes the barrier to its next state. -/
abbrev Step (attached : Bool) : MoneyDurability → Event → MoneyDurability → Prop :=
  fun money event next => apply attached money event = some next

end Durability
end Relavium.Budget
