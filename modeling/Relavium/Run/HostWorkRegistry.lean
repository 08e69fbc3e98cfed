import Mathlib.Logic.Function.Basic
import Relavium.Library.Trace

/-!
# The host work registry

Model of `packages/core/src/engine/host-work-registry.ts`.  The registry counts the
operations that entered the host.  Whatever code is not its own runs on top of its
frames: the operations, `onChange`, and what `then` runs of a promise it is given.
Such code may call the registry and its scopes again before it returns.
-/

namespace Relavium.Run

open Library

/-- Which method registered an operation: `invoke`, `scope.enter` or `enter`. -/
inductive HostWorkKind
  | scoped
  | entered
  | port
  deriving DecidableEq

/-- A registered operation with the method that registered it. -/
structure HostWorkSlot where
  operation : Nat
  kind : HostWorkKind
  deriving DecidableEq

/-- What a call gives back: the raw promise, a new rejected one, the error thrown again,
or nothing. -/
inductive HostWorkReply
  | raw (promise : Nat)
  | rejected
  | rethrown
  | void
  deriving DecidableEq

/-- How an operation ended. -/
inductive HostWorkEnding
  | threw
  | returned
  /-- Its raw promise settled, and the reaction of the registry to that ran. -/
  | settled
  deriving DecidableEq

/-- What is seen of a registry.  Operations, joins and promises are known by their
numbers. -/
inductive HostWorkEvent
  /-- An operation was registered, by a scope or by the registry itself. -/
  | registered (operation : Nat) (scope : Option Nat)
  /-- The raw promise of an operation is observed. -/
  | awaited (operation raw : Nat)
  /-- It cannot be observed. -/
  | unobservable (operation raw : Nat)
  | ended (operation : Nat) (ending : HostWorkEnding)
  /-- A promise was fulfilled or rejected. -/
  | settled (promise : Nat)
  | replied (operation : Nat) (reply : HostWorkReply)
  /-- A call on a scope threw `receipt_scope_ended`. -/
  | scopeEnded (scope : Nat)
  | joined (join : Nat)
  /-- A join left its loop. -/
  | left (join : Nat)
  deriving DecidableEq

/-- A call of the registry that waits for other code to return. -/
inductive HostWorkFrame
  /-- For `onChange`, after the operation was counted. -/
  | entering (slot : HostWorkSlot)
  | running (slot : HostWorkSlot)
  /-- For `then` of the raw promise. -/
  | observing (slot : HostWorkSlot) (raw : Nat)
  /-- For `onChange` in `#finish`, with what the call will give back. -/
  | finishing (operation : Nat) (reply : Option HostWorkReply)

/-- A microtask of the registry. -/
inductive HostWorkJob
  /-- `onSettled` of an operation. -/
  | settled (slot : HostWorkSlot)
  /-- A join whose promise was resolved. -/
  | resume (join : Nat)

/-- A registry with the promises and the code around it. -/
structure HostWork where
  pending : Int
  /-- The joins whose `resolve` is held. -/
  idleWaiters : List Nat
  observationFailed : Bool
  /-- The `active` of the scopes made so far. -/
  active : Nat → Option Bool
  stack : List HostWorkFrame
  jobs : List HostWorkJob
  /-- The reactions to promises that are not settled. -/
  reactions : List (Nat × HostWorkSlot)
  settled : List Nat
  operations : Nat
  joins : Nat
  /-- What was seen so far. -/
  log : List HostWorkEvent

/-- How an operation gives control back. -/
inductive HostWorkOutcome
  | threw
  /-- With nothing, which only `enter` takes. -/
  | returned
  | gave (raw : Nat)

/-- What the code around a registry does next. -/
inductive HostWorkStep
  | invoke
  | enter
  | assertActive (scope : Nat)
  | scopeEnter (scope : Nat)
  | scopeContinue (scope : Nat)
  | join
  /-- `onChange` returns. -/
  | changed
  /-- The operation on top gives control back. -/
  | ran (outcome : HostWorkOutcome)
  /-- `then` took the reactions, or threw. -/
  | observed (taken : Bool)
  | settle (promise : Nat)
  /-- The first microtask runs. -/
  | job

namespace HostWork

/-- `new HostWorkRegistry`. -/
def create : HostWork where
  pending := 0
  idleWaiters := []
  observationFailed := false
  active := fun _ => none
  stack := []
  jobs := []
  reactions := []
  settled := []
  operations := 0
  joins := 0
  log := []

/-- `isIdle`. -/
def isIdle (work : HostWork) : Bool :=
  work.pending == 0

/-- The beginning of `invoke`, `enter` and `scope.enter`, up to `onChange`. -/
def register (work : HostWork) (kind : HostWorkKind)
    (scope : Option Nat) : HostWork :=
  { work with
    pending := work.pending + 1
    stack := .entering ⟨work.operations, kind⟩ :: work.stack
    operations := work.operations + 1
    log := work.log ++ [.registered work.operations scope] }

/-- A call on a scope, which goes on only if `assertActive` does not throw.  No code has
a scope that was not made yet. -/
def withScope (work : HostWork) (scope : Nat)
    (proceed : HostWork) : Option HostWork :=
  match work.active scope with
  | none => none
  | some true => some proceed
  | some false => some { work with log := work.log ++ [.scopeEnded scope] }

/-- The flag of a scope is set; other operations have none. -/
def setActive (work : HostWork) (slot : HostWorkSlot)
    (active : Bool) : Nat → Option Bool :=
  if slot.kind = .scoped then Function.update work.active slot.operation (some active)
  else work.active

/-- `onSettled` of an operation, up to `onChange` in `#finish`. -/
def settleOperation (work : HostWork) (slot : HostWorkSlot) (ending : HostWorkEnding)
    (reply : Option HostWorkReply) : HostWork :=
  { work with
    pending := work.pending - 1
    active := work.setActive slot false
    stack := .finishing slot.operation reply :: work.stack
    log := work.log ++ [.ended slot.operation ending] }

/-- `#finish` after `onChange`: where the registry is idle, the waiters are taken and
resolved. -/
def wakeWaiters (work : HostWork) : HostWork :=
  if work.isIdle then
    { work with
      idleWaiters := []
      jobs := work.jobs ++ work.idleWaiters.map .resume }
  else work

/-- The loop of `join`, up to its next `await`. -/
def joinLoop (work : HostWork)
    (join : Nat) : HostWork :=
  if work.isIdle then { work with log := work.log ++ [.left join] }
  else { work with idleWaiters := work.idleWaiters ++ [join] }

/-- `join`. -/
def join (work : HostWork) : HostWork :=
  joinLoop
    { work with
      joins := work.joins + 1
      log := work.log ++ [.joined work.joins] }
    work.joins

/-- The reply of `#observe`, or of `enter`, to an operation that threw. -/
def replyToThrow : HostWorkKind → HostWorkReply
  | .scoped | .entered => .rejected
  | .port => .rethrown

/-- `onChange` returns. -/
def afterChange (work : HostWork) : Option HostWork :=
  match work.stack with
  | .entering slot :: rest =>
    some { work with
      active := work.setActive slot true
      stack := .running slot :: rest }
  | .finishing operation reply :: rest =>
    some { work.wakeWaiters with
      stack := rest
      log := work.log ++ reply.toList.map (.replied operation) }
  | _ => none

/-- The operation on top throws, returns nothing, or gives its raw promise. -/
def afterOperation (work : HostWork)
    (outcome : HostWorkOutcome) : Option HostWork :=
  match work.stack with
  | .running slot :: rest =>
    match outcome with
    | .threw =>
      some (settleOperation { work with stack := rest } slot .threw
        (some (replyToThrow slot.kind)))
    | .returned =>
      if slot.kind = .port then
        some (settleOperation { work with stack := rest } slot .returned (some .void))
      else none
    | .gave raw => some { work with stack := .observing slot raw :: rest }
  | _ => none

/-- `then` of the raw promise returns or throws. -/
def afterThen (work : HostWork)
    (taken : Bool) : Option HostWork :=
  match work.stack with
  | .observing slot raw :: rest =>
    if taken then
      some { work with
        jobs := work.jobs ++ if raw ∈ work.settled then [.settled slot] else []
        reactions := work.reactions ++ if raw ∈ work.settled then [] else [(raw, slot)]
        stack := rest
        log := work.log ++ [.awaited slot.operation raw, .replied slot.operation (.raw raw)] }
    else
      some { work with
        observationFailed := true
        stack := rest
        log := work.log ++
          [.unobservable slot.operation raw, .replied slot.operation (.raw raw)] }
  | _ => none

/-- A promise is fulfilled or rejected, and its reactions become microtasks. -/
def settlePromise (work : HostWork)
    (promise : Nat) : Option HostWork :=
  if promise ∈ work.settled then none
  else
    some { work with
      settled := promise :: work.settled
      jobs := work.jobs ++
        (work.reactions.filter fun reaction => decide (reaction.1 = promise)).map
          fun reaction => .settled reaction.2
      reactions := work.reactions.filter fun reaction => !decide (reaction.1 = promise)
      log := work.log ++ [.settled promise] }

/-- The first microtask runs, once no code does. -/
def runJob (work : HostWork) : Option HostWork :=
  match work.stack, work.jobs with
  | [], .settled slot :: rest =>
    some (settleOperation { work with jobs := rest } slot .settled none)
  | [], .resume join :: rest => some (joinLoop { work with jobs := rest } join)
  | _, _ => none

/-- One step of the registry and the code around it; `none` where there is no such
step. -/
def step (work : HostWork) : HostWorkStep → Option HostWork
  | .invoke => some (work.register .scoped none)
  | .enter => some (work.register .port none)
  | .assertActive scope => work.withScope scope work
  | .scopeEnter scope => work.withScope scope (work.register .entered (some scope))
  | .scopeContinue scope => work.withScope scope (work.register .scoped (some scope))
  | .join => some work.join
  | .changed => work.afterChange
  | .ran outcome => work.afterOperation outcome
  | .observed taken => work.afterThen taken
  | .settle promise => work.settlePromise promise
  | .job => work.runJob

/-- A step that is taken. -/
def Steps (work : HostWork) (taken : HostWorkStep)
    (next : HostWork) : Prop :=
  work.step taken = some next

end HostWork

end Relavium.Run
