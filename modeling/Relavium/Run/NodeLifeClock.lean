import Relavium.Library.OrderedMap
import Relavium.Run.RunSuspension

/-!
# Node life clocks

Model of `packages/core/src/engine/node-life-clock.ts`: when the logical life
of an agent node began, and whether the log proves it.  A start that is not a
finite time is absent.
-/

namespace Relavium.Run

open Library

structure Life where
  startedAtMs : Option Int
  attempt : Nat
  nextRetry : Option Nat
  budgetContinuation : Bool
  valid : Bool

/-- Derived evidence of a start: a time, or nothing that can be trusted. -/
inductive NodeLifeClock
  | valid (startedAtMs : Option Int)
  | invalid

structure NodeLifeClockReducer where
  lives : OrderedMap String Life

namespace NodeLifeClockReducer

def fresh : NodeLifeClockReducer where
  lives := .empty

def setLife (reducer : NodeLifeClockReducer) (nodeId : String)
    (life : Life) : NodeLifeClockReducer :=
  { lives := reducer.lives.set nodeId life }

/-- An agent node starts its first or a later attempt. -/
def start (reducer : NodeLifeClockReducer) (nodeId : String) (attempt : Nat)
    (timestamp : Option Int) : NodeLifeClockReducer :=
  let opened : Life :=
    { startedAtMs := timestamp
      attempt
      nextRetry := none
      budgetContinuation := false
      valid := attempt == 1 && timestamp.isSome }
  match reducer.lives.get nodeId with
  | none => reducer.setLife nodeId opened
  | some prior =>
    if attempt = 1 then
      if prior.budgetContinuation then
        reducer.setLife nodeId
          { prior with
            valid := prior.valid && timestamp.isSome && prior.nextRetry.isNone
            budgetContinuation := false
            attempt := 1
            nextRetry := none }
      else reducer.setLife nodeId opened
    else
      reducer.setLife nodeId
        { prior with
          valid := prior.valid && timestamp.isSome && prior.nextRetry == some attempt &&
            prior.attempt + 1 == attempt && !prior.budgetContinuation
          attempt
          nextRetry := none }

def retry (reducer : NodeLifeClockReducer) (nodeId : String) (attemptNumber : Nat)
    (timestamp : Option Int) : NodeLifeClockReducer :=
  match reducer.lives.get nodeId with
  | none => reducer
  | some life =>
    reducer.setLife nodeId
      { life with
        valid := life.valid && life.attempt == attemptNumber &&
          life.nextRetry.isNone && !life.budgetContinuation &&
          timestamp.isSome
        nextRetry := some (attemptNumber + 1) }

def forget (reducer : NodeLifeClockReducer)
    (nodeId : String) : NodeLifeClockReducer :=
  { lives := reducer.lives.delete nodeId }

/-- The event itself. -/
def applyEvent (reducer : NodeLifeClockReducer)
    (event : RunEvent) : NodeLifeClockReducer :=
  match event.body with
  | .nodeStarted nodeId nodeType attemptNumber =>
    if nodeType = .agent then
      reducer.start nodeId (attemptNumber.getD 1) event.envelope.timestampMs
    else reducer
  | .nodeRetrying nodeId attemptNumber =>
    reducer.retry nodeId attemptNumber event.envelope.timestampMs
  | body =>
    match body.terminalNode with
    | none => reducer
    | some nodeId => reducer.forget nodeId

/-- The gate transition that the event yielded. -/
def applyTransition (reducer : NodeLifeClockReducer) :
    Option GateTransition → NodeLifeClockReducer
  | some (.budgetDecided gate .approved) =>
    match reducer.lives.get gate.nodeId with
    | some life =>
      reducer.setLife gate.nodeId
        { life with
          valid := life.valid && !life.budgetContinuation && life.nextRetry.isNone
          budgetContinuation := true }
    | none =>
      reducer.setLife gate.nodeId
        { startedAtMs := none
          attempt := 1
          nextRetry := none
          budgetContinuation := true
          valid := false }
  | some (.humanDecided gate _) => reducer.forget gate.nodeId
  | _ => reducer

def apply (reducer : NodeLifeClockReducer) (event : RunEvent)
    (transition : Option GateTransition) : NodeLifeClockReducer :=
  (reducer.applyEvent event).applyTransition transition

def snapshot (reducer : NodeLifeClockReducer) :
    List (String × NodeLifeClock) :=
  reducer.lives.entries.map fun entry =>
    (entry.1, if entry.2.valid then .valid entry.2.startedAtMs else .invalid)

def pendingBudgetContinuations (reducer : NodeLifeClockReducer) :
    List String :=
  (reducer.lives.entries.filter fun entry =>
    entry.2.budgetContinuation).map Prod.fst

end NodeLifeClockReducer

end Relavium.Run
