import Relavium.Library.Trace
import Relavium.Library.Transaction
import Relavium.Shared.Constants
import Relavium.Store.RunLease

/-!
# The terminal outbox of a run

Model of `WorkflowEngine.reconcile`, `#drainTerminalOutbox` and the handoff of a
refused terminal in `#writeDurable` of `packages/core/src/engine/engine.ts`, for
one run: its owner and any number of other processes.  Every call of the store,
the outbox and the lease port is one event, and all of them interleave.
-/

namespace Relavium.Run

open Library
open Store

/-- `RUN_LEASE_TTL_MS`. -/
def runLeaseTtlMs : Nat := 60000

/-! ## The durable log -/

/-- A terminal event; its content stands for the other fields. -/
structure TerminalEvent where
  type : TerminalType
  sequenceNumber : Nat
  content : String
  deriving DecidableEq

inductive LogEvent
  | progress (sequenceNumber : Nat)
  | terminal (event : TerminalEvent)

namespace LogEvent

def sequenceNumber : LogEvent → Nat
  | .progress sequenceNumber => sequenceNumber
  | .terminal event => event.sequenceNumber

/-- The terminal that an event is, if it is one. -/
def terminal? : LogEvent → Option TerminalEvent
  | .progress _ => none
  | .terminal event => some event

end LogEvent

/-- The terminals of a log. -/
def terminals (log : List LogEvent) : List TerminalEvent :=
  log.filterMap LogEvent.terminal?

/-- The largest number in a log. -/
def lastSequenceNumber (log : List LogEvent) : Option Nat :=
  (log.map LogEvent.sequenceNumber).max?

inductive AppendRefusal
  | conflict
  | fenced
  | alreadyTerminal

/-- `RunStore.persistEvent`: the guard of the caller's belief about the log, its
fence, and at most one terminal. -/
def appendDurable
    (log : List LogEvent) (lease : Option RunLeaseRow) (event : LogEvent) (expected : Option Nat)
    (fence : Fence) : Except AppendRefusal (List LogEvent) :=
  if expected.any fun expected =>
      lastSequenceNumber log ≠ some expected ∨ event.sequenceNumber ≤ expected then
    .error .conflict
  else
    match checkFence (some fence) lease with
    | .error _ => .error .fenced
    | .ok () =>
      if event.terminal?.isSome ∧ terminals log ≠ [] then .error .alreadyTerminal
      else .ok (log ++ [event])

/-- What the writer sees. -/
inductive WriteAnswer
  | persisted
  | fenced
  | failed

/-- A durable write under a fault. -/
def writeUnderFault
    (log : List LogEvent) (lease : Option RunLeaseRow) (event : LogEvent) (expected : Option Nat)
    (fence : Fence)
    (fault : WriteFault) : List LogEvent × WriteAnswer :=
  if fault = .beforeCommit then (log, .failed)
  else
    match appendDurable log lease event expected fence with
    | .error .fenced => (log, .fenced)
    | .error _ => (log, .failed)
    | .ok log => (log, if fault = .afterCommit then .failed else .persisted)

/-! ## The owner and the processes that reconcile -/

/-- Where the owner of the run is. -/
inductive OwnerPhase
  /-- `run:started` is durable, the lease is not taken yet. -/
  | starting
  | running (fence : Fence)
  /-- The store refused the terminal, or its acknowledgement was lost. -/
  | refused (fence : Fence) (terminal : TerminalEvent)
  /-- The outbox took the terminal. -/
  | handedOff (fence : Fence) (terminal : TerminalEvent)
  /-- The outbox failed as well. -/
  | unheld (fence : Fence)
  /-- The terminal was acknowledged. -/
  | ended (fence : Fence)
  /-- The owner was fenced out. -/
  | lost
  deriving DecidableEq

/-- What `listInterruptedRuns` says about the run. -/
structure InterruptedRun where
  lastSequenceNumber : Nat
  resumable : Bool

/-- Where the pass of a process over the run is. -/
inductive ReconcilePass
  | idle
  /-- The outbox was read, if it could be. -/
  | readOutbox (held : Option (Option TerminalEvent))
  /-- An entry whose run is not open is dropped. -/
  | forgetting
  | drainClaiming (terminal : TerminalEvent) (run : InterruptedRun)
  | drainClaimed (terminal : TerminalEvent) (run : InterruptedRun) (fence : Fence)
  /-- The held terminal was written, its entry is about to be dropped. -/
  | drainWritten (run : InterruptedRun) (fence : Fence)
  | drainReleasing (run : InterruptedRun) (fence : Fence) (stillHeld : Bool)
  /-- The drain is over and holds nothing of the run. -/
  | repairing (run : InterruptedRun)
  | repairClaiming (run : InterruptedRun)
  | repairClaimed (run : InterruptedRun) (fence : Fence)
  /-- The outbox was looked at again and holds nothing. -/
  | repairCleared (run : InterruptedRun) (fence : Fence)
  | repairReleasing (fence : Fence)

structure OutboxWorld where
  now : Nat
  /-- When the run started. -/
  startedAt : Nat
  lease : Option RunLeaseRow
  log : List LogEvent
  /-- The entry of the run. -/
  outbox : Option TerminalEvent
  owner : OwnerPhase
  /-- The engine of the owner still has the run in its table. -/
  inRunTable : Bool
  passes : String → ReconcilePass

inductive OwnerAction
  | acquire (fails : Bool)
  | heartbeat
  /-- A durable write that is no terminal. -/
  | append (sequenceNumber : Nat) (expected : Option Nat) (fault : WriteFault)
  | writeTerminal (terminal : TerminalEvent) (fault : WriteFault)
  | put (fails : Bool)
  | release (fails : Bool)
  /-- The engine drops the settled run from its table. -/
  | evict

inductive PassAction
  | readOutbox (fails : Bool)
  /-- The open runs are listed; a run parked at a gate is resumable. -/
  | list (resumable : Bool)
  | claim (fails : Bool)
  /-- The held terminal, or the repair with this content, is written. -/
  | persist (content : String) (fault : WriteFault)
  | forget (fails : Bool)
  /-- The repair decides whether the run is left alone. -/
  | decide
  /-- The repair looks at the outbox again. -/
  | look (fails : Bool)
  | release (fails : Bool)
  /-- The open runs cannot be listed, or only a drain was asked for. -/
  | finish

inductive OutboxEvent
  | tick (elapsed : Nat)
  | owner (action : OwnerAction)
  | process (ownerId : String) (action : PassAction)

namespace OutboxWorld

/-- The run has just started. -/
def start (now sequenceNumber : Nat) : OutboxWorld where
  now
  startedAt := now
  lease := none
  log := [.progress sequenceNumber]
  outbox := none
  owner := .starting
  inRunTable := true
  passes _ := .idle

/-- Move the pass of a process on. -/
def setPass (world : OutboxWorld) (ownerId : String)
    (pass : ReconcilePass) : OutboxWorld :=
  { world with passes := Function.update world.passes ownerId pass }

/-- Release a lease, unless the port fails. -/
def releaseLease (world : OutboxWorld) (fence : Fence)
    (fails : Bool) : OutboxWorld :=
  if fails then world
  else
    { world with
      lease := (Store.release fence.ownerId fence.generation world.lease).2 }

/-- What the owner of the run does. -/
def applyOwner (ownerId : String)
    (world : OutboxWorld) : OwnerAction → Option OutboxWorld
  | .acquire fails =>
    match world.owner with
    | .starting =>
      if fails then some world
      else
        match Store.acquire world.now ownerId runLeaseTtlMs world.lease with
        | (some lease, row) =>
          some { world with lease := row, owner := .running lease.fence }
        | (none, row) => some { world with lease := row }
    | _ => none
  | .heartbeat =>
    match world.owner with
    | .running fence | .refused fence _ | .handedOff fence _ | .unheld fence
    | .ended fence =>
      some { world with
        lease := (Store.heartbeat world.now fence.ownerId fence.generation
          runLeaseTtlMs world.lease).2 }
    | _ => none
  | .append sequenceNumber expected fault =>
    match world.owner with
    | .running fence =>
      match writeUnderFault world.log world.lease (.progress sequenceNumber)
          expected fence fault with
      | (log, .fenced) => some { world with log, owner := .lost }
      | (log, _) => some { world with log }
    | _ => none
  | .writeTerminal terminal fault =>
    match world.owner with
    | .running fence =>
      match writeUnderFault world.log world.lease (.terminal terminal) none fence
          fault with
      | (log, .fenced) => some { world with log, owner := .lost }
      | (log, .failed) => some { world with log, owner := .refused fence terminal }
      | (log, .persisted) => some { world with log, owner := .ended fence }
    | _ => none
  | .put fails =>
    match world.owner with
    | .refused fence terminal =>
      if fails then some { world with owner := .unheld fence }
      else
        some { world with
          outbox := some terminal
          owner := .handedOff fence terminal }
    | _ => none
  | .release fails =>
    match world.owner with
    | .handedOff fence _ | .unheld fence | .ended fence =>
      some (world.releaseLease fence fails)
    | _ => none
  | .evict =>
    match world.owner with
    | .handedOff _ _ | .unheld _ | .ended _ | .lost =>
      some { world with inRunTable := false }
    | _ => none

/-- `listInterruptedRuns`, for the run: it is open while its log has no
terminal. -/
def listInterrupted (world : OutboxWorld)
    (resumable : Bool) : Option InterruptedRun :=
  if terminals world.log = [] then
    (lastSequenceNumber world.log).map fun lastSequenceNumber =>
      { lastSequenceNumber, resumable }
  else none

/-- `#startedWithinLeaseTtl`. -/
def startedWithinLeaseTtl (world : OutboxWorld) : Bool :=
  decide (world.now < world.startedAt + runLeaseTtlMs)

/-- `#claimForReconcile`: a run of this engine is never claimed, and a claim that
is refused or fails leaves the run alone. -/
def claimForReconcile (ownerId : String) (world : OutboxWorld) (process : String)
    (fails : Bool) : OutboxWorld × Option Fence :=
  if (process = ownerId ∧ world.inRunTable = true) ∨ fails = true then (world, none)
  else
    match Store.acquire world.now process runLeaseTtlMs world.lease with
    | (lease, row) => ({ world with lease := row }, lease.map RunLease.fence)

/-- `#drainTerminalOutbox`, up to its first call for the run. -/
def startDrain (held : Option (Option TerminalEvent))
    (run : Option InterruptedRun) : ReconcilePass :=
  match held, run with
  | none, _ => .idle
  | some none, none => .idle
  | some none, some run => .repairing run
  | some (some _), none => .forgetting
  | some (some terminal), some run => .drainClaiming terminal run

/-- The failure that a repair settles the run with. -/
def repairEvent (run : InterruptedRun)
    (content : String) : TerminalEvent where
  type := .failed
  sequenceNumber := run.lastSequenceNumber + 1
  content

/-- What the pass of a process does next. -/
def applyPass (ownerId : String) (world : OutboxWorld) (process : String)
    (action : PassAction) : Option OutboxWorld :=
  match world.passes process, action with
  | .idle, .readOutbox fails =>
    some (world.setPass process (.readOutbox (if fails then none else some world.outbox)))
  | .readOutbox held, .list resumable =>
    some (world.setPass process (startDrain held (world.listInterrupted resumable)))
  | .forgetting, .forget fails =>
    some ({ world with outbox := if fails then world.outbox else none }.setPass
      process .idle)
  | .drainClaiming terminal run, .claim fails =>
    match world.claimForReconcile ownerId process fails with
    | (world, none) => some (world.setPass process .idle)
    | (world, some fence) =>
      some (world.setPass process (.drainClaimed terminal run fence))
  | .drainClaimed terminal run fence, .persist _ fault =>
    match writeUnderFault world.log world.lease (.terminal terminal)
        (some run.lastSequenceNumber) fence fault with
    | (log, .persisted) =>
      some ({ world with log }.setPass process (.drainWritten run fence))
    | (log, _) =>
      some ({ world with log }.setPass process (.drainReleasing run fence true))
  | .drainWritten run fence, .forget fails =>
    some ({ world with outbox := if fails then world.outbox else none }.setPass
      process (.drainReleasing run fence false))
  | .drainReleasing run fence stillHeld, .release fails =>
    some ((world.releaseLease fence fails).setPass process
      (if stillHeld then .idle else .repairing run))
  | .readOutbox _, .finish => some (world.setPass process .idle)
  | .repairing _, .finish => some (world.setPass process .idle)
  | .repairing run, .decide =>
    some (world.setPass process
      (if run.resumable ∨ world.startedWithinLeaseTtl then .idle
        else .repairClaiming run))
  | .repairClaiming run, .claim fails =>
    match world.claimForReconcile ownerId process fails with
    | (world, none) => some (world.setPass process .idle)
    | (world, some fence) =>
      some (world.setPass process (.repairClaimed run fence))
  | .repairClaimed run fence, .look fails =>
    some (world.setPass process
      (if fails ∨ world.outbox.isSome then .repairReleasing fence
        else .repairCleared run fence))
  | .repairCleared run fence, .persist content fault =>
    match writeUnderFault world.log world.lease
        (.terminal (repairEvent run content)) (some run.lastSequenceNumber) fence
        fault with
    | (log, _) =>
      some ({ world with log }.setPass process (.repairReleasing fence))
  | .repairReleasing fence, .release fails =>
    some ((world.releaseLease fence fails).setPass process .idle)
  | _, _ => none

/-- The world after an event, if the event can happen. -/
def apply (ownerId : String)
    (world : OutboxWorld) : OutboxEvent → Option OutboxWorld
  | .tick elapsed => some { world with now := world.now + elapsed }
  | .owner action => world.applyOwner ownerId action
  | .process process action => world.applyPass ownerId process action

/-- Until its terminal is handed off, the owner holds a live lease, or the run is
so young that it may not have taken it yet. -/
def heldUntilHandoff (ownerId : String)
    (world : OutboxWorld) : Bool :=
  match world.owner with
  | .starting | .running _ | .refused _ _ =>
    world.startedWithinLeaseTtl ||
      world.lease.any fun row =>
        decide (row.ownerId = ownerId ∧ row.expiresAt > world.now)
  | _ => true

/-- The world after an event that leaves the owner its lease as long as it must
have it. -/
def applyHeld (ownerId : String) (world : OutboxWorld)
    (event : OutboxEvent) : Option OutboxWorld :=
  (world.apply ownerId event).filter (heldUntilHandoff ownerId)

end OutboxWorld

/-- A step of the owner, of a process or of time, after which the owner holds its
lease as long as it must. -/
def OutboxStep (ownerId : String) (world : OutboxWorld) (event : OutboxEvent)
    (next : OutboxWorld) : Prop :=
  world.applyHeld ownerId event = some next

end Relavium.Run
