import Relavium.Run.TerminalOutbox

/-!
# No terminal but the one handed off

Until the owner has handed its terminal off nobody else can claim the run, and
from then on the outbox holds it until the log has a terminal.  Every process
that comes to write another one has seen the outbox empty under its claim, so
the log has a terminal by then and the store refuses.
-/

namespace Relavium.Run

open Library
open Store

/-! ## Durable writes -/

section Writes

theorem terminals_append (log : List LogEvent) (event : LogEvent) :
    terminals (log ++ [event]) = terminals log ++ event.terminal?.toList := by
  unfold terminals
  rw [List.filterMap_append]
  cases found : event.terminal? with
  | none | some terminal => simp [found]

/-- A write leaves the log alone or appends the event; a terminal is only appended
to a log without one. -/
theorem writeUnderFault_log
    (log : List LogEvent) (lease : Option RunLeaseRow) (event : LogEvent) (expected : Option Nat)
    (fence : Fence) (fault : WriteFault) :
    let answer := writeUnderFault log lease event expected fence fault
    (answer.1 = log ∧ answer.2 ≠ .persisted) ∨
      answer.1 = log ++ [event] ∧
        (event.terminal?.isSome → terminals log = []) := by
  unfold writeUnderFault appendDurable
  dsimp only
  split
  · exact Or.inl ⟨rfl, by simp⟩
  split
  · exact Or.inl ⟨rfl, by simp⟩
  · exact Or.inl ⟨rfl, by simp⟩
  · next appended =>
    split at appended
    · cases appended
    split at appended
    · cases appended
    split at appended
    · cases appended
    next fresh =>
      cases appended
      exact Or.inr ⟨rfl, fun terminal => by simpa [terminal] using fresh⟩

theorem writeUnderFault_extends
    (log : List LogEvent) (lease : Option RunLeaseRow) (event : LogEvent) (expected : Option Nat)
    (fence : Fence) (fault : WriteFault) :
    log <+: (writeUnderFault log lease event expected fence fault).1 := by
  obtain ⟨same, _⟩ | ⟨appended, _⟩ :=
    writeUnderFault_log log lease event expected fence fault
  · rw [same]
  · rw [appended]
    exact List.prefix_append _ _

theorem writeUnderFault_progress
    (log : List LogEvent) (lease : Option RunLeaseRow) (sequenceNumber : Nat)
    (expected : Option Nat) (fence : Fence) (fault : WriteFault) :
    terminals
        (writeUnderFault log lease (.progress sequenceNumber) expected fence fault).1 =
      terminals log := by
  obtain ⟨same, _⟩ | ⟨appended, _⟩ :=
    writeUnderFault_log log lease (.progress sequenceNumber) expected fence fault
  · rw [same]
  · rw [appended, terminals_append]
    exact List.append_nil _

theorem writeUnderFault_terminal
    {log : List LogEvent} (none : terminals log = []) (lease : Option RunLeaseRow)
    (terminal : TerminalEvent) (expected : Option Nat) (fence : Fence) (fault : WriteFault) :
    let written :=
      terminals (writeUnderFault log lease (.terminal terminal) expected fence fault).1
    written = [] ∨ written = [terminal] := by
  obtain ⟨same, _⟩ | ⟨appended, _⟩ :=
    writeUnderFault_log log lease (.terminal terminal) expected fence fault
  · exact Or.inl ((congrArg terminals same).trans none)
  · refine Or.inr ?_
    rw [appended, terminals_append, none]
    rfl

end Writes

/-! ## What a step leaves alone -/

section Frames

variable
  {ownerId : String}
  {world next : OutboxWorld}

theorem claimForReconcile_frame
    (ownerId : String) (world : OutboxWorld) (process : String) (fails : Bool) :
    ∃ lease fence,
      world.claimForReconcile ownerId process fails = ({ world with lease }, fence) := by
  unfold OutboxWorld.claimForReconcile
  split
  · exact ⟨world.lease, none, rfl⟩
  · exact ⟨_, _, rfl⟩

/-- A pass that claims the run stops or goes on; only the lease changes. -/
theorem claim_cases
    {process : String} {fails : Bool} {claimed : Fence → ReconcilePass}
    (taken : (match world.claimForReconcile ownerId process fails with
      | (world, none) => some (world.setPass process .idle)
      | (world, some fence) => some (world.setPass process (claimed fence))) = some next) :
    ∃ lease pass, next = { world with lease }.setPass process pass ∧
      (pass = .idle ∨ ∃ fence, pass = claimed fence) := by
  obtain ⟨lease, fence, claim⟩ := claimForReconcile_frame ownerId world process fails
  rw [claim] at taken
  cases fence with
  | none => exact ⟨lease, .idle, (Option.some.inj taken).symm, .inl rfl⟩
  | some fence => exact ⟨lease, claimed fence, (Option.some.inj taken).symm, .inr ⟨fence, rfl⟩⟩

theorem releaseLease_frame (world : OutboxWorld) (fence : Fence) (fails : Bool) :
    ∃ lease, world.releaseLease fence fails = { world with lease } := by
  unfold OutboxWorld.releaseLease
  split
  · exact ⟨world.lease, rfl⟩
  · exact ⟨_, rfl⟩

/-- A step that leaves the owner alone, extends the log, and drops the entry of the
outbox without writing or leaves it alone. -/
def PassFrame (world next : OutboxWorld) : Prop :=
  next.owner = world.owner ∧
    world.log <+: next.log ∧
    (next.outbox = world.outbox ∨ next.outbox = none ∧ next.log = world.log)

theorem passFrame_setLease
    (world : OutboxWorld) (lease : Option RunLeaseRow) (process : String) (pass : ReconcilePass) :
    PassFrame world ({ world with lease }.setPass process pass) :=
  ⟨rfl, List.prefix_rfl, Or.inl rfl⟩

theorem passFrame_setLog
    {log : List LogEvent} (extended : world.log <+: log) (process : String)
    (pass : ReconcilePass) :
    PassFrame world ({ world with log }.setPass process pass) :=
  ⟨rfl, extended, Or.inl rfl⟩

theorem passFrame_forget
    (world : OutboxWorld) (fails : Bool) (process : String) (pass : ReconcilePass) :
    PassFrame world
      ({ world with outbox := if fails then world.outbox else none }.setPass
        process pass) := by
  refine ⟨rfl, List.prefix_rfl, ?_⟩
  cases fails with
  | true => exact Or.inl rfl
  | false => exact Or.inr ⟨rfl, rfl⟩

/-- No pass moves the owner or shortens the log, and none drops the entry and writes
at once. -/
theorem applyPass_frame
    {process : String} {action : PassAction}
    (taken : world.applyPass ownerId process action = some next) :
    PassFrame world next := by
  unfold OutboxWorld.applyPass at taken
  split at taken
  · cases taken
    exact passFrame_setLease world world.lease process _
  · cases taken
    exact passFrame_setLease world world.lease process _
  · next fails _ =>
    cases taken
    exact passFrame_forget world fails process _
  · obtain ⟨lease, pass, rfl, -⟩ := claim_cases taken
    exact passFrame_setLease world lease process pass
  · next held run fence content fault _ =>
    have extended := writeUnderFault_extends world.log world.lease (.terminal held)
      (some run.lastSequenceNumber) fence fault
    split at taken
    · next log answer =>
      cases taken
      rw [answer] at extended
      exact passFrame_setLog extended process _
    · next log _ _ answer =>
      cases taken
      rw [answer] at extended
      exact passFrame_setLog extended process _
  · next run fence fails _ =>
    cases taken
    exact passFrame_forget world fails process _
  · next run fence stillHeld fails _ =>
    obtain ⟨lease, released⟩ := releaseLease_frame world fence fails
    rw [released] at taken
    cases taken
    exact passFrame_setLease world lease process _
  · cases taken
    exact passFrame_setLease world world.lease process _
  · cases taken
    exact passFrame_setLease world world.lease process _
  · cases taken
    exact passFrame_setLease world world.lease process _
  · obtain ⟨lease, pass, rfl, -⟩ := claim_cases taken
    exact passFrame_setLease world lease process pass
  · cases taken
    exact passFrame_setLease world world.lease process _
  · next run fence content fault _ =>
    cases taken
    exact passFrame_setLog (writeUnderFault_extends _ _ _ _ _ _) process _
  · next fence fails _ =>
    obtain ⟨lease, released⟩ := releaseLease_frame world fence fails
    rw [released] at taken
    cases taken
    exact passFrame_setLease world lease process _
  · cases taken

/-- What an action of the owner does. -/
inductive OwnerEffect (world : OutboxWorld) : OutboxWorld → Prop
  | acquired (lease : Option RunLeaseRow) (fence : Fence) (starts : world.owner = .starting) :
      OwnerEffect world { world with lease, owner := .running fence }
  /-- The lease is refused, renewed or released. -/
  | leased (lease : Option RunLeaseRow) : OwnerEffect world { world with lease }
  | appended (fence : Fence) (log : List LogEvent) (runs : world.owner = .running fence)
      (extended : world.log <+: log) (same : terminals log = terminals world.log) :
      OwnerEffect world { world with log }
  /-- The terminal is refused, or its acknowledgement is lost. -/
  | refused (fence : Fence) (terminal : TerminalEvent) (log : List LogEvent)
      (runs : world.owner = .running fence) (extended : world.log <+: log)
      (only : terminals world.log = [] → terminals log = [] ∨ terminals log = [terminal]) :
      OwnerEffect world { world with log, owner := .refused fence terminal }
  /-- A write ends the owner, or finds it fenced out. -/
  | left (fence : Fence) (log : List LogEvent) (owner : OwnerPhase)
      (runs : world.owner = .running fence) (extended : world.log <+: log)
      (leaves : owner = .ended fence ∨ owner = .lost) :
      OwnerEffect world { world with log, owner }
  | unheld (fence : Fence) (terminal : TerminalEvent)
      (keeps : world.owner = .refused fence terminal) :
      OwnerEffect world { world with owner := .unheld fence }
  | handedOff (fence : Fence) (terminal : TerminalEvent)
      (keeps : world.owner = .refused fence terminal) :
      OwnerEffect world
        { world with outbox := some terminal, owner := .handedOff fence terminal }
  | evicted (unguarded : (∃ fence terminal, world.owner = .handedOff fence terminal) ∨
        (∃ fence, world.owner = .unheld fence) ∨ (∃ fence, world.owner = .ended fence) ∨
        world.owner = .lost) :
      OwnerEffect world { world with inRunTable := false }

theorem ownerEffect_of_applyOwner
    {action : OwnerAction} (taken : world.applyOwner ownerId action = some next) :
    OwnerEffect world next := by
  cases action with
  | acquire fails =>
    unfold OutboxWorld.applyOwner at taken
    dsimp only at taken
    split at taken
    · next starts =>
      split at taken
      · cases taken
        exact .leased world.lease
      split at taken
      · cases taken
        exact .acquired _ _ starts
      · cases taken
        exact .leased _
    · cases taken
  | heartbeat =>
    unfold OutboxWorld.applyOwner at taken
    dsimp only at taken
    split at taken
    all_goals first
      | (cases taken
         exact .leased _)
      | cases taken
  | append sequenceNumber expected fault =>
    unfold OutboxWorld.applyOwner at taken
    dsimp only at taken
    split at taken
    · next fence runs =>
      have extended := writeUnderFault_extends world.log world.lease
        (.progress sequenceNumber) expected fence fault
      have same := writeUnderFault_progress world.log world.lease sequenceNumber
        expected fence fault
      split at taken
      · next log answer =>
        rw [answer] at extended
        cases taken
        exact .left fence log .lost runs extended (.inr rfl)
      · next log _ _ answer =>
        rw [answer] at extended same
        cases taken
        exact .appended fence log runs extended same
    · cases taken
  | writeTerminal terminal fault =>
    unfold OutboxWorld.applyOwner at taken
    dsimp only at taken
    split at taken
    · next fence runs =>
      have extended := writeUnderFault_extends world.log world.lease
        (.terminal terminal) none fence fault
      have only := fun empty : terminals world.log = [] =>
        writeUnderFault_terminal empty world.lease terminal none fence fault
      split at taken
      · next log answer =>
        rw [answer] at extended
        cases taken
        exact .left fence log .lost runs extended (.inr rfl)
      · next log answer =>
        rw [answer] at extended only
        cases taken
        exact .refused fence terminal log runs extended only
      · next log answer =>
        rw [answer] at extended
        cases taken
        exact .left fence log (.ended fence) runs extended (.inl rfl)
    · cases taken
  | put fails =>
    unfold OutboxWorld.applyOwner at taken
    dsimp only at taken
    split at taken
    · next fence terminal keeps =>
      split at taken
      · cases taken
        exact .unheld fence terminal keeps
      · cases taken
        exact .handedOff fence terminal keeps
    · cases taken
  | release fails =>
    have released : ∀ fence, OwnerEffect world (world.releaseLease fence fails) := by
      intro fence
      obtain ⟨lease, released⟩ := releaseLease_frame world fence fails
      rw [released]
      exact .leased lease
    unfold OutboxWorld.applyOwner at taken
    dsimp only at taken
    split at taken
    all_goals first
      | (cases taken
         exact released _)
      | cases taken
  | evict =>
    unfold OutboxWorld.applyOwner at taken
    dsimp only at taken
    split at taken
    all_goals first
      | (next owner =>
           cases taken
           exact .evicted (by simp [owner]))
      | cases taken

end Frames

/-! ## The invariant -/

/-- What a pass may be doing before the terminal is handed off: it has claimed
nothing and has seen nothing in the outbox. -/
def PassBefore
    (world : OutboxWorld) : ReconcilePass → Prop
  | .idle => True
  | .readOutbox held => ∀ terminal, held ≠ some (some terminal)
  | .repairing _ => True
  | .repairClaiming _ => world.startedWithinLeaseTtl = false
  | _ => False

/-- What a pass may be doing after the terminal is handed off: it carries no other
terminal, and where it would drop the entry or write another terminal, the log has
one. -/
def PassAfter (terminal : TerminalEvent)
    (world : OutboxWorld) : ReconcilePass → Prop
  | .readOutbox held => ∀ other, held = some (some other) → other = terminal
  | .forgetting => terminals world.log ≠ []
  | .drainClaiming other _ => other = terminal
  | .drainClaimed other _ _ => other = terminal
  | .drainWritten _ _ => terminals world.log ≠ []
  | .repairCleared _ _ => terminals world.log ≠ []
  | _ => True

/-- What holds of the run before its terminal is handed off. -/
structure Guarded (world : OutboxWorld) : Prop where
  empty : world.outbox = none
  known : world.inRunTable = true
  passes : ∀ process, PassBefore world (world.passes process)

/-- What holds of the run after its terminal is handed off. -/
structure HandedOff (terminal : TerminalEvent)
    (world : OutboxWorld) : Prop where
  only : terminals world.log = [] ∨ terminals world.log = [terminal]
  held : world.outbox = some terminal ∨
    world.outbox = none ∧ terminals world.log ≠ []
  passes : ∀ process, PassAfter terminal world (world.passes process)

/-- What holds of the run in a phase of the owner. -/
def PhaseInvariant (world : OutboxWorld) : OwnerPhase → Prop
  | .starting | .running _ => Guarded world ∧ terminals world.log = []
  | .refused _ terminal =>
    Guarded world ∧
      (terminals world.log = [] ∨ terminals world.log = [terminal])
  | .handedOff _ terminal => HandedOff terminal world
  | .unheld _ | .ended _ | .lost => world.outbox = none

structure OutboxInvariant (world : OutboxWorld) : Prop where
  nonempty : world.log ≠ []
  phase : PhaseInvariant world world.owner

theorem outboxInvariant_start (now sequenceNumber : Nat) :
    OutboxInvariant (.start now sequenceNumber) :=
  ⟨List.cons_ne_nil _ _, ⟨rfl, rfl, fun _ => trivial⟩, rfl⟩

/-! ## Passes before the handoff -/

section Before

variable
  {ownerId : String}
  {world next : OutboxWorld}

theorem Guarded.setPass
    (guarded : Guarded world) (process : String) {pass : ReconcilePass}
    (before : PassBefore world pass) :
    Guarded (world.setPass process pass) := by
  refine ⟨guarded.empty, guarded.known, fun other => ?_⟩
  have same : ∀ pass, PassBefore world pass →
      PassBefore (world.setPass process ‹_›) pass := fun pass holds => by
    cases pass <;> exact holds
  unfold OutboxWorld.setPass
  dsimp only
  by_cases updated : other = process
  · subst updated
    rw [Function.update_self]
    exact same _ before
  · rw [Function.update_of_ne updated]
    exact same _ (guarded.passes other)

/-- While the owner holds a live lease, or the engine has the run in its table, no
process claims the run. -/
theorem claimForReconcile_refused (known : world.inRunTable = true)
    (live : world.lease.any (fun row =>
      decide (row.ownerId = ownerId ∧ row.expiresAt > world.now)) = true)
    (process : String)
    (fails : Bool) :
    world.claimForReconcile ownerId process fails = (world, none) := by
  rw [Option.any_eq_true] at live
  obtain ⟨row, found, holds⟩ := live
  obtain ⟨owned, fresh⟩ := of_decide_eq_true holds
  unfold OutboxWorld.claimForReconcile
  split
  · rfl
  · next claims =>
    have different : row.ownerId ≠ process := by
      rintro same
      exact claims (Or.inl ⟨same.symm.trans owned, known⟩)
    have refused : Store.acquire world.now process runLeaseTtlMs (some row) =
        (none, some row) := if_pos ⟨different, fresh⟩
    rw [found, refused, ← found]
    rfl

/-- Before the handoff no pass gets to write or to drop anything. -/
theorem Guarded.applyPass (guarded : Guarded world)
    (live : (world.startedWithinLeaseTtl ||
      world.lease.any fun row =>
        decide (row.ownerId = ownerId ∧ row.expiresAt > world.now)) = true)
    {process : String}
    {action : PassAction}
    (taken : world.applyPass ownerId process action = some next) :
    Guarded next ∧ next.log = world.log := by
  have before := guarded.passes process
  unfold OutboxWorld.applyPass at taken
  split at taken
  · next fails atPass =>
    cases taken
    refine ⟨guarded.setPass process fun terminal held => ?_, rfl⟩
    rw [guarded.empty] at held
    split at held
    · cases held
    · cases held
  · next held resumable atPass =>
    cases taken
    rw [atPass] at before
    refine ⟨guarded.setPass process ?_, rfl⟩
    cases held with
    | none => exact trivial
    | some held =>
      cases held with
      | none =>
        unfold OutboxWorld.startDrain
        cases world.listInterrupted resumable with
        | none | some run => exact trivial
      | some terminal => exact absurd rfl (before terminal)
  · next atPass => exact (atPass ▸ before : PassBefore world .forgetting).elim
  · next terminal run fails atPass =>
    exact (atPass ▸ before : PassBefore world (.drainClaiming terminal run)).elim
  · next terminal run fence content fault atPass =>
    exact (atPass ▸ before :
      PassBefore world (.drainClaimed terminal run fence)).elim
  · next run fence fails atPass =>
    exact (atPass ▸ before : PassBefore world (.drainWritten run fence)).elim
  · next run fence stillHeld fails atPass =>
    exact (atPass ▸ before :
      PassBefore world (.drainReleasing run fence stillHeld)).elim
  · cases taken
    exact ⟨guarded.setPass process trivial, rfl⟩
  · cases taken
    exact ⟨guarded.setPass process trivial, rfl⟩
  · next run atPass =>
    cases taken
    refine ⟨guarded.setPass process ?_, rfl⟩
    split
    · exact trivial
    · next open' =>
      exact Bool.eq_false_iff.mpr fun young => open' (Or.inr young)
  · next run fails atPass =>
    rw [atPass] at before
    have old : world.startedWithinLeaseTtl = false := before
    rw [old, Bool.false_or] at live
    rw [claimForReconcile_refused guarded.known live] at taken
    cases taken
    exact ⟨guarded.setPass process trivial, rfl⟩
  · next run fence fails atPass =>
    exact (atPass ▸ before : PassBefore world (.repairClaimed run fence)).elim
  · next run fence content fault atPass =>
    exact (atPass ▸ before : PassBefore world (.repairCleared run fence)).elim
  · next fence fails atPass =>
    exact (atPass ▸ before : PassBefore world (.repairReleasing fence)).elim
  · cases taken

end Before

/-! ## Passes after the handoff -/

section After

variable
  {ownerId : String}
  {terminal : TerminalEvent}
  {world next : OutboxWorld}

/-- What a pass may be doing stays allowed while the log only grows. -/
theorem PassAfter.of_log
    {grown : OutboxWorld} (kept : terminals world.log ≠ [] → terminals grown.log ≠ [])
    {pass : ReconcilePass} (after : PassAfter terminal world pass) :
    PassAfter terminal grown pass := by
  cases pass with
  | forgetting | drainWritten run fence | repairCleared run fence => exact kept after
  | _ => exact after

theorem HandedOff.setPass
    (handedOff : HandedOff terminal world) (process : String) {pass : ReconcilePass}
    (after : PassAfter terminal world pass) :
    HandedOff terminal (world.setPass process pass) := by
  refine ⟨handedOff.only, handedOff.held, fun other => ?_⟩
  unfold OutboxWorld.setPass
  dsimp only
  by_cases updated : other = process
  · subst updated
    rw [Function.update_self]
    exact after.of_log id
  · rw [Function.update_of_ne updated]
    exact (handedOff.passes other).of_log id

/-- Neither leases nor the owner matter any more. -/
theorem HandedOff.of_same
    (handedOff : HandedOff terminal world) (log : next.log = world.log)
    (outbox : next.outbox = world.outbox) (passes : next.passes = world.passes) :
    HandedOff terminal next := by
  refine ⟨log ▸ handedOff.only, by rw [outbox, log]; exact handedOff.held, fun process => ?_⟩
  rw [passes]
  exact (handedOff.passes process).of_log (by rw [log]; exact id)

/-- A write of the handed-off terminal, or of another one to a log with a terminal,
keeps the protocol. -/
theorem HandedOff.write
    (handedOff : HandedOff terminal world) {event : TerminalEvent}
    (sameOrClosed : event = terminal ∨ terminals world.log ≠ []) (lease : Option RunLeaseRow)
    (expected : Option Nat) (fence : Fence) (fault : WriteFault) :
    let answer :=
      writeUnderFault world.log lease (.terminal event) expected fence fault
    HandedOff terminal { world with log := answer.1 } ∧
      (answer.2 = .persisted → terminals answer.1 ≠ []) := by
  dsimp only
  obtain ⟨same, unpersisted⟩ | ⟨appended, fresh⟩ :=
    writeUnderFault_log world.log lease (.terminal event) expected fence fault
  · rw [same]
    exact ⟨handedOff, fun persisted => absurd persisted unpersisted⟩
  · have none : terminals world.log = [] := fresh rfl
    obtain rfl : event = terminal :=
      sameOrClosed.resolve_right fun closed => closed none
    have only : terminals (world.log ++ [.terminal event]) = [event] := by
      rw [terminals_append, none]
      rfl
    rw [appended]
    refine ⟨⟨Or.inr only, ?_, fun process => ?_⟩, fun _ => by simp [only]⟩
    · exact handedOff.held.imp_right fun held => absurd none held.2
    · exact (handedOff.passes process).of_log fun closed => absurd none closed

/-- Dropping the entry when the log has a terminal keeps the protocol. -/
theorem HandedOff.forget
    (handedOff : HandedOff terminal world) (closed : terminals world.log ≠ []) (fails : Bool) :
    HandedOff terminal
      { world with outbox := if fails then world.outbox else none } := by
  refine ⟨handedOff.only, ?_, fun process => (handedOff.passes process).of_log id⟩
  cases fails with
  | true => exact handedOff.held
  | false => exact Or.inr ⟨rfl, closed⟩

/-- What a pass reads of the outbox is the handed-off terminal. -/
theorem HandedOff.afterReading (handedOff : HandedOff terminal world) (fails : Bool) :
    PassAfter terminal world
      (.readOutbox (if fails then none else some world.outbox)) := by
  intro other held
  split at held
  · cases held
  · obtain same | ⟨empty, _⟩ := handedOff.held
    · rw [same] at held
      exact (Option.some.inj (Option.some.inj held)).symm
    · rw [empty] at held
      cases held

/-- A drain only forgets the entry of a run whose log has a terminal. -/
theorem PassAfter.startDrain
    {held : Option (Option TerminalEvent)} (after : PassAfter terminal world (.readOutbox held))
    (nonempty : world.log ≠ []) (resumable : Bool) :
    PassAfter terminal world
      (OutboxWorld.startDrain held (world.listInterrupted resumable)) := by
  have closed : world.listInterrupted resumable = none → terminals world.log ≠ [] := by
    intro unlisted none
    unfold OutboxWorld.listInterrupted at unlisted
    rw [if_pos none, Option.map_eq_none_iff] at unlisted
    have empty : world.log.map LogEvent.sequenceNumber = [] :=
      List.max?_eq_none_iff.mp unlisted
    exact nonempty (List.map_eq_nil_iff.mp empty)
  unfold OutboxWorld.startDrain
  cases held with
  | none => exact trivial
  | some held =>
    cases listed : world.listInterrupted resumable with
    | none =>
      cases held with
      | none => exact trivial
      | some other => exact closed listed
    | some run =>
      cases held with
      | none => exact trivial
      | some other => exact after other rfl

/-- A repair that has found the outbox empty writes to a log with a terminal. -/
theorem HandedOff.afterLooking
    (handedOff : HandedOff terminal world) (run : InterruptedRun) (fence : Fence) (fails : Bool) :
    PassAfter terminal world
      (if fails ∨ world.outbox.isSome then .repairReleasing fence
        else .repairCleared run fence) := by
  split
  · exact trivial
  · next empty =>
    obtain same | ⟨_, closed⟩ := handedOff.held
    · exact absurd (Or.inr (by rw [same]; rfl)) empty
    · exact closed

/-- Claims and releases of the run are of no matter. -/
theorem HandedOff.setLease
    (handedOff : HandedOff terminal world) (lease : Option RunLeaseRow) (process : String)
    {pass : ReconcilePass} (after : PassAfter terminal world pass) :
    HandedOff terminal ({ world with lease }.setPass process pass) :=
  (handedOff.of_same rfl rfl rfl : HandedOff terminal { world with lease }).setPass process
    (after.of_log id)

/-- After the handoff no pass writes another terminal or drops the entry too
early. -/
theorem HandedOff.applyPass
    (handedOff : HandedOff terminal world) (nonempty : world.log ≠ []) {process : String}
    {action : PassAction} (taken : world.applyPass ownerId process action = some next) :
    HandedOff terminal next := by
  have after := handedOff.passes process
  unfold OutboxWorld.applyPass at taken
  split at taken
  · cases taken
    exact handedOff.setPass process (handedOff.afterReading _)
  · next atPass =>
    cases taken
    rw [atPass] at after
    exact handedOff.setPass process (after.startDrain nonempty _)
  · next fails atPass =>
    cases taken
    rw [atPass] at after
    exact (handedOff.forget after fails).setPass process trivial
  · next atPass =>
    rw [atPass] at after
    obtain ⟨lease, pass, rfl, rfl | ⟨fence, rfl⟩⟩ := claim_cases taken
    · exact handedOff.setLease lease process trivial
    · exact handedOff.setLease lease process after
  · next held run fence content fault atPass =>
    rw [atPass] at after
    obtain ⟨written, closed⟩ := handedOff.write (Or.inl after) world.lease
      (some run.lastSequenceNumber) fence fault
    split at taken
    · next log answer =>
      cases taken
      rw [answer] at written closed
      exact written.setPass process (closed rfl)
    · next log _ _ answer =>
      cases taken
      rw [answer] at written
      exact written.setPass process trivial
  · next run fence fails atPass =>
    cases taken
    rw [atPass] at after
    exact (handedOff.forget after fails).setPass process trivial
  · next run fence stillHeld fails _ =>
    obtain ⟨lease, released⟩ := releaseLease_frame world fence fails
    rw [released] at taken
    cases taken
    exact handedOff.setLease lease process (by split <;> trivial)
  · cases taken
    exact handedOff.setPass process trivial
  · cases taken
    exact handedOff.setPass process trivial
  · cases taken
    exact handedOff.setPass process (by split <;> trivial)
  · obtain ⟨lease, pass, rfl, rfl | ⟨fence, rfl⟩⟩ := claim_cases taken
    · exact handedOff.setLease lease process trivial
    · exact handedOff.setLease lease process trivial
  · cases taken
    exact handedOff.setPass process (handedOff.afterLooking _ _ _)
  · next run fence content fault atPass =>
    rw [atPass] at after
    have closed : OutboxWorld.repairEvent run content = terminal ∨
        terminals world.log ≠ [] := Or.inr after
    obtain ⟨written, _⟩ := handedOff.write closed world.lease
      (some run.lastSequenceNumber) fence fault
    cases taken
    exact written.setPass process trivial
  · next fence fails _ =>
    obtain ⟨lease, released⟩ := releaseLease_frame world fence fails
    rw [released] at taken
    cases taken
    exact handedOff.setLease lease process trivial
  · cases taken

end After

/-! ## Steps and runs -/

section Steps

variable
  {ownerId : String}
  {world next : OutboxWorld}

/-- Before the handoff leases, the log and the owner do not matter to the passes. -/
theorem Guarded.of_same
    (guarded : Guarded world) (outbox : next.outbox = world.outbox)
    (known : next.inRunTable = world.inRunTable) (passes : next.passes = world.passes)
    (older : world.startedWithinLeaseTtl = false → next.startedWithinLeaseTtl = false) :
    Guarded next := by
  refine ⟨outbox.trans guarded.empty, known.trans guarded.known, fun process => ?_⟩
  have before := guarded.passes process
  rw [passes]
  cases pass : world.passes process with
  | repairClaiming run => exact older (pass ▸ before : PassBefore world (.repairClaiming run))
  | _ => rw [pass] at before; exact before

/-- Neither leases nor time matter to what holds in a phase. -/
theorem PhaseInvariant.of_same
    {owner : OwnerPhase} (phase : PhaseInvariant world owner) (log : next.log = world.log)
    (outbox : next.outbox = world.outbox) (known : next.inRunTable = world.inRunTable)
    (passes : next.passes = world.passes)
    (older : world.startedWithinLeaseTtl = false → next.startedWithinLeaseTtl = false) :
    PhaseInvariant next owner := by
  cases owner with
  | starting | running fence | refused fence terminal =>
    exact ⟨phase.1.of_same outbox known passes older, log ▸ phase.2⟩
  | handedOff fence terminal => exact HandedOff.of_same phase log outbox passes
  | unheld fence | ended fence | lost => exact outbox.trans phase

/-- A pass that has nothing to write or drop yet keeps to what is allowed after the
handoff. -/
theorem PassBefore.passAfter
    {terminal : TerminalEvent} {pass : ReconcilePass} (before : PassBefore world pass)
    (later : OutboxWorld) :
    PassAfter terminal later pass := by
  cases pass with
  | readOutbox held => exact fun other found => absurd found (before other)
  | forgetting | drainClaiming other run | drainClaimed other run fence
  | drainWritten run fence | repairCleared run fence => exact before.elim
  | _ => exact trivial

theorem OutboxInvariant.applyOwner
    (invariant : OutboxInvariant world) {action : OwnerAction}
    (taken : world.applyOwner ownerId action = some next) :
    OutboxInvariant next := by
  obtain ⟨nonempty, phase⟩ := invariant
  cases ownerEffect_of_applyOwner taken with
  | acquired lease fence starts =>
    rw [starts] at phase
    exact ⟨nonempty, phase.1.of_same rfl rfl rfl id, phase.2⟩
  | leased lease => exact ⟨nonempty, phase.of_same rfl rfl rfl rfl id⟩
  | appended fence log runs extended same =>
    refine ⟨extended.ne_nil nonempty, ?_⟩
    dsimp only
    rw [runs] at phase ⊢
    exact ⟨phase.1.of_same rfl rfl rfl id, same.trans phase.2⟩
  | refused fence terminal log runs extended only =>
    rw [runs] at phase
    exact ⟨extended.ne_nil nonempty, phase.1.of_same rfl rfl rfl id, only phase.2⟩
  | left fence log owner runs extended leaves =>
    rw [runs] at phase
    refine ⟨extended.ne_nil nonempty, ?_⟩
    obtain rfl | rfl := leaves
    · exact phase.1.empty
    · exact phase.1.empty
  | unheld fence terminal keeps =>
    rw [keeps] at phase
    exact ⟨nonempty, phase.1.empty⟩
  | handedOff fence terminal keeps =>
    rw [keeps] at phase
    exact ⟨nonempty, phase.2, Or.inl rfl, fun process =>
      (phase.1.passes process).passAfter _⟩
  | evicted unguarded =>
    refine ⟨nonempty, ?_⟩
    dsimp only
    obtain ⟨fence, terminal, owner⟩ | ⟨fence, owner⟩ | ⟨fence, owner⟩ | owner := unguarded
    · rw [owner] at phase ⊢
      exact HandedOff.of_same phase rfl rfl rfl
    all_goals
      rw [owner] at phase ⊢
      exact phase

/-- Time only makes runs older. -/
theorem OutboxInvariant.tick (invariant : OutboxInvariant world) (elapsed : Nat) :
    OutboxInvariant { world with now := world.now + elapsed } := by
  refine ⟨invariant.nonempty, invariant.phase.of_same rfl rfl rfl rfl fun old => ?_⟩
  have past : ¬world.now < world.startedAt + runLeaseTtlMs := of_decide_eq_false old
  have older : ¬world.now + elapsed < world.startedAt + runLeaseTtlMs := by omega
  exact decide_eq_false older

/-- What a process does keeps the invariant, while the owner holds its lease as long
as it must. -/
theorem OutboxInvariant.applyPass
    (invariant : OutboxInvariant world) (held : world.heldUntilHandoff ownerId = true)
    {process : String} {action : PassAction}
    (taken : world.applyPass ownerId process action = some next) :
    OutboxInvariant next := by
  obtain ⟨nonempty, phase⟩ := invariant
  obtain ⟨sameOwner, extended, outbox⟩ := applyPass_frame taken
  refine ⟨extended.ne_nil nonempty, ?_⟩
  rw [sameOwner]
  have emptied : world.outbox = none → next.outbox = none := fun empty =>
    outbox.elim (·.trans empty) And.left
  unfold OutboxWorld.heldUntilHandoff at held
  cases owner : world.owner with
  | starting | running fence =>
    rw [owner] at phase held
    obtain ⟨guarded, sameLog⟩ := phase.1.applyPass held taken
    exact ⟨guarded, (congrArg terminals sameLog).trans phase.2⟩
  | refused fence terminal =>
    rw [owner] at phase held
    obtain ⟨guarded, sameLog⟩ := phase.1.applyPass held taken
    exact ⟨guarded, sameLog ▸ phase.2⟩
  | handedOff fence terminal =>
    rw [owner] at phase
    exact HandedOff.applyPass phase nonempty taken
  | unheld fence | ended fence | lost =>
    rw [owner] at phase
    exact emptied phase

theorem apply_of_outboxStep {event : OutboxEvent} (step : OutboxStep ownerId world event next) :
    world.apply ownerId event = some next ∧ next.heldUntilHandoff ownerId = true := by
  unfold OutboxStep OutboxWorld.applyHeld at step
  exact Option.filter_eq_some_iff.mp step

theorem outboxInvariant_step
    {event : OutboxEvent} (invariant : OutboxInvariant world)
    (held : world.heldUntilHandoff ownerId = true) (step : OutboxStep ownerId world event next) :
    OutboxInvariant next ∧ next.heldUntilHandoff ownerId = true := by
  obtain ⟨taken, heldNext⟩ := apply_of_outboxStep step
  refine ⟨?_, heldNext⟩
  cases event with
  | tick elapsed =>
    cases taken
    exact invariant.tick elapsed
  | owner action => exact invariant.applyOwner taken
  | process process action => exact invariant.applyPass held taken

theorem applyOwner_frame
    {action : OwnerAction} (taken : world.applyOwner ownerId action = some next) :
    world.log <+: next.log ∧ (next.outbox = none → world.outbox = none) := by
  cases ownerEffect_of_applyOwner taken with
  | appended fence log runs extended same | refused fence terminal log runs extended only
  | left fence log owner runs extended leaves => exact ⟨extended, id⟩
  | handedOff fence terminal keeps =>
    exact ⟨List.prefix_rfl, nofun⟩
  | _ => exact ⟨List.prefix_rfl, id⟩

theorem outboxStep_extends {event : OutboxEvent} (step : OutboxStep ownerId world event next) :
    world.log <+: next.log := by
  obtain ⟨taken, _⟩ := apply_of_outboxStep step
  cases event with
  | tick elapsed =>
    cases taken
    exact List.prefix_rfl
  | owner action => exact (applyOwner_frame taken).1
  | process process action => exact (applyPass_frame taken).2.1

theorem OutboxInvariant.handedOff_of_entry
    (invariant : OutboxInvariant world) (entry : world.outbox ≠ none) :
    ∃ fence terminal,
      world.owner = .handedOff fence terminal ∧ HandedOff terminal world := by
  have phase := invariant.phase
  cases owner : world.owner with
  | starting | running fence | refused fence terminal =>
    exact absurd (owner ▸ phase).1.empty entry
  | handedOff fence terminal =>
    rw [owner] at phase
    exact ⟨fence, terminal, rfl, phase⟩
  | unheld fence | ended fence | lost =>
    rw [owner] at phase
    exact absurd phase entry

theorem outboxInvariant_run
    {now sequenceNumber : Nat} {events : List OutboxEvent}
    (run : Run (OutboxStep ownerId) (.start now sequenceNumber) events world) :
    OutboxInvariant world ∧ world.heldUntilHandoff ownerId = true := by
  refine run.invariant (fun _ world =>
    OutboxInvariant world ∧ world.heldUntilHandoff ownerId = true) ?_ ?_
  · refine ⟨outboxInvariant_start now sequenceNumber, ?_⟩
    have young : (OutboxWorld.start now sequenceNumber).startedWithinLeaseTtl = true :=
      decide_eq_true (Nat.lt_add_of_pos_right (by decide : 0 < runLeaseTtlMs))
    exact Bool.or_eq_true_iff.mpr (Or.inl young)
  · intro _ _ _ _ _ kept step
    exact outboxInvariant_step kept.1 kept.2 step

theorem log_extends
    {start : OutboxWorld} {events : List OutboxEvent}
    (run : Run (OutboxStep ownerId) start events world) :
    start.log <+: world.log := by
  refine run.invariant (fun _ world => start.log <+: world.log)
    List.prefix_rfl ?_
  intro _ _ _ _ _ extended step
  exact extended.trans (outboxStep_extends step)

theorem OutboxInvariant.dropped_after_terminal
    (invariant : OutboxInvariant world) (held : world.heldUntilHandoff ownerId = true)
    {event : OutboxEvent} (step : OutboxStep ownerId world event next)
    (entry : world.outbox ≠ none) (dropped : next.outbox = none) :
    terminals world.log ≠ [] := by
  have phase := (outboxInvariant_step invariant held step).1.phase
  obtain ⟨taken, _⟩ := apply_of_outboxStep step
  cases event with
  | tick elapsed =>
    cases taken
    exact absurd dropped entry
  | owner action => exact absurd ((applyOwner_frame taken).2 dropped) entry
  | process process action =>
    obtain ⟨sameOwner, _, outbox⟩ := applyPass_frame taken
    obtain ⟨fence, terminal, owner, _⟩ := invariant.handedOff_of_entry entry
    rw [sameOwner, owner] at phase
    obtain kept | ⟨_, closed⟩ := HandedOff.held phase
    · exact absurd (kept.symm.trans dropped) (by simp)
    obtain same | ⟨_, sameLog⟩ := outbox
    · exact absurd (same.symm.trans dropped) entry
    · exact sameLog ▸ closed

/-- In every run that hands a terminal off, no other terminal is ever written, none is
written twice, and the entry leaves the outbox only when the log has a terminal. -/
theorem terminal_outbox_protocol
    {now sequenceNumber : Nat} {before after : List OutboxEvent} {fence : Fence}
    {terminal : TerminalEvent}
    (toMiddle : Run (OutboxStep ownerId) (.start now sequenceNumber) before world)
    {last : OutboxWorld} (toLast : Run (OutboxStep ownerId) world after last)
    (handedOff : last.owner = .handedOff fence terminal) :
    (∀ event ∈ terminals world.log, event = terminal) ∧
      (terminals world.log).length ≤ 1 ∧
      ∀ event next,
        OutboxStep ownerId world event next →
          world.outbox ≠ none → next.outbox = none → terminals world.log ≠ [] := by
  have phase := (outboxInvariant_run (toMiddle.append toLast)).1.phase
  rw [handedOff] at phase
  have within : (terminals world.log).Sublist [terminal] := by
    have grown : (terminals world.log).Sublist (terminals last.log) :=
      (log_extends toLast).sublist.filterMap LogEvent.terminal?
    obtain none | only := HandedOff.only phase
    · exact (none ▸ grown).trans (List.nil_sublist _)
    · exact only ▸ grown
  obtain ⟨invariant, held⟩ := outboxInvariant_run toMiddle
  refine ⟨fun event written => List.mem_singleton.mp (within.subset written),
    within.length_le, fun event next step entry dropped => ?_⟩
  exact invariant.dropped_after_terminal held step entry dropped

/-- A refused completion that another process drains once the lease is free. -/
def drainedEvents (completion : TerminalEvent) : List OutboxEvent :=
  [.owner (.acquire false), .process "drain" (.readOutbox false),
    .owner (.append 2 (some 1) .none), .process "drain" (.list false),
    .owner (.writeTerminal completion .beforeCommit), .process "drain" .decide,
    .owner (.put false), .owner (.release false), .owner .evict, .tick 1000,
    .process "drain" (.readOutbox false), .process "drain" (.list false),
    .process "drain" (.claim false), .process "drain" (.persist "" .none),
    .process "drain" (.forget false)]

theorem terminal_outbox_protocol_drained :
    let completion : TerminalEvent := ⟨.completed, 3, "answer"⟩
    ∃ world,
      Run (OutboxStep "owner") (.start 0 1) (drainedEvents completion) world ∧
        terminals world.log = [completion] ∧
        world.outbox = none ∧
        ∀ event ∈ terminals world.log, event = completion := by
  intro completion
  have closed :
      ((drainedEvents completion).foldlM (OutboxWorld.applyHeld "owner")
        (OutboxWorld.start 0 1)).any
          (fun world => decide
            (world.owner = .handedOff ⟨"owner", 1⟩ completion ∧
              terminals world.log = [completion] ∧
              world.outbox = none)) = true := by
    decide
  obtain ⟨world, taken, holds⟩ := (Option.any_eq_true _ _).mp closed
  obtain ⟨owner, written, dropped⟩ := of_decide_eq_true holds
  have run : Run (OutboxStep "owner") (.start 0 1) (drainedEvents completion)
      world := .of_foldlM taken
  exact ⟨world, run, written, dropped,
    (terminal_outbox_protocol run .nil owner).1⟩

end Steps
end Relavium.Run
