import Relavium.Run.Checkpoint
import Relavium.Run.GateDecision

/-!
# Terminal nodes are absorbing

Once the end of a node has been folded into a checkpoint, the node stays
settled: no later gate event, budget approval or media job makes it pending
again, and nothing is pending on it.
-/

namespace Relavium.Run

open Library

/-! ## Ended nodes in the suspension reducer -/

namespace RunSuspensionReducer

section Ended

variable {reducer next : RunSuspensionReducer} {event : RunEvent}
  {transition : Option GateTransition}

theorem Effect.ended
    (taken : Effect reducer event transition next) {runId nodeId : String}
    (ended : nodeId ∈ reducer.terminalNodesOf runId) :
    nodeId ∈ next.terminalNodesOf runId := by
  have retire {middle : RunSuspensionReducer} (endedRun other : String)
      (before : nodeId ∈ middle.terminalNodesOf runId) :
      nodeId ∈ (middle.retireNode endedRun other).terminalNodesOf runId :=
    (mem_terminalNodesOf_retireNode middle endedRun other runId nodeId).mpr (Or.inl before)
  cases taken with
  | gate before step _ _ _ _ committed =>
    obtain rfl : next = (reducer.commit step).2 := congrArg Prod.snd committed
    unfold commit
    simp only
    split
    · exact retire _ _ ended
    · exact ended
  | media job _ _ recorded =>
    rw [recorded, terminalNodesOf_submitMedia]
    exact ended
  | life retired _ _ _ retires ends =>
    have endedThen : nodeId ∈ retired.terminalNodesOf runId := by
      rcases retires with ⟨-, rfl⟩ | ⟨other, -, rfl⟩
      · exact ended
      · exact retire _ _ ended
    rcases ends with rfl | rfl
    · exact endedThen
    · rw [terminalNodesOf_endRun]
      exact endedThen

theorem Effect.ends
    (taken : Effect reducer event transition next) {nodeId : String}
    (terminal : event.body.terminalNode = some nodeId) :
    nodeId ∈ next.terminalNodesOf event.runId := by
  cases taken with
  | gate _ _ _ _ alive => simp [terminal] at alive
  | media job body => simp [body, EventBody.terminalNode] at terminal
  | life retired _ _ _ retires ends =>
    have ended : nodeId ∈ retired.terminalNodesOf event.runId := by
      rcases retires with ⟨alive, -⟩ | ⟨other, isOther, rfl⟩
      · simp [terminal] at alive
      · cases terminal.symm.trans isOther
        exact (mem_terminalNodesOf_retireNode _ _ _ _ _).mpr (Or.inr ⟨rfl, rfl⟩)
    rcases ends with rfl | rfl
    · exact ended
    · rw [terminalNodesOf_endRun]
      exact ended

theorem Effect.silent
    (taken : Effect reducer event transition next) {nodeId : String}
    (terminal : event.body.terminalNode = some nodeId) :
    transition = none := by
  cases taken with
  | gate _ _ _ _ alive => simp [terminal] at alive
  | media _ _ silent | life _ _ _ silent => exact silent

theorem Effect.transition_live
    (sound : Sound reducer) (taken : Effect reducer event transition next)
    {yielded : GateTransition} (isYielded : transition = some yielded) :
    yielded.gate.nodeId ∉ reducer.terminalNodesOf event.runId := by
  cases taken with
  | gate before step origin _ _ advancesIf committed =>
    obtain ⟨-, coherent, retired⟩ := sound.touched origin
    have advances := advancesIf coherent
    have fromStep : step.transition = some yielded :=
      (congrArg Prod.fst committed).symm.trans isYielded
    obtain ⟨active, -, projected⟩ := advances.opened yielded fromStep
    intro ended
    rw [projected] at ended
    simp only [GateHistory.snapshot, advances.nodeId] at ended
    simp [retired ended] at active
  | media _ _ silent | life _ _ _ silent => simp [silent] at isYielded

theorem nothing_pending
    (sound : Sound reducer) {runId nodeId : String}
    (ended : nodeId ∈ reducer.terminalNodesOf runId) :
    (∀ gate ∈ reducer.pendingGates runId, gate.nodeId ≠ nodeId) ∧
      ∀ job ∈ reducer.pendingMediaJobs runId, job.nodeId ≠ nodeId := by
  constructor
  · intro gate member sameNode
    obtain ⟨history, isHistory, rfl⟩ := List.mem_map.mp member
    obtain ⟨valued, isPending⟩ := List.mem_filter.mp isHistory
    obtain ⟨gateId, present⟩ := (OrderedMap.mem_values_iff _ _).mp valued
    obtain rfl : history.nodeId = nodeId := sameNode
    have inactive := sound.retired runId gateId history present ended
    simp [inactive] at isPending
  · intro job member sameNode
    obtain ⟨key, present⟩ := (OrderedMap.mem_values_iff _ _).mp member
    have keyed := sound.jobNode runId key job present
    rw [← keyed, sameNode] at present
    exact sound.jobLive runId nodeId job present ended

end Ended

end RunSuspensionReducer

/-! ## The stores of the fold -/

namespace Reconstructor

/-- The node has settled. -/
def Settled (acc : Reconstructor) (nodeId : String) : Prop :=
  ∃ state, acc.nodeStates.get nodeId = some state ∧ state.settled = true

@[simp] theorem raiseCost_nodeStates (acc : Reconstructor) (total : Option Int) :
    (acc.raiseCost total).nodeStates = acc.nodeStates := by
  cases total <;> rfl

@[simp] theorem raiseCost_suspensions (acc : Reconstructor) (total : Option Int) :
    (acc.raiseCost total).suspensions = acc.suspensions := by
  cases total <;> rfl

@[simp] theorem setNode_nodeStates
    (acc : Reconstructor) (nodeId : String) (state : CheckpointNodeState) :
    (acc.setNode nodeId state).nodeStates = acc.nodeStates.set nodeId state := rfl

@[simp] theorem setNode_suspensions
    (acc : Reconstructor) (nodeId : String) (state : CheckpointNodeState) :
    (acc.setNode nodeId state).suspensions = acc.suspensions := rfl

/-- Whether the fold has started, and on which run. -/
def identity (acc : Reconstructor) : Bool × String :=
  (acc.started, acc.runId)

@[simp] theorem raiseCost_identity (acc : Reconstructor) (total : Option Int) :
    (acc.raiseCost total).identity = acc.identity := by
  cases total <;> rfl

@[simp] theorem setNode_identity
    (acc : Reconstructor) (nodeId : String) (state : CheckpointNodeState) :
    (acc.setNode nodeId state).identity = acc.identity := rfl

section Fold

variable (acc : Reconstructor) (event : RunEvent)

theorem applyCost_stores (body : EventBody) :
    (acc.applyCost body).nodeStates = acc.nodeStates ∧
      (acc.applyCost body).suspensions = acc.suspensions := by
  unfold applyCost
  split <;> simp

theorem applyRunEvent_stores :
    (acc.applyRunEvent event).nodeStates = acc.nodeStates ∧
      (acc.applyRunEvent event).suspensions = acc.suspensions := by
  unfold applyRunEvent
  split <;> simp

theorem applyPauseCost_stores (body : EventBody) :
    (acc.applyPauseCost body).nodeStates = acc.nodeStates ∧
      (acc.applyPauseCost body).suspensions = acc.suspensions := by
  unfold applyPauseCost
  split <;> simp

theorem applyPauseCost_identity (body : EventBody) :
    (acc.applyPauseCost body).identity = acc.identity := by
  unfold applyPauseCost
  split <;> simp

theorem applyNodeEvent_suspensions :
    (acc.applyNodeEvent event).suspensions = acc.suspensions := by
  unfold applyNodeEvent
  split <;> simp

theorem applyMediaJobEvent_suspensions (body : EventBody) :
    (acc.applyMediaJobEvent body).suspensions = acc.suspensions := by
  unfold applyMediaJobEvent
  split
  · split <;> simp
  · rfl

theorem applyStores_identity (coverage : Usage.UsageCoverageFold) :
    (acc.applyStores event coverage).identity = acc.identity ∨
      (acc.applyStores event coverage).runId = event.runId := by
  have media (middle : Reconstructor) (body : EventBody) :
      (middle.applyMediaJobEvent body).identity = middle.identity := by
    unfold applyMediaJobEvent
    split
    · split <;> simp
    · rfl
  have node (middle : Reconstructor) :
      (middle.applyNodeEvent event).identity = middle.identity := by
    unfold applyNodeEvent
    split
    · exact raiseCost_identity _ _
    · exact raiseCost_identity _ _
    all_goals rfl
  have cost (middle : Reconstructor) (body : EventBody) :
      (middle.applyCost body).identity = middle.identity := by
    unfold applyCost
    split
    · rfl
    · rfl
    · exact raiseCost_identity _ _
    · rfl
  have run (middle : Reconstructor) :
      (middle.applyRunEvent event).identity = middle.identity ∨
        (middle.applyRunEvent event).runId = event.runId := by
    unfold applyRunEvent
    split
    · exact Or.inr rfl
    all_goals exact Or.inl rfl
  unfold applyStores
  simp only
  generalize costed : applyCost _ event.body = middle
  have before : middle.identity = acc.identity := by
    rw [← costed, cost]
    rfl
  rw [media, node, ← before]
  have sameRun : ∀ {first second : Reconstructor},
      first.identity = second.identity → first.runId = second.runId :=
    fun same => congrArg Prod.snd same
  rw [sameRun (media _ _), sameRun (node _)]
  exact run middle

theorem applyNodeEvent_get (nodeId : String) :
    (event.body.terminalNode = some nodeId →
      (acc.applyNodeEvent event).Settled nodeId) ∧
    (event.body.terminalNode ≠ some nodeId →
      (acc.applyNodeEvent event).nodeStates.get nodeId =
        acc.nodeStates.get nodeId) := by
  have settles {other : String} {state : CheckpointNodeState}
      {next : Reconstructor}
      (nodeStates : next.nodeStates = acc.nodeStates.set other state)
      (isSettled : state.settled = true) :
      (some other = some nodeId → next.Settled nodeId) ∧
        (some other ≠ some nodeId →
          next.nodeStates.get nodeId = acc.nodeStates.get nodeId) := by
    rw [nodeStates]
    constructor
    · intro same
      cases same
      exact ⟨state, by rw [nodeStates, OrderedMap.get_set_self], isSettled⟩
    · intro different
      exact OrderedMap.get_set_of_ne _ (fun same => different (congrArg some same.symm)) state
  unfold applyNodeEvent
  cases body : event.body with
  | nodeCompleted | nodeFailed => exact settles (raiseCost_nodeStates _ _) rfl
  | nodeSkipped => exact settles (setNode_nodeStates _ _ _) rfl
  | _ => simp [EventBody.terminalNode]

theorem applyMediaJobEvent_get
    {nodeId : String} (settled : acc.Settled nodeId) (body : EventBody) :
    (acc.applyMediaJobEvent body).nodeStates.get nodeId =
      acc.nodeStates.get nodeId := by
  obtain ⟨state, present, isSettled⟩ := settled
  unfold applyMediaJobEvent
  split
  · rename_i job
    split
    · rfl
    · rename_i unsettled
      refine OrderedMap.get_set_of_ne _ ?_ _
      rintro rfl
      simp [present, isSettled] at unsettled
  · rfl

theorem applyStores_suspensions (coverage : Usage.UsageCoverageFold) :
    (acc.applyStores event coverage).suspensions = acc.suspensions := by
  unfold applyStores
  rw [applyMediaJobEvent_suspensions, applyNodeEvent_suspensions,
    (applyRunEvent_stores _ _).2, (applyCost_stores _ _).2]
  rfl

/-- The stores keep a settled node, or settle it anew when it ends. -/
theorem applyStores_get (coverage : Usage.UsageCoverageFold) (nodeId : String) :
    (event.body.terminalNode = some nodeId →
      (acc.applyStores event coverage).Settled nodeId) ∧
    (event.body.terminalNode ≠ some nodeId → acc.Settled nodeId →
      (acc.applyStores event coverage).nodeStates.get nodeId =
        acc.nodeStates.get nodeId) := by
  unfold applyStores
  simp only
  generalize before : (Reconstructor.applyRunEvent _ event) = middle
  have same : middle.nodeStates = acc.nodeStates := by
    rw [← before, (applyRunEvent_stores _ _).1, (applyCost_stores _ _).1]
    rfl
  have node := middle.applyNodeEvent_get event nodeId
  constructor
  · intro terminal
    obtain ⟨state, present, isSettled⟩ := node.1 terminal
    refine ⟨state, ?_, isSettled⟩
    rw [applyMediaJobEvent_get _ ⟨state, present, isSettled⟩, present]
  · intro alive settled
    have kept := node.2 alive
    rw [same] at kept
    obtain ⟨state, present, isSettled⟩ := settled
    rw [applyMediaJobEvent_get _ ⟨state, kept.trans present, isSettled⟩, kept]

/-- A gate transition touches no store but the node states. -/
theorem applyGateEvent_frame
    {acc gated : Reconstructor} {transition : Option GateTransition}
    (applied : acc.applyGateEvent transition = .ok gated) :
    gated = { acc with nodeStates := gated.nodeStates } := by
  unfold applyGateEvent at applied
  cases transition with
  | none =>
    obtain rfl : acc = gated := by simpa using applied
    rfl
  | some yielded =>
    simp only at applied
    split at applied
    · obtain rfl : acc = gated := by simpa using applied
      rfl
    · split at applied
      · simp at applied
      · rw [Except.ok.injEq] at applied
        subst applied
        split <;> rfl

theorem applyGateEvent_get
    {acc gated : Reconstructor} {transition : Option GateTransition}
    (applied : acc.applyGateEvent transition = .ok gated) {nodeId : String}
    (other : ∀ yielded, transition = some yielded →
      yielded.gate.nodeId ≠ nodeId) :
    gated.nodeStates.get nodeId = acc.nodeStates.get nodeId := by
  unfold applyGateEvent at applied
  cases transition with
  | none =>
    obtain rfl : acc = gated := by simpa using applied
    rfl
  | some yielded =>
    have different := Ne.symm (other yielded rfl)
    simp only at applied
    split at applied
    · obtain rfl : acc = gated := by simpa using applied
      rfl
    · split at applied
      · simp at applied
      · rw [Except.ok.injEq] at applied
        subst applied
        split
        · exact OrderedMap.get_set_of_ne _ different _
        · exact OrderedMap.get_set_of_ne _ different _
        · exact OrderedMap.get_delete_of_ne _ different
        · exact OrderedMap.get_set_of_ne _ different _

end Fold

/-! ## One event and whole logs -/

/-- One accepted event takes the fold to its next state. -/
def FoldStep (acc : Reconstructor) (event : RunEvent) (next : Reconstructor) :
    Prop :=
  acc.apply event = .ok next

section Logs

variable {acc next : Reconstructor} {event : RunEvent}

theorem FoldStep.parts (step : FoldStep acc event next) :
    ∃ coverage transition suspensions gated,
      acc.suspensions.apply event = .ok (transition, suspensions) ∧
      Reconstructor.applyGateEvent
        { acc.applyStores event coverage with
          suspensions
          nodeLife :=
            (acc.applyStores event coverage).nodeLife.apply event transition }
        transition = .ok gated ∧
      next = gated.applyPauseCost event.body := by
  simp only [FoldStep, apply, bind_eq_ok, mapError_eq_ok, pure_eq_ok,
    applyStores_suspensions, Prod.exists] at step
  obtain ⟨coverage, -, transition, suspensions, applied, gated, isGated, same⟩ :=
    step
  exact ⟨coverage, transition, suspensions, gated, applied, isGated, same.symm⟩

/-- An accepted event takes the reducer inside the fold along. -/
theorem FoldStep.suspensions (step : FoldStep acc event next) :
    ∃ transition,
      acc.suspensions.apply event = .ok (transition, next.suspensions) := by
  obtain ⟨coverage, transition, suspensions, gated, applied, isGated, rfl⟩ :=
    step.parts
  rw [(applyPauseCost_stores _ _).2, applyGateEvent_frame isGated]
  exact ⟨transition, applied⟩

theorem FoldStep.sound
    (step : FoldStep acc event next) (sound : RunSuspensionReducer.Sound acc.suspensions) :
    RunSuspensionReducer.Sound next.suspensions := by
  obtain ⟨transition, applied⟩ := step.suspensions
  exact sound.effect (RunSuspensionReducer.effect_apply sound applied)

/-- Away from the gate transition, a node is left as the stores left it. -/
theorem FoldStep.get
    (step : FoldStep acc event next) (sound : RunSuspensionReducer.Sound acc.suspensions)
    {nodeId : String}
    (quiet : event.body.terminalNode = some nodeId ∨
      nodeId ∈ acc.suspensions.terminalNodesOf event.runId) :
    ∃ coverage, next.nodeStates.get nodeId =
      (acc.applyStores event coverage).nodeStates.get nodeId := by
  obtain ⟨coverage, transition, suspensions, gated, applied, isGated, rfl⟩ :=
    step.parts
  have taken := RunSuspensionReducer.effect_apply sound applied
  refine ⟨coverage, ?_⟩
  rw [(applyPauseCost_stores _ _).1]
  refine applyGateEvent_get isGated ?_
  intro yielded isYielded
  rcases quiet with terminal | ended
  · simp [taken.silent terminal] at isYielded
  · rintro rfl
    exact taken.transition_live sound isYielded ended

theorem FoldStep.settles
    (step : FoldStep acc event next) (sound : RunSuspensionReducer.Sound acc.suspensions)
    {nodeId : String} (terminal : event.body.terminalNode = some nodeId) :
    next.Settled nodeId ∧
      nodeId ∈ next.suspensions.terminalNodesOf event.runId := by
  obtain ⟨coverage, same⟩ := step.get sound (Or.inl terminal)
  obtain ⟨transition, applied⟩ := step.suspensions
  obtain ⟨state, present, isSettled⟩ :=
    (acc.applyStores_get event coverage nodeId).1 terminal
  exact ⟨⟨state, same.trans present, isSettled⟩,
    (RunSuspensionReducer.effect_apply sound applied).ends terminal⟩

/-- A settled node that has ended keeps its state, unless it ends again. -/
theorem FoldStep.keeps
    (step : FoldStep acc event next) (sound : RunSuspensionReducer.Sound acc.suspensions)
    {nodeId : String} (ended : nodeId ∈ acc.suspensions.terminalNodesOf event.runId)
    (settled : acc.Settled nodeId) (alive : event.body.terminalNode ≠ some nodeId) :
    next.nodeStates.get nodeId = acc.nodeStates.get nodeId := by
  obtain ⟨coverage, same⟩ := step.get sound (Or.inr ended)
  exact same.trans ((acc.applyStores_get event coverage nodeId).2 alive settled)

/-- What the fold keeps of a node that has ended. -/
structure Absorbed (acc : Reconstructor) (runId nodeId : String) : Prop where
  settled : acc.Settled nodeId
  ended : nodeId ∈ acc.suspensions.terminalNodesOf runId

theorem FoldStep.absorbed
    (step : FoldStep acc event next) (sound : RunSuspensionReducer.Sound acc.suspensions)
    {nodeId : String} (absorbed : acc.Absorbed event.runId nodeId) :
    next.Absorbed event.runId nodeId := by
  obtain ⟨transition, applied⟩ := step.suspensions
  have ended := (RunSuspensionReducer.effect_apply sound applied).ended absorbed.ended
  by_cases terminal : event.body.terminalNode = some nodeId
  · exact ⟨(step.settles sound terminal).1, ended⟩
  · obtain ⟨state, present, isSettled⟩ := absorbed.settled
    have kept := step.keeps sound absorbed.ended absorbed.settled terminal
    exact ⟨⟨state, kept.trans present, isSettled⟩, ended⟩

theorem FoldStep.runId
    (step : FoldStep acc event next) (known : acc.started = true → acc.runId = event.runId) :
    next.started = true → next.runId = event.runId := by
  obtain ⟨coverage, transition, suspensions, gated, -, isGated, rfl⟩ :=
    step.parts
  have sameIdentity : (gated.applyPauseCost event.body).identity =
      (acc.applyStores event coverage).identity := by
    rw [applyPauseCost_identity, applyGateEvent_frame isGated]
    rfl
  obtain ⟨sameStarted, sameRun⟩ := Prod.mk.injEq .. ▸ sameIdentity
  rw [sameStarted, sameRun]
  rcases acc.applyStores_identity event coverage with kept | now
  · obtain ⟨keptStarted, keptRun⟩ := Prod.mk.injEq .. ▸ kept
    rw [keptStarted, keptRun]
    exact known
  · exact fun _ => now

/-- What the fold keeps along the log of one run. -/
structure Folded (acc : Reconstructor) (runId : String) : Prop where
  sound : RunSuspensionReducer.Sound acc.suspensions
  known : acc.started = true → acc.runId = runId

theorem folded_fresh (runId : String) : fresh.Folded runId where
  sound := RunSuspensionReducer.sound_fresh
  known := by simp [fresh]

theorem FoldStep.folded (step : FoldStep acc event next) (folded : acc.Folded event.runId) :
    next.Folded event.runId where
  sound := step.sound folded.sound
  known := step.runId folded.known

variable {start : Reconstructor} {runId nodeId : String}
  {events : List RunEvent}

theorem folded_of_run
    (run : Library.Run FoldStep start events acc)
    (oneRun : ∀ logged ∈ events, logged.runId = runId) (folded : start.Folded runId) :
    acc.Folded runId := by
  induction run with
  | nil => exact folded
  | snoc earlier step ih =>
    have sameRun := oneRun _ (List.mem_append_right _ List.mem_cons_self)
    rw [← sameRun]
    refine step.folded (sameRun ▸ ih ?_)
    exact fun logged member => oneRun logged (List.mem_append_left _ member)

theorem absorbed_of_run
    (run : Library.Run FoldStep start events acc)
    (oneRun : ∀ logged ∈ events, logged.runId = runId) (folded : start.Folded runId)
    (absorbed : start.Absorbed runId nodeId) :
    acc.Absorbed runId nodeId := by
  induction run with
  | nil => exact absorbed
  | snoc earlier step ih =>
    have sameRun := oneRun _ (List.mem_append_right _ List.mem_cons_self)
    have oneRunBefore := fun logged member =>
      oneRun logged (List.mem_append_left _ member)
    have foldedBefore := folded_of_run earlier oneRunBefore folded
    rw [← sameRun]
    exact step.absorbed foldedBefore.sound (sameRun ▸ ih oneRunBefore)

theorem settled_iff {state : CheckpointNodeState} :
    state.settled = true ↔
      state.status = .completed ∨ state.status = .failed ∨
        state.status = .skipped := by
  unfold CheckpointNodeState.settled
  cases state.status <;> decide

theorem finish_of_absorbed
    (folded : acc.Folded runId) (absorbed : acc.Absorbed runId nodeId)
    {checkpoint : CheckpointState} (finished : acc.finish = some checkpoint) :
    checkpoint.nodeStates = acc.nodeStates ∧
      (∀ gate ∈ checkpoint.pendingGates, gate.nodeId ≠ nodeId) ∧
      ∀ job ∈ checkpoint.pendingMediaJobs, job.nodeId ≠ nodeId := by
  unfold finish at finished
  split at finished
  · simp at finished
  · rename_i started
    have sameRun : acc.runId = runId := folded.known (by simpa using started)
    cases finished
    rw [sameRun]
    have nothing := RunSuspensionReducer.nothing_pending folded.sound absorbed.ended
    refine ⟨rfl, ?_, nothing.2⟩
    intro gate member
    obtain ⟨projection, isPending, rfl⟩ := List.mem_map.mp member
    exact nothing.1 projection isPending

theorem run_of_reconstruct
    {checkpoint : Option CheckpointState}
    (reconstructed : reconstructCheckpointState events = .ok checkpoint) :
    ∃ acc, Library.Run FoldStep fresh events acc ∧ acc.finish = checkpoint := by
  unfold reconstructCheckpointState at reconstructed
  cases folded : events.foldlM apply fresh with
  | error => simp [folded, Except.map] at reconstructed
  | ok acc =>
    rw [folded] at reconstructed
    exact ⟨acc, run_of_foldlM folded, Except.ok.inj reconstructed⟩

end Logs

end Reconstructor

open Reconstructor

/-- Once the end of a node has been folded, in every later state of the log of
the run: the node has settled, no pending gate or media job of the checkpoint
is its, and no event other than another end of the node changes its state. -/
theorem terminal_nodes_absorbing
    {before after : List RunEvent} {event : RunEvent} {acc : Reconstructor}
    {runId nodeId : String} (run : Library.Run FoldStep fresh (before ++ event :: after) acc)
    (oneRun : ∀ logged ∈ before ++ event :: after, logged.runId = runId)
    (terminal : event.body.terminalNode = some nodeId) :
    (∃ state, acc.nodeStates.get nodeId = some state ∧
      (state.status = .completed ∨ state.status = .failed ∨
        state.status = .skipped)) ∧
    (∀ checkpoint, acc.finish = some checkpoint →
      checkpoint.nodeStates = acc.nodeStates ∧
      (∀ gate ∈ checkpoint.pendingGates, gate.nodeId ≠ nodeId) ∧
      ∀ job ∈ checkpoint.pendingMediaJobs, job.nodeId ≠ nodeId) ∧
    ∀ later next,
      FoldStep acc later next →
      later.runId = runId →
      later.body.terminalNode ≠ some nodeId →
      next.nodeStates.get nodeId = acc.nodeStates.get nodeId := by
  rw [List.append_cons] at run oneRun
  obtain ⟨ended, reached, rest⟩ := run.split
  obtain ⟨live, earlier, single⟩ := reached.split
  have step := single.step_of_singleton
  have oneRunBefore := fun logged member =>
    oneRun logged (List.mem_append_left _ (List.mem_append_left _ member))
  have oneRunAfter := fun logged member =>
    oneRun logged (List.mem_append_right _ member)
  have sameRun : event.runId = runId := oneRun event (by simp)
  have foldedLive := folded_of_run earlier oneRunBefore (folded_fresh runId)
  have foldedEnded : ended.Folded runId :=
    sameRun ▸ step.folded (sameRun ▸ foldedLive)
  have absorbedEnded : ended.Absorbed runId nodeId := by
    obtain ⟨settled, isEnded⟩ := step.settles foldedLive.sound terminal
    exact ⟨settled, sameRun ▸ isEnded⟩
  have folded := folded_of_run rest oneRunAfter foldedEnded
  have absorbed := absorbed_of_run rest oneRunAfter foldedEnded absorbedEnded
  refine ⟨?_, fun checkpoint => finish_of_absorbed folded absorbed, ?_⟩
  · obtain ⟨state, present, isSettled⟩ := absorbed.settled
    exact ⟨state, present, settled_iff.mp isSettled⟩
  · intro later next taken laterRun alive
    refine taken.keeps folded.sound ?_ absorbed.settled alive
    rw [laterRun]
    exact absorbed.ended

/-- A node fails while its gate is pending; its pause and a media job arrive
late. -/
def pausedAfterFailure : List RunEvent :=
  [loggedEvent 0 (.runStarted "workflow" [] .local'), loggedEvent 1 budgetPauseEvent,
    loggedEvent 2 (.nodeFailed "writer"
      { code := .internal, message := "stopped", retryable := false }),
    loggedEvent 3 budgetPauseEvent,
    loggedEvent 4 (.mediaJobSubmitted
      { nodeId := "writer"
        jobId := "job"
        provider := .openai
        model := "model"
        modality := .image
        startedAt := "start"
        deadlineAt := "deadline"
        units := none
        acceptedCostMicrocents := none })]

theorem terminal_nodes_absorbing_paused_after_failure :
    ∃ acc, Library.Run FoldStep fresh pausedAfterFailure acc ∧
      ∃ state, acc.nodeStates.get "writer" = some state ∧
        (state.status = .completed ∨ state.status = .failed ∨
          state.status = .skipped) := by
  have accepted : ∃ checkpoint,
      reconstructCheckpointState pausedAfterFailure = .ok checkpoint :=
    ⟨_, rfl⟩
  obtain ⟨checkpoint, reconstructed⟩ := accepted
  obtain ⟨acc, run, -⟩ := run_of_reconstruct reconstructed
  have absorbing := @terminal_nodes_absorbing (pausedAfterFailure.take 2)
    (pausedAfterFailure.drop 3) _ _ "run" "writer" run (by decide) rfl
  exact ⟨acc, run, absorbing.1⟩

end Relavium.Run
