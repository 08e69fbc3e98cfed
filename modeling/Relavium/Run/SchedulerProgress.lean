import Relavium.Library.Trace
import Relavium.Run.SchedulerPass

/-!
# Progress of the scheduler

Passes of the scheduler, interleaved with vertices that complete.  A pass
propagates skips, publishes them one by one and only then counts the running
vertices and claims; while it publishes, vertices complete.
-/

namespace Relavium.Run

open Library
open Plan
open Shared
open Interpolation

/-- The scheduler between two events. -/
structure SchedulerState where
  states : VertexStates
  /-- The skips that a pass found and publishes before it goes on. -/
  publishing : Option (List (JsString × NodeSkippedReason))
  /-- Whether `#failure` is set. -/
  failing : Bool
  /-- Whether it was set because the run stalled. -/
  stalled : Bool
  /-- Whether a terminal was decided. -/
  settled : Bool

inductive SchedulerEvent
  /-- A pass starts and propagates skips. -/
  | pass (fuel : Nat)
  /-- The pass has published its skips and goes on. -/
  | decide (cancelling : Bool) (nodeDispatches : Nat) (parked : ParkedWork)
  /-- A running vertex completes; a condition has selected targets. -/
  | complete (id : JsString) (selected : Option (List JsString))

namespace SchedulerState

def initial (plan : RunPlan) : SchedulerState where
  states := initialStates plan
  publishing := none
  failing := false
  stalled := false
  settled := false

/-- What the verdict of a pass changes. -/
def applyVerdict
    (scheduler : SchedulerState) : StepVerdict → SchedulerState
  | .settle _ => { scheduler with publishing := none, settled := true }
  | .waitToSettle => { scheduler with publishing := none }
  | .dispatchLimit => { scheduler with publishing := none, failing := true }
  | .claimed scan => { scheduler with publishing := none, states := scan.states }
  | .idle .stalled =>
    { scheduler with publishing := none, failing := true, stalled := true }
  | .idle _ => { scheduler with publishing := none }

/-- The part of `#settleCompleted` that changes the status; absent targets keep
those there. -/
def completeVertex (states : VertexStates) (id : JsString)
    (selected : Option (List JsString)) : Option VertexStates :=
  match states.get id with
  | none => none
  | some state =>
    if state.status = .running then
      some (states.set id {
        status := .completed
        selectedTargets := selected.orElse fun _ => state.selectedTargets })
    else none

/-- The scheduler after an event, if the event can happen: passes are serialized,
and one that found no skips goes on at once. -/
def apply (plan : RunPlan)
    (scheduler : SchedulerState) : SchedulerEvent → Option SchedulerState
  | .pass fuel =>
    if scheduler.settled ∨ scheduler.publishing.isSome then none
    else
      (propagateSkips plan fuel scheduler.states).map fun sweep =>
        { scheduler with
          states := sweep.states
          publishing := some sweep.skipped }
  | .decide cancelling nodeDispatches parked =>
    if scheduler.publishing.isSome then
      some (scheduler.applyVerdict
        (stepVerdict plan scheduler.states {
          cancelling
          failing := scheduler.failing
          nodeDispatches
          parked }))
    else none
  | .complete id selected =>
    if scheduler.settled ∨ scheduler.publishing = some [] then none
    else
      (completeVertex scheduler.states id selected).map fun states =>
        { scheduler with states }

end SchedulerState

/-- A step of the scheduler. -/
def SchedulerStep (plan : RunPlan) (scheduler : SchedulerState) (event : SchedulerEvent)
    (next : SchedulerState) : Prop :=
  scheduler.apply plan event = some next

/-- Nothing runs, some vertex is pending and none is claimable. -/
def Stranded (plan : RunPlan)
    (states : VertexStates) : Prop :=
  countRunning states = 0 ∧
    allSettled states = false ∧
    ∀ id, ¬Claimable plan states id

/-- The event is not the completion, while a pass publishes its skips, of the
last running vertex in a way that leaves pending vertices but none to claim. -/
def KeepsClaimable (plan : RunPlan)
    (scheduler : SchedulerState) : SchedulerEvent → Prop
  | .complete id selected =>
    scheduler.publishing.isSome →
    ∀ states,
      SchedulerState.completeVertex scheduler.states id selected = some states →
      ¬Stranded plan states
  | _ => True

/-- The steps that keep a vertex to claim. -/
def ClaimableStep (plan : RunPlan) (scheduler : SchedulerState) (event : SchedulerEvent)
    (next : SchedulerState) : Prop :=
  KeepsClaimable plan scheduler event ∧ SchedulerStep plan scheduler event next

section Steps

variable
  {plan : RunPlan}

/-- A verdict leaves the statuses alone or claims vertices. -/
theorem applyVerdict_moves (scheduler : SchedulerState) (control : StepControl) :
    Relation.ReflTransGen (StatusMove plan) scheduler.states
      (scheduler.applyVerdict
        (stepVerdict plan scheduler.states control)).states := by
  cases verdict : stepVerdict plan scheduler.states control with
  | settle terminal | waitToSettle | dispatchLimit => exact .refl
  | idle idle => cases idle <;> exact .refl
  | claimed scan =>
    have claims := @claimFrom_moves plan (parallelCap plan)
      (nodeDispatchesPerRun - control.nodeDispatches) plan.order
      { states := scheduler.states, claimed := [],
        running := countRunning scheduler.states }
    rw [(claimed_of_stepVerdict verdict).1]
    exact claims

theorem move_of_completeVertex
    {states next : VertexStates} {id : JsString} {selected : Option (List JsString)}
    (completed : SchedulerState.completeVertex states id selected = some next) :
    StatusMove plan states next := by
  unfold SchedulerState.completeVertex at completed
  split at completed
  · cases completed
  · next state found =>
    split at completed
    · next running =>
      cases completed
      exact .complete _ found running
    · cases completed

theorem moves_of_step
    {scheduler next : SchedulerState} {event : SchedulerEvent}
    (step : SchedulerStep plan scheduler event next) :
    Relation.ReflTransGen (StatusMove plan) scheduler.states next.states := by
  unfold SchedulerStep SchedulerState.apply at step
  cases event with
  | pass fuel =>
    dsimp only at step
    split at step
    · cases step
    · obtain ⟨sweep, returned, rfl⟩ := Option.map_eq_some_iff.mp step
      exact (propagateSkips_effect returned).1
  | decide cancelling nodeDispatches parked =>
    dsimp only at step
    split at step
    · cases step
      exact applyVerdict_moves scheduler _
    · cases step
  | complete id selected =>
    dsimp only at step
    split at step
    · cases step
    · obtain ⟨states, completed, rfl⟩ := Option.map_eq_some_iff.mp step
      exact .single (move_of_completeVertex completed)

end Steps

section Runs

variable
  {plan : RunPlan}
  {scheduler next : SchedulerState}

theorem statusesSound_of_run
    (ordered : plan.Ordered) {history : List SchedulerEvent}
    (run : Run (SchedulerStep plan) (.initial plan) history scheduler) :
    StatusesSound plan scheduler.states :=
  run.invariant (fun _ scheduler => StatusesSound plan scheduler.states)
    (statusesSound_initial ordered)
    fun _ _ _ _ _ sound step => sound.moves (moves_of_step step)

/-- After skips have propagated, the vertices that were pending and are skipped
are those that no live path reaches and that wait for nothing any more. -/
theorem skipped_iff
    (ordered : plan.Ordered) {states : VertexStates} {fuel : Nat} {sweep : SkipSweep}
    (sound : StatusesSound plan states) (returned : propagateSkips plan fuel states = some sweep)
    {id : JsString} (pending : statusOf states id = some .pending) :
    statusOf sweep.states id = some .skipped ↔
      ¬OnLivePath plan sweep.states id ∧
        DependenciesSettled plan sweep.states id := by
  obtain ⟨moves, onlySkips, alive⟩ := propagateSkips_effect returned
  have soundAfter := sound.moves moves
  have present : id ∈ plan.order := by
    obtain ⟨_, found, _⟩ := Option.map_eq_some_iff.mp pending
    exact (sound.known id).mp (by rw [found]; rfl)
  obtain ⟨vertex, vertexFound⟩ :=
    Option.isSome_iff_exists.mp ((ordered.vertexIds id).mpr present)
  obtain ⟨state, found⟩ :=
    Option.isSome_iff_exists.mp ((soundAfter.known id).mpr present)
  rw [← soundAfter.hasLiveEdge_iff ordered vertexFound, ← allDepsSettled_iff vertexFound]
  constructor
  · intro skipped
    have status : state.status = .skipped := by
      simpa [statusOf, found] using skipped
    obtain ⟨settled, edge⟩ := soundAfter.dead id state vertex found vertexFound status
    exact ⟨Bool.eq_false_iff.mp edge, settled⟩
  · rintro ⟨edge, settled⟩
    obtain same | ⟨_, skipped⟩ := onlySkips id
    · have status : state.status = .pending := by
        rw [same] at found
        simpa [statusOf, found] using pending
      exact absurd ⟨state, vertex, found, vertexFound, status, settled,
        Bool.eq_false_iff.mpr edge⟩ (alive id)
    · exact skipped

/-- After skips have propagated and where nothing runs, everything is settled or
something is claimable. -/
theorem not_stranded_of_propagateSkips
    (ordered : plan.Ordered) {states : VertexStates} {fuel : Nat} {sweep : SkipSweep}
    (sound : StatusesSound plan states)
    (returned : propagateSkips plan fuel states = some sweep) :
    ¬Stranded plan sweep.states := by
  rintro ⟨idle, unsettled, none⟩
  obtain ⟨moves, _, alive⟩ := propagateSkips_effect returned
  obtain ⟨id, claimable⟩ :=
    (sound.moves moves).exists_claimable ordered alive idle unsettled
  exact none id claimable

theorem not_stalled_of_not_stranded
    (ordered : plan.Ordered) (width : 0 < parallelCap plan) {states : VertexStates}
    {control : StepControl} (open' : ¬Stranded plan states) :
    stepVerdict plan states control ≠ .idle .stalled := by
  intro verdict
  obtain ⟨idle, unsettled, left, none⟩ := stalled_of_stepVerdict verdict
  refine open' ⟨idle, unsettled, fun id claimable => ?_⟩
  exact claimReady_ne_nil ordered width (by omega) claimable none

/-- A verdict other than that the run stalled does not set that failure. -/
theorem stalled_applyVerdict {verdict : StepVerdict} (other : verdict ≠ .idle .stalled) :
    (scheduler.applyVerdict verdict).stalled = scheduler.stalled ∧
      (scheduler.applyVerdict verdict).publishing = none := by
  cases verdict with
  | idle idle =>
    cases idle with
    | stalled => exact absurd rfl other
    | waiting | paused => exact ⟨rfl, rfl⟩
  | settle terminal | waitToSettle | dispatchLimit | claimed scan => exact ⟨rfl, rfl⟩

/-- What the steps that keep a vertex to claim preserve. -/
structure Progressing (plan : RunPlan)
    (scheduler : SchedulerState) : Prop where
  sound : StatusesSound plan scheduler.states
  unstalled : scheduler.stalled = false
  /-- While a pass publishes its skips, it has not lost what to claim. -/
  open' : scheduler.publishing.isSome → ¬Stranded plan scheduler.states

theorem Progressing.step
    (ordered : plan.Ordered) (width : 0 < parallelCap plan)
    (progressing : Progressing plan scheduler) {event : SchedulerEvent}
    (step : ClaimableStep plan scheduler event next) :
    Progressing plan next := by
  obtain ⟨keeps, taken⟩ := step
  have sound := progressing.sound.moves (moves_of_step taken)
  unfold SchedulerStep SchedulerState.apply at taken
  cases event with
  | pass fuel =>
    dsimp only at taken
    split at taken
    · cases taken
    · obtain ⟨sweep, returned, rfl⟩ := Option.map_eq_some_iff.mp taken
      exact ⟨sound, progressing.unstalled, fun _ =>
        not_stranded_of_propagateSkips ordered progressing.sound returned⟩
  | decide cancelling nodeDispatches parked =>
    dsimp only at taken
    split at taken
    · next publishing =>
      cases taken
      obtain ⟨stalled, published⟩ := @stalled_applyVerdict scheduler _
        (@not_stalled_of_not_stranded plan ordered width _
          { cancelling
            failing := scheduler.failing
            nodeDispatches
            parked }
          (progressing.open' publishing))
      exact ⟨sound, stalled.trans progressing.unstalled, by simp [published]⟩
    · cases taken
  | complete id selected =>
    dsimp only at taken
    split at taken
    · cases taken
    · obtain ⟨states, completed, rfl⟩ := Option.map_eq_some_iff.mp taken
      exact ⟨sound, progressing.unstalled, fun publishing =>
        keeps publishing states completed⟩

theorem progressing_of_run
    (ordered : plan.Ordered) (width : 0 < parallelCap plan) {history : List SchedulerEvent}
    (run : Run (ClaimableStep plan) (.initial plan) history scheduler) :
    Progressing plan scheduler :=
  run.invariant (fun _ scheduler => Progressing plan scheduler)
    ⟨statusesSound_initial ordered, rfl, by simp [SchedulerState.initial]⟩
    fun _ _ _ _ _ progressing step => progressing.step ordered width step

theorem stalled_of_stranded
    {states : VertexStates} (stranded : Stranded plan states) {nodeDispatches : Nat}
    (left : nodeDispatches < nodeDispatchesPerRun) :
    stepVerdict plan states {
        cancelling := false
        failing := false
        nodeDispatches
        parked := .none } =
      .idle .stalled := by
  obtain ⟨idle, unsettled, none⟩ := stranded
  rw [stepVerdict_open rfl rfl unsettled left]
  unfold claimReady
  rw [claimFrom_of_none none, idle]
  rfl

/-- A completion that takes away what there was to claim while a pass publishes
its skips makes the pass find the run stalled. -/
theorem stalls_of_not_keepsClaimable
    {event : SchedulerEvent} {after : SchedulerState} {nodeDispatches : Nat}
    (unfailing : scheduler.failing = false) (loses : ¬KeepsClaimable plan scheduler event)
    (taken : SchedulerStep plan scheduler event next)
    (left : nodeDispatches < nodeDispatchesPerRun)
    (decided : SchedulerStep plan next (.decide false nodeDispatches .none) after) :
    after.stalled = true := by
  cases event with
  | pass fuel | decide cancelling nodeDispatches parked => exact absurd trivial loses
  | complete id selected =>
    unfold KeepsClaimable at loses
    push Not at loses
    obtain ⟨publishing, states, completed, stranded⟩ := loses
    unfold SchedulerStep SchedulerState.apply at taken decided
    dsimp only at taken decided
    split at taken
    · cases taken
    rw [completed, Option.map_some] at taken
    cases taken
    rw [if_pos publishing, unfailing, stalled_of_stranded stranded left] at decided
    cases decided
    rfl

end Runs

/-- For every plan with a positive width and every run of the scheduler: after
skips have propagated, exactly the pending vertices that no live path reaches and
that wait for nothing any more are skipped, and where nothing runs or is paused
every vertex has completed or is skipped or one is claimed.  In every run in which
no completion strands the run while a pass publishes its skips, the run is never
found stalled; where one does, the verdict of that pass finds it stalled. -/
theorem scheduler_progress
    {checks : AuthoringChecks} {spec : WorkflowSpec} {registry : Option AgentTable}
    {plan : RunPlan} (built : buildRunPlan checks spec registry = .ok plan)
    (width : 0 < parallelCap plan) :
    (∀ history scheduler,
      Run (SchedulerStep plan) (.initial plan) history scheduler →
      ∀ fuel, plan.order.length < fuel →
      ∃ sweep,
        propagateSkips plan fuel scheduler.states = some sweep ∧
        (∀ id,
          statusOf scheduler.states id = some .pending →
          (statusOf sweep.states id = some .skipped ↔
            ¬OnLivePath plan sweep.states id ∧
              DependenciesSettled plan sweep.states id)) ∧
        ((∀ id,
            statusOf sweep.states id ≠ some .running ∧
              statusOf sweep.states id ≠ some .paused) →
          (∀ id ∈ plan.order,
            statusOf sweep.states id = some .completed ∨
              statusOf sweep.states id = some .skipped) ∨
          ∀ headroom, 0 < headroom →
            (claimReady plan sweep.states (countRunning sweep.states)
              headroom).claimed ≠ [])) ∧
    (∀ history scheduler,
      Run (ClaimableStep plan) (.initial plan) history scheduler →
      scheduler.stalled = false) ∧
    ∀ history scheduler event next nodeDispatches after,
      Run (SchedulerStep plan) (.initial plan) history scheduler →
      scheduler.failing = false →
      ¬KeepsClaimable plan scheduler event →
      SchedulerStep plan scheduler event next →
      nodeDispatches < nodeDispatchesPerRun →
      SchedulerStep plan next (.decide false nodeDispatches .none) after →
      after.stalled = true := by
  have ordered := ordered_of_buildRunPlan built
  refine ⟨?_, ?_, ?_⟩
  · intro history scheduler run fuel enough
    have sound := statusesSound_of_run ordered run
    obtain ⟨sweep, returned⟩ := propagateSkips_returns (fun id => (sound.known id).mp)
      (Nat.lt_of_le_of_lt (List.length_filter_le _ _) enough)
    refine ⟨sweep, returned, fun id pending =>
      skipped_iff ordered sound returned pending, fun nothing => ?_⟩
    have soundAfter := sound.moves (propagateSkips_effect returned).1
    have idle : countRunning sweep.states = 0 :=
      countRunning_eq_zero_iff.mpr fun id state found running =>
        (nothing id).1 (by simp [statusOf, found, running])
    cases settled : allSettled sweep.states with
    | true =>
      refine Or.inl fun id present => ?_
      obtain ⟨state, found⟩ :=
        Option.isSome_iff_exists.mp ((soundAfter.known id).mpr present)
      have final := allSettled_iff.mp settled id state found
      have unfailed := soundAfter.unfailed id state found
      cases status : state.status <;>
        simp_all [statusOf, VertexStatus.settled]
    | false =>
      refine Or.inr fun headroom room => ?_
      obtain ⟨id, claimable⟩ := soundAfter.exists_claimable ordered
        (propagateSkips_effect returned).2.2 idle settled
      rw [idle]
      exact claimReady_ne_nil ordered width room claimable
  · intro history scheduler run
    exact (progressing_of_run ordered width run).unstalled
  · intro history scheduler event next nodeDispatches after _ unfailing loses taken left decided
    exact stalls_of_not_keepsClaimable unfailing loses taken left decided

/-- Two conditions that share a target; the second one's target also comes after
its other branch. -/
def crossedConditions : WorkflowSpec where
  id := jsText "crossed"
  inputs := []
  context := []
  agents := []
  nodes := [
    .condition {
      id := jsText "c"
      expression := jsText "true"
      branches := [
        { when := .boolean true, targetNode := jsText "x" },
        { when := .boolean false, targetNode := jsText "a" }]
      default := none },
    .condition {
      id := jsText "d"
      expression := jsText "true"
      branches := [
        { when := .boolean true, targetNode := jsText "x" },
        { when := .boolean false, targetNode := jsText "y" }]
      default := none },
    .transform { id := jsText "a", transform := jsText "1" },
    .transform { id := jsText "y", transform := jsText "1" },
    .output (jsText "x")]
  edges := [{ source := jsText "y", target := jsText "x" }]
  maxParallel := none
  distinctIds := by decide

/-- The second condition completes while the pass publishes that the first one's
other target is skipped. -/
def crossedEvents : List SchedulerEvent := [
  .pass 6,
  .decide false 0 .none,
  .complete (jsText "c") (some [jsText "x"]),
  .pass 6,
  .complete (jsText "d") (some [jsText "x"]),
  .decide false 2 .none]

/-- A run of the crossed conditions is found stalled. -/
theorem scheduler_progress_lost :
    ∃ plan,
      buildRunPlan noChecks crossedConditions none = .ok plan ∧
      0 < parallelCap plan ∧
      ∃ history scheduler,
        Run (SchedulerStep plan) (.initial plan) history scheduler ∧
        scheduler.stalled = true := by
  have evaluated :
      ((buildRunPlan noChecks crossedConditions none).toOption.bind fun plan =>
        (crossedEvents.foldlM (SchedulerState.apply plan) (.initial plan)).map
          fun scheduler => (decide (0 < parallelCap plan), scheduler.stalled)) =
        some (true, true) := by
    decide +kernel
  obtain ⟨plan, returned, evaluated⟩ := Option.bind_eq_some_iff.mp evaluated
  obtain ⟨scheduler, taken, outcome⟩ := Option.map_eq_some_iff.mp evaluated
  obtain ⟨width, stalled⟩ := Prod.mk.inj outcome
  exact ⟨plan, toOption_eq_some.mp returned, of_decide_eq_true width, crossedEvents, scheduler,
    .of_foldlM taken, stalled⟩

/-- The event completes no vertex while a pass publishes its skips. -/
def CompletesApart (scheduler : SchedulerState) : SchedulerEvent → Prop
  | .complete _ _ => scheduler.publishing.isSome = false
  | _ => True

instance (scheduler : SchedulerState) (event : SchedulerEvent) :
    Decidable (CompletesApart scheduler event) :=
  match event with
  | .complete _ _ => inferInstanceAs (Decidable (scheduler.publishing.isSome = false))
  | .pass _ => isTrue trivial
  | .decide .. => isTrue trivial

theorem CompletesApart.keepsClaimable
    {plan : RunPlan} {scheduler : SchedulerState} {event : SchedulerEvent}
    (apart : CompletesApart scheduler event) :
    KeepsClaimable plan scheduler event := by
  cases event with
  | complete id selected =>
    intro publishing
    rw [apart] at publishing
    cases publishing
  | _ => trivial

/-- The second condition completes once the pass has published its skip. -/
def uncrossedEvents : List SchedulerEvent := [
  .pass 6,
  .decide false 0 .none,
  .complete (jsText "c") (some [jsText "x"]),
  .pass 6,
  .decide false 2 .none,
  .complete (jsText "d") (some [jsText "x"]),
  .pass 6]

/-- A run of the crossed conditions that is not found stalled, and the skips after it. -/
theorem scheduler_progress_crossed :
    ∃ plan scheduler,
      buildRunPlan noChecks crossedConditions none = .ok plan ∧
      Run (ClaimableStep plan) (.initial plan) uncrossedEvents scheduler ∧
      scheduler.stalled = false ∧
      ∃ sweep,
        propagateSkips plan (plan.order.length + 1) scheduler.states = some sweep ∧
        ∀ id,
          statusOf scheduler.states id = some .pending →
          (statusOf sweep.states id = some .skipped ↔
            ¬OnLivePath plan sweep.states id ∧
              DependenciesSettled plan sweep.states id) := by
  have evaluated :
      ((buildRunPlan noChecks crossedConditions none).toOption.bind fun plan =>
        (uncrossedEvents.foldlM
          (fun scheduler event =>
            if CompletesApart scheduler event then scheduler.apply plan event else none)
          (.initial plan)).map
          fun _ => decide (0 < parallelCap plan)) = some true := by
    decide +kernel
  obtain ⟨plan, returned, evaluated⟩ := Option.bind_eq_some_iff.mp evaluated
  obtain ⟨scheduler, taken, isWide⟩ := Option.map_eq_some_iff.mp evaluated
  have built := toOption_eq_some.mp returned
  have run : Run (ClaimableStep plan) (.initial plan) uncrossedEvents scheduler :=
    (Run.of_guarded taken).imp fun _ _ _ step => ⟨step.1.keepsClaimable, step.2⟩
  have progress := scheduler_progress built (of_decide_eq_true isWide)
  obtain ⟨sweep, propagated, skips, -⟩ := progress.1 uncrossedEvents scheduler
    (run.imp fun _ _ _ => And.right) (plan.order.length + 1) (Nat.lt_succ_self _)
  exact ⟨plan, scheduler, built, run, progress.2.1 uncrossedEvents scheduler run, sweep,
    propagated, skips⟩

end Relavium.Run
