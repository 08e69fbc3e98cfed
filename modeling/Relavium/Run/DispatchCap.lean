import Relavium.Run.DispatchLoop
import Relavium.Run.SchedulerPass

/-!
# The cap on dispatches

A run makes at most `nodeDispatchesPerRun` starts as long as every admission, of
a retry or of claimed vertices, counts the dispatches that were admitted before
and have not been made yet.  The checks of the code count the dispatches made.
-/

namespace Relavium.Run

open Library
open Plan
open Shared
open Interpolation

/-! ## Admissions -/

/-- Whether a vertex is claimable. -/
def isClaimable (plan : RunPlan) (states : VertexStates)
    (id : JsString) : Bool :=
  match states.get id, plan.vertices.get id with
  | some state, some vertex =>
    decide (state.status = .pending) && allDepsSettled states vertex &&
      hasLiveEdge plan states vertex
  | _, _ => false

/-- How many vertices there are to claim, within the width of the plan. -/
def claimDemand (plan : RunPlan)
    (states : VertexStates) : Nat :=
  min (parallelCap plan - countRunning states) (plan.order.countP (isClaimable plan states))

namespace DispatchState

/-- The claims that a pass has not started yet. -/
def unstarted (state : DispatchState) : List JsString :=
  match state.phase with
  | .starting unstarted => unstarted
  | _ => []

/-- The dispatches that were admitted and have not been made. -/
def outstanding (state : DispatchState) : Nat :=
  state.retries.length + state.unstarted.length

/-- Whether a pass goes on to claim: the run is not stopping, vertices are left and
so are dispatches. -/
def claims (state : DispatchState) : Bool :=
  decide (state.phase = .publishing) && !state.cancelling && !state.failing &&
    !allSettled state.states &&
    decide (state.nodeDispatches < nodeDispatchesPerRun)

/-- How many dispatches an event admits. -/
def admitted (plan : RunPlan)
    (state : DispatchState) : DispatchEvent → Nat
  | .decide _ =>
    if state.claims then
      min (nodeDispatchesPerRun - state.nodeDispatches) (claimDemand plan state.states)
    else 0
  | .outcome attempt (.failed error) =>
    if state.admitsRetry plan attempt error then 1 else 0
  | _ => 0

end DispatchState

/-- What the event admits fits under the cap, next to the dispatches made and those
admitted before. -/
def LeavesRoom (plan : RunPlan) (state : DispatchState)
    (event : DispatchEvent) : Prop :=
  0 < state.admitted plan event →
    state.nodeDispatches + state.outstanding + state.admitted plan event ≤ nodeDispatchesPerRun

instance (plan : RunPlan) (state : DispatchState) (event : DispatchEvent) :
    Decidable (LeavesRoom plan state event) :=
  inferInstanceAs (Decidable (_ → _))

/-- The steps that only admit what fits under the cap. -/
def RoomyStep (plan : RunPlan) (state : DispatchState) (event : DispatchEvent)
    (next : DispatchState) : Prop :=
  LeavesRoom plan state event ∧ DispatchStep plan state event next

/-! ## How many vertices are claimed -/

section Demand

variable
  {plan : RunPlan}

theorem isClaimable_iff (states : VertexStates) (id : JsString) :
    isClaimable plan states id = true ↔ Claimable plan states id := by
  unfold isClaimable Claimable
  cases found : states.get id with
  | none => simp
  | some state =>
    cases vertexFound : plan.vertices.get id with
    | none => simp
    | some vertex => simp [and_assoc]

/-- A pending vertex that starts to run makes no other vertex claimable, or less
so. -/
theorem isClaimable_set_running
    {states : VertexStates} {id : JsString} {state : VertexState}
    (found : states.get id = some state) (pending : state.status = .pending) {other : JsString}
    (different : other ≠ id) :
    isClaimable plan (states.set id { state with status := .running }) other =
      isClaimable plan states other := by
  have settledSame : ∀ dependency,
      ((states.set id { state with status := .running }).get dependency).any
          (fun state => state.status.settled) =
        (states.get dependency).any fun state => state.status.settled := by
    intro dependency
    rw [OrderedMap.get_set]
    split
    · next same =>
      subst same
      rw [found, Option.any_some, Option.any_some, pending]
      rfl
    · rfl
  have carriesSame : ∀ target,
      carriesEdge plan (states.set id { state with status := .running }) target =
        carriesEdge plan states target := by
    intro target
    funext dependency
    unfold carriesEdge
    rw [OrderedMap.get_set]
    by_cases same : dependency = id
    · subst same
      simp [found, pending]
    · simp [same]
  unfold isClaimable allDepsSettled hasLiveEdge
  simp only [settledSame, carriesSame, OrderedMap.get_set_of_ne states different]

/-- Claiming stops at a bound or at the end of the order, whichever comes first. -/
theorem claimFrom_length
    {cap headroom : Nat} {ids : List JsString} (nodup : ids.Nodup) (scan : ClaimScan) :
    (claimFrom plan cap headroom ids scan).claimed.length =
      scan.claimed.length +
        min (min (cap - scan.running) (headroom - scan.claimed.length))
          (ids.countP (isClaimable plan scan.states)) := by
  induction ids generalizing scan with
  | nil => simp [claimFrom]
  | cons id rest ih =>
    obtain ⟨absent, restNodup⟩ := List.nodup_cons.mp nodup
    by_cases bounded : cap ≤ scan.running ∨ headroom ≤ scan.claimed.length
    · have stops : min (cap - scan.running) (headroom - scan.claimed.length) = 0 := by
        omega
      rw [claimFrom.eq_def]
      simp only [if_pos bounded, stops, Nat.zero_min, Nat.add_zero]
    by_cases claimable : isClaimable plan scan.states id = true
    · obtain ⟨state, vertex, found, vertexFound, pending, settled, edge⟩ :=
        (isClaimable_iff scan.states id).mp claimable
      have others : rest.countP (isClaimable plan
            (scan.states.set id { state with status := .running })) =
          rest.countP (isClaimable plan scan.states) := by
        refine List.countP_congr fun other member => ?_
        have different : other ≠ id := fun same => absent (same ▸ member)
        rw [isClaimable_set_running found pending different]
      rw [claimFrom.eq_def]
      simp only [if_neg bounded, vertexFound, found]
      rw [if_pos ⟨pending, settled, edge⟩, ih restNodup]
      dsimp only
      rw [others, List.countP_cons_of_pos claimable, List.length_append, List.length_singleton]
      omega
    · have skips : claimFrom plan cap headroom (id :: rest) scan =
          claimFrom plan cap headroom rest scan := by
        rw [claimFrom.eq_def]
        simp only [if_neg bounded]
        split
        · next vertex state vertexFound found =>
          rw [if_neg fun ready => claimable ((isClaimable_iff _ _).mpr
            ⟨state, vertex, found, vertexFound, ready⟩)]
        · rfl
      rw [skips, ih restNodup, List.countP_cons_of_neg claimable]

theorem claimReady_length (ordered : plan.Ordered) (states : VertexStates) (headroom : Nat) :
    (claimReady plan states (countRunning states) headroom).claimed.length =
      min headroom (claimDemand plan states) := by
  unfold claimReady claimDemand
  rw [claimFrom_length ordered.nodup]
  simp only [List.length_nil, Nat.zero_add, Nat.sub_zero]
  omega

end Demand

/-! ## What a step does to the counts -/

/-- Neither dispatches nor admissions differ. -/
structure SameCounts (before after : DispatchState) : Prop where
  nodeDispatches : after.nodeDispatches = before.nodeDispatches
  started : after.started = before.started
  retries : after.retries = before.retries
  phase : after.phase = before.phase

section Counts

theorem sameCounts_setStatus
    (state : DispatchState) (id : JsString) (status : VertexStatus)
    (selected : Option (List JsString)) :
    SameCounts state (state.setStatus id status selected) := by
  unfold DispatchState.setStatus
  split
  · exact ⟨rfl, rfl, rfl, rfl⟩
  · split
    · exact ⟨rfl, rfl, rfl, rfl⟩
    · exact ⟨rfl, rfl, rfl, rfl⟩

theorem sameCounts_settleFailed (state : DispatchState) (id : JsString) :
    SameCounts state (state.settleFailed id) := by
  have counts := sameCounts_setStatus state id .failed none
  unfold DispatchState.settleFailed
  dsimp only
  split
  · exact counts
  · exact ⟨counts.nodeDispatches, counts.started, counts.retries, counts.phase⟩

theorem sameCounts_onOutcome (state : DispatchState) (id : JsString) (outcome : AttemptOutcome) :
    SameCounts state (state.onOutcome id outcome) := by
  unfold DispatchState.onOutcome
  split
  · exact ⟨rfl, rfl, rfl, rfl⟩
  · cases outcome with
    | completed selected | paused => exact sameCounts_setStatus state id _ _
    | failed error => exact sameCounts_settleFailed state id

theorem endAttempt_counts
    (plan : RunPlan) (state : DispatchState) (attempt : VertexAttempt)
    (outcome : AttemptOutcome) :
    let ended := state.endAttempt plan attempt outcome
    ended.nodeDispatches = state.nodeDispatches ∧
      ended.started = state.started ∧
      ended.phase = state.phase ∧
      ended.retries.length =
        state.retries.length + state.admitted plan (.outcome attempt outcome) := by
  have settles (outcome : AttemptOutcome) := sameCounts_onOutcome
    { state with attempts := state.attempts.erase attempt } attempt.id outcome
  have unchanged (outcome : AttemptOutcome) :
      let ended := DispatchState.onOutcome
        { state with attempts := state.attempts.erase attempt } attempt.id outcome
      ended.nodeDispatches = state.nodeDispatches ∧
        ended.started = state.started ∧
        ended.phase = state.phase ∧
        ended.retries.length = state.retries.length :=
    ⟨(settles outcome).nodeDispatches, (settles outcome).started,
      (settles outcome).phase, congrArg List.length (settles outcome).retries⟩
  unfold DispatchState.endAttempt DispatchState.admitted
  cases outcome with
  | completed selected | paused => exact unchanged _
  | failed error =>
    dsimp only
    split
    · exact ⟨rfl, rfl, rfl, by simp⟩
    · exact unchanged _

/-- A verdict admits the claims of a pass that claims, and nothing else. -/
theorem applyVerdict_counts
    {plan : RunPlan} (ordered : plan.Ordered) {state : DispatchState}
    (publishing : state.phase = .publishing) (parked : ParkedWork) :
    let next := state.applyVerdict (stepVerdict plan state.states (state.control parked))
    next.nodeDispatches = state.nodeDispatches ∧
      next.started = state.started ∧
      next.retries = state.retries ∧
      next.unstarted.length ≤ state.admitted plan (.decide parked) := by
  dsimp only
  cases verdict : stepVerdict plan state.states (state.control parked) with
  | settle terminal | waitToSettle | dispatchLimit => exact ⟨rfl, rfl, rfl, Nat.zero_le _⟩
  | idle idle => cases idle <;> exact ⟨rfl, rfl, rfl, Nat.zero_le _⟩
  | claimed scan =>
    refine ⟨rfl, rfl, rfl, ?_⟩
    obtain ⟨rfl, uncancelled, unfailing, unsettled, left⟩ :=
      claimed_of_stepVerdict verdict
    have claims : state.claims = true := by
      dsimp only [DispatchState.control] at uncancelled unfailing left
      simp [DispatchState.claims, publishing, uncancelled, unfailing, unsettled, left]
    unfold DispatchState.admitted
    rw [if_pos claims]
    exact (claimReady_length ordered state.states _).le

/-- A dispatch is counted with its `node:started`, and the dispatches made or
outstanding grow by what is admitted at most. -/
structure Counted (before : DispatchState) (admitted : Nat) (after : DispatchState) : Prop where
  made : after.nodeDispatches + before.started.length =
    before.nodeDispatches + after.started.length
  room : after.nodeDispatches + after.outstanding ≤
    before.nodeDispatches + before.outstanding + admitted

variable {plan : RunPlan} {state next : DispatchState}

theorem SameCounts.counted (counts : SameCounts state next) (admitted : Nat) :
    Counted state admitted next where
  made := by rw [counts.nodeDispatches, counts.started]
  room := by
    unfold DispatchState.outstanding DispatchState.unstarted
    rw [counts.nodeDispatches, counts.retries, counts.phase]
    omega

/-- A pass that ends or has not claimed yet has nothing left to start. -/
theorem counted_pass
    (made : next.nodeDispatches = state.nodeDispatches) (started : next.started = state.started)
    (retries : next.retries = state.retries) (unstarted : next.unstarted = []) :
    Counted state 0 next where
  made := by rw [made, started]
  room := by
    unfold DispatchState.outstanding
    rw [made, retries, unstarted, List.length_nil]
    omega

theorem counted_decide
    (ordered : plan.Ordered) (publishing : state.phase = .publishing) (parked : ParkedWork) :
    Counted state (state.admitted plan (.decide parked))
      (state.applyVerdict (stepVerdict plan state.states (state.control parked))) := by
  obtain ⟨made, started, retries, unstarted⟩ := applyVerdict_counts ordered publishing parked
  refine ⟨by rw [made, started], ?_⟩
  unfold DispatchState.outstanding
  rw [made, retries]
  omega

/-- An admitted dispatch is made. -/
theorem counted_start
    (made : next.nodeDispatches = state.nodeDispatches) (started : next.started = state.started)
    (fewer : next.outstanding + 1 ≤ state.outstanding) (attempt : VertexAttempt) :
    Counted state 0 (next.start attempt) where
  made := by
    simp only [DispatchState.start, made, started, List.length_append, List.length_singleton]
    omega
  room := by
    have outstanding : (next.start attempt).outstanding = next.outstanding := rfl
    have count : (next.start attempt).nodeDispatches = state.nodeDispatches + 1 :=
      congrArg (· + 1) made
    rw [outstanding, count]
    omega

theorem counted_endAttempt (attempt : VertexAttempt) (outcome : AttemptOutcome) :
    Counted state (state.admitted plan (.outcome attempt outcome))
      (state.endAttempt plan attempt outcome) := by
  obtain ⟨made, started, phase, retries⟩ := endAttempt_counts plan state attempt outcome
  refine ⟨by rw [made, started], ?_⟩
  unfold DispatchState.outstanding DispatchState.unstarted
  rw [made, retries, phase]
  omega

/-- A retry that is dropped is not outstanding any more. -/
theorem counted_dropRetry (attempt : VertexAttempt) (error : NodeFailure) :
    Counted state 0 (DispatchState.onOutcome
      { state with retries := state.retries.erase attempt } attempt.id (.failed error)) := by
  have counts := sameCounts_onOutcome
    { state with retries := state.retries.erase attempt } attempt.id (.failed error)
  have fewer := (state.retries.erase_sublist (a := attempt)).length_le
  refine ⟨by rw [counts.nodeDispatches, counts.started], ?_⟩
  unfold DispatchState.outstanding DispatchState.unstarted
  rw [counts.nodeDispatches, counts.retries, counts.phase]
  dsimp only
  omega

/-- Every step counts its dispatches, and admits at most what its event does. -/
theorem counted_of_step
    (ordered : plan.Ordered) {event : DispatchEvent} (step : DispatchStep plan state event next) :
    Counted state (state.admitted plan event) next := by
  unfold DispatchStep DispatchState.apply at step
  cases event with
  | pass fuel =>
    dsimp only at step
    split at step
    · cases step
    · obtain ⟨sweep, _, rfl⟩ := Option.map_eq_some_iff.mp step
      exact counted_pass rfl rfl rfl rfl
  | decide parked =>
    dsimp only at step
    split at step
    · next publishing =>
      cases step
      exact counted_decide ordered publishing parked
    · cases step
  | startClaim =>
    dsimp only at step
    split at step
    · next id rest phase =>
      split at step
      · cases step
      cases step
      have made : { state with phase := .starting rest }.nodeDispatches = state.nodeDispatches := rfl
      refine counted_start made rfl ?_ _
      simp [DispatchState.outstanding, DispatchState.unstarted, phase, Nat.add_assoc]
    · cases step
  | endStep =>
    dsimp only at step
    split at step
    · cases step
      exact counted_pass rfl rfl rfl rfl
    · cases step
  | outcome attempt outcome =>
    dsimp only at step
    split at step
    · cases step
      exact counted_endAttempt attempt outcome
    · cases step
  | startRetry attempt =>
    dsimp only at step
    split at step
    · next admitted =>
      cases step
      have fewer := List.length_erase_of_mem admitted.1
      have some' := List.length_pos_of_mem admitted.1
      have made : { state with retries := state.retries.erase attempt }.nodeDispatches =
          state.nodeDispatches := rfl
      refine counted_start made rfl ?_ _
      simp only [DispatchState.outstanding, DispatchState.unstarted, fewer]
      omega
    · cases step
  | dropRetry attempt error =>
    dsimp only at step
    split at step
    · cases step
      exact counted_dropRetry attempt error
    · cases step
  | resolve id status =>
    dsimp only at step
    split at step
    · cases step
      exact (sameCounts_setStatus state id status none).counted 0
    · cases step
  | deadline id error =>
    cases step
    exact (sameCounts_onOutcome state id (.failed error)).counted 0
  | cancel =>
    dsimp only at step
    split at step
    · cases step
    · cases step
      have counts : SameCounts state { state with cancelling := true, aborted := true } :=
        ⟨rfl, rfl, rfl, rfl⟩
      exact counts.counted 0

end Counts

/-! ## Runs -/

section Runs

variable
  {plan : RunPlan}
  {states : VertexStates}
  {seed : Nat}
  {state : DispatchState}
  {history : List DispatchEvent}

/-- The counter counts the starts of the run, those before the checkpoint
included. -/
theorem nodeDispatches_of_run
    (ordered : plan.Ordered) (run : Run (DispatchStep plan) (.seeded states seed) history state) :
    state.nodeDispatches = seed + state.started.length := by
  refine run.invariant (fun _ state => state.nodeDispatches = seed + state.started.length) rfl ?_
  intro history state event next _ counted step
  have made := (counted_of_step ordered step).made
  omega

/-- As long as admissions leave room, what was made and what is outstanding fits
under the cap. -/
theorem room_of_run
    (ordered : plan.Ordered) (within : seed ≤ nodeDispatchesPerRun)
    (run : Run (RoomyStep plan) (.seeded states seed) history state) :
    state.nodeDispatches + state.outstanding ≤ nodeDispatchesPerRun := by
  refine run.invariant
    (fun _ state =>
      state.nodeDispatches + state.outstanding ≤ nodeDispatchesPerRun) within ?_
  rintro history state event next _ fits ⟨room, step⟩
  have grows := (counted_of_step ordered step).room
  by_cases admits : 0 < state.admitted plan event
  · exact grows.trans (room admits)
  · omega

theorem exists_run_starting_claims
    (plan : RunPlan) (unstarted : List JsString) (state : DispatchState)
    (running : state.stopped = false) (phase : state.phase = .starting unstarted) :
    ∃ history next,
      Run (DispatchStep plan) state history next ∧
      next.stopped = false ∧
      next.retries = state.retries ∧
      next.nodeDispatches = state.nodeDispatches + unstarted.length := by
  induction unstarted generalizing state with
  | nil => exact ⟨[], state, .nil, running, rfl, rfl⟩
  | cons id rest ih =>
    let next := { state with phase := .starting rest }.start { id, number := 1 }
    have goesOn : ¬(state.settled = true ∨ state.aborted = true) := by
      simp only [DispatchState.stopped, Bool.or_eq_false_iff] at running
      simp [running]
    have step : DispatchStep plan state .startClaim next := by
      unfold DispatchStep DispatchState.apply
      simp only [phase, if_neg goesOn]
      rfl
    obtain ⟨history, final, run, still, retries, made⟩ :=
      ih next running rfl
    refine ⟨.startClaim :: history, final, ?_, still, retries, ?_⟩
    · exact (Run.snoc .nil step : Run _ _ [DispatchEvent.startClaim] next).append run
    · rw [made, List.length_cons]
      dsimp only [next, DispatchState.start]
      omega

theorem exists_run_starting_retries
    (plan : RunPlan) (retries : List VertexAttempt) (state : DispatchState)
    (running : state.stopped = false) (announced : state.retries = retries) :
    ∃ history next,
      Run (DispatchStep plan) state history next ∧
      next.nodeDispatches = state.nodeDispatches + retries.length := by
  induction retries generalizing state with
  | nil => exact ⟨[], state, .nil, rfl⟩
  | cons attempt rest ih =>
    let next := { state with retries := state.retries.erase attempt }.start
      { attempt with number := attempt.number + 1 }
    have step : DispatchStep plan state (.startRetry attempt) next := by
      unfold DispatchStep DispatchState.apply
      exact if_pos ⟨by rw [announced]; exact List.mem_cons_self, by
        rw [running]; exact Bool.false_ne_true⟩
    have left : next.retries = rest := by
      dsimp only [next, DispatchState.start]
      rw [announced, List.erase_cons_head]
    obtain ⟨history, final, run, made⟩ := ih next running left
    refine ⟨.startRetry attempt :: history, final, ?_, ?_⟩
    · exact (Run.snoc .nil step : Run _ _ [DispatchEvent.startRetry attempt] next).append run
    · rw [made, List.length_cons]
      dsimp only [next, DispatchState.start]
      omega

theorem exists_run_outstanding (plan : RunPlan) (running : state.stopped = false) :
    ∃ history next,
      Run (DispatchStep plan) state history next ∧
      next.nodeDispatches = state.nodeDispatches + state.outstanding := by
  have claimed : ∃ history next,
      Run (DispatchStep plan) state history next ∧
      next.stopped = false ∧
      next.retries = state.retries ∧
      next.nodeDispatches = state.nodeDispatches + state.unstarted.length := by
    cases phase : state.phase with
    | starting unstarted =>
      have started := exists_run_starting_claims plan unstarted state running phase
      unfold DispatchState.unstarted
      rw [phase]
      exact started
    | idle => exact ⟨[], state, .nil, running, rfl, by simp [DispatchState.unstarted, phase]⟩
    | publishing =>
      exact ⟨[], state, .nil, running, rfl, by simp [DispatchState.unstarted, phase]⟩
  obtain ⟨first, middle, firstRun, still, retries, claims⟩ := claimed
  obtain ⟨second, final, secondRun, made⟩ :=
    exists_run_starting_retries plan middle.retries middle still rfl
  refine ⟨first ++ second, final, firstRun.append secondRun, ?_⟩
  rw [made, claims, retries]
  unfold DispatchState.outstanding
  omega

/-- A step that admits dispatches makes all of them outstanding, in a run that goes
on. -/
theorem admitted_of_step
    (ordered : plan.Ordered) {event : DispatchEvent} {next : DispatchState}
    (running : state.stopped = false) (admits : 0 < state.admitted plan event)
    (step : DispatchStep plan state event next) :
    next.stopped = false ∧
      next.nodeDispatches + next.outstanding =
        state.nodeDispatches + state.outstanding + state.admitted plan event := by
  unfold DispatchStep DispatchState.apply at step
  cases event with
  | decide parked =>
    dsimp only at step
    split at step
    · next publishing =>
      cases step
      have claims : state.claims = true := by
        by_contra claimless
        simp [DispatchState.admitted, claimless] at admits
      have demand : state.admitted plan (.decide parked) =
          min (nodeDispatchesPerRun - state.nodeDispatches)
            (claimDemand plan state.states) := if_pos claims
      simp only [DispatchState.claims, Bool.and_eq_true, Bool.not_eq_true',
        decide_eq_true_eq] at claims
      obtain ⟨⟨⟨⟨_, uncancelled⟩, unfailing⟩, unsettled⟩, left⟩ := claims
      have length := claimReady_length ordered state.states
        (nodeDispatchesPerRun - state.nodeDispatches)
      have nonempty : (claimReady plan state.states (countRunning state.states)
          (nodeDispatchesPerRun - state.nodeDispatches)).claimed ≠ [] := by
        rw [← List.length_pos_iff_ne_nil, length, ← demand]
        exact admits
      have verdict : stepVerdict plan state.states (state.control parked) =
          .claimed (claimReady plan state.states (countRunning state.states)
            (nodeDispatchesPerRun - state.nodeDispatches)) :=
        (@stepVerdict_open plan _ (state.control parked) uncancelled unfailing
          unsettled left).trans (if_neg nonempty)
      rw [verdict, demand, ← length]
      refine ⟨running, ?_⟩
      simp [DispatchState.applyVerdict, DispatchState.outstanding,
        DispatchState.unstarted, publishing]
      omega
    · cases step
  | outcome attempt outcome =>
    dsimp only at step
    split at step
    · cases step
      obtain ⟨made, _, phase, retries⟩ :=
        endAttempt_counts plan state attempt outcome
      refine ⟨?_, ?_⟩
      · cases outcome with
        | completed selected | paused => exact absurd admits (Nat.lt_irrefl 0)
        | failed error =>
          have retried : state.admitsRetry plan attempt error = true := by
            by_contra refused
            simp [DispatchState.admitted, refused] at admits
          unfold DispatchState.endAttempt
          simp only [retried, if_true]
          exact running
      · unfold DispatchState.outstanding DispatchState.unstarted
        rw [made, retries, phase]
        omega
    · cases step
  | _ => exact absurd admits (Nat.lt_irrefl 0)

end Runs

/-- For every plan, every run from a fresh start or a checkpoint and every
interleaving: as long as what a pass claims and what a retry check lets through
leaves room for the dispatches admitted before, the run never makes more than
`nodeDispatchesPerRun` starts, those before the checkpoint included.  An admission
that leaves no room, in a run that is not stopped, lets the run exceed them. -/
theorem dispatch_cap
    {checks : AuthoringChecks} {spec : WorkflowSpec} {registry : Option AgentTable}
    {plan : RunPlan} (built : buildRunPlan checks spec registry = .ok plan)
    {states : VertexStates} {seed : Nat} (within : seed ≤ nodeDispatchesPerRun) :
    (∀ history state,
      Run (RoomyStep plan) (.seeded states seed) history state →
      seed + state.started.length ≤ nodeDispatchesPerRun) ∧
    ∀ history state event next,
      Run (DispatchStep plan) (.seeded states seed) history state →
      state.stopped = false →
      ¬LeavesRoom plan state event →
      DispatchStep plan state event next →
      ∃ later final,
        Run (DispatchStep plan) next later final ∧
        nodeDispatchesPerRun < seed + final.started.length := by
  have ordered := ordered_of_buildRunPlan built
  constructor
  · intro history state run
    have taken : Run (DispatchStep plan) (.seeded states seed) history state :=
      run.imp fun _ _ _ step => step.2
    have room := room_of_run ordered within run
    rw [← nodeDispatches_of_run ordered taken]
    omega
  · intro history state event next run running crowded step
    unfold LeavesRoom at crowded
    push Not at crowded
    obtain ⟨admits, isOver⟩ := crowded
    obtain ⟨still, total⟩ := admitted_of_step ordered running admits step
    obtain ⟨later, final, laterRun, made⟩ := exists_run_outstanding plan still
    have whole := (Run.snoc run step).append laterRun
    refine ⟨later, final, laterRun, ?_⟩
    rw [← nodeDispatches_of_run ordered whole]
    omega

/-- Two transforms that may each be tried twice. -/
def twoRetries : WorkflowSpec where
  id := jsText "retries"
  inputs := []
  context := []
  agents := []
  nodes := [
    .transform {
      id := jsText "a"
      transform := jsText "1"
      retry := some { max := 2, retryOn := none } },
    .transform {
      id := jsText "b"
      transform := jsText "1"
      retry := some { max := 2, retryOn := none } }]
  edges := []
  maxParallel := none
  distinctIds := by decide

/-- A sandbox failure that may be retried. -/
def sandboxFailure : AttemptOutcome :=
  .failed { code := .sandboxError, message := "unavailable", retryable := true }

/-- Both transforms fail once, and both pass the check of the cap before either is
tried again. -/
def crowdedEvents : List DispatchEvent := [
  .pass 3,
  .decide .none,
  .startClaim,
  .startClaim,
  .endStep,
  .outcome { id := jsText "a", number := 1 } sandboxFailure,
  .outcome { id := jsText "b", number := 1 } sandboxFailure,
  .startRetry { id := jsText "a", number := 1 },
  .startRetry { id := jsText "b", number := 1 }]

/-- Resumed after 497 dispatches, a run makes 501. -/
theorem dispatch_cap_exceeded :
    ∃ plan,
      buildRunPlan noChecks twoRetries none = .ok plan ∧
      ∃ history state,
        Run (DispatchStep plan) (.seeded (initialStates plan) 497) history state ∧
        nodeDispatchesPerRun < 497 + state.started.length := by
  have evaluated :
      ((buildRunPlan noChecks twoRetries none).toOption.bind fun plan =>
        (crowdedEvents.foldlM (DispatchState.apply plan) (.seeded (initialStates plan) 497)).map
          fun state => state.started.length) =
        some 4 := by
    decide +kernel
  obtain ⟨plan, returned, evaluated⟩ := Option.bind_eq_some_iff.mp evaluated
  obtain ⟨state, taken, outcome⟩ := Option.map_eq_some_iff.mp evaluated
  refine ⟨plan, toOption_eq_some.mp returned, crowdedEvents, state, .of_foldlM taken, ?_⟩
  rw [outcome]
  decide

/-- Resumed after 496 dispatches, they find room for all four. -/
theorem dispatch_cap_retries :
    ∃ plan state,
      buildRunPlan noChecks twoRetries none = .ok plan ∧
      Run (RoomyStep plan) (.seeded (initialStates plan) 496) crowdedEvents state ∧
      state.started.length = 4 ∧
      496 + state.started.length ≤ nodeDispatchesPerRun := by
  have evaluated :
      ((buildRunPlan noChecks twoRetries none).toOption.bind fun plan =>
        (crowdedEvents.foldlM
          (fun state event =>
            if LeavesRoom plan state event then state.apply plan event else none)
          (.seeded (initialStates plan) 496)).map
          fun state => state.started.length) =
        some 4 := by
    decide +kernel
  obtain ⟨plan, returned, evaluated⟩ := Option.bind_eq_some_iff.mp evaluated
  obtain ⟨state, taken, outcome⟩ := Option.map_eq_some_iff.mp evaluated
  have built := toOption_eq_some.mp returned
  have run : Run (RoomyStep plan) (.seeded (initialStates plan) 496) crowdedEvents state :=
    .of_guarded taken
  exact ⟨plan, state, built, run, outcome,
    (dispatch_cap built (by decide)).1 crowdedEvents state run⟩

end Relavium.Run
