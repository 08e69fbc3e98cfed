import Relavium.Run.SuspensionInvariant

/-!
# One decision for each gate

In every log that the suspension reducer accepts, a gate is decided at most
once.  A decided gate yields no further transition, is never pending again, and
every later event that states a decision for it repeats the recorded one.
-/

namespace Relavium.Run

open Library

/-- An accepted event together with the transition it yielded. -/
abbrev SuspensionCall := RunEvent × Option GateTransition

/-- One accepted event takes the reducer to its next state. -/
abbrev SuspensionStep :
    RunSuspensionReducer → SuspensionCall → RunSuspensionReducer → Prop :=
  Accepts RunSuspensionReducer.apply

/-- The call yields a transition of a gate. -/
def yieldsFor (runId gateId : String) (call : SuspensionCall) : Bool :=
  call.2.any fun transition =>
    transition.gate.runId == runId && transition.gate.gateId == gateId

/-- The call decides a gate. -/
def decidesFor (runId gateId : String) (call : SuspensionCall) : Bool :=
  yieldsFor runId gateId call && call.2.any GateTransition.decides

/-- The call names a gate. -/
def namesGate (runId gateId : String) (call : SuspensionCall) : Bool :=
  call.1.runId == runId && call.1.body.namedGate == some gateId

namespace RunSuspensionReducer

section Steps

variable {start reducer next : RunSuspensionReducer} {event : RunEvent}
  {transition : Option GateTransition} {history : List SuspensionCall}

theorem sound_of_run (sound : Sound start) (run : Run SuspensionStep start history reducer) :
    Sound reducer :=
  run.invariant (fun _ => Sound) sound fun _ _ _ _ _ sound accepted =>
    sound.effect (effect_apply sound accepted)

/-- A resolved gate yields nothing, and an event that names it states its
recorded decision or none. -/
theorem Effect.of_resolved
    (sound : Sound reducer) (taken : Effect reducer event transition next) {runId gateId : String}
    {gate : GateHistory} (present : reducer.gate runId gateId = some gate)
    (resolved : gate.isResolved = true) :
    yieldsFor runId gateId (event, transition) = false ∧
      (namesGate runId gateId (event, transition) = true →
        ∀ verdict, event.body.stated gate.budget = some verdict →
          gate.recorded = some verdict) := by
  cases taken with
  | gate before step origin named _ advancesIf committed =>
    obtain ⟨sameRun, coherent, -⟩ := sound.touched origin
    have advances := advancesIf coherent
    obtain rfl : transition = step.transition := congrArg Prod.fst committed
    -- The touched gate is this one whenever its ids agree.
    have touched (run : event.runId = runId) (id : before.gateId = gateId) :
        before = gate := by
      subst run id
      rcases origin with isBefore | ⟨absent, -⟩
      · exact Option.some.inj (isBefore.symm.trans present)
      · simp [absent] at present
    constructor
    · by_contra yields
      rw [Bool.not_eq_false] at yields
      obtain ⟨yielded, isYielded, ids⟩ := (Option.any_eq_true _ _).mp yields
      simp only [Bool.and_eq_true, beq_iff_eq] at ids
      obtain ⟨-, unresolved, projected⟩ := advances.opened yielded isYielded
      rw [projected] at ids
      have run := ids.1
      have id := ids.2
      simp only [GateHistory.snapshot, advances.runId, sameRun] at run
      simp only [GateHistory.snapshot, advances.gateId] at id
      rw [touched run id, resolved] at unresolved
      simp at unresolved
    · intro names verdict isStated
      simp only [namesGate, Bool.and_eq_true, beq_iff_eq] at names
      obtain rfl := touched names.1 (named gateId names.2)
      exact (advances.resolved resolved).2.2.2.2 verdict isStated
  | media job body silent =>
    subst silent
    refine ⟨rfl, ?_⟩
    simp [namesGate, EventBody.namedGate, body]
  | life _ unnamed _ silent =>
    subst silent
    refine ⟨rfl, ?_⟩
    simp [namesGate, unnamed]

theorem Effect.of_decides
    (sound : Sound reducer) (taken : Effect reducer event transition next)
    {yielded : GateTransition} (isYielded : transition = some yielded)
    (decides : yielded.decides = true) :
    ∃ gate, next.gate yielded.gate.runId yielded.gate.gateId = some gate ∧
      gate.isResolved = true ∧ gate.budget = yielded.gate.isBudgetGate ∧
      gate.recorded = event.body.stated yielded.gate.isBudgetGate := by
  cases taken with
  | gate before step origin _ _ advancesIf committed =>
    obtain ⟨-, coherent, -⟩ := sound.touched origin
    have advances := advancesIf coherent
    have fromStep : step.transition = some yielded :=
      (congrArg Prod.fst committed).symm.trans isYielded
    obtain rfl : next = (reducer.commit step).2 := congrArg Prod.snd committed
    obtain ⟨-, -, projected⟩ := advances.opened yielded fromStep
    obtain ⟨resolved, recorded⟩ := advances.decided yielded fromStep decides
    have present : (reducer.putGate step.history).gate yielded.gate.runId
        yielded.gate.gateId = some step.history := by
      rw [projected, gate_putGate]
      exact if_pos ⟨rfl, rfl⟩
    rw [projected] at present ⊢
    unfold commit
    simp only
    split
    · rw [gate_retireNode, present]
      refine ⟨_, rfl, ?_⟩
      have ages := deactivate_ages step.history.nodeId step.history.snapshot.gateId step.history
      obtain ⟨stillResolved, budget, sameRecord⟩ := ages.resolved resolved
      exact ⟨by simpa [GateHistory.snapshot] using stillResolved,
        by simpa [GateHistory.snapshot] using budget,
        by simpa [GateHistory.snapshot] using sameRecord.trans recorded⟩
    · exact ⟨step.history, present, resolved, rfl, recorded⟩
  | media _ _ silent | life _ _ _ silent => simp [silent] at isYielded

theorem resolved_of_run
    (sound : Sound start) {runId gateId : String} {gate : GateHistory}
    (present : start.gate runId gateId = some gate) (resolved : gate.isResolved = true)
    (run : Run SuspensionStep start history reducer) :
    (∃ later, reducer.gate runId gateId = some later ∧ gate.Ages later) ∧
      ∀ call ∈ history, yieldsFor runId gateId call = false ∧
        (namesGate runId gateId call = true →
          ∀ verdict, call.1.body.stated gate.budget = some verdict →
            gate.recorded = some verdict) := by
  refine run.invariant
    (fun history reducer =>
      (∃ later, reducer.gate runId gateId = some later ∧ gate.Ages later) ∧
        ∀ call ∈ history, yieldsFor runId gateId call = false ∧
          (namesGate runId gateId call = true →
            ∀ verdict, call.1.body.stated gate.budget = some verdict →
              gate.recorded = some verdict))
    ⟨⟨gate, present, .refl gate⟩, by simp⟩ ?_
  rintro history state ⟨event, transition⟩ next earlier ⟨⟨later, isLater, ages⟩, silent⟩ accepted
  have stateSound := sound_of_run sound earlier
  have taken := effect_apply stateSound accepted
  obtain ⟨laterResolved, budget, recorded⟩ := ages.resolved resolved
  constructor
  · obtain ⟨last, isLast, ages'⟩ := taken.ages stateSound isLater
    exact ⟨last, isLast, ages.trans ages'⟩
  · intro call member
    rcases List.mem_append.mp member with old | new
    · exact silent call old
    · obtain rfl := List.mem_singleton.mp new
      have kept := taken.of_resolved stateSound isLater laterResolved
      rwa [budget, recorded] at kept

end Steps

theorem lists_of_resolved
    {reducer : RunSuspensionReducer} (sound : Sound reducer) {runId gateId : String}
    {gate : GateHistory} (present : reducer.gate runId gateId = some gate)
    (resolved : gate.isResolved = true) :
    gateId ∈ reducer.resolvedGateIds runId ∧
      ∀ pending ∈ reducer.pendingGates runId, pending.gateId ≠ gateId := by
  have key := sound.gateId runId gateId gate present
  constructor
  · refine List.mem_map.mpr ⟨gate, List.mem_filter.mpr ⟨?_, resolved⟩, key⟩
    exact (OrderedMap.mem_values_iff _ _).mpr ⟨gateId, present⟩
  · intro pending member same
    obtain ⟨other, isOther, rfl⟩ := List.mem_map.mp member
    obtain ⟨valued, open'⟩ := List.mem_filter.mp isOther
    obtain ⟨otherKey, isPresent⟩ := (OrderedMap.mem_values_iff _ _).mp valued
    have otherId := sound.gateId runId otherKey other isPresent
    obtain rfl : otherKey = gateId := otherId.symm.trans same
    obtain rfl : gate = other := Option.some.inj (present.symm.trans isPresent)
    simp [resolved] at open'

end RunSuspensionReducer

open RunSuspensionReducer

theorem settled_after_decision
    {before after : List SuspensionCall} {call : SuspensionCall} {reducer : RunSuspensionReducer}
    {transition : GateTransition}
    (run : Run SuspensionStep fresh (before ++ call :: after) reducer)
    (yielded : call.2 = some transition) (decides : transition.decides = true) :
    (∀ later ∈ after,
      yieldsFor transition.gate.runId transition.gate.gateId later = false) ∧
    (∀ pending ∈ reducer.pendingGates transition.gate.runId,
      pending.gateId ≠ transition.gate.gateId) ∧
    transition.gate.gateId ∈
      reducer.resolvedGateIds transition.gate.runId ∧
    (∀ later ∈ after,
      namesGate transition.gate.runId transition.gate.gateId later = true →
      ∀ verdict,
        later.1.body.stated transition.gate.isBudgetGate = some verdict →
        call.1.body.stated transition.gate.isBudgetGate = some verdict) := by
  obtain ⟨middle, reached, rest⟩ := run.split
  rw [← List.singleton_append] at rest
  obtain ⟨next, first, rest⟩ := rest.split
  have middleSound := sound_of_run sound_fresh reached
  have taken := effect_apply middleSound (Run.step_of_singleton first)
  obtain ⟨gate, present, resolved, budget, recorded⟩ :=
    taken.of_decides middleSound yielded decides
  have nextSound := middleSound.effect taken
  obtain ⟨⟨later, isLater, ages⟩, silent⟩ :=
    resolved_of_run nextSound present resolved rest
  obtain ⟨listed, notPending⟩ := lists_of_resolved
    (sound_of_run nextSound rest) isLater (ages.resolved resolved).1
  refine ⟨fun call member => (silent call member).1, notPending, listed, ?_⟩
  intro call member names verdict isStated
  rw [← recorded]
  exact (silent call member).2 names verdict (budget.symm ▸ isStated)

/-- In every accepted log: each gate is decided at most once; a decision is
followed by no transition of its gate, leaves it resolved and not pending, and
every later event that names the gate states the same decision by the same
decider, input on a budget gate counting as a rejection. -/
theorem gate_decided_once
    {history : List SuspensionCall} {reducer : RunSuspensionReducer}
    (run : Run SuspensionStep fresh history reducer) :
    (∀ runId gateId,
      (history.filter (decidesFor runId gateId)).length ≤ 1) ∧
    ∀ before call after transition,
      history = before ++ call :: after →
      call.2 = some transition →
      transition.decides = true →
      (∀ later ∈ after,
        yieldsFor transition.gate.runId transition.gate.gateId later = false) ∧
      (∀ pending ∈ reducer.pendingGates transition.gate.runId,
        pending.gateId ≠ transition.gate.gateId) ∧
      transition.gate.gateId ∈
        reducer.resolvedGateIds transition.gate.runId ∧
      (∀ later ∈ after,
        namesGate transition.gate.runId transition.gate.gateId later = true →
        ∀ verdict,
          later.1.body.stated transition.gate.isBudgetGate = some verdict →
          call.1.body.stated transition.gate.isBudgetGate = some verdict) := by
  constructor
  · intro runId gateId
    refine length_filter_le_one ?_
    rintro before call after rfl decides later member
    simp only [decidesFor, yieldsFor, Bool.and_eq_true] at decides
    obtain ⟨transition, yielded, ids⟩ := (Option.any_eq_true _ _).mp decides.1
    simp only [Bool.and_eq_true, beq_iff_eq] at ids
    have isDecision : transition.decides = true := by
      simpa [yielded] using decides.2
    have silent := (settled_after_decision run yielded isDecision).1 later member
    rw [ids.1, ids.2] at silent
    simp [decidesFor, silent]
  · rintro before call after transition rfl yielded decides
    exact settled_after_decision run yielded decides

/-! ## A log with a historical rejection -/

/-- An event of one run. -/
def loggedEvent (sequenceNumber : Nat) (body : EventBody) : RunEvent where
  envelope :=
    { runId := "run"
      sequenceNumber
      timestampMs := some 0
      cumulativeCostMicrocents := none
      cumulativeUnpricedCalls := none }
  body

def decisionEvent (decision : GateDecisionValue) : EventBody :=
  .humanGateResumed
    { nodeId := "writer"
      gateId := some "gate"
      decision
      decidedBy := "user"
      payload := none
      allowanceQuote := none
      approvedAmountMicrocents := none }

def budgetPauseEvent : EventBody :=
  .budgetPaused
    { nodeId := "writer"
      gateId := "gate"
      spentMicrocents := 90
      limitMicrocents := 100
      allowanceQuote := none }

/-- An unquoted budget gate receives input, and then a rejection. -/
def inputThenRejection : List RunEvent :=
  [loggedEvent 0 budgetPauseEvent, loggedEvent 1 (decisionEvent .inputProvided),
    loggedEvent 2 (decisionEvent .rejected)]

/-- The gate of that log, as its transitions show it. -/
def unquotedGate : PendingGateProjection where
  runId := "run"
  nodeId := "writer"
  gateId := "gate"
  isBudgetGate := true
  deadline := .none
  allowance := some .legacyNoAllowance

theorem gate_decided_once_input_then_rejection :
    (acceptedRun RunSuspensionReducer.apply fresh inputThenRejection).1.length =
        3 ∧
      ((acceptedRun RunSuspensionReducer.apply fresh
        inputThenRejection).1.filter (decidesFor "run" "gate")).length ≤ 1 :=
  ⟨by decide,
    (gate_decided_once (run_acceptedRun RunSuspensionReducer.apply fresh
      inputThenRejection)).1 "run" "gate"⟩

/-- The decisions that events state literally need not be the same. -/
theorem gate_decision_not_literal :
    ¬∀ (history : List SuspensionCall) (reducer : RunSuspensionReducer),
      Run SuspensionStep fresh history reducer →
      ∀ before call after transition,
        history = before ++ call :: after →
        call.2 = some transition →
        transition.decides = true →
        ∀ later ∈ after,
          namesGate transition.gate.runId transition.gate.gateId later = true →
          ∀ verdict, later.1.body.stated false = some verdict →
            call.1.body.stated false = some verdict := by
  intro claimed
  have run := run_acceptedRun RunSuspensionReducer.apply fresh inputThenRejection
  have calls : (acceptedRun RunSuspensionReducer.apply fresh inputThenRejection).1 =
      [(loggedEvent 0 budgetPauseEvent, some (.paused unquotedGate))] ++
        (loggedEvent 1 (decisionEvent .inputProvided),
          some (.budgetDecided unquotedGate .rejected)) ::
        [(loggedEvent 2 (decisionEvent .rejected), none)] := by decide
  have literal := claimed _ _ run _ _ _ _ calls rfl rfl _ List.mem_cons_self
    (by decide) (.rejected, "user") rfl
  exact absurd literal (by decide)

end Relavium.Run
