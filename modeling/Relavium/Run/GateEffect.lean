import Relavium.Run.RunSuspension

/-!
# What an event does to a gate

Every accepted event on a gate leaves a resolved gate resolved by the same
decision, yields a transition only from an active unresolved gate, and never
reactivates one.
-/

namespace Relavium.Run

open Library

/-- A decision together with who decided. -/
abbrev Verdict := GateDecisionValue × String

/-- The decision that an event states for its gate.  Input on a budget gate is
the historical form of a rejection. -/
def EventBody.stated (budget : Bool) : EventBody → Option Verdict
  | .budgetAuthorization { authorization := .decided authority, .. } =>
    some (authority.decision.value, authority.decidedBy)
  | .humanGateResumed event =>
    some (if budget && event.decision == .inputProvided then .rejected
      else event.decision, event.decidedBy)
  | _ => none

namespace GateHistory

/-- The decision recorded on a gate. -/
def recorded (history : GateHistory) : Option Verdict :=
  (history.authorityDecision.map fun authority =>
      (authority.decision.value, authority.decidedBy)).or
    (history.humanDecision.map fun human => (human.decision, human.decidedBy))

/-- The two records of a gate agree, and a decided authority makes a budget
gate. -/
structure Coherent (history : GateHistory) : Prop where
  agree : ∀ authority human,
    history.authorityDecision = some authority →
    history.humanDecision = some human →
    (human.decision, human.decidedBy) = (authority.decision.value, authority.decidedBy)
  budget : history.authorityDecision.isSome = true → history.budget = true

theorem isResolved_iff (history : GateHistory) :
    history.isResolved = true ↔
      history.authorityDecision.isSome = true ∨
        history.humanDecision.isSome = true := by
  simp [isResolved]

theorem recorded_of_authority
    {history : GateHistory} {authority : DecidedAuthority}
    (decided : history.authorityDecision = some authority) :
    history.recorded =
      some (authority.decision.value, authority.decidedBy) := by
  simp [recorded, decided]

theorem recorded_of_human
    {history : GateHistory} {human : HumanGateResumedEvent} (coherent : history.Coherent)
    (decided : history.humanDecision = some human) :
    history.recorded = some (human.decision, human.decidedBy) := by
  cases authority : history.authorityDecision with
  | none => simp [recorded, authority, decided]
  | some authority' =>
    rw [recorded_of_authority authority]
    exact congrArg some (coherent.agree _ _ authority decided).symm

/-- A gate before and after the checks and merges that precede a decision. -/
structure Prepares (before after : GateHistory) : Prop where
  runId : after.runId = before.runId
  nodeId : after.nodeId = before.nodeId
  gateId : after.gateId = before.gateId
  active : after.active = before.active
  authorityDecision : after.authorityDecision = before.authorityDecision
  humanDecision : after.humanDecision = before.humanDecision
  budget : before.Coherent → before.isResolved = true →
    after.budget = before.budget
  grows : before.budget = true → after.budget = true

namespace Prepares

variable {before middle after : GateHistory}

theorem refl (history : GateHistory) : history.Prepares history :=
  ⟨rfl, rfl, rfl, rfl, rfl, rfl, fun _ _ => rfl, id⟩

theorem isResolved (prepares : before.Prepares after) :
    after.isResolved = before.isResolved := by
  simp [GateHistory.isResolved, prepares.authorityDecision, prepares.humanDecision]

theorem recorded (prepares : before.Prepares after) :
    after.recorded = before.recorded := by
  simp [GateHistory.recorded, prepares.authorityDecision, prepares.humanDecision]

theorem coherent (prepares : before.Prepares after) (coherent : before.Coherent) :
    after.Coherent where
  agree := by
    rw [prepares.authorityDecision, prepares.humanDecision]
    exact coherent.agree
  budget := by
    rw [prepares.authorityDecision]
    exact fun decided => prepares.grows (coherent.budget decided)

theorem trans (first : before.Prepares middle) (second : middle.Prepares after) :
    before.Prepares after where
  runId := second.runId.trans first.runId
  nodeId := second.nodeId.trans first.nodeId
  gateId := second.gateId.trans first.gateId
  active := second.active.trans first.active
  authorityDecision := second.authorityDecision.trans first.authorityDecision
  humanDecision := second.humanDecision.trans first.humanDecision
  budget := by
    intro coherent resolved
    have middleResolved := first.isResolved.trans resolved
    exact (second.budget (first.coherent coherent) middleResolved).trans
      (first.budget coherent resolved)
  grows := second.grows ∘ first.grows

end Prepares

section Checks

variable {before after : GateHistory}

theorem prepares_becomeBudget (accepted : before.becomeBudget = .ok after) :
    before.Prepares after ∧ after.budget = true := by
  simp only [becomeBudget, uncorrupted, bind_eq_ok, require_eq_ok, pure_eq_ok] at accepted
  obtain ⟨-, allowed, rfl⟩ := accepted
  refine ⟨⟨rfl, rfl, rfl, rfl, rfl, rfl, ?_, fun _ => rfl⟩, rfl⟩
  intro coherent resolved
  rcases allowed with isBudget | undecided
  · exact isBudget.symm
  · rcases before.isResolved_iff.mp resolved with authority | human
    · exact (coherent.budget authority).symm
    · simp [Option.isNone_iff_eq_none.mp undecided] at human

theorem prepares_mergeAllowance
    {allowance : BudgetAllowanceState} (accepted : before.mergeAllowance allowance = .ok after) :
    before.Prepares after ∧ after.budget = before.budget := by
  simp only [mergeAllowance, uncorrupted, bind_eq_ok, require_eq_ok, pure_eq_ok] at accepted
  obtain ⟨-, -, rfl⟩ := accepted
  exact ⟨⟨rfl, rfl, rfl, rfl, rfl, rfl, fun _ _ => rfl, id⟩, rfl⟩

theorem prepares_mergeQuote
    {quote : Option AllowanceQuoteResult} (accepted : before.mergeQuote quote = .ok after) :
    before.Prepares after ∧ after.budget = before.budget := by
  cases quote with
  | none =>
    obtain rfl : before = after := by simpa [mergeQuote] using accepted
    exact ⟨.refl before, rfl⟩
  | some quote => exact prepares_mergeAllowance accepted

end Checks

end GateHistory

/-! ## The effect of an event -/

/-- What an accepted event, stating a decision or none, does to a gate. -/
structure Advances (before : GateHistory) (stated : Bool → Option Verdict)
    (step : GateStep) : Prop where
  runId : step.history.runId = before.runId
  nodeId : step.history.nodeId = before.nodeId
  gateId : step.history.gateId = before.gateId
  coherent : step.history.Coherent
  inactive : before.active = false → step.history.active = false
  /-- A resolved gate keeps its decision, which the event repeats. -/
  resolved : before.isResolved = true →
    step.transition = none ∧ step.history.isResolved = true ∧
      step.history.budget = before.budget ∧
      step.history.recorded = before.recorded ∧
      (∀ verdict, stated before.budget = some verdict →
        before.recorded = some verdict)
  /-- Only an active unresolved gate yields a transition. -/
  opened : ∀ transition, step.transition = some transition →
    before.active = true ∧ before.isResolved = false ∧
      transition.gate = step.history.snapshot
  /-- A decision resolves the gate as stated. -/
  decided : ∀ transition, step.transition = some transition →
    transition.decides = true →
    step.history.isResolved = true ∧
      step.history.recorded = stated step.history.budget

namespace GateHistory

variable {before middle : GateHistory} {step : GateStep}

variable
  {stated : Bool → Option Verdict}

/-- Preparation before an effect is part of the effect. -/
theorem Prepares.advances
    (prepares : before.Prepares middle) (coherent : before.Coherent)
    (advances : Advances middle stated step) :
    Advances before stated step where
  runId := advances.runId.trans prepares.runId
  nodeId := advances.nodeId.trans prepares.nodeId
  gateId := advances.gateId.trans prepares.gateId
  coherent := advances.coherent
  inactive := by
    rw [← prepares.active]
    exact advances.inactive
  resolved := by
    intro resolved
    have kept := advances.resolved (prepares.isResolved.trans resolved)
    rw [prepares.budget coherent resolved, prepares.recorded] at kept
    exact kept
  opened := by
    rw [← prepares.active, ← prepares.isResolved]
    exact advances.opened
  decided := advances.decided

/-- An event that states no decision and leaves the gate alone. -/
theorem advances_quietly (coherent : before.Coherent)
    (agrees : ∀ verdict, stated before.budget = some verdict →
      before.recorded = some verdict) :
    Advances before stated before.quietly where
  runId := rfl
  nodeId := rfl
  gateId := rfl
  coherent := coherent
  inactive := id
  resolved := fun resolved => ⟨rfl, resolved, rfl, rfl, agrees⟩
  opened := by simp [quietly]
  decided := by simp [quietly]

/-- A pause event. -/
theorem advances_pauses (coherent : before.Coherent) (silent : stated before.budget = none) :
    Advances before stated before.pauses where
  runId := rfl
  nodeId := rfl
  gateId := rfl
  coherent := coherent
  inactive := id
  resolved := by
    intro resolved
    refine ⟨by simp [pauses, resolved], resolved, rfl, rfl, ?_⟩
    simp [silent]
  opened := by
    intro transition yielded
    simp only [pauses, Option.ite_none_left_eq_some, Bool.or_eq_true,
      Bool.not_eq_true', not_or, Bool.not_eq_true, Bool.not_eq_false,
      Option.some.injEq] at yielded
    obtain ⟨⟨unresolved, active⟩, rfl⟩ := yielded
    exact ⟨active, unresolved, rfl⟩
  decided := by
    intro transition yielded decides
    simp only [pauses, Option.ite_none_left_eq_some, Option.some.injEq] at yielded
    obtain ⟨-, rfl⟩ := yielded
    simp [GateTransition.decides] at decides

/-- Recording what does not concern decisions. -/
theorem Prepares.of_eq
    (same : { middle with
        deadline := before.deadline
        allowance := before.allowance
        authorityPause := before.authorityPause
        budgetPause := before.budgetPause } = before) :
    before.Prepares middle := by
  rw [← same]
  exact ⟨rfl, rfl, rfl, rfl, rfl, rfl, fun _ _ => rfl, id⟩

private theorem advances_authorityPauses
    {authority : PausedAuthority} (silent : ∀ budget, stated budget = none)
    (coherent : before.Coherent) (accepted : before.authorityPauses authority = .ok step) :
    Advances before stated step := by
  unfold authorityPauses at accepted
  split at accepted
  · simp only [uncorrupted, bind_eq_ok, require_eq_ok, pure_eq_ok] at accepted
    obtain ⟨-, -, rfl⟩ := accepted
    exact advances_quietly coherent (by simp [silent])
  · simp only [uncorrupted, bind_eq_ok, require_eq_ok, pure_eq_ok] at accepted
    obtain ⟨-, -, rfl⟩ := accepted
    have prepares : before.Prepares
        { before with authorityPause := some authority } := .of_eq rfl
    exact prepares.advances coherent (advances_pauses (prepares.coherent coherent) (silent _))

theorem compareCompanionDecision_agrees
    {authority : DecidedAuthority} {human : HumanGateResumedEvent}
    (accepted : compareCompanionDecision authority human = .ok ()) :
    (human.decision, human.decidedBy) =
      (authority.decision.value, authority.decidedBy) := by
  simp only [compareCompanionDecision, uncorrupted, bind_eq_ok, require_eq_ok] at accepted
  obtain ⟨-, ⟨decision, decidedBy⟩, -⟩ := accepted
  rw [decision, decidedBy]

private theorem advances_authorityDecides {authority : DecidedAuthority}
    (states : ∀ budget, stated budget = some (authority.decision.value, authority.decidedBy))
    (isBudget : before.budget = true)
    (coherent : before.Coherent)
    (accepted : before.authorityDecides authority = .ok step) :
    Advances before stated step := by
  unfold authorityDecides at accepted
  split at accepted
  · rename_i prior decided
    simp only [uncorrupted, bind_eq_ok, require_eq_ok, pure_eq_ok] at accepted
    obtain ⟨-, rfl, rfl⟩ := accepted
    refine advances_quietly coherent ?_
    intro verdict isStated
    rw [recorded_of_authority decided, ← isStated, states]
  · rename_i undecided
    simp only [uncorrupted, bind_eq_ok, require_eq_ok, pure_eq_ok] at accepted
    obtain ⟨_, compared, -, allowed, rfl⟩ := accepted
    have agrees : ∀ human, before.humanDecision = some human →
        (human.decision, human.decidedBy) =
          (authority.decision.value, authority.decidedBy) := by
      intro human decided
      refine compareCompanionDecision_agrees ?_
      simpa [compareHuman, decided] using compared
    refine
      { runId := rfl
        nodeId := rfl
        gateId := rfl
        coherent := ⟨?_, fun _ => isBudget⟩
        inactive := fun _ => rfl
        resolved := ?_
        opened := ?_
        decided := ?_ }
    · intro recorded human isRecorded decided
      cases isRecorded
      exact agrees human decided
    · intro resolved
      obtain ⟨human, decided⟩ : ∃ human, before.humanDecision = some human := by
        rcases before.isResolved_iff.mp resolved with isAuthority | isHuman
        · simp [undecided] at isAuthority
        · exact Option.isSome_iff_exists.mp isHuman
      have recorded := recorded_of_human coherent decided
      rw [agrees human decided] at recorded
      refine ⟨by simp [resolved], by simp [isResolved], rfl, ?_, ?_⟩
      · rw [recorded_of_authority rfl, recorded]
      · intro verdict isStated
        rw [recorded, ← isStated, states]
    · intro transition yielded
      simp only [Option.ite_none_left_eq_some, Bool.not_eq_true, Option.some.injEq] at yielded
      obtain ⟨unresolved, rfl⟩ := yielded
      have active : before.active = true := by
        rcases allowed with resolved | active
        · simp [resolved] at unresolved
        · exact active
      exact ⟨active, unresolved, rfl⟩
    · intro transition yielded _
      exact ⟨by simp [isResolved], by rw [states]; rfl⟩

theorem advances_authorize
    {event : BudgetAuthorizationEvent} (coherent : before.Coherent)
    (accepted : before.authorize event.authorization = .ok step) :
    Advances before (fun budget => (EventBody.budgetAuthorization event).stated
      budget) step := by
  simp only [authorize, uncorrupted, bind_eq_ok, require_eq_ok] at accepted
  obtain ⟨budgeted, becomes, allowed, merges, -, -, -, -, deadline, -, applied⟩ :=
    accepted
  have ⟨becoming, isBudget⟩ := prepares_becomeBudget becomes
  have ⟨merging, stillBudget⟩ := prepares_mergeAllowance merges
  have dating : allowed.Prepares { allowed with deadline } := .of_eq rfl
  have prepares := (becoming.trans merging).trans dating
  refine prepares.advances coherent ?_
  obtain ⟨nodeId, gateId, authorization⟩ := event
  cases authorization with
  | paused authority =>
    exact advances_authorityPauses (fun _ => rfl) (prepares.coherent coherent) applied
  | decided authority =>
    exact advances_authorityDecides (fun _ => rfl)
      (stillBudget.trans isBudget) (prepares.coherent coherent) applied

/-- `#pause` for a budget pause, on a coherent history. -/
theorem advances_budgetPauses
    {event : BudgetPausedEvent} (coherent : before.Coherent)
    (accepted : before.budgetPauses event = .ok step) :
    Advances before (fun budget => (EventBody.budgetPaused event).stated budget)
      step := by
  simp only [budgetPauses, uncorrupted, bind_eq_ok, require_eq_ok, pure_eq_ok] at accepted
  obtain ⟨quoted, merges, budgeted, becomes, -, -, -, -, rfl⟩ := accepted
  have recording : budgeted.Prepares
      { budgeted with
        allowance := budgeted.allowance.or (some .legacyNoAllowance)
        budgetPause := some event } := .of_eq rfl
  have prepares := ((prepares_mergeQuote merges).1.trans
    (prepares_becomeBudget becomes).1).trans recording
  exact prepares.advances coherent (advances_pauses (prepares.coherent coherent) rfl)

theorem advances_humanPauses
    {event : HumanGatePausedEvent} (coherent : before.Coherent)
    (accepted : before.humanPauses event = .ok step) :
    Advances before
      (fun budget => (EventBody.humanGatePaused event).stated budget) step := by
  simp only [humanPauses, bind_eq_ok, pure_eq_ok] at accepted
  obtain ⟨quoted, merges, _, -, deadline, -, rfl⟩ := accepted
  have dating : quoted.Prepares { quoted with deadline } := .of_eq rfl
  have prepares := (prepares_mergeQuote merges).1.trans dating
  exact prepares.advances coherent (advances_pauses (prepares.coherent coherent) rfl)

/-- Normalizing an event keeps the decision it states. -/
theorem stated_normalizeResume (history : GateHistory) (event : HumanGateResumedEvent) :
    (EventBody.humanGateResumed (history.normalizeResume event)).stated history.budget =
      (EventBody.humanGateResumed event).stated history.budget := by
  unfold normalizeResume
  split
  · rename_i normalized
    simp only [Bool.and_eq_true] at normalized
    simp [EventBody.stated, normalized.1.1.1.1.1, normalized.1.1.1.1.2]
  · rfl

variable
  {event : HumanGateResumedEvent}

theorem stated_of_allowed
    {history : GateHistory} (allowed : history.budget = true → event.decision ≠ .inputProvided) :
    (EventBody.humanGateResumed event).stated history.budget =
      some (event.decision, event.decidedBy) := by
  simp only [EventBody.stated]
  split
  · rename_i input
    simp only [Bool.and_eq_true, beq_iff_eq] at input
    exact absurd input.2 (allowed input.1)
  · rfl

private theorem advances_humanDecides
    (states : stated before.budget = some (event.decision, event.decidedBy))
    (undecided : before.isResolved = false) (accepted : before.humanDecides event = .ok step) :
    Advances before stated step := by
  obtain ⟨noAuthority, noHuman⟩ : before.authorityDecision = none ∧
      before.humanDecision = none := by
    simpa [isResolved] using undecided
  simp only [humanDecides, uncorrupted, bind_eq_ok, require_eq_ok] at accepted
  obtain ⟨-, active, applied⟩ := accepted
  -- Every accepted branch records the event; only the transition differs.
  obtain ⟨history, transition, retires, rfl, recording, deciding⟩ :
      ∃ history transition retires, step = ⟨history, some transition, retires⟩ ∧
        history =
          { before with humanDecision := some event, active := false } ∧
        transition.gate = history.snapshot := by
    split at applied
    · split at applied
      · simp at applied
      · exact ⟨_, _, _, (pure_eq_ok.mp applied).symm, rfl, rfl⟩
      · exact ⟨_, _, _, (pure_eq_ok.mp applied).symm, rfl, rfl⟩
    · exact ⟨_, _, _, (pure_eq_ok.mp applied).symm, rfl, rfl⟩
  subst recording
  refine
    { runId := rfl
      nodeId := rfl
      gateId := rfl
      coherent := ⟨by simp [noAuthority], by simp [noAuthority]⟩
      inactive := fun _ => rfl
      resolved := by simp [undecided]
      opened := ?_
      decided := ?_ }
  · intro yielded isYielded
    cases isYielded
    exact ⟨active, undecided, deciding⟩
  · intro yielded isYielded _
    refine ⟨by simp [isResolved], ?_⟩
    simp [recorded, noAuthority, states]

theorem advances_resume (coherent : before.Coherent) (accepted : before.resume event = .ok step) :
    Advances before
      (fun budget => (EventBody.humanGateResumed event).stated budget) step := by
  simp only [resume, uncorrupted, bind_eq_ok, require_eq_ok] at accepted
  obtain ⟨quoted, merges, -, plain, _, compared, applied⟩ := accepted
  have ⟨prepares, sameBudget⟩ := prepares_mergeQuote merges
  have quotedCoherent := prepares.coherent coherent
  refine prepares.advances coherent ?_
  have allowed : quoted.budget = true →
      (quoted.normalizeResume event).decision ≠ .inputProvided := by
    intro isBudget
    simp only [isBudget, Bool.true_and, Bool.not_eq_true',
      Bool.or_eq_false_iff, beq_eq_false_iff_ne] at plain
    exact plain.1
  have states := (quoted.stated_normalizeResume event).symm.trans (stated_of_allowed allowed)
  generalize quoted.normalizeResume event = given at *
  split at applied
  · rename_i prior decided
    simp only [bind_eq_ok, require_eq_ok, pure_eq_ok] at applied
    obtain ⟨-, repeats, rfl⟩ := applied
    refine advances_quietly quotedCoherent ?_
    intro verdict isStated
    rw [recorded_of_human quotedCoherent decided, ← isStated, states]
    simp only [repeatsDecision, Bool.and_eq_true, beq_iff_eq] at repeats
    rw [repeats.1.1.1, repeats.1.1.2]
  · rename_i noHuman
    split at applied
    · rename_i isDecided
      rw [pure_eq_ok] at applied
      subst applied
      obtain ⟨authority, decided⟩ := Option.isSome_iff_exists.mp isDecided
      have agrees : (given.decision, given.decidedBy) =
          (authority.decision.value, authority.decidedBy) := by
        refine compareCompanionDecision_agrees ?_
        simpa [compareAuthority, decided] using compared
      have recorded := recorded_of_authority decided
      refine
        { runId := rfl
          nodeId := rfl
          gateId := rfl
          coherent := ⟨?_, quotedCoherent.budget⟩
          inactive := id
          resolved := ?_
          opened := by simp [quietly]
          decided := by simp [quietly] }
      · intro other human isOther isHuman
        cases decided.symm.trans isOther
        cases isHuman
        exact agrees
      · intro resolved
        refine ⟨rfl, by simp [isResolved, quietly], rfl, ?_, ?_⟩
        · rw [recorded]
          exact recorded_of_authority decided
        · intro verdict isStated
          rw [recorded, ← isStated, states, agrees]
    · rename_i undecided
      refine advances_humanDecides states ?_ applied
      simpa [isResolved, noHuman] using undecided

end GateHistory

end Relavium.Run
