import Relavium.Budget.BudgetGovernor
import Relavium.Budget.LedgerInvariant

/-!
# What one turn of the governor does

Every call inserts at most one reservation, closes at most one admission, moves
the chain of commitments by at most one step, and changes nothing else about
money.  An insertion that a cap decision allows is covered by the cap.
-/

namespace Relavium.Budget

open Library

/-- An outcome that shows neither a closing nor a step of the chain. -/
def GovernorOutcome.silent : GovernorOutcome → Bool
  | .suspended _ | .returned _ | .done | .unavailable => true
  | .threw (.commitmentNotDurable _) _ => false
  | .threw _ released => released.isNone
  | _ => false

namespace BudgetGovernor

/-- Threads are created and moved for one attempt only. -/
def ThreadsFor (info : PreEgressInfo)
    (governor next : BudgetGovernor) : Prop :=
  ∀ id other phase, next.threads.get id = some (.check other phase) →
    other = info ∨
      ∃ before, governor.threads.get id = some (.check other before)

/-- Neither money nor commitments are touched, for one attempt. -/
structure Still (info : PreEgressInfo)
    (governor next : BudgetGovernor) : Prop where
  budget : next.budget = governor.budget
  ledger : next.ledger =
    { governor.ledger with warningArmed := next.ledger.warningArmed }
  chain : next.chain = governor.chain
  threads : ThreadsFor info governor next

/-- A turn that touches nothing and shows nothing. -/
structure Quiet (info : PreEgressInfo) (governor : BudgetGovernor) (outcome : GovernorOutcome)
    (next : BudgetGovernor) : Prop where
  still : Still info governor next
  silent : outcome.silent = true

/-- A turn that may end in an error which releases the admission it held. -/
inductive Turn (info : PreEgressInfo) (governor : BudgetGovernor) :
    GovernorOutcome → BudgetGovernor → Prop
  | quiet {outcome : GovernorOutcome} {next : BudgetGovernor} :
      Quiet info governor outcome next →
      Turn info governor outcome next
  | released {id : Nat} {ledger : CostLedger} {error : GovernorError}
      {next : BudgetGovernor} :
      governor.ledger.close id .release = (.closed none, ledger) →
      Quiet info { governor with ledger } (.threw error none) next →
      Turn info governor (.threw error (some id)) next

section Threads

variable {info : PreEgressInfo} {governor next : BudgetGovernor}

theorem ThreadsFor.of_eq (same : next.threads = governor.threads) :
    ThreadsFor info governor next := by
  intro id other phase found
  rw [same] at found
  exact Or.inr ⟨phase, found⟩

theorem ThreadsFor.set_check
    {thread : Nat} {phase : Phase}
    (threads : next.threads = governor.threads.set thread (.check info phase)) :
    ThreadsFor info governor next := by
  intro id other otherPhase found
  rw [threads, OrderedMap.get_set] at found
  split at found
  · cases found
    exact Or.inl rfl
  · exact Or.inr ⟨otherPhase, found⟩

theorem ThreadsFor.set_flush
    {thread observedTail : Nat}
    (threads : next.threads = governor.threads.set thread (.flush observedTail)) :
    ThreadsFor info governor next := by
  intro id other phase found
  rw [threads, OrderedMap.get_set] at found
  split at found
  · cases found
  · exact Or.inr ⟨phase, found⟩

theorem ThreadsFor.delete
    {thread : Nat} (threads : next.threads = governor.threads.delete thread) :
    ThreadsFor info governor next := by
  intro id other phase found
  rw [threads, OrderedMap.get_delete] at found
  split at found
  · cases found
  · exact Or.inr ⟨phase, found⟩

end Threads

/-! ## The parts of a check -/

section Parts

variable {governor : BudgetGovernor} {info : PreEgressInfo} {thread : Nat}

/-- A result of a part is a turn. -/
def IsTurn (info : PreEgressInfo) (governor : BudgetGovernor)
    (result : GovernorOutcome × BudgetGovernor) : Prop :=
  Turn info governor result.1 result.2

/-- Suspending a check changes its thread only. -/
theorem isTurn_suspend (phase : Phase) :
    IsTurn info governor (governor.suspend thread info phase) :=
  .quiet ⟨⟨rfl, rfl, rfl, .set_check rfl⟩, rfl⟩

/-- Ending a check silently removes its thread only. -/
theorem isTurn_finish {outcome : GovernorOutcome} (silent : outcome.silent = true) :
    IsTurn info governor (governor.finish thread outcome) :=
  .quiet ⟨⟨rfl, rfl, rfl, .delete rfl⟩, silent⟩

theorem isTurn_unavailable :
    IsTurn info governor (.unavailable, governor) :=
  .quiet ⟨⟨rfl, rfl, rfl, .of_eq rfl⟩, rfl⟩

/-- The errors that a check throws by itself. -/
def GovernorError.ofCheck : GovernorError → Bool
  | .commitmentNotDurable _ => false
  | _ => true

theorem silent_threw {error : GovernorError} (ofCheck : GovernorError.ofCheck error = true) :
    (GovernorOutcome.threw error none).silent = true := by
  cases error <;> first | rfl | simp [GovernorError.ofCheck] at ofCheck

/-- A release closes an admission without a commitment, or does nothing. -/
theorem close_release (ledger : CostLedger) (id : Nat) :
    (ledger.close id .release).1 = .closed none ∨
      (ledger.close id .release).1 ≠ .closed none ∧
        (ledger.close id .release).2 = ledger := by
  unfold CostLedger.close
  cases ledger.admissions.get id with
  | none => exact Or.inr ⟨by simp, rfl⟩
  | some admission =>
    simp only
    split
    · exact Or.inr ⟨by simp, rfl⟩
    · exact Or.inl rfl

/-- A check that fails is one turn. -/
theorem isTurn_fail
    {error : GovernorError} (ofCheck : GovernorError.ofCheck error = true)
    (admission : Option Nat) :
    IsTurn info governor (governor.fail thread error admission) := by
  cases admission with
  | none => exact isTurn_finish (silent_threw ofCheck)
  | some id =>
    unfold BudgetGovernor.fail IsTurn
    rcases close_release governor.ledger id with closed | ⟨unclosed, same⟩
    · simp only [closed, if_true]
      exact .released (Prod.ext closed rfl) ⟨⟨rfl, rfl, rfl, .delete rfl⟩, silent_threw ofCheck⟩
    · simp only [unclosed, if_false, same]
      exact isTurn_finish (silent_threw ofCheck)

/-- Evaluating a check is one turn. -/
theorem isTurn_enterEvaluate :
    IsTurn info governor (governor.enterEvaluate thread info) := by
  unfold enterEvaluate
  split
  · exact isTurn_finish rfl
  · exact isTurn_suspend _

/-- Waiting for legacy media jobs is one turn. -/
theorem isTurn_awaitLegacyMediaJobs :
    IsTurn info governor (governor.awaitLegacyMediaJobs thread info) := by
  unfold awaitLegacyMediaJobs
  split
  · exact isTurn_enterEvaluate
  · exact isTurn_suspend _

/-- Holding a check is one turn. -/
theorem isTurn_enterHold :
    IsTurn info governor (governor.enterHold thread info) := by
  unfold enterHold
  split
  · exact isTurn_enterEvaluate
  · exact isTurn_suspend _

/-- A check goes on while its token is live, and fails otherwise. -/
theorem isTurn_whileLive
    {continue' : GovernorOutcome × BudgetGovernor} (goesOn : IsTurn info governor continue')
    (refusal : Option AllowanceRefusal) (admission : Option Nat) :
    IsTurn info governor
      (governor.whileLive thread info refusal admission continue') := by
  unfold whileLive assertAllowanceLive
  split
  · rename_i error thrown
    refine isTurn_fail ?_ admission
    split at thrown
    · obtain ⟨reason, -, rfl⟩ := Option.map_eq_some_iff.mp thrown
      rfl
    · cases thrown
  · exact goesOn

/-- Emitting a warning is one turn. -/
theorem isTurn_emitWarning (admission : Option Nat) :
    IsTurn info governor (governor.emitWarning thread info admission) := by
  unfold emitWarning
  split
  · exact isTurn_suspend _
  · split
    · exact .quiet ⟨⟨rfl, rfl, rfl, .set_check rfl⟩, rfl⟩
    · exact isTurn_suspend _

/-- Concluding a check is one turn. -/
theorem isTurn_conclude (result : BudgetCheckResult) (admission : Option Nat) :
    IsTurn info governor (governor.conclude thread info result admission) := by
  unfold conclude
  split
  · exact isTurn_finish rfl
  · cases result with
    | allow | unpriced => exact isTurn_finish rfl
    | warn => exact isTurn_emitWarning admission
    | pause | fail => exact isTurn_fail rfl admission

/-- A permitted estimate of an unowned attempt is covered by a failing cap. -/
theorem projected_le_of_permits
    {estimate : EstimateResult} {amount : SafeAmount}
    (permitted : permits info (governor.evaluate info estimate).result = true)
    (priced : (governor.evaluate info estimate).estimate = some amount)
    (unowned : info.token = false) (failing : governor.budget.onExceed = .fail)
    (bounded : 0 < governor.budget.maxCostMicrocents) :
    governor.ledger.projected amount ≤ governor.budget.maxCostMicrocents := by
  unfold evaluate at permitted priced
  cases estimate with
  | unpriced => simp at priced
  | unrepresentable gap =>
    simp only at priced
    split at priced <;> simp at priced
  | priced given gap =>
    simp only at permitted priced
    split at priced
    · simp at priced
    · rename_i lenient
      obtain rfl : given = amount := Option.some.inj priced
      rw [if_neg lenient] at permitted
      by_contra isOver
      have verdict : ¬(governor.budget.maxCostMicrocents ≤ 0 ∨
          governor.ledger.projected given ≤
            governor.budget.maxCostMicrocents) := by
        omega
      simp [verdict, overCapVerdict, failing, permits, overridesCap, unowned] at permitted

end Parts

/-! ## Whole calls -/

/-- The attempt that a call is about. -/
inductive Concerns (governor : BudgetGovernor) :
    GovernorCall → PreEgressInfo → Prop
  | check (info : PreEgressInfo) (refusal : Option AllowanceRefusal) :
      Concerns governor (.checkPreEgress info refusal) info
  | thread {thread : Nat} {info : PreEgressInfo} {phase : Phase} (call : GovernorCall) :
      governor.threads.get thread = some (.check info phase) →
      Concerns governor call info
  | none (call : GovernorCall) (model : String) : Concerns governor call { model, token := false }

/-- What a call does to money and commitments. -/
inductive Effect (governor : BudgetGovernor) :
    GovernorCall → GovernorOutcome → BudgetGovernor → Prop
  | turn {call : GovernorCall} {info : PreEgressInfo}
      {outcome : GovernorOutcome} {next : BudgetGovernor} :
      Concerns governor call info →
      Turn info governor outcome next →
      Effect governor call outcome next
  | admits {thread : Nat} {estimate : Option EstimateResult}
      {refusal acquireRefusal : Option AllowanceRefusal}
      {info : PreEgressInfo} {amount : Option SafeAmount}
      {outcome : GovernorOutcome} {next : BudgetGovernor} :
      governor.threads.get thread = some (.check info .pricing) →
      amount.all governor.ledger.fits = true →
      (∀ given, amount = some given → info.token = false →
        governor.budget.onExceed = .fail →
        0 < governor.budget.maxCostMicrocents →
        governor.ledger.projected given ≤ governor.budget.maxCostMicrocents) →
      Turn info
        { governor with ledger := governor.ledger.insert info.model amount }
        outcome next →
      Effect governor (.priced thread estimate refusal acquireRefusal) outcome next
  | reserves {call : GovernorCall} {model : String} {amount : SafeAmount}
      {admission : Nat} :
      call.reserves = true →
      governor.ledger.fits amount = true →
      Effect governor call (.returned (some admission))
        { governor with ledger := governor.ledger.insert model (some amount) }
  | closes {admission : Nat} {call : ClosingCall} {outcome : ClosingOutcome}
      {ledger : CostLedger} {chain : CommitmentChain} :
      governor.ledger.close admission call = (outcome, ledger) →
      (∀ draft, outcome = .closed (some draft) →
        chain = governor.chain.persistCommitment draft) →
      ((∀ draft, outcome ≠ .closed (some draft)) → chain = governor.chain) →
      Effect governor (.close admission call) (.closing outcome)
        { governor with ledger, chain }
  | updates (total : Quantity) :
      Effect governor (.updateCost total) .done
        { governor with ledger := governor.ledger.updateCost total }
  | restores (microcents : Quantity) :
      Effect governor (.restoreConservativeCost microcents) .done
        { governor with
          ledger := governor.ledger.restoreConservativeCost microcents }
  | forgives :
      Effect governor .releaseConservativeCommitments .done
        { governor with
          ledger := governor.ledger.releaseConservativeCommitments }
  | writes {call : GovernorCall} {progress : WriteProgress}
      {chain : CommitmentChain} :
      governor.chain.advance = (progress, chain) ∨
        (∃ acknowledged, call = .commitmentWritten acknowledged ∧
          governor.chain.write acknowledged = (progress, chain)) →
      Effect governor call (.writing progress) { governor with chain }
  | flushes {call : GovernorCall} {info : PreEgressInfo} {observedTail : Nat}
      {next : BudgetGovernor} :
      Concerns governor call info →
      governor.chain.flush observedTail = (.returned, governor.chain) →
      Still info governor next →
      Effect governor call .flushed next
  | flushThrows {call : GovernorCall} {info : PreEgressInfo}
      {observedTail : Nat} {failure : CommitmentDurabilityError}
      {chain : CommitmentChain} {next : BudgetGovernor} :
      Concerns governor call info →
      governor.chain.flush observedTail = (.threw failure, chain) →
      Still info { governor with chain } next →
      Effect governor call (.threw (.commitmentNotDurable failure) none) next

section Calls

variable {governor : BudgetGovernor}

/-- A result of a call has its effect. -/
def HasEffect (governor : BudgetGovernor) (call : GovernorCall)
    (result : GovernorOutcome × BudgetGovernor) : Prop :=
  Effect governor call result.1 result.2

theorem flush_eq_returned
    {observedTail : Nat} {chain next : CommitmentChain}
    (flushed : chain.flush observedTail = (.returned, next)) :
    next = chain := by
  unfold CommitmentChain.flush at flushed
  split at flushed
  · simp at flushed
  · split at flushed
    · simp at flushed
    · split at flushed
      · exact (Prod.mk.inj flushed).2.symm
      · simp at flushed

/-- A joined flush goes on waiting, returns or throws. -/
theorem hasEffect_wakeFlush
    {call : GovernorCall} {info : PreEgressInfo} (concerns : Concerns governor call info)
    {thread observedTail : Nat} {rejoin : Nat → Thread}
    (joins : ∀ tail, ThreadsFor info governor
      { governor with threads := governor.threads.set thread (rejoin tail) })
    {next : BudgetGovernor}
    (still : Still info governor next) :
    HasEffect governor call
      (governor.wakeFlush thread observedTail rejoin (.flushed, next)) := by
  unfold wakeFlush
  split
  · exact .turn concerns isTurn_unavailable
  · exact .turn concerns (.quiet ⟨⟨rfl, rfl, rfl, joins _⟩, rfl⟩)
  · rename_i flushed
    have same := flush_eq_returned flushed
    subst same
    exact .flushes concerns flushed still
  · next flushed => exact .flushThrows concerns flushed ⟨rfl, rfl, rfl, .delete rfl⟩

/-- A check in the price overlay goes on. -/
theorem hasEffect_admitEvaluated
    {thread : Nat} {info : PreEgressInfo}
    (pricing : governor.threads.get thread = some (.check info .pricing))
    (given : Option EstimateResult) (refusal acquireRefusal : Option AllowanceRefusal)
    (estimate : EstimateResult) :
    HasEffect governor (.priced thread given refusal acquireRefusal)
      (governor.admitEvaluated thread info estimate acquireRefusal) := by
  have concerns : Concerns governor
      (.priced thread given refusal acquireRefusal) info := .thread _ pricing
  unfold admitEvaluated
  simp only
  split
  · exact .turn concerns (isTurn_finish rfl)
  · split
    · exact .turn concerns (isTurn_finish rfl)
    · rename_i admission ledger admitted
      have concluded (middle : BudgetGovernor) : IsTurn info middle
          (if noticeDue (governor.evaluate info estimate) then
            middle.suspend thread info (.noticed (governor.evaluate info estimate) admission)
          else
            middle.conclude thread info
              (governor.evaluate info estimate).result admission) := by
        split
        · exact isTurn_suspend _
        · exact isTurn_conclude _ _
      split at admitted
      · rename_i permitted
        rcases CostLedger.admit_eq_some admitted with
          ⟨-, rfl⟩ | ⟨-, fitting, rfl⟩
        · exact .turn concerns (concluded governor)
        · refine .admits pricing fitting ?_ (concluded _)
          intro amount isAmount unowned failing bounded
          exact projected_le_of_permits permitted isAmount unowned failing bounded
      · cases admitted
        exact .turn concerns (concluded governor)

/-- An estimate admits its amount, or ends its check. -/
theorem hasEffect_priced
    (thread : Nat) (estimate : Option EstimateResult)
    (refusal acquireRefusal : Option AllowanceRefusal) :
    HasEffect governor (.priced thread estimate refusal acquireRefusal)
      (governor.priced thread estimate refusal acquireRefusal) := by
  unfold BudgetGovernor.priced
  split
  · rename_i info pricing
    have concerns : Concerns governor
        (.priced thread estimate refusal acquireRefusal) info :=
      .thread _ pricing
    cases estimate with
    | none => exact .turn concerns (isTurn_finish rfl)
    | some estimate =>
      unfold whileLive
      simp only
      split
      · rename_i error thrown
        refine .turn concerns (isTurn_fail ?_ none)
        unfold assertAllowanceLive at thrown
        split at thrown
        · obtain ⟨reason, -, rfl⟩ := Option.map_eq_some_iff.mp thrown
          rfl
        · cases thrown
      · exact hasEffect_admitEvaluated pricing _ _ _ _
  · exact .turn (.none _ "") isTurn_unavailable

/-- A check that wakes goes on from its phase. -/
theorem hasEffect_wakeCheck
    {thread : Nat} {info : PreEgressInfo} {phase : Phase}
    (suspended : governor.threads.get thread = some (.check info phase))
    (refusal : Option AllowanceRefusal) :
    HasEffect governor (.wake thread refusal)
      (governor.wakeCheck thread info refusal phase) := by
  have concerns : Concerns governor (.wake thread refusal) info :=
    .thread _ suspended
  cases phase with
  | barrier observedTail =>
    exact hasEffect_wakeFlush concerns (fun _ => .set_check rfl) ⟨rfl, rfl, rfl, .set_check rfl⟩
  | barrierPassed =>
    exact .turn concerns (isTurn_whileLive isTurn_enterHold _ _)
  | holdNoticed =>
    exact .turn concerns (isTurn_whileLive isTurn_awaitLegacyMediaJobs _ _)
  | holding promises =>
    unfold wakeCheck
    simp only
    split
    · exact .turn concerns isTurn_unavailable
    · exact .turn concerns (isTurn_whileLive isTurn_awaitLegacyMediaJobs _ _)
  | pricing => exact .turn concerns isTurn_unavailable
  | noticed evaluation admission =>
    unfold wakeCheck
    simp only
    split
    · exact .turn concerns (isTurn_whileLive (isTurn_conclude _ _) _ _)
    · exact .turn concerns (isTurn_conclude _ _)
  | warning awaited admission =>
    unfold wakeCheck
    simp only
    split
    · exact .turn concerns isTurn_unavailable
    · exact .turn concerns (isTurn_fail rfl admission)
    · exact .turn concerns (isTurn_whileLive (isTurn_finish rfl) _ _)

/-- Waking a thread has an effect of the check or the flush it runs. -/
theorem hasEffect_wake (thread : Nat) (refusal : Option AllowanceRefusal) :
    HasEffect governor (.wake thread refusal) (governor.wake thread refusal) := by
  unfold wake
  split
  · exact .turn (.none _ "") isTurn_unavailable
  · exact hasEffect_wakeFlush (.none _ "") (fun _ => .set_flush rfl) ⟨rfl, rfl, rfl, .delete rfl⟩
  · next suspended => exact hasEffect_wakeCheck suspended refusal

theorem Turn.of_numbered
    {info : PreEgressInfo} {nextThread : Nat} {outcome : GovernorOutcome} {next : BudgetGovernor}
    (turn : Turn info { governor with nextThread } outcome next) :
    Turn info governor outcome next := by
  cases turn with
  | quiet quiet =>
    obtain ⟨⟨budget, ledger, chain, threads⟩, silent⟩ := quiet
    exact .quiet ⟨⟨budget, ledger, chain, threads⟩, silent⟩
  | released closed quiet =>
    obtain ⟨⟨budget, ledger, chain, threads⟩, silent⟩ := quiet
    exact .released closed ⟨⟨budget, ledger, chain, threads⟩, silent⟩

/-- A new check takes a number and its first turn. -/
theorem hasEffect_checkPreEgress (info : PreEgressInfo) (refusal : Option AllowanceRefusal) :
    HasEffect governor (.checkPreEgress info refusal)
      (governor.checkPreEgress info refusal) := by
  have turn : IsTurn info
      { governor with nextThread := governor.nextThread + 1 }
      (governor.checkPreEgress info refusal) := by
    refine isTurn_whileLive ?_ _ _
    split
    · exact isTurn_suspend _
    · exact isTurn_enterHold
  exact .turn (.check info refusal) turn.of_numbered

/-- A reservation is taken in full, or nothing happens. -/
theorem hasEffect_reserve
    {call : GovernorCall} (reserves : call.reserves = true) (model : String)
    (amount : SafeAmount) :
    HasEffect governor call (governor.reserve model amount) := by
  unfold reserve
  split
  · exact .turn (.none call "") (.quiet ⟨⟨rfl, rfl, rfl, .of_eq rfl⟩, rfl⟩)
  · rename_i admission ledger admitted
    rcases CostLedger.admit_eq_some admitted with
      ⟨rfl, rfl⟩ | ⟨rfl, fitting, rfl⟩
    · exact .turn (.none call "") (.quiet ⟨⟨rfl, rfl, rfl, .of_eq rfl⟩, rfl⟩)
    · exact .reserves reserves fitting

/-- A closing moves the amount of its admission once. -/
theorem hasEffect_closeAdmission (admission : Nat) (call : ClosingCall) :
    HasEffect governor (.close admission call)
      (governor.closeAdmission admission call) := by
  unfold closeAdmission
  split
  · rename_i draft ledger closed
    refine .closes closed ?_ (fun unclosed => absurd rfl (unclosed draft))
    rintro _ ⟨⟩
    rfl
  · rename_i outcome ledger uncommitted closed
    refine .closes closed ?_ (fun _ => rfl)
    intro draft isClosed
    exact absurd isClosed (uncommitted draft)

/-- Every call of the governor has one of the effects. -/
theorem hasEffect_perform (call : GovernorCall) :
    HasEffect governor call (governor.perform call) := by
  have still {outcome : GovernorOutcome} {next : BudgetGovernor}
      (quiet : Quiet { model := "", token := false } governor outcome next) :
      Effect governor call outcome next :=
    .turn (.none call "") (.quiet quiet)
  cases call with
  | checkPreEgress info refusal => exact hasEffect_checkPreEgress info refusal
  | flushCommitments => exact still ⟨⟨rfl, rfl, rfl, .set_flush rfl⟩, rfl⟩
  | wake thread refusal => exact hasEffect_wake thread refusal
  | priced thread estimate refusal acquireRefusal =>
    exact hasEffect_priced thread estimate refusal acquireRefusal
  | advanceCommitments => exact .writes (Or.inl rfl)
  | commitmentWritten acknowledged =>
    exact .writes (Or.inr ⟨acknowledged, rfl, rfl⟩)
  | warningWritten written =>
    unfold perform warningWritten
    simp only
    split
    · exact still ⟨⟨rfl, rfl, rfl, .of_eq rfl⟩, rfl⟩
    · exact still ⟨⟨rfl, rfl, rfl, .of_eq rfl⟩, rfl⟩
  | close admission call => exact hasEffect_closeAdmission admission call
  | updateCost total => exact .updates total
  | restoreConservativeCost microcents => exact .restores microcents
  | releaseConservativeCommitments => exact .forgives
  | registerLegacyMediaJob nodeId =>
    unfold perform registerLegacyMediaJob
    simp only
    split
    · exact still ⟨⟨rfl, rfl, rfl, .of_eq rfl⟩, rfl⟩
    · exact still ⟨⟨rfl, rfl, rfl, .of_eq rfl⟩, rfl⟩
  | clearLegacyMediaJob nodeId | releaseAllLegacyMediaJobHolds =>
    exact still ⟨⟨rfl, rfl, rfl, .of_eq rfl⟩, rfl⟩
  | reserveAcceptedCost model accepted =>
    unfold perform reserveAcceptedCost
    simp only
    split
    · exact still ⟨⟨rfl, rfl, rfl, .of_eq rfl⟩, rfl⟩
    · split
      · exact still ⟨⟨rfl, rfl, rfl, .of_eq rfl⟩, rfl⟩
      · exact hasEffect_reserve rfl model _
  | reserveCommittedEgress model estimate =>
    unfold perform reserveCommittedEgress
    simp only
    split
    · exact still ⟨⟨rfl, rfl, rfl, .of_eq rfl⟩, rfl⟩
    · exact hasEffect_reserve rfl model _
    · exact still ⟨⟨rfl, rfl, rfl, .of_eq rfl⟩, rfl⟩

end Calls

end BudgetGovernor

end Relavium.Budget
