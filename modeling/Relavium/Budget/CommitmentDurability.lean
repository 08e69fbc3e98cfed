import Relavium.Budget.CapSafety
import Relavium.Run.ConservativeReplay

/-!
# The conservative ledger and its durable record

Drafts of commitments reach the emit hook one at a time in the order of the
commitments.  When a flush returns, the live conservative total is what its
acknowledged drafts restore; when a write has failed, the next flush to finish
throws, and the total is not lowered.
-/

namespace Relavium.Budget

open Library

/-- What a label shows of the chain of commitments. -/
def chainEvent : GovernorLabel → Option ChainEvent
  | (_, .closing (.closed (some draft))) => some (.committed draft)
  | (_, .writing progress) => progress.event
  | (_, .flushed) => some .flushed
  | (_, .threw (.commitmentNotDurable failure) _) => some (.flushThrew failure)
  | _ => none

/-- What a history shows of the chain of commitments. -/
def chainEvents (history : List GovernorLabel) : List ChainEvent :=
  history.filterMap chainEvent

/-- The sum of the estimates of drafts. -/
def estimateTotal (drafts : List CommitmentDraft) : Int :=
  (drafts.map CommitmentDraft.estimateMicrocents).sum

namespace GovernorCall

/-- Whether a call leaves the conservative total to closings. -/
def keepsCommitments : GovernorCall → Bool
  | .restoreConservativeCost _ | .releaseConservativeCommitments => false
  | _ => true

end GovernorCall

namespace BudgetGovernor

/-- A governor seeded with a restored total; a seed of zero restores nothing. -/
def seeded (budget : BudgetPolicy) (restored : SafeAmount) : BudgetGovernor :=
  ((fresh budget).perform (.restoreConservativeCost (.integer restored.value))).2

section Steps

variable {governor next : BudgetGovernor} {call : GovernorCall}
  {outcome : GovernorOutcome} {info : PreEgressInfo}

/-- A silent outcome shows nothing of the chain. -/
theorem chainEvent_of_silent (silent : outcome.silent = true) :
    chainEvent (call, outcome) = none := by
  cases outcome with
  | threw error released =>
    cases error with
    | commitmentNotDurable => simp [GovernorOutcome.silent] at silent
    | exceeded | paused | invalidTokenEstimate | pricingFailed
      | warningFailed => rfl
  | suspended | returned | done | unavailable => rfl
  | flushed | closing | writing => simp [GovernorOutcome.silent] at silent

/-- The turn of a check leaves the chain alone. -/
theorem Turn.chain (turn : Turn info governor outcome next) :
    chainEvent (call, outcome) = none ∧ next.chain = governor.chain := by
  cases turn with
  | quiet quiet =>
    exact ⟨chainEvent_of_silent quiet.silent, quiet.still.chain⟩
  | @released id ledger error _ _ quiet =>
    have silent := @chainEvent_of_silent call _ quiet.silent
    refine ⟨?_, quiet.still.chain⟩
    cases error <;> first | rfl | simp [chainEvent] at silent

/-- Every call takes one step of the chain at most. -/
theorem Effect.chain (effect : Effect governor call outcome next) :
    StepOrStay ChainStep (chainEvent (call, outcome)) governor.chain
      next.chain := by
  cases effect with
  | turn _ turn =>
    obtain ⟨unseen, same⟩ := @Turn.chain _ _ call _ _ turn
    rw [unseen]
    exact same
  | admits _ _ _ turn =>
    obtain ⟨unseen, same⟩ := @Turn.chain _ _ _ _ _ turn
    rw [unseen]
    exact same
  | reserves => rfl
  | @closes id closing outcome ledger chain closed commits otherwise =>
    cases outcome with
    | closed commitment =>
      cases commitment with
      | none => exact otherwise (by simp)
      | some draft =>
        rw [commits draft rfl]
        exact .committed _ draft
    | ignored | threw | unavailable => exact otherwise (by simp)
  | updates | restores | forgives => rfl
  | @writes call progress chain written =>
    change StepOrStay ChainStep progress.event governor.chain chain
    rcases written with advanced | ⟨acknowledged, -, written⟩
    · exact chainStep_of_advance advanced
    · exact chainStep_of_write written
  | flushes _ flushed still =>
    change ChainStep governor.chain .flushed next.chain
    rw [still.chain]
    exact .flushed flushed
  | flushThrows _ flushed still =>
    rename_i failure chain _
    change ChainStep governor.chain (.flushThrew failure) next.chain
    rw [still.chain]
    exact .flushThrew flushed

/-- A flush that throws is the outcome of its call. -/
theorem outcome_of_flushThrew
    (effect : Effect governor call outcome next) {failure : CommitmentDurabilityError}
    (throws : chainEvent (call, outcome) = some (.flushThrew failure)) :
    outcome = .threw (.commitmentNotDurable failure) none := by
  cases effect with
  | turn _ turn | admits _ _ _ turn =>
    rw [(Turn.chain turn).1] at throws
    cases throws
  | flushThrows => simpa [chainEvent] using throws
  | closes =>
    unfold chainEvent at throws
    split at throws <;> simp_all
  | @writes _ progress =>
    cases progress <;> simp [chainEvent, WriteProgress.event] at throws
  | reserves | updates | restores | forgives | flushes =>
    simp [chainEvent] at throws

/-- The estimate that a label commits. -/
def committedAt (label : GovernorLabel) : Int :=
  match chainEvent label with
  | some (.committed draft) => draft.estimateMicrocents
  | _ => 0

/-- The conservative total of a sound ledger grows by what a label commits. -/
structure Grows (label : GovernorLabel)
    (ledger next : CostLedger) : Prop where
  sound : next.Sound
  nonneg : 0 ≤ committedAt label
  conservative : next.conservativeCostMicrocents =
    addPositive ledger.conservativeCostMicrocents (committedAt label)

/-- A call that commits nothing leaves the conservative total as it is. -/
theorem Grows.of_same
    {label : GovernorLabel} {ledger next : CostLedger} (sound : next.Sound)
    (uncommitted : committedAt label = 0)
    (same : next.conservativeCostMicrocents = ledger.conservativeCostMicrocents) :
    Grows label ledger next where
  sound
  nonneg := uncommitted.ge
  conservative := by simp [uncommitted, addPositive, same]

theorem sound_rearmed
    {ledger next : CostLedger} (sound : ledger.Sound)
    (sameMoney : next = { ledger with warningArmed := next.warningArmed }) :
    next.Sound ∧ next.conservativeCostMicrocents =
      ledger.conservativeCostMicrocents := by
  rw [sameMoney]
  exact ⟨sound.of_totals rfl rfl rfl rfl sound.realizedNonneg sound.conservativeNonneg, rfl⟩

/-- The turn of a check commits nothing. -/
theorem Turn.grows (sound : governor.ledger.Sound) (turn : Turn info governor outcome next) :
    Grows (call, outcome) governor.ledger next.ledger := by
  have uncommitted : committedAt (call, outcome) = 0 := by
    unfold committedAt
    rw [(turn.chain).1]
  cases turn with
  | quiet quiet =>
    obtain ⟨nextSound, same⟩ := sound_rearmed sound quiet.still.ledger
    exact .of_same nextSound uncommitted same
  | released closed quiet =>
    rcases CostLedger.closes_of_close sound closed with
      ⟨-, unclosed⟩ | ⟨admission, commitment, -, closes⟩
    · exact absurd rfl (unclosed none)
    · obtain ⟨nextSound, same⟩ := sound_rearmed closes.sound quiet.still.ledger
      refine .of_same nextSound uncommitted (same.trans ?_)
      rw [closes.conservative, closes.commits (by simp)]
      rfl

/-- The conservative total grows by what a call commits. -/
theorem Effect.grows
    (sound : governor.ledger.Sound) (kept : call.keepsCommitments = true)
    (effect : Effect governor call outcome next) :
    Grows (call, outcome) governor.ledger next.ledger := by
  cases effect with
  | turn _ turn => exact turn.grows sound
  | @admits thread estimate refusal acquireRefusal _ _ _ _ _ fitting _ turn =>
    obtain ⟨nextSound, nonneg, grown⟩ :
        Grows (.priced thread estimate refusal acquireRefusal, outcome) _
          next.ledger :=
      turn.grows (sound.insert fitting _)
    rw [CostLedger.conservative_insert] at grown
    exact ⟨nextSound, nonneg, grown⟩
  | @reserves _ _ amount _ _ fits =>
    have fitting : (some amount).all governor.ledger.fits = true := fits
    exact .of_same (sound.insert fitting _) rfl (CostLedger.conservative_insert _ _)
  | @closes _ _ outcome _ _ closed =>
    rcases CostLedger.closes_of_close sound closed with
      ⟨rfl, unclosed⟩ | ⟨admission, commitment, rfl, closes⟩
    · refine .of_same sound ?_ rfl
      cases outcome with
      | closed commitment => exact absurd rfl (unclosed commitment)
      | ignored | threw | unavailable => rfl
    · have committed : ∀ closing : GovernorCall,
          committedAt (closing, .closing (.closed commitment)) =
            committedBy commitment := by
        intro closing
        cases commitment <;> rfl
      exact
        { sound := closes.sound
          nonneg := closes.committedNonneg.trans_eq (committed _).symm
          conservative := by
            rw [committed]
            exact closes.conservative }
  | updates total =>
    obtain ⟨nextSound, same⟩ := sound.updateCost total
    exact .of_same nextSound rfl same
  | restores | forgives => simp [GovernorCall.keepsCommitments] at kept
  | @writes _ progress _ _ =>
    exact .of_same sound (by cases progress <;> rfl) rfl
  | flushes _ _ still | flushThrows _ _ still =>
    obtain ⟨nextSound, same⟩ := sound_rearmed sound still.ledger
    exact .of_same nextSound rfl same

end Steps

/-! ## Runs -/

section Runs

variable {budget : BudgetPolicy} {restored : SafeAmount}
  {history : List GovernorLabel} {label : GovernorLabel}
  {governor next : BudgetGovernor}

theorem effect_of_step (taken : GovernorStep governor label next) :
    Effect governor label.1 label.2 next := by
  have effect := @hasEffect_perform governor label.1
  unfold HasEffect at effect
  unfold GovernorStep Answers at taken
  rwa [taken] at effect

/-- The chain of a governor agrees with the events of its run. -/
theorem records_of_run (run : Run GovernorStep (seeded budget restored) history governor) :
    CommitmentChain.Records (chainEvents history) governor.chain :=
  CommitmentChain.records_of_run
    (run.project BudgetGovernor.chain chainEvent fun _ _ _ taken => (effect_of_step taken).chain)

/-- One more call commits its own draft. -/
theorem committedTotal_snoc (history : List GovernorLabel) (label : GovernorLabel) :
    estimateTotal (committedIn (chainEvents (history ++ [label]))) =
      estimateTotal (committedIn (chainEvents history)) + committedAt label := by
  unfold chainEvents committedAt estimateTotal
  rw [List.filterMap_append]
  cases event : chainEvent label with
  | none => simp [event]
  | some seen =>
    rw [List.filterMap_cons_some event, List.filterMap_nil,
      CommitmentChain.committedIn_snoc, List.map_append, List.sum_append]
    cases seen <;> simp [committedIn]

/-- The live conservative total. -/
structure Accumulates (restored : SafeAmount) (history : List GovernorLabel)
    (ledger : CostLedger) : Prop where
  sound : ledger.Sound
  nonneg : ∀ draft ∈ committedIn (chainEvents history), 0 ≤ draft.estimateMicrocents
  conservative : ledger.conservativeCostMicrocents =
    restored.value + estimateTotal (committedIn (chainEvents history))

theorem accumulates_seeded (budget : BudgetPolicy) (restored : SafeAmount) :
    Accumulates restored [] (seeded budget restored).ledger := by
  have same : (seeded budget restored).ledger =
      { CostLedger.fresh with
        conservativeCostMicrocents := restored.value } :=
    CostLedger.restoreConservativeCost_fresh restored
  rw [same]
  exact
    { sound := CostLedger.sound_fresh.of_totals rfl rfl rfl rfl (le_refl 0)
        restored.nonneg
      nonneg := by simp [chainEvents, committedIn]
      conservative := by simp [chainEvents, committedIn, estimateTotal] }

/-- The ledger is sound along every run that keeps its commitments. -/
theorem ledger_sound_of_run
    (run : Run GovernorStep (seeded budget restored) history governor)
    (kept : ∀ other ∈ history, other.1.keepsCommitments = true) :
    governor.ledger.Sound := by
  induction run with
  | nil => exact (accumulates_seeded budget restored).sound
  | snoc _ taken ih =>
    have sound := ih fun other member =>
      kept other (List.mem_append_left _ member)
    exact ((effect_of_step taken).grows sound (kept _ (by simp))).sound

/-- The conservative total is what was restored with everything committed since, as long as that
is a safe integer. -/
theorem accumulates_of_run
    (run : Run GovernorStep (seeded budget restored) history governor)
    (kept : ∀ other ∈ history, other.1.keepsCommitments = true)
    (safe : restored.value + estimateTotal (committedIn (chainEvents history)) ≤ maxSafeInteger) :
    Accumulates restored history governor.ledger := by
  induction run with
  | nil => exact accumulates_seeded budget restored
  | @snoc history middle next label earlier taken ih =>
    have keptBefore : ∀ other ∈ history, other.1.keepsCommitments = true :=
      fun other member => kept other (List.mem_append_left _ member)
    have grown : Grows label middle.ledger next.ledger :=
      (effect_of_step taken).grows (ledger_sound_of_run earlier keptBefore) (kept label (by simp))
    have committedNonneg : 0 ≤ committedAt label := grown.nonneg
    rw [committedTotal_snoc] at safe
    have accumulated := ih keptBefore (by omega)
    have conservativeNonneg := accumulated.sound.conservativeNonneg
    have conservative := accumulated.conservative
    have total : next.ledger.conservativeCostMicrocents =
        middle.ledger.conservativeCostMicrocents + committedAt label := by
      rw [grown.conservative]
      exact addPositive_of_safe conservativeNonneg committedNonneg (by omega)
    exact
      { sound := grown.sound
        nonneg := by
          intro draft member
          unfold chainEvents at member
          rw [List.filterMap_append] at member
          cases event : chainEvent label with
          | none =>
            simp only [List.filterMap_cons_none event, List.filterMap_nil,
              List.append_nil] at member
            exact accumulated.nonneg draft member
          | some seen =>
            rw [List.filterMap_cons_some event, List.filterMap_nil,
              CommitmentChain.committedIn_snoc, List.mem_append] at member
            rcases member with before | now
            · exact accumulated.nonneg draft before
            · cases seen with
              | committed given =>
                obtain rfl : draft = given := by
                  simpa [committedIn] using now
                simpa [committedAt, event] using committedNonneg
              | _ => simp [committedIn] at now
        conservative := by
          rw [committedTotal_snoc]
          omega }

/-- What a history commits is what its parts commit. -/
theorem committed_append (before after : List GovernorLabel) :
    committedIn (chainEvents (before ++ after)) =
      committedIn (chainEvents before) ++ committedIn (chainEvents after) := by
  unfold chainEvents committedIn
  rw [List.filterMap_append, List.filterMap_append]

/-- The live total is never lowered. -/
theorem conservative_le_of_run
    {before after : List GovernorLabel} {middle : BudgetGovernor}
    (earlier : Run GovernorStep (seeded budget restored) before middle)
    (run : Run GovernorStep (seeded budget restored) (before ++ after) governor)
    (kept : ∀ other ∈ before ++ after, other.1.keepsCommitments = true)
    (safe : restored.value +
      estimateTotal (committedIn (chainEvents (before ++ after))) ≤ maxSafeInteger) :
    middle.ledger.conservativeCostMicrocents ≤
      governor.ledger.conservativeCostMicrocents := by
  have lastly := accumulates_of_run run kept safe
  have added : estimateTotal (committedIn (chainEvents (before ++ after))) =
      estimateTotal (committedIn (chainEvents before)) +
        estimateTotal (committedIn (chainEvents after)) := by
    unfold estimateTotal
    rw [committed_append, List.map_append, List.sum_append]
  have afterNonneg : 0 ≤ estimateTotal (committedIn (chainEvents after)) := by
    refine List.sum_nonneg ?_
    intro estimate member
    obtain ⟨draft, isDraft, rfl⟩ := List.mem_map.mp member
    refine lastly.nonneg draft ?_
    rw [committed_append]
    exact List.mem_append_right _ isDraft
  have firstly := accumulates_of_run earlier
    (fun other member => kept other (List.mem_append_left _ member)) (by omega)
  rw [firstly.conservative, lastly.conservative]
  omega

/-- A flush that finishes after a run: whether it threw, and that every
commitment has been written. -/
theorem flush_after_run
    (run : Run GovernorStep (seeded budget restored) history governor) {event : ChainEvent}
    {chain : CommitmentChain} (taken : ChainStep governor.chain event chain)
    (finishes : event = .flushed ∨ ∃ failure, event = .flushThrew failure) :
    (wroteIn (chainEvents history)).map Prod.fst =
        committedIn (chainEvents history) ∧
      (event = .flushed ↔ failedSinceThrow (chainEvents history) = false) := by
  have records := records_of_run run
  cases taken with
  | flushed flushed =>
    obtain ⟨wrote, verdict, -, -⟩ :=
      CommitmentChain.flush_finishes records flushed (Or.inl rfl)
    exact ⟨wrote.trans records.committed.symm, by simpa using verdict⟩
  | flushThrew flushed =>
    obtain ⟨wrote, verdict, -, -⟩ :=
      CommitmentChain.flush_finishes records flushed (Or.inr ⟨_, rfl⟩)
    exact ⟨wrote.trans records.committed.symm, by simpa using verdict⟩
  | committed | emitted | progressed | wrote => simp at finishes

end Runs

/-- In every run of a seeded governor whose total stays a safe integer, at
each of its labels: drafts are handed out one at a time in the order of the
commitments; when a flush returns and no write has failed, the live total is
the seed and the acknowledged estimates, and folding those in any order over a
checkpoint at the seed restores it; a flush that finishes after a failure since
the last throw throws; and the total is never lowered. -/
theorem conservative_ledger_durable
    {budget : BudgetPolicy} {restored : SafeAmount} {history : List GovernorLabel}
    {label : GovernorLabel} {governor : BudgetGovernor}
    (run : Run GovernorStep (seeded budget restored) (history ++ [label]) governor)
    (kept : ∀ other ∈ history ++ [label], other.1.keepsCommitments = true)
    (safe : restored.value +
      estimateTotal (committedIn (chainEvents (history ++ [label]))) ≤ maxSafeInteger) :
    (emittedIn (chainEvents (history ++ [label])) <+:
        committedIn (chainEvents (history ++ [label])) ∧
      ∀ draft, chainEvent label = some (.emitted draft) →
        (wroteIn (chainEvents history)).map Prod.fst =
          emittedIn (chainEvents history)) ∧
    (chainEvent label = some .flushed →
      (∀ written ∈ wroteIn (chainEvents history), written.2 = true) →
      governor.ledger.conservativeCostMicrocents =
          restored.value +
            estimateTotal (acknowledgedIn (chainEvents history)) ∧
        ∀ (acc : Relavium.Run.Reconstructor) (events : List Relavium.Run.RunEvent),
          acc.conservativeCostMicrocents = restored.value →
          (events.map Relavium.Run.RunEvent.body).Perm
            ((acknowledgedIn (chainEvents history)).map fun draft =>
              .budgetEstimateCommitted draft.estimateMicrocents) →
          ∃ checkpoint,
            events.foldlM Relavium.Run.Reconstructor.apply acc =
              .ok checkpoint ∧
            checkpoint.conservativeCostMicrocents =
              governor.ledger.conservativeCostMicrocents) ∧
    (failedSinceThrow (chainEvents history) = true →
      (chainEvent label = some .flushed ∨
        ∃ failure, chainEvent label = some (.flushThrew failure)) →
      ∃ failure, label.2 = .threw (.commitmentNotDurable failure) none) ∧
    ∀ before after middle, history ++ [label] = before ++ after →
      Run GovernorStep (seeded budget restored) before middle →
      middle.ledger.conservativeCostMicrocents ≤
        governor.ledger.conservativeCostMicrocents := by
  obtain ⟨middle, earlier, last⟩ := run.split
  have taken := effect_of_step last.step_of_singleton
  have stepped : StepOrStay ChainStep (chainEvent label) middle.chain
      governor.chain := taken.chain
  have records := records_of_run run
  have accumulated := accumulates_of_run run kept safe
  refine ⟨⟨?_, ?_⟩, ?_, ?_, ?_⟩
  · rw [records.emitted, records.committed]
    exact List.take_prefix _ _
  · intro draft emits
    rw [emits] at stepped
    exact CommitmentChain.settled_of_emitted (records_of_run earlier) stepped
  · intro flushes noFailure
    rw [flushes] at stepped
    obtain ⟨written, -⟩ := flush_after_run earlier stepped (Or.inl rfl)
    have acknowledged : acknowledgedIn (chainEvents history) =
        committedIn (chainEvents history) :=
      (CommitmentChain.acknowledged_of_no_failure noFailure).trans written
    have uncommitted : committedIn (chainEvents (history ++ [label])) =
        committedIn (chainEvents history) := by
      rw [committed_append]
      simp [chainEvents, flushes, committedIn]
    have total := accumulated.conservative
    have nonneg := accumulated.nonneg
    rw [uncommitted] at total safe nonneg
    rw [acknowledged]
    refine ⟨total, ?_⟩
    intro acc events seed logged
    have estimates : (events.map Relavium.Run.RunEvent.body).Perm
        (((committedIn (chainEvents history)).map
          CommitmentDraft.estimateMicrocents).map
            Relavium.Run.EventBody.budgetEstimateCommitted) := by
      rw [List.map_map]
      exact logged
    rw [total, ← seed]
    refine Relavium.Run.Reconstructor.foldlM_estimates_perm estimates ?_ ?_ ?_
    · intro estimate member
      obtain ⟨draft, isDraft, rfl⟩ := List.mem_map.mp member
      exact nonneg draft isDraft
    · rw [seed]
      exact restored.nonneg
    · rw [seed]
      exact safe
  · rintro failed (flushes | ⟨failure, throws⟩)
    · rw [flushes] at stepped
      obtain ⟨-, verdict⟩ := flush_after_run earlier stepped (Or.inl rfl)
      simp [verdict.mp rfl] at failed
    · exact ⟨failure, outcome_of_flushThrew taken throws⟩
  · intro before after reached isSplit toReached
    rw [isSplit] at run kept safe
    exact conservative_le_of_run toReached run kept safe

/-! ## A commitment that joins a suspended flush -/

/-- A pricing-free budget: reservations are of accepted amounts. -/
def warningCap : BudgetPolicy where
  maxCostMicrocents := 100
  onExceed := .warn
  strictCostCap := false

/-- The callbacks of a link whose write is acknowledged. -/
def acknowledgedLink : List GovernorCall :=
  [.advanceCommitments, .commitmentWritten true, .advanceCommitments,
    .advanceCommitments, .advanceCommitments]

/-- A sibling commits while a flush awaits the first commitment. -/
def joinedFlush : List GovernorCall :=
  [.reserveAcceptedCost "model" (.integer 30), .reserveAcceptedCost "model" (.integer 20),
    .close 0 (.settleAtReservedEstimate ⟨none, none⟩),
    .flushCommitments,
    .close 1 (.settleAtReservedEstimate ⟨none, none⟩)] ++
    acknowledgedLink ++ [.wake 0 none] ++ acknowledgedLink

/-- The seed of that run. -/
def seedOfFive : SafeAmount := .ofNat 5 (by decide)

theorem conservative_ledger_durable_joined_flush :
    ∃ governor : BudgetGovernor,
      Run GovernorStep (seeded warningCap seedOfFive)
          ((replay perform (seeded warningCap seedOfFive) joinedFlush).1 ++
            [(.wake 0 none, .flushed)]) governor ∧
        governor.ledger.conservativeCostMicrocents = 55 := by
  have run : Run GovernorStep (seeded warningCap seedOfFive)
      ((replay perform (seeded warningCap seedOfFive) joinedFlush).1 ++
        [(.wake 0 none, .flushed)]) _ :=
    .snoc (run_replay perform (seeded warningCap seedOfFive) joinedFlush) rfl
  have durable := conservative_ledger_durable run (by decide) (by decide)
  exact ⟨_, run, (durable.2.1 rfl (by decide)).1.trans (by decide)⟩

/-! ## A total that is not a safe integer -/

/-- One commitment of 2 on top of the greatest safe integer. -/
def roundedCommitment : List GovernorCall :=
  [.reserveAcceptedCost "model" (.integer 2), .close 0 (.settleAtReservedEstimate ⟨none, none⟩),
    .flushCommitments] ++ acknowledgedLink

theorem greatest_lt : 2 ^ 53 - 1 < 2 ^ 53 := by
  decide

/-- The greatest seed. -/
def greatestSeed : SafeAmount := .ofNat (2 ^ 53 - 1) greatest_lt

theorem conservative_ledger_rounded :
    ¬∀ (budget : BudgetPolicy) (restored : SafeAmount)
        (history : List GovernorLabel) (label : GovernorLabel)
        (governor : BudgetGovernor),
      Run GovernorStep (seeded budget restored) (history ++ [label]) governor →
      (∀ other ∈ history ++ [label], other.1.keepsCommitments = true) →
      chainEvent label = some .flushed →
      (∀ written ∈ wroteIn (chainEvents history), written.2 = true) →
      governor.ledger.conservativeCostMicrocents =
        restored.value +
          estimateTotal (acknowledgedIn (chainEvents history)) := by
  intro claimed
  have equal := claimed warningCap greatestSeed
    (replay perform (seeded warningCap greatestSeed) roundedCommitment).1
    (.wake 0 none, .flushed) _
    (.snoc (run_replay perform (seeded warningCap greatestSeed) roundedCommitment) rfl)
    (by decide) rfl (by decide)
  exact absurd equal (by decide)

end BudgetGovernor

end Relavium.Budget
