import Relavium.Budget.GovernorEffect

/-!
# Cap safety

Along every run of a governor whose cap fails over-cap requests, realized
charges, conservative commitments and live reservations together stay within
the cap, and every reservation is moved exactly once, as long as the cap is a
safe integer.
-/

namespace Relavium.Budget

open Library

abbrev GovernorLabel := GovernorCall × GovernorOutcome

/-- The transition relation of a governor. -/
abbrev GovernorStep : BudgetGovernor → GovernorLabel → BudgetGovernor → Prop :=
  Answers BudgetGovernor.perform

/-! ## What becomes of a reservation -/

inductive Move
  | realized (actual : Int)
  | conservative (amount : Int)
  | dropped

namespace Move

def realizedAmount : Move → Int
  | .realized actual => actual
  | _ => 0

def conservativeAmount : Move → Int
  | .conservative amount => amount
  | _ => 0

end Move

/-- Where a closing call moves the reservation. -/
def moveBy (call : ClosingCall)
    (commitment : Option CommitmentDraft) : Move :=
  match call with
  | .settle _ => .realized (realizedBy call)
  | .settleAtReservedEstimate _ => .conservative (committedBy commitment)
  | .release => .dropped

/-- The admission that a label closes, and where its reservation goes.  A check
that throws drops the reservation it had inserted. -/
def moveOf : GovernorLabel → Option (Nat × Move)
  | (.close id call, .closing (.closed commitment)) =>
    some (id, moveBy call commitment)
  | (_, .threw _ (some id)) => some (id, .dropped)
  | _ => none

/-- The admission on which a closing call was made that did not throw. -/
def closingTarget : GovernorLabel → Option Nat
  | (.close id _, .closing (.closed _)) => some id
  | (.close id _, .closing .ignored) => some id
  | (_, .threw _ (some id)) => some id
  | _ => none

/-- The moves of one admission's reservation. -/
def movesOn (id : Nat) (history : List GovernorLabel) : List Move :=
  history.filterMap fun label =>
    match moveOf label with
    | some (moved, move) => if moved = id then some move else none
    | none => none

/-- How often an admission was closed, or tried to be. -/
def closingsOn (id : Nat) (history : List GovernorLabel) : Nat :=
  history.countP fun label => closingTarget label == some id

/-- The sum of the charges settled so far. -/
def settledIn (history : List GovernorLabel) : Int :=
  ((history.filterMap moveOf).map fun moved => moved.2.realizedAmount).sum

/-- The sum of the reservations committed conservatively so far. -/
def retainedIn (history : List GovernorLabel) : Int :=
  ((history.filterMap moveOf).map fun moved => moved.2.conservativeAmount).sum

theorem realizedAmount_moveBy (call : ClosingCall) (commitment : Option CommitmentDraft) :
    (moveBy call commitment).realizedAmount = realizedBy call := by
  cases call <;> rfl

theorem conservativeAmount_moveBy {call : ClosingCall} {commitment : Option CommitmentDraft}
    (commits : (∀ origin, call ≠ .settleAtReservedEstimate origin) →
      commitment = none) :
    (moveBy call commitment).conservativeAmount = committedBy commitment := by
  cases call with
  | settleAtReservedEstimate => rfl
  | settle | release =>
    rw [commits (by simp)]
    rfl

namespace BudgetGovernor

/-- The calls of the setting: attempts without an allowance token, charges
within their reservation, and reported totals within what was settled. -/
def permitted (history : List GovernorLabel)
    (governor : BudgetGovernor) : GovernorCall → Bool
  | .checkPreEgress info _ => !info.token
  | .close id (.settle actual) =>
    actual.nonNegativeSafe.all fun actual =>
      (governor.ledger.admissions.get id).all fun admission =>
        actual ≤ admission.reservedMicrocents.getD 0
  | .updateCost total =>
    total.nonNegativeSafe.all fun total => total ≤ settledIn history
  | .restoreConservativeCost _ => false
  | .releaseConservativeCommitments => false
  | .reserveAcceptedCost _ _ => false
  | .reserveCommittedEgress _ _ => false
  | _ => true

/-- Every call of a run is one of the setting. -/
def AllPermitted (budget : BudgetPolicy) (history : List GovernorLabel) : Prop :=
  always perform (fresh budget) permitted (history.map Prod.fst) = true

instance (budget : BudgetPolicy) (history : List GovernorLabel) :
    Decidable (AllPermitted budget history) :=
  inferInstanceAs (Decidable (_ = true))

/-! ## The books of a run -/

/-- Each reservation was moved as often as the closing calls say, once at
most, and a commitment moves it whole. -/
structure MovedOnce (history : List GovernorLabel)
    (ledger : CostLedger) : Prop where
  moves : ∀ id, (movesOn id history).length = if 0 < closingsOn id history then 1 else 0
  settled : ∀ id admission, ledger.admissions.get id = some admission →
    (admission.settled = true ↔ 0 < closingsOn id history)
  unissued : ∀ id, ledger.admissions.get id = none →
    closingsOn id history = 0
  whole : ∀ id admission amount, ledger.admissions.get id = some admission →
    .conservative amount ∈ movesOn id history →
    amount = admission.reservedMicrocents.getD 0

/-- The totals are what the history says, and stay within the cap. -/
structure Capped (cap : Int) (history : List GovernorLabel)
    (ledger : CostLedger) : Prop where
  sound : ledger.Sound
  movedOnce : MovedOnce history ledger
  realized : ledger.cumulativeCostMicrocents = settledIn history
  conservative : ledger.conservativeCostMicrocents = retainedIn history
  within : ledger.cumulativeCostMicrocents +
    ledger.conservativeCostMicrocents + ledger.reservedCostMicrocents ≤ cap

section Histories

variable (history : List GovernorLabel) (label : GovernorLabel)

theorem movesOn_snoc (id : Nat) :
    movesOn id (history ++ [label]) = movesOn id history ++ movesOn id [label] :=
  List.filterMap_append

theorem closingsOn_snoc (id : Nat) :
    closingsOn id (history ++ [label]) =
      closingsOn id history + closingsOn id [label] :=
  List.countP_append

/-- One more call settles what it realizes. -/
theorem settledIn_snoc :
    settledIn (history ++ [label]) =
      settledIn history +
        ((moveOf label).map fun moved => moved.2.realizedAmount).getD 0 := by
  unfold settledIn
  rw [List.filterMap_append, List.map_append, List.sum_append]
  congr 1
  cases move : moveOf label <;> simp [move]

/-- One more call retains what it commits conservatively. -/
theorem retainedIn_snoc :
    retainedIn (history ++ [label]) =
      retainedIn history +
        ((moveOf label).map fun moved => moved.2.conservativeAmount).getD 0 := by
  unfold retainedIn
  rw [List.filterMap_append, List.map_append, List.sum_append]
  congr 1
  cases move : moveOf label <;> simp [move]

variable {history label} {ledger next : CostLedger} {cap : Int}

/-- The warning latch is not part of the books. -/
theorem Capped.rearmed
    (capped : Capped cap history ledger)
    (sameMoney : next = { ledger with warningArmed := next.warningArmed }) :
    Capped cap history next := by
  rw [sameMoney]
  exact
    { sound := capped.sound.of_totals rfl rfl rfl rfl
        capped.sound.realizedNonneg capped.sound.conservativeNonneg
      movedOnce :=
        { moves := capped.movedOnce.moves
          settled := capped.movedOnce.settled
          unissued := capped.movedOnce.unissued
          whole := capped.movedOnce.whole }
      realized := capped.realized
      conservative := capped.conservative
      within := capped.within }

/-- A label without a closing leaves the books as they are. -/
theorem Capped.quiet
    (capped : Capped cap history ledger) (unmoved : moveOf label = none)
    (unclosed : closingTarget label = none) :
    Capped cap (history ++ [label]) ledger := by
  have noMoves : ∀ id, movesOn id (history ++ [label]) = movesOn id history := by
    intro id
    rw [movesOn_snoc]
    simp [movesOn, unmoved]
  have noClosings : ∀ id,
      closingsOn id (history ++ [label]) = closingsOn id history := by
    intro id
    rw [closingsOn_snoc]
    simp [closingsOn, unclosed]
  exact
    { sound := capped.sound
      movedOnce :=
        { moves := by
            intro id
            rw [noMoves, noClosings]
            exact capped.movedOnce.moves id
          settled := by
            intro id admission
            rw [noClosings]
            exact capped.movedOnce.settled id admission
          unissued := by
            intro id
            rw [noClosings]
            exact capped.movedOnce.unissued id
          whole := by
            intro id admission amount
            rw [noMoves]
            exact capped.movedOnce.whole id admission amount }
      realized := by
        rw [settledIn_snoc, unmoved]
        simpa using capped.realized
      conservative := by
        rw [retainedIn_snoc, unmoved]
        simpa using capped.conservative
      within := capped.within }

/-- A closing of a settled admission is ignored. -/
theorem Capped.ignored
    (capped : Capped cap history ledger) {id : Nat} {admission : Admission}
    (unmoved : moveOf label = none) (closing : closingTarget label = some id)
    (present : ledger.admissions.get id = some admission) (isSettled : admission.settled = true) :
    Capped cap (history ++ [label]) ledger := by
  have noMoves : ∀ other,
      movesOn other (history ++ [label]) = movesOn other history := by
    intro other
    rw [movesOn_snoc]
    simp [movesOn, unmoved]
  have closedBefore : 0 < closingsOn id history :=
    (capped.movedOnce.settled id admission present).mp isSettled
  have sameSign : ∀ other, 0 < closingsOn other (history ++ [label]) ↔
      0 < closingsOn other history := by
    intro other
    rw [closingsOn_snoc]
    by_cases same : id = other
    · subst same
      omega
    · simp [closingsOn, closing, same]
  exact
    { sound := capped.sound
      movedOnce :=
        { moves := by
            intro other
            rw [noMoves]
            simp only [sameSign]
            exact capped.movedOnce.moves other
          settled := by
            intro other found isFound
            rw [sameSign]
            exact capped.movedOnce.settled other found isFound
          unissued := by
            intro other absent
            have none := capped.movedOnce.unissued other absent
            have same := sameSign other
            omega
          whole := by
            intro other found amount
            rw [noMoves]
            exact capped.movedOnce.whole other found amount }
      realized := by
        rw [settledIn_snoc, unmoved]
        simpa using capped.realized
      conservative := by
        rw [retainedIn_snoc, unmoved]
        simpa using capped.conservative
      within := capped.within }

/-- An admission below the cap keeps every bound. -/
theorem Capped.insert
    (capped : Capped cap history ledger) {amount : Option SafeAmount}
    (fitting : amount.all ledger.fits = true)
    (covered : ∀ given, amount = some given → ledger.projected given ≤ cap)
    (safe : cap ≤ maxSafeInteger) (model : String) :
    Capped cap history (ledger.insert model amount) where
  sound := capped.sound.insert fitting model
  movedOnce :=
    { moves := capped.movedOnce.moves
      settled := by
        intro id admission present
        rw [CostLedger.admissions_insert, OrderedMap.get_set] at present
        split at present
        · rename_i isNext
          cases present
          rw [isNext, capped.movedOnce.unissued _ capped.sound.next_absent]
          simp
        · exact capped.movedOnce.settled id admission present
      unissued := by
        intro id absent
        rw [CostLedger.admissions_insert, OrderedMap.get_set] at absent
        split at absent
        · cases absent
        · exact capped.movedOnce.unissued id absent
      whole := by
        intro id admission moved present member
        rw [CostLedger.admissions_insert, OrderedMap.get_set] at present
        split at present
        · rename_i isNext
          have moves := capped.movedOnce.moves id
          rw [isNext, capped.movedOnce.unissued _ capped.sound.next_absent] at moves
          rw [isNext, List.length_eq_zero_iff.mp moves] at member
          cases member
        · exact capped.movedOnce.whole id admission moved present member }
  realized := by
    rw [CostLedger.cumulative_insert]
    exact capped.realized
  conservative := by
    rw [CostLedger.conservative_insert]
    exact capped.conservative
  within := by
    rw [CostLedger.cumulative_insert, CostLedger.conservative_insert,
      CostLedger.reserved_insert capped.sound fitting]
    cases amount with
    | none => simpa using capped.within
    | some given =>
      have projection := covered given rfl
      have exactly := ledger.projected_eq capped.sound (projection.trans safe)
      rw [exactly] at projection
      simpa [Int.add_assoc] using projection

/-- Closing an open admission within its reservation. -/
theorem Capped.closes
    (capped : Capped cap history ledger) {id : Nat} {admission : Admission} {call : ClosingCall}
    {commitment : Option CommitmentDraft}
    (closes : CostLedger.Closes ledger id admission call commitment next)
    (moved : moveOf label = some (id, moveBy call commitment))
    (closing : closingTarget label = some id)
    (affordable : realizedBy call ≤ admission.reservedMicrocents.getD 0)
    (safe : cap ≤ maxSafeInteger) :
    Capped cap (history ++ [label]) next := by
  have realizedNonneg := closes.realizedNonneg
  have committedNonneg := closes.committedNonneg
  have committed := closes.committed
  have exclusive := closes.exclusive
  have held := CostLedger.held_le_reserved capped.sound closes.present closes.isOpen
  have within := capped.within
  have cumulativeNonneg := capped.sound.realizedNonneg
  have conservativeNonneg := capped.sound.conservativeNonneg
  have cumulative := closes.cumulative
  have conservative := closes.conservative
  rw [addPositive_of_safe cumulativeNonneg realizedNonneg (by omega)] at cumulative
  rw [addPositive_of_safe conservativeNonneg committedNonneg (by omega)]
    at conservative
  have neverClosed : closingsOn id history = 0 := by
    have settled := capped.movedOnce.settled id admission closes.present
    simp only [closes.isOpen] at settled
    simpa using settled
  have neverMoved : movesOn id history = [] := by
    have moves := capped.movedOnce.moves id
    rw [neverClosed] at moves
    exact List.length_eq_zero_iff.mp moves
  have movesOf : ∀ other, movesOn other (history ++ [label]) =
      if id = other then [moveBy call commitment]
      else movesOn other history := by
    intro other
    rw [movesOn_snoc]
    by_cases same : id = other
    · subst same
      rw [neverMoved]
      simp [movesOn, moved]
    · simp [movesOn, moved, same]
  have closingsOf : ∀ other, closingsOn other (history ++ [label]) =
      if id = other then 1 else closingsOn other history := by
    intro other
    rw [closingsOn_snoc]
    by_cases same : id = other
    · subst same
      rw [neverClosed]
      simp [closingsOn, closing]
    · simp [closingsOn, closing, same]
  exact
    { sound := closes.sound
      movedOnce :=
        { moves := by
            intro other
            rw [movesOf, closingsOf]
            split
            · rfl
            · exact capped.movedOnce.moves other
          settled := by
            intro other found isFound
            rw [closes.admissions, OrderedMap.get_set] at isFound
            rw [closingsOf]
            split at isFound
            · rename_i same
              cases isFound
              simp [same, Admission.afterClose]
            · rename_i different
              rw [if_neg (Ne.symm different)]
              exact capped.movedOnce.settled other found isFound
          unissued := by
            intro other absent
            rw [closes.admissions, OrderedMap.get_set] at absent
            rw [closingsOf]
            split at absent
            · cases absent
            · rename_i different
              rw [if_neg (Ne.symm different)]
              exact capped.movedOnce.unissued other absent
          whole := by
            intro other found amount isFound member
            rw [closes.admissions, OrderedMap.get_set] at isFound
            rw [movesOf] at member
            split at isFound
            · rename_i same
              cases isFound
              rw [if_pos same.symm, List.mem_singleton] at member
              cases call with
              | settleAtReservedEstimate origin =>
                obtain rfl : amount = committedBy commitment :=
                  Move.conservative.inj member
                exact closes.retains origin rfl
              | settle | release => cases member
            · rename_i different
              rw [if_neg (Ne.symm different)] at member
              exact capped.movedOnce.whole other found amount isFound member }
      realized := by
        rw [settledIn_snoc, moved, cumulative, capped.realized]
        simp [realizedAmount_moveBy]
      conservative := by
        rw [retainedIn_snoc, moved, conservative, capped.conservative]
        simp [conservativeAmount_moveBy closes.commits]
      within := by
        rw [cumulative, conservative, closes.reserved]
        omega }

end Histories

/-! ## Runs -/

/-- A silent outcome closes no admission. -/
theorem unmoved_of_silent
    {call : GovernorCall} {outcome : GovernorOutcome} (silent : outcome.silent = true) :
    moveOf (call, outcome) = none ∧ closingTarget (call, outcome) = none := by
  cases outcome with
  | threw error released =>
    cases released with
    | none => exact ⟨by simp [moveOf], by simp [closingTarget]⟩
    | some id => cases error <;> simp [GovernorOutcome.silent] at silent
  | suspended | returned | done | unavailable =>
    exact ⟨by simp [moveOf], by simp [closingTarget]⟩
  | flushed | closing | writing => simp [GovernorOutcome.silent] at silent

/-- No suspended check is owned by an allowance token. -/
def NoTokens (governor : BudgetGovernor) : Prop :=
  ∀ thread info phase, governor.threads.get thread = some (.check info phase) →
    info.token = false

/-- A state of a run in the setting. -/
structure CappedGovernor (budget : BudgetPolicy) (history : List GovernorLabel)
    (governor : BudgetGovernor) : Prop where
  sameBudget : governor.budget = budget
  capped : Capped budget.maxCostMicrocents history governor.ledger
  noTokens : NoTokens governor

section Run

variable {budget : BudgetPolicy} {history : List GovernorLabel}
  {governor next : BudgetGovernor} {call : GovernorCall}
  {outcome : GovernorOutcome} {info : PreEgressInfo}

theorem NoTokens.still
    (noTokens : NoTokens governor) (unowned : info.token = false)
    (threads : ThreadsFor info governor next) :
    NoTokens next := by
  intro thread other phase found
  rcases threads thread other phase found with rfl | ⟨before, isBefore⟩
  · exact unowned
  · exact noTokens thread other before isBefore

theorem unowned_of_concerns
    (noTokens : NoTokens governor) (permitted : permitted history governor call = true)
    (concerns : Concerns governor call info) :
    info.token = false := by
  cases concerns with
  | check info refusal => simpa [BudgetGovernor.permitted] using permitted
  | thread _ suspended => exact noTokens _ _ _ suspended
  | none => rfl

/-- A turn of a check moves no money. -/
theorem CappedGovernor.turn
    (state : CappedGovernor budget history governor)
    (safe : budget.maxCostMicrocents ≤ maxSafeInteger) (unowned : info.token = false)
    (turn : Turn info governor outcome next) :
    CappedGovernor budget (history ++ [(call, outcome)]) next := by
  cases turn with
  | quiet quiet =>
    have still := quiet.still
    obtain ⟨unmoved, unclosed⟩ := @unmoved_of_silent call _ quiet.silent
    exact
      { sameBudget := still.budget.trans state.sameBudget
        capped := (state.capped.quiet unmoved unclosed).rearmed still.ledger
        noTokens := state.noTokens.still unowned still.threads }
  | @released id ledger error next closed quiet =>
    have still := quiet.still
    rcases CostLedger.closes_of_close state.capped.sound closed with
      ⟨-, unclosed⟩ | ⟨admission, commitment, isClosed, closes⟩
    · exact absurd rfl (unclosed none)
    · have held := state.capped.sound.heldBy_nonneg id admission closes.present
      unfold CostLedger.heldBy at held
      rw [Admission.openAmount_of_open closes.isOpen] at held
      have closedBooks := @Capped.closes _ (call, .threw error (some id)) _ _ _
        state.capped _ _ _ _ closes (by simp [moveOf, moveBy])
        (by simp [closingTarget]) held safe
      exact
        { sameBudget := still.budget.trans state.sameBudget
          capped := closedBooks.rearmed still.ledger
          noTokens := state.noTokens.still unowned still.threads }

/-- Every permitted call keeps the governor below its cap. -/
theorem CappedGovernor.effect
    (state : CappedGovernor budget history governor) (failing : budget.onExceed = .fail)
    (bounded : 0 < budget.maxCostMicrocents) (safe : budget.maxCostMicrocents ≤ maxSafeInteger)
    (permitted : permitted history governor call = true)
    (effect : Effect governor call outcome next) :
    CappedGovernor budget (history ++ [(call, outcome)]) next := by
  have sound := state.capped.sound
  cases effect with
  | turn concerns turn =>
    exact state.turn safe (unowned_of_concerns state.noTokens permitted concerns) turn
  | @admits thread estimate refusal acquireRefusal info amount _ _ suspended
      fitting covered turn =>
      have unowned := state.noTokens _ _ _ suspended
      have inserted : CappedGovernor budget history
          { governor with
            ledger := governor.ledger.insert info.model amount } :=
        { sameBudget := state.sameBudget
          capped := by
            refine state.capped.insert fitting ?_ safe info.model
            intro given isGiven
            rw [← state.sameBudget] at failing bounded ⊢
            exact covered given isGiven unowned failing bounded
          noTokens := state.noTokens }
      exact inserted.turn safe unowned turn
  | reserves reserves =>
    cases call <;> first
      | simp [BudgetGovernor.permitted] at permitted; done
      | simp [GovernorCall.reserves] at reserves
  | @closes id closing outcome ledger chain closed commits otherwise =>
    refine ⟨state.sameBudget, ?_, state.noTokens⟩
    rcases CostLedger.closes_of_close sound closed with
      ⟨rfl, unclosed⟩ | ⟨admission, commitment, rfl, closes⟩
    · cases outcome with
      | closed commitment => exact absurd rfl (unclosed commitment)
      | ignored =>
        obtain ⟨admission, present, isSettled⟩ :=
          CostLedger.settled_of_ignored closed
        exact state.capped.ignored rfl rfl present isSettled
      | threw | unavailable => exact state.capped.quiet rfl rfl
    · refine state.capped.closes closes rfl rfl ?_ safe
      have held := closes.committedNonneg.trans closes.committed
      cases closing with
      | settle actual =>
        have validated := closes.validated actual rfl
        simp only [BudgetGovernor.permitted, validated, closes.present,
          Option.all_some, decide_eq_true_eq] at permitted
        exact permitted
      | settleAtReservedEstimate | release => exact held
  | updates total =>
    have stale : governor.ledger.updateCost total = governor.ledger := by
      unfold CostLedger.updateCost
      cases value : total.nonNegativeSafe with
      | none => rfl
      | some reported =>
        simp only [BudgetGovernor.permitted, value, Option.all_some,
          decide_eq_true_eq] at permitted
        rw [← state.capped.realized] at permitted
        exact if_neg (not_lt.mpr permitted)
    rw [stale]
    exact ⟨state.sameBudget, state.capped.quiet rfl rfl, state.noTokens⟩
  | restores | forgives => simp [BudgetGovernor.permitted] at permitted
  | writes =>
    exact
      { sameBudget := state.sameBudget
        capped := state.capped.quiet (by simp [moveOf]) (by simp [closingTarget])
        noTokens := state.noTokens }
  | flushes concerns _ still | flushThrows concerns _ still =>
    exact
      { sameBudget := still.budget.trans state.sameBudget
        capped := (state.capped.quiet (by simp [moveOf])
          (by simp [closingTarget])).rearmed still.ledger
        noTokens := state.noTokens.still
          (unowned_of_concerns state.noTokens permitted concerns) still.threads }

theorem capped_fresh (budget : BudgetPolicy) (bounded : 0 < budget.maxCostMicrocents) :
    CappedGovernor budget [] (fresh budget) where
  sameBudget := rfl
  capped :=
    { sound := CostLedger.sound_fresh
      movedOnce :=
        { moves := fun _ => rfl
          settled := by simp [fresh, CostLedger.fresh]
          unissued := fun _ _ => rfl
          whole := by simp [fresh, CostLedger.fresh] }
      realized := rfl
      conservative := rfl
      within := bounded.le }
  noTokens := by
    intro thread info phase found
    simp [fresh] at found

/-- A governor stays below its cap along every run of permitted calls. -/
theorem capped_of_run
    (run : Run GovernorStep (fresh budget) history governor) (failing : budget.onExceed = .fail)
    (bounded : 0 < budget.maxCostMicrocents) (safe : budget.maxCostMicrocents ≤ maxSafeInteger)
    (allPermitted : AllPermitted budget history) :
    CappedGovernor budget history governor := by
  induction run with
  | nil => exact capped_fresh budget bounded
  | @snoc history middle next label earlier taken ih =>
    unfold AllPermitted at allPermitted
    rw [List.map_append] at allPermitted
    obtain ⟨before, now⟩ := always_of_run earlier allPermitted
    have effect := @hasEffect_perform middle label.1
    unfold HasEffect at effect
    unfold GovernorStep Answers at taken
    rw [taken] at effect
    exact (ih before).effect failing bounded safe now effect

end Run

/-- In every run of a governor that fails requests over a cap that is a safe
integer: the three totals stay within the cap; each of them is the sum it
stands for; and every reservation is moved once if its admission was closed at
all, a commitment moving the whole of it. -/
theorem cap_safety
    {budget : BudgetPolicy} {history : List GovernorLabel} {governor : BudgetGovernor}
    (run : Run GovernorStep (fresh budget) history governor) (failing : budget.onExceed = .fail)
    (bounded : 0 < budget.maxCostMicrocents) (safe : budget.maxCostMicrocents ≤ maxSafeInteger)
    (allPermitted : AllPermitted budget history) :
    governor.ledger.cumulativeCostMicrocents + governor.ledger.conservativeCostMicrocents +
        governor.ledger.reservedCostMicrocents ≤ budget.maxCostMicrocents ∧
      governor.ledger.reservedCostMicrocents =
        governor.ledger.admissions.total
          (fun _ admission =>
            if admission.settled then 0
            else admission.reservedMicrocents.getD 0) ∧
      governor.ledger.cumulativeCostMicrocents = settledIn history ∧
      governor.ledger.conservativeCostMicrocents = retainedIn history ∧
      ∀ id admission, governor.ledger.admissions.get id = some admission →
        (admission.settled = true ↔ 0 < closingsOn id history) ∧
        (movesOn id history).length =
          (if 0 < closingsOn id history then 1 else 0) ∧
        ∀ amount, .conservative amount ∈ movesOn id history →
          amount = admission.reservedMicrocents.getD 0 := by
  have books := (capped_of_run run failing bounded safe allPermitted).capped
  refine ⟨books.within, ?_, books.realized, books.conservative, ?_⟩
  · rw [books.sound.reserved]
    refine OrderedMap.total_congr ?_
    intro id admission _
    unfold CostLedger.heldBy Admission.openAmount
    split <;> rfl
  · intro id admission present
    exact ⟨books.movedOnce.settled id admission present, books.movedOnce.moves id,
      fun amount => books.movedOnce.whole id admission amount present⟩

/-- An attempt that no allowance token owns. -/
def unowned : PreEgressInfo where
  model := "model"
  token := false

/-- The price of an attempt, fully priced. -/
def pricedAt (thread value : Nat)
    (small : value < 2 ^ 53) : GovernorCall :=
  .priced thread (some (.priced (.ofNat value small) [])) none none

/-- Two attempts are in flight when a third does not fit; one of them is
settled twice, the other committed and released. -/
def threeAttempts : List GovernorCall :=
  [.checkPreEgress unowned none, .checkPreEgress unowned none,
    .checkPreEgress unowned none, pricedAt 1 60 (by decide),
    pricedAt 0 30 (by decide), pricedAt 2 20 (by decide),
    .close 0 (.settle (.integer 45)), .close 0 (.settle (.integer 60)),
    .close 1 (.settleAtReservedEstimate ⟨none, none⟩), .close 1 .release]

def failingCap (maxCostMicrocents : Int) : BudgetPolicy where
  maxCostMicrocents
  onExceed := .fail
  strictCostCap := false

theorem cap_safety_three_attempts :
    (replay perform (fresh (failingCap 100)) threeAttempts).1.map Prod.snd =
        [.suspended 0, .suspended 1, .suspended 2, .returned (some 0), .returned (some 1),
          .threw (.exceeded
            { spentMicrocents := 0
              limitMicrocents := 100
              projectedMicrocents := some 110
              reason := .projectedOverCap }) none,
          .closing (.closed none), .closing .ignored,
          .closing (.closed (some
            { origin := ⟨none, none⟩
              model := "model"
              estimateMicrocents := 30
              cumulativeConservativeMicrocents := 30 })),
          .closing .ignored] ∧
      (replay perform (fresh (failingCap 100)) threeAttempts).2.ledger.cumulativeCostMicrocents +
          (replay perform (fresh (failingCap 100))
            threeAttempts).2.ledger.conservativeCostMicrocents +
        (replay perform (fresh (failingCap 100))
          threeAttempts).2.ledger.reservedCostMicrocents ≤ 100 :=
  ⟨by decide,
    (cap_safety (run_replay perform (fresh (failingCap 100)) threeAttempts) rfl
      (by decide) (by decide) (by decide)).1⟩

/-- With a cap of `2 ^ 53`, the projection of a request over the cap rounds
back to the cap. -/
def roundedProjection : List GovernorCall :=
  [.checkPreEgress unowned none, pricedAt 0 (2 ^ 53 - 1) (by decide),
    .close 0 (.settle (.integer (2 ^ 53 - 1))),
    .checkPreEgress unowned none, pricedAt 1 2 (by decide)]

/-- The cap is not safe when it is not a safe integer. -/
theorem cap_exceeded_by_rounding :
    ¬∀ (budget : BudgetPolicy) (history : List GovernorLabel) (governor : BudgetGovernor),
      Run GovernorStep (fresh budget) history governor →
      budget.onExceed = .fail →
      0 < budget.maxCostMicrocents →
      AllPermitted budget history →
      governor.ledger.cumulativeCostMicrocents + governor.ledger.conservativeCostMicrocents +
        governor.ledger.reservedCostMicrocents ≤ budget.maxCostMicrocents := by
  intro claimed
  have within := claimed (failingCap (2 ^ 53)) _ _
    (run_replay perform (fresh (failingCap (2 ^ 53))) roundedProjection)
    rfl (by decide) (by decide)
  exact absurd within (by decide)

end BudgetGovernor

end Relavium.Budget
