import Relavium.Budget.CostLedger

/-!
# The invariant of the cost ledger

The reservations of the ledger are those of its open admissions, their sum is
exact, and a call on an admission moves its reservation at most once.
-/

namespace Relavium.Budget

open Library

namespace Admission

/-- The reservation of an admission that is still open. -/
def openAmount (admission : Admission) : Option Int :=
  if admission.settled then none else admission.reservedMicrocents

/-- An admission as a closing call leaves it. -/
def afterClose (admission : Admission) : Admission :=
  { admission with settled := true }

theorem openAmount_afterClose (admission : Admission) :
    admission.afterClose.openAmount = none := rfl

theorem openAmount_of_open {admission : Admission} (isOpen : admission.settled = false) :
    admission.openAmount = admission.reservedMicrocents := by
  simp [openAmount, isOpen]

end Admission

/-- The realized charge of a closing call. -/
def realizedBy : ClosingCall → Int
  | .settle (.integer actual) => actual
  | _ => 0

/-- The estimate of a commitment, zero where none was made. -/
def committedBy (commitment : Option CommitmentDraft) : Int :=
  (commitment.map CommitmentDraft.estimateMicrocents).getD 0

/-- Add an amount to a total when it is positive. -/
def addPositive (total amount : Int) : Int :=
  if 0 < amount then addNumbers total amount else total

/-- Below the largest safe integer an addition is exact. -/
theorem addPositive_of_safe
    {total amount : Int} (totalNonneg : 0 ≤ total) (amountNonneg : 0 ≤ amount)
    (safe : total + amount ≤ maxSafeInteger) :
    addPositive total amount = total + amount := by
  unfold addPositive
  split
  · exact addNumbers_of_safe totalNonneg amountNonneg safe
  · omega

theorem addPositive_nonneg {total amount : Int} (nonneg : 0 ≤ total) :
    0 ≤ addPositive total amount := by
  unfold addPositive
  split
  · next positive => exact addNumbers_nonneg nonneg positive.le
  · exact nonneg

namespace CostLedger

/-- What an admission holds of the reserved total. -/
def heldBy (_id : Nat) (admission : Admission) : Int :=
  admission.openAmount.getD 0

/-- The ledger's reservations and totals are what its admissions say. -/
structure Sound (ledger : CostLedger) : Prop where
  issued : ∀ id admission, ledger.admissions.get id = some admission →
    id < ledger.nextAdmissionId
  reservations : ∀ id, ledger.reservedAdmissions.get id =
    (ledger.admissions.get id).bind Admission.openAmount
  amounts : ∀ id admission amount, ledger.admissions.get id = some admission →
    admission.reservedMicrocents = some amount → 0 ≤ amount
  reserved : ledger.reservedCostMicrocents = ledger.admissions.total heldBy
  reservedSafe : ledger.reservedCostMicrocents ≤ maxSafeInteger
  realizedNonneg : 0 ≤ ledger.cumulativeCostMicrocents
  conservativeNonneg : 0 ≤ ledger.conservativeCostMicrocents

theorem sound_fresh : Sound fresh where
  issued := by simp [fresh]
  reservations := by simp [fresh]
  amounts := by simp [fresh]
  reserved := by simp [fresh]
  reservedSafe := by simp [fresh, maxSafeInteger]
  realizedNonneg := by simp [fresh]
  conservativeNonneg := by simp [fresh]

section Facts

variable {ledger : CostLedger}

theorem Sound.heldBy_nonneg
    (sound : ledger.Sound) (id : Nat) (admission : Admission)
    (present : ledger.admissions.get id = some admission) :
    0 ≤ heldBy id admission := by
  unfold heldBy Admission.openAmount
  split
  · simp
  · cases reserved : admission.reservedMicrocents with
    | none => simp
    | some amount => exact sound.amounts id admission amount present reserved

/-- Reservations are never below zero. -/
theorem Sound.reservedNonneg (sound : ledger.Sound) :
    0 ≤ ledger.reservedCostMicrocents := by
  rw [sound.reserved]
  exact OrderedMap.total_nonneg sound.heldBy_nonneg

theorem Sound.next_absent (sound : ledger.Sound) :
    ledger.admissions.get ledger.nextAdmissionId = none := by
  cases found : ledger.admissions.get ledger.nextAdmissionId with
  | none => rfl
  | some admission =>
    exact absurd (sound.issued _ _ found) (lt_irrefl _)

theorem Sound.of_totals
    (sound : ledger.Sound) {next : CostLedger}
    (sameNext : next.nextAdmissionId = ledger.nextAdmissionId)
    (sameReservations : next.reservedAdmissions = ledger.reservedAdmissions)
    (sameAdmissions : next.admissions = ledger.admissions)
    (sameReserved : next.reservedCostMicrocents = ledger.reservedCostMicrocents)
    (realizedNonneg : 0 ≤ next.cumulativeCostMicrocents)
    (conservativeNonneg : 0 ≤ next.conservativeCostMicrocents) :
    next.Sound where
  issued := by
    rw [sameAdmissions, sameNext]
    exact sound.issued
  reservations := by
    rw [sameReservations, sameAdmissions]
    exact sound.reservations
  amounts := by
    rw [sameAdmissions]
    exact sound.amounts
  reserved := by
    rw [sameReserved, sameAdmissions]
    exact sound.reserved
  reservedSafe := sameReserved.le.trans sound.reservedSafe
  realizedNonneg := realizedNonneg
  conservativeNonneg := conservativeNonneg

/-- A reported total touches the realized total only. -/
theorem Sound.updateCost (sound : ledger.Sound) (total : Quantity) :
    (ledger.updateCost total).Sound ∧
      (ledger.updateCost total).conservativeCostMicrocents =
        ledger.conservativeCostMicrocents := by
  unfold CostLedger.updateCost
  split
  · exact ⟨sound, rfl⟩
  · rename_i value range
    obtain ⟨-, nonneg, -⟩ :=
      (Quantity.nonNegativeSafe_eq_some_iff total value).mp range
    split
    · exact ⟨sound.of_totals rfl rfl rfl rfl nonneg sound.conservativeNonneg, rfl⟩
    · exact ⟨sound, rfl⟩

/-- A total restored into a fresh ledger. -/
theorem restoreConservativeCost_fresh (restored : SafeAmount) :
    fresh.restoreConservativeCost (.integer restored.value) =
      { fresh with conservativeCostMicrocents := restored.value } := by
  have range := (Quantity.nonNegativeSafe_eq_some_iff
    (.integer restored.value) restored.value).mpr ⟨rfl, restored.nonneg, restored.safe⟩
  unfold restoreConservativeCost
  rw [range]
  simp only
  split
  · rfl
  · rename_i notPositive
    have zero : restored.value = 0 := by
      have nonneg := restored.nonneg
      simp only [fresh, and_self] at notPositive
      omega
    rw [zero]
    rfl

/-- A projection is the sum of the three totals and the estimate. -/
theorem projected_eq
    (sound : ledger.Sound) {estimate : SafeAmount}
    (safe : ledger.projected estimate ≤ maxSafeInteger) :
    ledger.projected estimate =
      ledger.cumulativeCostMicrocents + ledger.conservativeCostMicrocents +
        ledger.reservedCostMicrocents + estimate.value := by
  have reservedNonneg := sound.reservedNonneg
  have spentNonneg :=
    addNumbers_nonneg sound.realizedNonneg sound.conservativeNonneg
  have heldNonneg := addNumbers_nonneg spentNonneg reservedNonneg
  have estimateNonneg := estimate.nonneg
  have whole := eq_of_addNumbers_safe heldNonneg estimateNonneg safe
  unfold projected at safe ⊢
  rw [whole] at safe ⊢
  have held := eq_of_addNumbers_safe spentNonneg reservedNonneg (by omega)
  rw [held] at safe ⊢
  have spent := eq_of_addNumbers_safe sound.realizedNonneg sound.conservativeNonneg (by omega)
  rw [spent]

/-! ## Admission -/

/-- A reservation fits if the sum stays a safe integer. -/
theorem fits_iff (sound : ledger.Sound) (estimate : SafeAmount) :
    ledger.fits estimate = true ↔
      ledger.reservedCostMicrocents + estimate.value ≤ maxSafeInteger := by
  unfold fits
  rw [decide_eq_true_iff]
  constructor
  · intro safe
    rw [← eq_of_addNumbers_safe sound.reservedNonneg estimate.nonneg safe]
    exact safe
  · intro safe
    rw [addNumbers_of_safe sound.reservedNonneg estimate.nonneg safe]
    exact safe

/-- The reserved total after an insertion. -/
theorem reserved_insert
    (sound : ledger.Sound) {estimate : Option SafeAmount}
    (fitting : estimate.all ledger.fits = true) (model : String) :
    (ledger.insert model estimate).reservedCostMicrocents =
      ledger.reservedCostMicrocents + (estimate.map (·.value)).getD 0 := by
  cases estimate with
  | none => simp [insert]
  | some estimate =>
    exact addNumbers_of_safe sound.reservedNonneg estimate.nonneg
      ((fits_iff sound estimate).mp fitting)

@[simp] theorem admissions_insert (model : String) (estimate : Option SafeAmount) :
    (ledger.insert model estimate).admissions =
      ledger.admissions.set ledger.nextAdmissionId
        { model
          reservedMicrocents := estimate.map (·.value)
          settled := false } := by
  cases estimate <;> rfl

@[simp] theorem cumulative_insert (model : String) (estimate : Option SafeAmount) :
    (ledger.insert model estimate).cumulativeCostMicrocents =
      ledger.cumulativeCostMicrocents := by
  cases estimate <;> rfl

@[simp] theorem conservative_insert (model : String) (estimate : Option SafeAmount) :
    (ledger.insert model estimate).conservativeCostMicrocents =
      ledger.conservativeCostMicrocents := by
  cases estimate <;> rfl

/-- A reservation that fits keeps the ledger sound. -/
theorem Sound.insert
    (sound : ledger.Sound) {estimate : Option SafeAmount}
    (fitting : estimate.all ledger.fits = true) (model : String) :
    (ledger.insert model estimate).Sound where
  issued := by
    intro id admission present
    have next : (ledger.insert model estimate).nextAdmissionId =
        ledger.nextAdmissionId + 1 := by cases estimate <;> rfl
    rw [admissions_insert, OrderedMap.get_set] at present
    rw [next]
    split at present
    · omega
    · exact Nat.lt_succ_of_lt (sound.issued id admission present)
  reservations := by
    intro id
    rw [admissions_insert, OrderedMap.get_set]
    cases estimate with
    | none =>
      change ledger.reservedAdmissions.get id = _
      rw [sound.reservations]
      split
      · rename_i same
        rw [same, sound.next_absent]
        rfl
      · rfl
    | some estimate =>
      change (ledger.reservedAdmissions.set _ _).get id = _
      rw [OrderedMap.get_set]
      split
      · rfl
      · exact sound.reservations id
  amounts := by
    intro id admission amount present
    rw [admissions_insert, OrderedMap.get_set] at present
    split at present
    · cases present
      cases estimate with
      | none => simp
      | some estimate =>
        rintro ⟨⟩
        exact estimate.nonneg
    · exact sound.amounts id admission amount present
  reserved := by
    rw [reserved_insert sound fitting, admissions_insert,
      OrderedMap.total_set_of_none _ sound.next_absent, sound.reserved]
    rfl
  reservedSafe := by
    rw [reserved_insert sound fitting]
    cases estimate with
    | none => simpa using sound.reservedSafe
    | some estimate => exact (fits_iff sound estimate).mp fitting
  realizedNonneg := by
    rw [cumulative_insert]
    exact sound.realizedNonneg
  conservativeNonneg := by
    rw [conservative_insert]
    exact sound.conservativeNonneg

/-- An admission is refused, or inserted with an amount that fits. -/
theorem admit_eq_some
    {model : String} {estimate : Option SafeAmount} {debit : Bool} {admission : Option Nat}
    {next : CostLedger}
    (admitted : ledger.admitNew model estimate debit = some (admission, next)) :
    admission = none ∧ next = ledger ∨
      admission = some ledger.nextAdmissionId ∧
        estimate.all ledger.fits = true ∧
        next = ledger.insert model estimate := by
  unfold admitNew at admitted
  split at admitted
  · cases admitted
    exact Or.inl ⟨rfl, rfl⟩
  · split at admitted
    · simp at admitted
    · rename_i fitting
      cases admitted
      exact Or.inr ⟨rfl, by simpa using fitting, rfl⟩

/-! ## Closing -/

/-- The ledger after an open admission gave its reservation back. -/
def consume (ledger : CostLedger) (id : Nat)
    (admission : Admission) : CostLedger :=
  ((ledger.markSettled id admission).takeReservation id).2

section Consume

variable {id : Nat} {admission : Admission}

@[simp] theorem admissions_consume :
    (ledger.consume id admission).admissions =
      ledger.admissions.set id admission.afterClose := by
  unfold consume takeReservation
  split <;> rfl

@[simp] theorem cumulative_consume :
    (ledger.consume id admission).cumulativeCostMicrocents =
      ledger.cumulativeCostMicrocents := by
  unfold consume takeReservation
  split <;> rfl

@[simp] theorem conservative_consume :
    (ledger.consume id admission).conservativeCostMicrocents =
      ledger.conservativeCostMicrocents := by
  unfold consume takeReservation
  split <;> rfl

variable (sound : ledger.Sound)
  (present : ledger.admissions.get id = some admission)
  (isOpen : admission.settled = false)

include sound present isOpen

/-- An open admission holds its own reservation. -/
theorem reservation_of_open :
    ledger.reservedAdmissions.get id = admission.reservedMicrocents := by
  rw [sound.reservations, present]
  exact Admission.openAmount_of_open isOpen

/-- Closing an open admission takes its reservation out. -/
theorem taken_of_open :
    ((ledger.markSettled id admission).takeReservation id).1 =
      admission.reservedMicrocents := by
  rw [← reservation_of_open sound present isOpen]
  unfold takeReservation markSettled
  split
  · next absent => exact absent.symm
  · next found => exact found.symm

/-- One reservation is at most the sum of all. -/
theorem held_le_reserved :
    admission.reservedMicrocents.getD 0 ≤ ledger.reservedCostMicrocents := by
  have held := OrderedMap.weight_le_total sound.heldBy_nonneg present
  rw [← sound.reserved] at held
  unfold heldBy at held
  rw [Admission.openAmount_of_open isOpen] at held
  exact held

/-- Closing an admission frees what it had reserved. -/
theorem reserved_consume :
    (ledger.consume id admission).reservedCostMicrocents =
      ledger.reservedCostMicrocents -
        admission.reservedMicrocents.getD 0 := by
  have held := held_le_reserved sound present isOpen
  have reservation := reservation_of_open sound present isOpen
  unfold consume takeReservation markSettled
  simp only [reservation]
  cases reserved : admission.reservedMicrocents with
  | none => simp
  | some amount =>
    rw [reserved, Option.getD_some] at held
    have nonneg := sound.amounts id admission amount present reserved
    have safe := sound.reservedSafe
    change roundToDouble (ledger.reservedCostMicrocents + -amount) = _
    rw [roundToDouble_of_safe (by omega) (by omega), Option.getD_some]
    exact (Int.sub_eq_add_neg).symm

/-- Closing an admission keeps the ledger sound. -/
theorem Sound.consume : (ledger.consume id admission).Sound where
  issued := by
    intro other found isFound
    have next : (ledger.consume id admission).nextAdmissionId =
        ledger.nextAdmissionId := by
      unfold CostLedger.consume takeReservation
      split <;> rfl
    rw [admissions_consume, OrderedMap.get_set] at isFound
    rw [next]
    split at isFound
    · next same => exact same ▸ sound.issued id admission present
    · exact sound.issued other found isFound
  reservations := by
    intro other
    have reservation := reservation_of_open sound present isOpen
    rw [admissions_consume, OrderedMap.get_set]
    unfold CostLedger.consume takeReservation markSettled
    simp only [reservation]
    cases amount : admission.reservedMicrocents with
    | none =>
      simp only
      split
      · rename_i same
        rw [same, reservation, amount]
        rfl
      · exact sound.reservations other
    | some amount =>
      simp only [OrderedMap.get_delete]
      split
      · rfl
      · exact sound.reservations other
  amounts := by
    intro other found amount isFound
    rw [admissions_consume, OrderedMap.get_set] at isFound
    split at isFound
    · cases isFound
      exact sound.amounts id admission amount present
    · exact sound.amounts other found amount isFound
  reserved := by
    rw [reserved_consume sound present isOpen, admissions_consume,
      OrderedMap.total_set, OrderedMap.weightAt_of_some present, sound.reserved]
    unfold heldBy
    rw [Admission.openAmount_of_open isOpen, Admission.openAmount_afterClose]
    simp
  reservedSafe := by
    rw [reserved_consume sound present isOpen]
    have safe := sound.reservedSafe
    have nonneg := sound.heldBy_nonneg id admission present
    unfold heldBy at nonneg
    rw [Admission.openAmount_of_open isOpen] at nonneg
    omega
  realizedNonneg := by
    rw [cumulative_consume]
    exact sound.realizedNonneg
  conservativeNonneg := by
    rw [conservative_consume]
    exact sound.conservativeNonneg

end Consume

/-- A closing call that closed its admission. -/
structure Closes
    (ledger : CostLedger) (id : Nat) (admission : Admission) (call : ClosingCall)
    (commitment : Option CommitmentDraft)
    (next : CostLedger) : Prop where
  present : ledger.admissions.get id = some admission
  isOpen : admission.settled = false
  sound : next.Sound
  admissions : next.admissions = ledger.admissions.set id admission.afterClose
  reserved : next.reservedCostMicrocents =
    ledger.reservedCostMicrocents - admission.reservedMicrocents.getD 0
  cumulative : next.cumulativeCostMicrocents =
    addPositive ledger.cumulativeCostMicrocents (realizedBy call)
  conservative : next.conservativeCostMicrocents =
    addPositive ledger.conservativeCostMicrocents (committedBy commitment)
  realizedNonneg : 0 ≤ realizedBy call
  committedNonneg : 0 ≤ committedBy commitment
  exclusive : realizedBy call = 0 ∨ committedBy commitment = 0
  committed : committedBy commitment ≤ admission.reservedMicrocents.getD 0
  retains : ∀ origin, call = .settleAtReservedEstimate origin →
    committedBy commitment = admission.reservedMicrocents.getD 0
  commits : (∀ origin, call ≠ .settleAtReservedEstimate origin) →
    commitment = none
  validated : ∀ realized, call = .settle realized →
    realized.nonNegativeSafe = some (realizedBy call)

section Close

/-- Realizing a charge touches the realized total only. -/
theorem realize_eq (ledger : CostLedger) (actual : Int) :
    ledger.realize actual =
      { ledger with
        cumulativeCostMicrocents :=
          addPositive ledger.cumulativeCostMicrocents actual
        warningArmed := (ledger.realize actual).warningArmed } := by
  unfold realize addPositive
  split <;> rfl

/-- Retaining a reservation touches the conservative total only. -/
theorem retain_eq
    (ledger : CostLedger) (reserved : Option Int) (model : String) (origin : CommitmentOrigin) :
    (ledger.retain reserved model origin).2 =
      { ledger with
        conservativeCostMicrocents :=
          addPositive ledger.conservativeCostMicrocents
            (committedBy (ledger.retain reserved model origin).1)
        warningArmed :=
          (ledger.retain reserved model origin).2.warningArmed } := by
  unfold retain
  cases reserved with
  | none => rfl
  | some reserved =>
    simp only
    split
    · next positive => simp [committedBy, addPositive, positive]
    · rfl

/-- A commitment is made for the whole reservation. -/
theorem committedBy_retain
    {reserved : Option Int} (nonneg : 0 ≤ reserved.getD 0) (model : String)
    (origin : CommitmentOrigin) :
    committedBy (ledger.retain reserved model origin).1 = reserved.getD 0 := by
  unfold retain
  cases reserved with
  | none => rfl
  | some reserved =>
    simp only
    split
    · rfl
    · rename_i notPositive
      rw [Option.getD_some] at nonneg
      exact le_antisymm nonneg (not_lt.mp notPositive)

/-- What the closing of an open admission does, call by call. -/
theorem close_of_open
    (sound : ledger.Sound) {id : Nat} {admission : Admission}
    (present : ledger.admissions.get id = some admission) (isOpen : admission.settled = false)
    (call : ClosingCall) :
    ledger.close id call =
      match call with
      | .settle realized =>
        match realized.nonNegativeSafe with
        | none => (.threw, ledger)
        | some realized =>
          (.closed none, (ledger.consume id admission).realize realized)
      | .settleAtReservedEstimate origin =>
        let retained := (ledger.consume id admission).retain
          admission.reservedMicrocents admission.model origin
        (.closed retained.1, retained.2)
      | .release => (.closed none, ledger.consume id admission) := by
  unfold close
  simp only [present, isOpen, Bool.false_eq_true, if_false, taken_of_open sound present isOpen]
  rfl

/-- A closing is ignored only where the admission is settled. -/
theorem settled_of_ignored
    {id : Nat} {call : ClosingCall} {next : CostLedger}
    (called : ledger.close id call = (.ignored, next)) :
    ∃ admission, ledger.admissions.get id = some admission ∧
      admission.settled = true := by
  unfold close at called
  split at called
  · simp at called
  · rename_i admission present
    split at called
    · next isSettled => exact ⟨admission, present, isSettled⟩
    · cases call with
      | settle realized =>
        simp only at called
        split at called <;> simp at called
      | settleAtReservedEstimate | release => simp at called

/-- A closing changes nothing, or moves its admission to the totals. -/
theorem closes_of_close
    (sound : ledger.Sound) {id : Nat} {call : ClosingCall} {outcome : ClosingOutcome}
    {next : CostLedger} (called : ledger.close id call = (outcome, next)) :
    (next = ledger ∧ ∀ commitment, outcome ≠ .closed commitment) ∨
      ∃ admission commitment, outcome = .closed commitment ∧
        Closes ledger id admission call commitment next := by
  have nothing {left : ClosingOutcome} (unclosed : ∀ commitment, left ≠ .closed commitment)
      (quiet : (left, ledger) = (outcome, next)) :
      next = ledger ∧ ∀ commitment, outcome ≠ .closed commitment := by
    cases quiet
    exact ⟨rfl, unclosed⟩
  cases present : ledger.admissions.get id with
  | none =>
    simp only [close, present] at called
    exact Or.inl (nothing (by simp) called)
  | some admission =>
    cases isOpen : admission.settled with
    | true =>
      simp only [close, present, isOpen, if_true] at called
      exact Or.inl (nothing (by simp) called)
    | false =>
      have consumed := sound.consume present isOpen
      have reserved := reserved_consume sound present isOpen
      have held := sound.heldBy_nonneg id admission present
      unfold heldBy at held
      rw [Admission.openAmount_of_open isOpen] at held
      rw [close_of_open sound present isOpen] at called
      cases call with
      | settle realized =>
        simp only at called
        split at called
        · exact Or.inl (nothing (by simp) called)
        · rename_i actual range
          cases called
          obtain ⟨rfl, nonneg, -⟩ :=
            (Quantity.nonNegativeSafe_eq_some_iff _ _).mp range
          refine Or.inr ⟨admission, none, rfl, ?_⟩
          rw [realize_eq]
          exact
            { present, isOpen
              sound := consumed.of_totals rfl rfl rfl rfl
                (addPositive_nonneg consumed.realizedNonneg)
                consumed.conservativeNonneg
              admissions := admissions_consume
              reserved
              cumulative := by simp [realizedBy]
              conservative := by simp [committedBy, addPositive]
              realizedNonneg := nonneg
              committedNonneg := le_refl 0
              exclusive := Or.inr rfl
              committed := held
              retains := by simp
              commits := fun _ => rfl
              validated := by
                rintro _ ⟨⟩
                exact range }
      | settleAtReservedEstimate origin =>
        cases called
        refine Or.inr ⟨admission, _, rfl, ?_⟩
        have whole := @committedBy_retain (ledger.consume id admission) _
          held admission.model origin
        rw [retain_eq]
        exact
          { present, isOpen
            sound := consumed.of_totals rfl rfl rfl rfl consumed.realizedNonneg
              (addPositive_nonneg consumed.conservativeNonneg)
            admissions := admissions_consume
            reserved
            cumulative := by simp [realizedBy, addPositive]
            conservative := by simp
            realizedNonneg := le_refl 0
            committedNonneg := held.trans_eq whole.symm
            exclusive := Or.inl rfl
            committed := whole.le
            retains := fun _ _ => whole
            commits := fun other => absurd rfl (other origin)
            validated := by simp }
      | release =>
        cases called
        refine Or.inr ⟨admission, none, rfl, ?_⟩
        exact
          { present, isOpen
            sound := consumed
            admissions := admissions_consume
            reserved
            cumulative := by simp [realizedBy, addPositive]
            conservative := by simp [committedBy, addPositive]
            realizedNonneg := le_refl 0
            committedNonneg := le_refl 0
            exclusive := Or.inl rfl
            committed := held
            retains := by simp
            commits := fun _ => rfl
            validated := by simp }

end Close

end Facts

end CostLedger

end Relavium.Budget
