import Relavium.Library.DoubleInteger
import Relavium.Library.OrderedMap

/-!
# The cost ledger of the budget governor

Model of the money that `packages/core/src/engine/budget-governor.ts` keeps:
realized charges, conservative commitments and live reservations, and the
admissions that own the reservations.
-/

namespace Relavium.Budget

open Library

/-- Who owned the attempt that a commitment is made for. -/
structure CommitmentOrigin where
  nodeId : Option String
  attemptNumber : Option Nat
  deriving DecidableEq

/-- The draft of a `budget:estimate_committed` event. -/
structure CommitmentDraft where
  origin : CommitmentOrigin
  model : String
  estimateMicrocents : Int
  cumulativeConservativeMicrocents : Int
  deriving DecidableEq

/-- The closure returned by `#admit`.  An admission without a price takes a
number as well, which no reservation uses. -/
structure Admission where
  model : String
  reservedMicrocents : Option Int
  settled : Bool

structure CostLedger where
  cumulativeCostMicrocents : Int
  conservativeCostMicrocents : Int
  reservedCostMicrocents : Int
  nextAdmissionId : Nat
  reservedAdmissions : OrderedMap Nat Int
  admissions : OrderedMap Nat Admission
  warningArmed : Bool

/-- A call on an admission. -/
inductive ClosingCall
  | settle (realizedMicrocents : Quantity)
  | settleAtReservedEstimate (origin : CommitmentOrigin)
  | release

inductive ClosingOutcome
  /-- The call closed the admission, and may have made a commitment. -/
  | closed (commitment : Option CommitmentDraft)
  /-- The admission was closed before. -/
  | ignored
  | threw
  /-- No such admission was handed out. -/
  | unavailable
  deriving DecidableEq

namespace CostLedger

def fresh : CostLedger where
  cumulativeCostMicrocents := 0
  conservativeCostMicrocents := 0
  reservedCostMicrocents := 0
  nextAdmissionId := 0
  reservedAdmissions := .empty
  admissions := .empty
  warningArmed := true

/-- The total that a cap decision projects. -/
def projected (ledger : CostLedger) (estimate : SafeAmount) : Int :=
  addNumbers
    (addNumbers
      (addNumbers ledger.cumulativeCostMicrocents ledger.conservativeCostMicrocents)
      ledger.reservedCostMicrocents)
    estimate.value

/-- `Number.isSafeInteger` of the reservations with one more. -/
def fits (ledger : CostLedger) (estimate : SafeAmount) : Bool :=
  addNumbers ledger.reservedCostMicrocents estimate.value ≤ maxSafeInteger

/-- Insert a reservation and its admission. -/
def insert (ledger : CostLedger) (model : String)
    (estimate : Option SafeAmount) : CostLedger :=
  let id := ledger.nextAdmissionId
  let admission :=
    { model, reservedMicrocents := estimate.map (·.value), settled := false }
  let ledger :=
    { ledger with
      nextAdmissionId := id + 1
      admissions := ledger.admissions.set id admission }
  match estimate with
  | none => ledger
  | some estimate =>
    { ledger with
      reservedAdmissions := ledger.reservedAdmissions.set id estimate.value
      reservedCostMicrocents :=
        addNumbers ledger.reservedCostMicrocents estimate.value }

/-- `#admit`; `none` where it throws on an unrepresentable total. -/
def admitNew (ledger : CostLedger) (model : String) (estimate : Option SafeAmount)
    (debit : Bool) : Option (Option Nat × CostLedger) :=
  if !debit && estimate.all (·.value ≤ 0) then some (none, ledger)
  else if !estimate.all ledger.fits then none
  else some (some ledger.nextAdmissionId, ledger.insert model estimate)

/-- `takeReservation`. -/
def takeReservation (ledger : CostLedger)
    (id : Nat) : Option Int × CostLedger :=
  match ledger.reservedAdmissions.get id with
  | none => (none, ledger)
  | some reserved =>
    (some reserved,
      { ledger with
        reservedAdmissions := ledger.reservedAdmissions.delete id
        reservedCostMicrocents :=
          addNumbers ledger.reservedCostMicrocents (-reserved) })

/-- Mark an admission as settled. -/
def markSettled (ledger : CostLedger) (id : Nat)
    (admission : Admission) : CostLedger :=
  { ledger with
    admissions := ledger.admissions.set id { admission with settled := true } }

/-- Add a realized charge. -/
def realize (ledger : CostLedger) (realizedMicrocents : Int) : CostLedger :=
  if 0 < realizedMicrocents then
    { ledger with
      cumulativeCostMicrocents :=
        addNumbers ledger.cumulativeCostMicrocents realizedMicrocents
      warningArmed := true }
  else ledger

/-- Keep a reservation that was taken as a conservative commitment. -/
def retain (ledger : CostLedger) (reserved : Option Int) (model : String)
    (origin : CommitmentOrigin) : Option CommitmentDraft × CostLedger :=
  match reserved with
  | none => (none, ledger)
  | some reserved =>
    if 0 < reserved then
      let conservative :=
        addNumbers ledger.conservativeCostMicrocents reserved
      (some
        { origin
          model
          estimateMicrocents := reserved
          cumulativeConservativeMicrocents := conservative },
        { ledger with
          conservativeCostMicrocents := conservative
          warningArmed := true })
    else (none, ledger)

/-- A call on an admission. -/
def close (ledger : CostLedger) (id : Nat)
    (call : ClosingCall) : ClosingOutcome × CostLedger :=
  match ledger.admissions.get id with
  | none => (.unavailable, ledger)
  | some admission =>
    if admission.settled then (.ignored, ledger)
    else
      let taken := (ledger.markSettled id admission).takeReservation id
      match call with
      | .settle realized =>
        match realized.nonNegativeSafe with
        | none => (.threw, ledger)
        | some realized => (.closed none, taken.2.realize realized)
      | .settleAtReservedEstimate origin =>
        let retained := taken.2.retain taken.1 admission.model origin
        (.closed retained.1, retained.2)
      | .release => (.closed none, taken.2)

def updateCost (ledger : CostLedger)
    (cumulativeCostMicrocents : Quantity) : CostLedger :=
  match cumulativeCostMicrocents.nonNegativeSafe with
  | none => ledger
  | some total =>
    if ledger.cumulativeCostMicrocents < total then
      { ledger with
        warningArmed := true
        cumulativeCostMicrocents := total }
    else ledger

def restoreConservativeCost (ledger : CostLedger)
    (microcents : Quantity) : CostLedger :=
  match microcents.nonNegativeSafe with
  | none => ledger
  | some microcents =>
    if 0 < microcents ∧ ledger.conservativeCostMicrocents < microcents then
      { ledger with conservativeCostMicrocents := microcents }
    else ledger

def releaseConservativeCommitments (ledger : CostLedger) : CostLedger :=
  { ledger with
    conservativeCostMicrocents := 0
    warningArmed := true }

end CostLedger

end Relavium.Budget
