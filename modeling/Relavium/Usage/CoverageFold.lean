import Relavium.Library.OrderedMap

/-!
# The usage-coverage fold

Model of `packages/shared/src/usage-coverage-fold.ts`.  The fold counts, in
total and for each model, the provider invocations that are still pending and
those whose usage is known to be incomplete.  It retains one entry for every
invocation whose receipt may still arrive.

The counters are integers, so that a missing guard in the source would show
up as a negative counter rather than be truncated away.
-/

namespace Relavium.Usage

open Library

/-- Accounting metadata of an owner or of one model. -/
structure UsageCoverage where
  unverified : Bool
  pendingInvocations : Int
  unknownCalls : Int

/-- Correlation of one provider invocation. -/
structure UsageInvocation where
  producerId : String
  ordinal : Nat
  dispatchId : String
  round : Nat
  chainAttempt : Nat
  deriving DecidableEq

inductive UsageCoverageBasis
  | complete
  | legacyUnverified
  deriving DecidableEq

/-- The arms of a disposition.  The fold reads nothing else of one. -/
inductive UsageDisposition
  | incomplete
  | notInvoked
  | officialRefusal
  deriving DecidableEq

inductive PendingState
  | pending
  | unknown
  deriving DecidableEq

/-- An invocation whose receipt is still open. -/
structure PendingEntry where
  model : String
  invocation : UsageInvocation
  state : PendingState

/-- The two invariant violations that the fold itself raises. -/
inductive UsageCoverageInvariantError
  | basisAlreadyEstablished
  | ordinalNotIncreasing
  deriving DecidableEq

def UsageCoverageInvariantError.message : UsageCoverageInvariantError → String
  | .basisAlreadyEstablished => "Usage coverage basis already established"
  | .ordinalNotIncreasing => "Usage invocation ordinal is not increasing"

namespace UsageCoverage

/-- Coverage without any recorded invocation. -/
def empty (unverified : Bool) : UsageCoverage where
  unverified := unverified
  pendingInvocations := 0
  unknownCalls := 0

/-- Shift both counters. -/
def adjust (coverage : UsageCoverage) (pending unknown : Int) : UsageCoverage :=
  { coverage with
    pendingInvocations := coverage.pendingInvocations + pending
    unknownCalls := coverage.unknownCalls + unknown }

@[simp] theorem adjust_pendingInvocations (coverage : UsageCoverage) (pending unknown : Int) :
    (coverage.adjust pending unknown).pendingInvocations =
      coverage.pendingInvocations + pending := rfl

@[simp] theorem adjust_unknownCalls (coverage : UsageCoverage) (pending unknown : Int) :
    (coverage.adjust pending unknown).unknownCalls = coverage.unknownCalls + unknown := rfl

end UsageCoverage

/-- Key of an invocation: `JSON.stringify([producerId, ordinal])`, which is
injective on the pair. -/
def keyOf (invocation : UsageInvocation) : String × Nat :=
  (invocation.producerId, invocation.ordinal)

/-- Agreement on every scalar of the correlation. -/
def «matches» (a b : UsageInvocation) : Bool :=
  a.producerId == b.producerId &&
  a.ordinal == b.ordinal &&
  a.dispatchId == b.dispatchId &&
  a.round == b.round &&
  a.chainAttempt == b.chainAttempt

theorem matches_iff (a b : UsageInvocation) : «matches» a b = true ↔ a = b := by
  cases a
  cases b
  simp [«matches», and_assoc]

/-- The part of the accounting that a checkpoint keeps. -/
structure UsageCoverageSnapshot where
  coverage : UsageCoverage
  models : List (String × UsageCoverage)
  started : Bool
  highWater : Nat

/-- State of the incremental accounting. -/
structure UsageCoverageFold where
  total : UsageCoverage
  models : OrderedMap String UsageCoverage
  pending : OrderedMap (String × Nat) PendingEntry
  started : Bool
  highWater : Nat

namespace UsageCoverageFold

/-- A fold constructed without a snapshot. -/
def fresh : UsageCoverageFold where
  total := .empty true
  models := .empty
  pending := .empty
  started := false
  highWater := 0

/-- Coverage of one model, created on demand with the owner's basis. -/
def model (fold : UsageCoverageFold) (name : String) : UsageCoverage :=
  (fold.models.get name).getD (.empty fold.total.unverified)

/-- Shift the counters of the owner and of one model together. -/
def adjust (fold : UsageCoverageFold) (name : String)
    (pending unknown : Int) : UsageCoverageFold :=
  { fold with
    total := fold.total.adjust pending unknown
    models := fold.models.set name ((fold.model name).adjust pending unknown) }

/-- Retain, replace or drop the entry of an invocation. -/
def setEntry (fold : UsageCoverageFold)
    (entry : PendingEntry) : UsageCoverageFold :=
  { fold with pending := fold.pending.set (keyOf entry.invocation) entry }

def dropEntry (fold : UsageCoverageFold)
    (invocation : UsageInvocation) : UsageCoverageFold :=
  { fold with pending := fold.pending.delete (keyOf invocation) }

/-- Establish the coverage basis, once. -/
def start (fold : UsageCoverageFold) (basis : UsageCoverageBasis) :
    Except UsageCoverageInvariantError UsageCoverageFold :=
  if fold.started then .error .basisAlreadyEstablished
  else .ok { fold with
    started := true
    total := { fold.total with unverified := basis == .legacyUnverified } }

/-- Record the durable pending boundary of an invocation. -/
def recordPending (fold : UsageCoverageFold) (name : String) (invocation : UsageInvocation) :
    Except UsageCoverageInvariantError UsageCoverageFold :=
  if invocation.ordinal ≤ fold.highWater then .error .ordinalNotIncreasing
  else .ok (({ fold with highWater := invocation.ordinal }.setEntry
    { model := name, invocation, state := .pending }).adjust name 1 0)

/-- The retained entry that a disposition or completion refers to. -/
def openEntry (fold : UsageCoverageFold) (name : String)
    (invocation : UsageInvocation) : Option PendingEntry :=
  match fold.pending.get (keyOf invocation) with
  | none => none
  | some entry =>
    if entry.model ≠ name ∨ ¬ «matches» entry.invocation invocation then none
    else some entry

/-- Apply a disposition; the answer says whether it was accepted. -/
def disposition
    (fold : UsageCoverageFold) (name : String) (invocation : UsageInvocation)
    (disposition : UsageDisposition)
    (receiptPending : Bool) : Bool × UsageCoverageFold :=
  match fold.openEntry name invocation with
  | none => (false, fold)
  | some entry =>
    match entry.state with
    | .unknown =>
      if disposition ≠ .incomplete ∨ receiptPending then (false, fold)
      else (true, fold.dropEntry invocation)
    | .pending =>
      let left := fold.adjust name (-1) 0
      if disposition = .incomplete then
        let unknown := left.adjust name 0 1
        if receiptPending then
          (true, unknown.setEntry { entry with state := .unknown })
        else (true, unknown.dropEntry invocation)
      else (true, left.dropEntry invocation)

/-- Apply a completion; the answer says whether it was accepted. -/
def complete (fold : UsageCoverageFold) (name : String)
    (invocation : UsageInvocation) : Bool × UsageCoverageFold :=
  match fold.openEntry name invocation with
  | none => (false, fold)
  | some entry =>
    match entry.state with
    | .pending => (true, (fold.adjust name (-1) 0).dropEntry invocation)
    | .unknown => (true, (fold.adjust name 0 (-1)).dropEntry invocation)

/-- Fencing a producer drops the correlation and keeps every counter. -/
def retire (fold : UsageCoverageFold) : UsageCoverageFold :=
  { fold with pending := .empty }

def snapshot (fold : UsageCoverageFold) : UsageCoverageSnapshot where
  coverage := fold.total
  models := fold.models.entries
  started := fold.started
  highWater := fold.highWater

/-- A fold constructed from a snapshot. -/
def ofSnapshot (snapshot : UsageCoverageSnapshot) : UsageCoverageFold where
  total := snapshot.coverage
  models := snapshot.models.foldl (fun models entry => models.set entry.1 entry.2) .empty
  pending := .empty
  started := snapshot.started
  highWater := snapshot.highWater

theorem openEntry_eq_some_iff
    (fold : UsageCoverageFold) (name : String) (invocation : UsageInvocation)
    (entry : PendingEntry) :
    fold.openEntry name invocation = some entry ↔
      fold.pending.get (keyOf invocation) = some entry ∧
        entry.model = name ∧ entry.invocation = invocation := by
  unfold openEntry
  cases found : fold.pending.get (keyOf invocation) with
  | none => simp
  | some other =>
    by_cases accepted : other.model = name ∧ other.invocation = invocation
    · have matched : «matches» other.invocation invocation = true :=
        (matches_iff _ _).mpr accepted.2
      simp only [accepted.1, matched, ne_eq, not_true_eq_false, or_self,
        if_false, Option.some.injEq]
      exact ⟨fun equal => ⟨equal, equal ▸ accepted⟩, fun given => given.1⟩
    · have refused : other.model ≠ name ∨
          ¬ «matches» other.invocation invocation := by
        rw [matches_iff]
        tauto
      simp only [refused, if_true, Option.some.injEq, reduceCtorEq, false_iff]
      rintro ⟨rfl, given⟩
      exact accepted given

end UsageCoverageFold

/-! ## Calls and what they answer -/

/-- A call on the fold. -/
inductive Operation
  | start (basis : UsageCoverageBasis)
  | pending (model : String) (invocation : UsageInvocation)
  | disposition (model : String) (invocation : UsageInvocation) (disposition : UsageDisposition)
      (receiptPending : Bool)
  | complete (model : String) (invocation : UsageInvocation)
  | retire

/-- What the caller of an operation observes. -/
inductive Outcome
  | done
  | answered (accepted : Bool)
  | threw (error : UsageCoverageInvariantError)
  deriving DecidableEq

/-- Perform one call.  Both throwing operations throw before they assign
anything, so a call that throws leaves the fold as it was. -/
def perform
    (fold : UsageCoverageFold) : Operation → Outcome × UsageCoverageFold
  | .start basis =>
    match fold.start basis with
    | .ok next => (.done, next)
    | .error error => (.threw error, fold)
  | .pending model invocation =>
    match fold.recordPending model invocation with
    | .ok next => (.done, next)
    | .error error => (.threw error, fold)
  | .disposition model invocation disposition receiptPending =>
    let (accepted, next) :=
      fold.disposition model invocation disposition receiptPending
    (.answered accepted, next)
  | .complete model invocation =>
    let (accepted, next) := fold.complete model invocation
    (.answered accepted, next)
  | .retire => (.done, fold.retire)

end Relavium.Usage
