import Relavium.Library.OrderedMap
import Relavium.Library.SafeInteger

/-!
# Dispatch allowances

Model of `packages/core/src/engine/dispatch-allowance.ts`.  A book grants a
node's dispatch a frozen amount, debits it for one provider attempt at a time
and reconciles the debit with the actual charge.

The host predicate `isLive` may return either truth value, throw, or call the
book again.  An operation that asks it is therefore modelled in two halves: it
suspends on the stack of the book, any further calls may follow, and the
answer resumes the innermost suspended operation.
-/

namespace Relavium.Budget

open Library

inductive AllowanceRefusal
  | ownerInvalid
  | inFlight
  | exhausted
  deriving DecidableEq

inductive InvalidDispatchAllowance
  | invalidIdentity
  | invalidAmount
  | inactiveOwner
  | staleDispatch
  | invalidDebit
  | invalidSettlement
  deriving DecidableEq

/-- The record behind a token.  Tokens are numbered in the order of issue. -/
structure Owner where
  nodeId : String
  dispatchId : Int
  initial : Int
  remaining : Int
  inFlight : Bool
  closed : Bool
  exhausted : Bool

/-- The closing call that a debit accepted: the actual charge of a settlement,
and whether it was a release. -/
structure Closing where
  actual : Option Int
  released : Bool

/-- Life of a debit.  It is `settled` in the sense of the source in the last
two states, and still holds the slot of its owner in the first two. -/
inductive DebitState
  | admitted
  | finishing (closing : Closing)
  | finished (closing : Closing)

/-- The closure returned by an admission. -/
structure Debit where
  token : Nat
  estimate : Option Int
  state : DebitState

/-- An operation suspended while it asks the host predicate. -/
inductive Suspended
  | activating (nodeId : String) (dispatchId amount : Int)
  | validating (token : Nat) (alreadyAdmitted : Bool)
  | finishing (debit : Nat)

/-- State of the book, its debits and the operations in progress. -/
structure DispatchAllowanceBook where
  tokens : OrderedMap Nat Owner
  owners : OrderedMap String Nat
  lastDispatch : OrderedMap String Int
  debits : OrderedMap Nat Debit
  suspended : List Suspended
  nextToken : Nat
  nextDebit : Nat

inductive AllowanceCall
  | activate (nodeId : String) (dispatchId amount : Quantity)
  | validateLive (token : Nat) (alreadyAdmitted : Bool)
  | acquire (token : Nat) (estimate : Option Quantity)
  | settle (debit : Nat) (actual : Quantity)
  | release (debit : Nat)
  | retain (debit : Nat)
  | exhaust (token : Nat)
  | close (token : Nat)
  /-- The host predicate returns, or throws. -/
  | answer (live : Option Bool)
  deriving DecidableEq

inductive AllowanceOutcome
  /-- The operation is asking the host predicate. -/
  | asks
  | issued (token : Nat)
  | validated (refusal : Option AllowanceRefusal)
  | admitted (debit : Nat)
  | refused (reason : AllowanceRefusal)
  | done
  | threw (reason : InvalidDispatchAllowance)
  /-- No such closure or suspended operation exists to be called. -/
  | unavailable
  deriving DecidableEq

namespace DebitState

/-- The closing call that a debit accepted, if any. -/
def closing : DebitState → Option Closing
  | .admitted => none
  | .finishing closing => some closing
  | .finished closing => some closing

/-- Whether a debit still holds the slot of its owner. -/
def unfinished : DebitState → Bool
  | .finished _ => false
  | _ => true

end DebitState

namespace Owner

/-- Refund, top up or exhaust an owner at the end of a debit. -/
def reconcile (owner : Owner) (estimate : Option Int)
    (closing : Closing) : Owner :=
  let estimatedDebit := estimate.getD 0
  let delta :=
    if closing.released then -estimatedDebit
    else closing.actual.getD estimatedDebit - estimatedDebit
  let adjusted :=
    if delta < 0 then { owner with remaining := owner.remaining + -delta }
    else if 0 < delta then
      if owner.remaining ≤ delta then
        { owner with remaining := 0, exhausted := true }
      else { owner with remaining := owner.remaining - delta }
    else owner
  if 0 < adjusted.initial ∧ adjusted.remaining = 0 then
    { adjusted with exhausted := true }
  else adjusted

end Owner

namespace DispatchAllowanceBook

def fresh : DispatchAllowanceBook where
  tokens := .empty
  owners := .empty
  lastDispatch := .empty
  debits := .empty
  suspended := []
  nextToken := 0
  nextDebit := 0

/-- The owner of a token that is open and not replaced. -/
def current (book : DispatchAllowanceBook) (token : Nat) : Option Owner :=
  match book.tokens.get token with
  | none => none
  | some owner =>
    if !owner.closed && book.owners.get owner.nodeId == some token then
      some owner
    else none

/-- Rewrite the record behind a token. -/
def modifyOwner (book : DispatchAllowanceBook) (token : Nat)
    (change : Owner → Owner) : DispatchAllowanceBook :=
  match book.tokens.get token with
  | none => book
  | some owner => { book with tokens := book.tokens.set token (change owner) }

def closeOwner (owner : Owner) : Owner := { owner with closed := true }

def exhaustOwner (owner : Owner) : Owner := { owner with exhausted := true }

def freeSlot (owner : Owner) : Owner := { owner with inFlight := false }

/-- Suspend an operation at the host predicate. -/
def suspend (book : DispatchAllowanceBook)
    (operation : Suspended) : AllowanceOutcome × DispatchAllowanceBook :=
  (.asks, { book with suspended := operation :: book.suspended })

/-- Whether a dispatch is not newer than the last one of its node. -/
def stale (book : DispatchAllowanceBook) (nodeId : String)
    (dispatchId : Int) : Bool :=
  match book.lastDispatch.get nodeId with
  | none => false
  | some last => dispatchId ≤ last

/-- First half of an activation: the checks before the host predicate. -/
def activate (book : DispatchAllowanceBook) (nodeId : String) (dispatchId amount : Quantity) :
    AllowanceOutcome × DispatchAllowanceBook :=
  match nodeId.isEmpty, dispatchId.nonNegativeSafe with
  | true, _ => (.threw .invalidIdentity, book)
  | false, none => (.threw .invalidIdentity, book)
  | false, some dispatchId =>
    match amount.nonNegativeSafe with
    | none => (.threw .invalidAmount, book)
    | some amount =>
      if book.stale nodeId dispatchId then (.threw .staleDispatch, book)
      else book.suspend (.activating nodeId dispatchId amount)

/-- Close the owner that a newer dispatch of its node replaces. -/
def closePrior (book : DispatchAllowanceBook)
    (nodeId : String) : DispatchAllowanceBook :=
  match book.owners.get nodeId with
  | none => book
  | some prior => book.modifyOwner prior closeOwner

/-- Install a new owner under a fresh token. -/
def install (book : DispatchAllowanceBook) (nodeId : String)
    (dispatchId amount : Int) : DispatchAllowanceBook :=
  { book with
    tokens := book.tokens.set book.nextToken
      { nodeId, dispatchId, initial := amount, remaining := amount,
        inFlight := false, closed := false, exhausted := false }
    owners := book.owners.set nodeId book.nextToken
    lastDispatch := book.lastDispatch.set nodeId dispatchId
    nextToken := book.nextToken + 1 }

/-- Second half of an activation, after the host predicate answered. -/
def resumeActivate (book : DispatchAllowanceBook) (nodeId : String) (dispatchId amount : Int)
    (live : Bool) : AllowanceOutcome × DispatchAllowanceBook :=
  if !live then (.threw .inactiveOwner, book)
  else if book.stale nodeId dispatchId then (.threw .staleDispatch, book)
  else (.issued book.nextToken, (book.closePrior nodeId).install nodeId dispatchId amount)

def validateLive (book : DispatchAllowanceBook) (token : Nat)
    (alreadyAdmitted : Bool) : AllowanceOutcome × DispatchAllowanceBook :=
  match book.current token with
  | none => (.validated (some .ownerInvalid), book)
  | some _ => book.suspend (.validating token alreadyAdmitted)

def resumeValidate (book : DispatchAllowanceBook) (token : Nat) (alreadyAdmitted : Bool)
    (live : Bool) : AllowanceOutcome × DispatchAllowanceBook :=
  match live, book.current token with
  | true, some owner =>
    (.validated
      (if owner.exhausted then some .exhausted
        else if owner.inFlight && !alreadyAdmitted then some .inFlight
        else none),
      book)
  | _, _ => (.validated (some .ownerInvalid), book.modifyOwner token closeOwner)

/-- Hold the slot of an owner and debit its estimate. -/
def admitNew (book : DispatchAllowanceBook) (token : Nat) (owner : Owner)
    (estimate : Option Int) : AllowanceOutcome × DispatchAllowanceBook :=
  (.admitted book.nextDebit,
    { book with
      tokens := book.tokens.set token
        { owner with
          inFlight := true
          remaining := owner.remaining - estimate.getD 0 }
      debits := book.debits.set book.nextDebit
        { token, estimate, state := .admitted }
      nextDebit := book.nextDebit + 1 })

def acquire (book : DispatchAllowanceBook) (token : Nat)
    (estimate : Option Quantity) : AllowanceOutcome × DispatchAllowanceBook :=
  match book.current token with
  | none => (.refused .ownerInvalid, book)
  | some owner =>
    if owner.exhausted then (.refused .exhausted, book)
    else if owner.inFlight then (.refused .inFlight, book)
    else
      match estimate with
      | none => book.admitNew token owner none
      | some quantity =>
        match quantity.nonNegativeSafe with
        | none => (.threw .invalidDebit, book)
        | some estimate =>
          if owner.remaining < estimate then
            (.refused .exhausted, book.modifyOwner token exhaustOwner)
          else book.admitNew token owner (some estimate)

/-- The `finally` block of a finishing debit. -/
def freeDebit (book : DispatchAllowanceBook) (id : Nat) (debit : Debit)
    (closing : Closing) : DispatchAllowanceBook :=
  { book with
    debits := book.debits.set id { debit with state := .finished closing } }
      |>.modifyOwner debit.token freeSlot

/-- First half of `finish`, up to the host predicate. -/
def finish (book : DispatchAllowanceBook) (id : Nat)
    (closing : Closing) : AllowanceOutcome × DispatchAllowanceBook :=
  match book.debits.get id with
  | none => (.unavailable, book)
  | some debit =>
    match debit.state with
    | .admitted =>
      match book.current debit.token with
      | none => (.done, book.freeDebit id debit closing)
      | some _ =>
        { book with
          debits := book.debits.set id
            { debit with state := .finishing closing } }
          |>.suspend (.finishing id)
    | _ => (.done, book)

/-- Second half of `finish`: reconcile a live owner, close any other. -/
def resumeFinish (book : DispatchAllowanceBook) (id : Nat)
    (live : Bool) : AllowanceOutcome × DispatchAllowanceBook :=
  match book.debits.get id with
  | none => (.unavailable, book)
  | some debit =>
    match debit.state with
    | .finishing closing =>
      match live, book.current debit.token with
      | true, some _ =>
        (.done, (book.modifyOwner debit.token
          (·.reconcile debit.estimate closing)).freeDebit id debit closing)
      | _, _ =>
        (.done,
          (book.modifyOwner debit.token closeOwner).freeDebit id debit closing)
    | _ => (.unavailable, book)

def settle (book : DispatchAllowanceBook) (id : Nat)
    (actual : Quantity) : AllowanceOutcome × DispatchAllowanceBook :=
  match book.debits.get id with
  | none => (.unavailable, book)
  | some debit =>
    if debit.state.closing.isSome then (.done, book)
    else
      match actual.nonNegativeSafe with
      | none => (.threw .invalidSettlement, book)
      | some actual => book.finish id { actual := some actual, released := false }

def exhaust (book : DispatchAllowanceBook)
    (token : Nat) : DispatchAllowanceBook :=
  match book.current token with
  | none => book
  | some _ => book.modifyOwner token exhaustOwner

/-- The answer of the host predicate resumes the innermost operation. -/
def resume (book : DispatchAllowanceBook)
    (live : Bool) : AllowanceOutcome × DispatchAllowanceBook :=
  match book.suspended with
  | [] => (.unavailable, book)
  | operation :: rest =>
    let book := { book with suspended := rest }
    match operation with
    | .activating nodeId dispatchId amount =>
      book.resumeActivate nodeId dispatchId amount live
    | .validating token alreadyAdmitted =>
      book.resumeValidate token alreadyAdmitted live
    | .finishing debit => book.resumeFinish debit live

/-- One call on the book, from outside or from within the host predicate. -/
def perform (book : DispatchAllowanceBook) :
    AllowanceCall → AllowanceOutcome × DispatchAllowanceBook
  | .activate nodeId dispatchId amount => book.activate nodeId dispatchId amount
  | .validateLive token alreadyAdmitted =>
    book.validateLive token alreadyAdmitted
  | .acquire token estimate => book.acquire token estimate
  | .settle debit actual => book.settle debit actual
  | .release debit => book.finish debit { actual := none, released := true }
  | .retain debit => book.finish debit { actual := none, released := false }
  | .exhaust token => (.done, book.exhaust token)
  | .close token => (.done, book.modifyOwner token closeOwner)
  | .answer live => book.resume (live.getD false)

end DispatchAllowanceBook

end Relavium.Budget
