import Relavium.Library.Trace
import Relavium.Store.SessionLedger

/-!
# Calls on the session ledger

Clients of any number of processes call the store; each call is one transaction
that may be lost before it commits, or whose acknowledgement may be lost.  A
receipt is an object of the client that began the invocation: its authority is
found by the reference of the object, and is retired when the client hears that
the receipt is spent.
-/

namespace Relavium.Store
namespace SessionLedger

open Library
open Library.Statements
open Usage (UsageDisposition)

/-- `ReceiptAuthority`, with the receipt that holds it. -/
structure ReceiptAuthority where
  /-- The database handle, and with it the process. -/
  db : Nat
  receipt : SessionUsageReceipt
  retired : Bool

/-- `SessionUsageOwner`, with the database handle that it was made for. -/
structure SessionUsageOwner where
  db : Nat
  sessionId : String
  deriving DecidableEq

/-- The tables, and what the clients hold by object reference. -/
structure LedgerWorld where
  tables : LedgerTables
  /-- `authorities`. -/
  authorities : OrderedMap Nat ReceiptAuthority
  /-- `oneShotOwners`. -/
  oneShotOwners : OrderedMap Nat SessionUsageOwner
  /-- The next object reference. -/
  nextObject : Nat

/-- An empty database that nobody has used. -/
def LedgerWorld.fresh
    (modelCatalog effectScopes : List String) : LedgerWorld where
  tables :=
    { sessions := .empty, costs := .empty, coverage := .empty,
      invocations := .empty, messages := [], modelCatalog, effectScopes }
  authorities := .empty
  oneShotOwners := .empty
  nextObject := 0

/-- The store calls, with the database handle where it is compared. -/
inductive LedgerCall
  | createSession (record : AgentSessionRecord)
  | createFreshSession (seed : FreshSessionSeed)
  | createFreshOneShotOwner (db : Nat) (sessionId : String) (now : Int)
  | recordSessionCost (db : Nat) (entry : SessionCostEntry)
  | recordSessionConservativeCommitment (entry : SessionConservativeEntry)
  | releaseSessionConservativeCommitments (sessionId : String) (ts : Int)
  | updateSession (record : AgentSessionRecord)
  | writeTurn (turn : SessionTurnWrite)
  | beginInvocation (db : Nat) (input : SessionUsageInvocationInput) (owner : Option Nat)
  | disposition (db : Nat) (receipt : Nat) (value : UsageDisposition)
  | retire (db : Nat) (receipt : Nat)

/-- What a committed transaction answered. -/
inductive LedgerAnswer
  | done
  | accepted (value : Bool)
  | released (amount : Nat)
  | begun (receipt : SessionUsageReceipt)
  deriving DecidableEq

/-- A transaction under a fault: what it committed, if anything, whether the
caller heard of it, and the tables. -/
structure Written (α : Type) where
  committed : Option α
  heard : Bool
  tables : LedgerTables

def write (fault : WriteFault) (statements : LedgerStatements α)
    (tables : LedgerTables) : Written α :=
  match fault, transaction statements tables with
  | .none, (.ok answer, written) => ⟨some answer, true, written⟩
  | .afterCommit, (.ok answer, written) => ⟨some answer, false, written⟩
  | _, _ => ⟨none, false, tables⟩

namespace LedgerWorld

/-- A call of which only the tables keep a trace. -/
def writeTables (world : LedgerWorld) (fault : WriteFault) (statements : LedgerStatements α)
    (answer : α → LedgerAnswer) : Option LedgerAnswer × LedgerWorld :=
  let written := write fault statements world.tables
  (written.committed.map answer, { world with tables := written.tables })

/-- `authority(db, receipt)`; nothing where it throws. -/
def authority (world : LedgerWorld)
    (db receipt : Nat) : Option ReceiptAuthority :=
  (world.authorities.get receipt).filter (·.db = db)

/-- `held.retired = true`. -/
def retireAuthority (receipt : Nat) (authorities : OrderedMap Nat ReceiptAuthority) :
    OrderedMap Nat ReceiptAuthority :=
  match authorities.get receipt with
  | some held => authorities.set receipt { held with retired := true }
  | none => authorities

/-- A call about a receipt, which retires it when the caller hears an answer that
spends it. -/
def writeReceipt
    (world : LedgerWorld) (fault : WriteFault) (receipt : Nat) (statements : LedgerStatements α)
    (spends : α → Bool)
    (answer : α → LedgerAnswer) : Option LedgerAnswer × LedgerWorld :=
  let written := write fault statements world.tables
  (written.committed.map answer,
    { world with
      tables := written.tables
      authorities :=
        if written.heard && written.committed.any spends then
          retireAuthority receipt world.authorities
        else world.authorities })

/-- The receipt of a cost entry with its mark, if the entry has one; nothing
where looking up its authority throws. -/
def entryReceipt (world : LedgerWorld) (db : Nat)
    (entry : SessionCostEntry) : Option (Option (SessionUsageReceipt × Bool)) :=
  match entry.usageReceipt with
  | none => some none
  | some receipt =>
    (world.authority db receipt).map fun held => some (held.receipt, held.retired)

/-- `recordSessionCost`. -/
def recordSessionCost (world : LedgerWorld) (fault : WriteFault) (db : Nat)
    (entry : SessionCostEntry) : Option LedgerAnswer × LedgerWorld :=
  match world.entryReceipt db entry, entry.usageReceipt with
  | none, _ => (none, world)
  | some receipt, none =>
    world.writeTables fault (SessionLedger.recordSessionCost entry receipt) .accepted
  | some receipt, some reference =>
    world.writeReceipt fault reference
      (SessionLedger.recordSessionCost entry receipt) id .accepted

/-- `beginInvocation`. -/
def beginInvocation
    (world : LedgerWorld) (fault : WriteFault) (db : Nat) (input : SessionUsageInvocationInput)
    (owner : Option Nat) : Option LedgerAnswer × LedgerWorld :=
  let owned := owner.bind world.oneShotOwners.get
  if owner.isSome ∧ owned ≠ some ⟨db, input.sessionId⟩ then (none, world)
  else
    let written :=
      write fault (beginSessionUsageInvocation input owner.isSome) world.tables
    (written.committed.map .begun,
      match written.committed, written.heard with
      | some receipt, true =>
        { world with
          tables := written.tables
          authorities := world.authorities.set world.nextObject
            { db, receipt, retired := false }
          nextObject := world.nextObject + 1 }
      | _, _ => { world with tables := written.tables })

/-- `disposition`. -/
def disposition (world : LedgerWorld) (fault : WriteFault) (db receipt : Nat)
    (value : UsageDisposition) : Option LedgerAnswer × LedgerWorld :=
  match world.authority db receipt with
  | none => (none, world)
  | some held =>
    if held.retired then (none, world)
    else
      world.writeReceipt fault receipt (disposeSessionUsageInvocation held.receipt value)
        (fun accepted => accepted && decide (value ≠ .incomplete)) .accepted

/-- `retire`. -/
def retire (world : LedgerWorld) (fault : WriteFault)
    (db receipt : Nat) : Option LedgerAnswer × LedgerWorld :=
  match world.authority db receipt with
  | none => (none, world)
  | some held =>
    if held.retired then (none, world)
    else
      world.writeReceipt fault receipt
        (retireSessionUsageInvocation held.receipt) (fun _ => true) fun _ => .done

/-- `createFreshOneShotOwner`. -/
def createFreshOneShotOwner
    (world : LedgerWorld) (fault : WriteFault) (db : Nat) (sessionId : String)
    (now : Int) : Option LedgerAnswer × LedgerWorld :=
  let written :=
    write fault (reserveOneShotSessionEffectTurnKey sessionId now) world.tables
  (written.committed.map fun _ => .done,
    if written.heard then
      { world with
        tables := written.tables
        oneShotOwners := world.oneShotOwners.set world.nextObject ⟨db, sessionId⟩
        nextObject := world.nextObject + 1 }
    else { world with tables := written.tables })

end LedgerWorld

/-- One call under a fault, with what its transaction committed. -/
def perform (world : LedgerWorld)
    (input : LedgerCall × WriteFault) : Option LedgerAnswer × LedgerWorld :=
  let done : Unit → LedgerAnswer := fun _ => .done
  match input.1 with
  | .createSession record =>
    world.writeTables input.2 (createSession record) done
  | .createFreshSession seed =>
    world.writeTables input.2 (createFreshSession seed) done
  | .createFreshOneShotOwner db sessionId now =>
    world.createFreshOneShotOwner input.2 db sessionId now
  | .recordSessionCost db entry => world.recordSessionCost input.2 db entry
  | .recordSessionConservativeCommitment entry =>
    world.writeTables input.2 (recordSessionConservativeCommitment entry) done
  | .releaseSessionConservativeCommitments sessionId ts =>
    world.writeTables input.2 (releaseSessionConservativeCommitments sessionId ts) .released
  | .updateSession record =>
    world.writeTables input.2 (updateSession record) done
  | .writeTurn turn => world.writeTables input.2 (writeTurn turn) done
  | .beginInvocation db input' owner =>
    world.beginInvocation input.2 db input' owner
  | .disposition db receipt value => world.disposition input.2 db receipt value
  | .retire db receipt => world.retire input.2 db receipt

/-- One call takes the world to the next one, with what it committed. -/
abbrev LedgerStep : LedgerWorld → (LedgerCall × WriteFault) × Option LedgerAnswer →
    LedgerWorld → Prop :=
  Answers perform

/-! ## What a call commits -/

/-- A write commits its statements whole, or leaves the tables as they were. -/
theorem write_cases
    {fault : WriteFault} {statements : LedgerStatements α} {tables : LedgerTables} :
    (∃ answer, (write fault statements tables).committed = some answer ∧
      Commits statements tables answer (write fault statements tables).tables) ∨
    (write fault statements tables).committed = none ∧
      (write fault statements tables).tables = tables ∧
      (write fault statements tables).heard = false := by
  unfold write
  cases ran : transaction statements tables with
  | mk outcome written =>
    cases fault with
    | none =>
      cases outcome with
      | ok answer => exact .inl ⟨answer, rfl, transaction_ok_iff.mp ran⟩
      | error refusal => exact .inr ⟨rfl, rfl, rfl⟩
    | beforeCommit => exact .inr ⟨rfl, rfl, rfl⟩
    | afterCommit =>
      cases outcome with
      | ok answer => exact .inl ⟨answer, rfl, transaction_ok_iff.mp ran⟩
      | error refusal => exact .inr ⟨rfl, rfl, rfl⟩

end SessionLedger
end Relavium.Store
