import Relavium.Store.SessionLedgerMoney
import Relavium.Store.SessionLedgerReceipts

/-!
# Runs of the session ledger

Over every run of store calls, the counters in the row of a session created with
zero totals are the sums over its models, and a receipt adds its cost at most once
and leaves the pending count exactly once, at the first disposition or completion
that is accepted.  The money in the row is the sum over its models, and the realized
money only grows, as long as no addition rounds.
-/

namespace Relavium.Store
namespace SessionLedger

open Library
open Library.Statements
open Usage (UsageDisposition)

/-! ## What a call is about -/

/-- The receipt that a call is about. -/
def LedgerCall.receipt : LedgerCall → Option Nat
  | .recordSessionCost _ entry => entry.usageReceipt
  | .disposition _ receipt _ => some receipt
  | .retire _ receipt => some receipt
  | _ => none

/-- A call about the receipt whose transaction committed `true`. -/
def accepts (receipt : Nat)
    (call : (LedgerCall × WriteFault) × Option LedgerAnswer) : Bool :=
  call.1.1.receipt == some receipt && call.2 == some (.accepted true)

/-- A call about the receipt that changes the rows of `session_costs`. -/
def charges (receipt : Nat) (world : LedgerWorld)
    (input : LedgerCall × WriteFault) : Bool :=
  input.1.receipt == some receipt &&
    decide ((perform world input).2.tables.costs ≠ world.tables.costs)

/-- A call about the receipt that lowers the pending count of its session. -/
def departs (receipt : Nat) (world : LedgerWorld)
    (input : LedgerCall × WriteFault) : Bool :=
  input.1.receipt == some receipt &&
    (world.authorities.get receipt).any fun held =>
      decide
        ((perform world input).2.tables.pendingOf held.receipt.sessionId <
          world.tables.pendingOf held.receipt.sessionId)

/-! ## Moves of the world -/

/-- The clients hold the same receipts. -/
structure SameReceipts (world next : LedgerWorld) : Prop where
  receipts : ∀ reference,
    (next.authorities.get reference).map (·.receipt) =
      (world.authorities.get reference).map (·.receipt)
  nextObject : world.nextObject ≤ next.nextObject

theorem SameReceipts.of_eq
    {world next : LedgerWorld} (authorities : next.authorities = world.authorities)
    (nextObject : next.nextObject = world.nextObject) :
    SameReceipts world next :=
  ⟨fun reference => by rw [authorities], nextObject.ge⟩

theorem receipt_retireAuthority
    (receipt reference : Nat) (authorities : OrderedMap Nat ReceiptAuthority) :
    ((LedgerWorld.retireAuthority receipt authorities).get reference).map (·.receipt) =
      (authorities.get reference).map (·.receipt) := by
  unfold LedgerWorld.retireAuthority
  cases found : authorities.get receipt with
  | none => rfl
  | some held =>
    rw [OrderedMap.get_set]
    split
    · rename_i same
      rw [same, found]
      rfl
    · rfl

/-- Everything that one call can do. -/
inductive LedgerMove
    (world : LedgerWorld) (input : LedgerCall × WriteFault) (answer : Option LedgerAnswer)
    (next : LedgerWorld) : Prop
  /-- A call that is not about a receipt, and begins no invocation. -/
  | apart :
      SameReceipts world next →
      input.1.receipt = none →
      next.tables.invocations = world.tables.invocations →
      LedgerMove world input answer next
  /-- A call that commits nothing. -/
  | nothing :
      SameReceipts world next →
      answer = none →
      next.tables = world.tables →
      LedgerMove world input answer next
  /-- A committed call about a receipt. -/
  | about (reference : Nat) (held : ReceiptAuthority) (accepted charged : Bool) :
      SameReceipts world next →
      input.1.receipt = some reference →
      world.authorities.get reference = some held →
      (answer = some (.accepted true) ↔ accepted = true) →
      ((world.tables.sessions.get held.receipt.sessionId).isSome →
        ReceiptEffect held.receipt world.tables next.tables accepted charged ∧
          (charged = false → next.tables.costs = world.tables.costs)) →
      LedgerMove world input answer next
  /-- An invocation begins; the client may or may not hear of it. -/
  | begun (receipt : SessionUsageReceipt) :
      input.1.receipt = none →
      (∀ row, world.tables.sessions.get receipt.sessionId = some row →
        row.usageInvocationHighWater < receipt.invocation.ordinal) →
      (∃ row, next.tables.sessions.get receipt.sessionId = some row ∧
        receipt.invocation.ordinal ≤ row.usageInvocationHighWater) →
      next.tables.invocations =
        world.tables.invocations.set receipt.key (pendingRow receipt) →
      (SameReceipts world next ∨
        ∃ held : ReceiptAuthority, held.receipt = receipt ∧
          next.authorities = world.authorities.set world.nextObject held ∧
          next.nextObject = world.nextObject + 1) →
      LedgerMove world input answer next

/-- A write that touches no invocation moves no receipt. -/
theorem move_writeTables
    {world : LedgerWorld} {input : LedgerCall × WriteFault} {statements : LedgerStatements α}
    {answer : α → LedgerAnswer} (keeps : Keeps LedgerTables.invocations statements)
    (apart : input.1.receipt = none) :
    LedgerMove world input (world.writeTables input.2 statements answer).1
      (world.writeTables input.2 statements answer).2 := by
  refine .apart (.of_eq rfl rfl) apart ?_
  obtain ⟨given, -, commits⟩ | ⟨-, same, -⟩ :=
    @write_cases _ input.2 statements world.tables
  · exact keeps _ _ _ commits
  · exact congrArg LedgerTables.invocations same

/-- A write about one receipt moves that receipt only. -/
theorem move_writeReceipt
    {world : LedgerWorld} {input : LedgerCall × WriteFault} {reference : Nat}
    {held : ReceiptAuthority} {statements : LedgerStatements α}
    {spends accepts charges : α → Bool} {answer : α → LedgerAnswer}
    (about : input.1.receipt = some reference)
    (found : world.authorities.get reference = some held)
    (answers : ∀ given, answer given = .accepted true ↔ accepts given = true)
    (effect : ∀ given after, Commits statements world.tables given after →
      (world.tables.sessions.get held.receipt.sessionId).isSome →
        ReceiptEffect held.receipt world.tables after (accepts given) (charges given) ∧
          (charges given = false → after.costs = world.tables.costs)) :
    LedgerMove world input (world.writeReceipt input.2 reference statements spends answer).1
      (world.writeReceipt input.2 reference statements spends answer).2 := by
  have same : SameReceipts world
      (world.writeReceipt input.2 reference statements spends answer).2 := by
    refine ⟨fun other => ?_, le_refl _⟩
    simp only [LedgerWorld.writeReceipt]
    split
    · exact receipt_retireAuthority reference other world.authorities
    · rfl
  obtain ⟨given, committed, commits⟩ | ⟨committed, unchanged, -⟩ :=
    @write_cases _ input.2 statements world.tables
  · refine .about reference held (accepts given) (charges given) same about found ?_
      (effect given _ commits)
    simp only [LedgerWorld.writeReceipt, committed, Option.map_some, Option.some.injEq]
    exact answers given
  · refine .nothing same ?_ unchanged
    simp [LedgerWorld.writeReceipt, committed]

/-- An authority found for a handle is the one held. -/
theorem held_of_authority
    {world : LedgerWorld} {db reference : Nat} {held : ReceiptAuthority}
    (found : world.authority db reference = some held) :
    world.authorities.get reference = some held :=
  (Option.filter_eq_some_iff.mp found).1

theorem move_recordSessionCost
    {world : LedgerWorld} {fault : WriteFault} {db : Nat} {entry : SessionCostEntry} :
    LedgerMove world (.recordSessionCost db entry, fault)
      (world.recordSessionCost fault db entry).1
      (world.recordSessionCost fault db entry).2 := by
  unfold LedgerWorld.recordSessionCost LedgerWorld.entryReceipt
  cases about : entry.usageReceipt with
  | none =>
    exact move_writeTables (keeps_recordSessionCost_of_none entry) about
  | some reference =>
    cases found : world.authority db reference with
    | none =>
      simp only [found, Option.map_none]
      exact .nothing (.of_eq rfl rfl) rfl rfl
    | some held =>
      simp only [found, Option.map_some]
      refine @move_writeReceipt _ world (.recordSessionCost db entry, fault)
        reference held _ _ id id _ about (held_of_authority found) ?_ ?_
      · intro given
        simp
      · intro given after commits present
        exact effect_recordSessionCost present commits

theorem move_disposition
    {world : LedgerWorld} {fault : WriteFault} {db reference : Nat} {value : UsageDisposition} :
    LedgerMove world (.disposition db reference value, fault)
      (world.disposition fault db reference value).1
      (world.disposition fault db reference value).2 := by
  unfold LedgerWorld.disposition
  cases found : world.authority db reference with
  | none => exact .nothing (.of_eq rfl rfl) rfl rfl
  | some held =>
    simp only
    split
    · exact .nothing (.of_eq rfl rfl) rfl rfl
    · refine @move_writeReceipt _ world (.disposition db reference value, fault)
        reference held _ _ id (fun _ => false) _ rfl (held_of_authority found) ?_ ?_
      · intro given
        simp
      · intro given after commits present
        exact ⟨effect_disposeSessionUsageInvocation present commits,
          fun _ => keepsCosts_disposeSessionUsageInvocation _ _ _ commits⟩

theorem move_retire {world : LedgerWorld} {fault : WriteFault} {db reference : Nat} :
    LedgerMove world (.retire db reference, fault)
      (world.retire fault db reference).1 (world.retire fault db reference).2 := by
  unfold LedgerWorld.retire
  cases found : world.authority db reference with
  | none => exact .nothing (.of_eq rfl rfl) rfl rfl
  | some held =>
    simp only
    split
    · exact .nothing (.of_eq rfl rfl) rfl rfl
    · refine @move_writeReceipt _ world (.retire db reference, fault) reference held _ _
        (fun _ => false) (fun _ => false) _ rfl (held_of_authority found) ?_ ?_
      · intro given
        simp
      · intro given after commits present
        exact ⟨effect_retireSessionUsageInvocation present commits,
          fun _ => keepsCosts_retireSessionUsageInvocation _ _ _ commits⟩

theorem move_createFreshOneShotOwner
    {world : LedgerWorld} {fault : WriteFault} {db : Nat} {sessionId : String} {now : Int} :
    LedgerMove world (.createFreshOneShotOwner db sessionId now, fault)
      (world.createFreshOneShotOwner fault db sessionId now).1
      (world.createFreshOneShotOwner fault db sessionId now).2 := by
  have same : (write fault (reserveOneShotSessionEffectTurnKey sessionId now)
      world.tables).tables.invocations = world.tables.invocations := by
    obtain ⟨given, -, commits⟩ | ⟨-, unchanged, -⟩ :=
      @write_cases _ fault (reserveOneShotSessionEffectTurnKey sessionId now) world.tables
    · exact keeps_reserveOneShot sessionId now _ _ _ commits
    · exact congrArg LedgerTables.invocations unchanged
  unfold LedgerWorld.createFreshOneShotOwner
  refine .apart ?_ rfl ?_
  · simp only
    split
    · exact ⟨fun _ => rfl, Nat.le_succ _⟩
    · exact .of_eq rfl rfl
  · simp only
    split
    · exact same
    · exact same

theorem move_beginInvocation
    {world : LedgerWorld} {fault : WriteFault} {db : Nat} {given : SessionUsageInvocationInput}
    {owner : Option Nat} :
    LedgerMove world (.beginInvocation db given owner, fault)
      (world.beginInvocation fault db given owner).1
      (world.beginInvocation fault db given owner).2 := by
  unfold LedgerWorld.beginInvocation
  simp only
  split
  · exact .nothing (.of_eq rfl rfl) rfl rfl
  · obtain ⟨receipt, committed, commits⟩ | ⟨committed, unchanged, -⟩ :=
      @write_cases _ fault (beginSessionUsageInvocation given owner.isSome) world.tables
    · obtain ⟨entered, left, enters, begins, leaves, rowsEntered, rowsLeft⟩ :=
        begins_of_commits commits
      refine .begun receipt rfl ?_ ?_ ?_ ?_
      · intro row found
        obtain ⟨next, isNext, -, mark⟩ := enters.row _ row found
        exact mark.trans_lt (begins.ordinal next isNext)
      · obtain ⟨row, found, mark⟩ := begins.mark
        obtain ⟨next, isNext, -, later⟩ := leaves.row _ row found
        refine ⟨next, ?_, mark.trans later⟩
        simp only [committed]
        split <;> exact isNext
      · have invocations := (Prod.mk.inj rowsLeft).2.trans
          (begins.invocations.trans (congrArg (fun rows =>
            OrderedMap.set rows receipt.key (pendingRow receipt))
            (Prod.mk.inj rowsEntered).2))
        simp only [committed]
        split <;> exact invocations
      · simp only [committed]
        split
        · rename_i same _
          cases same
          exact .inr ⟨⟨db, _, false⟩, rfl, rfl, rfl⟩
        · exact .inl (.of_eq rfl rfl)
    · refine .nothing ?_ ?_ ?_
      · simp only [committed]
        exact .of_eq rfl rfl
      · simp [committed]
      · simp only [committed]
        exact unchanged

/-- Every call moves receipts as the books say. -/
theorem move_perform (world : LedgerWorld) (input : LedgerCall × WriteFault) :
    LedgerMove world input (perform world input).1 (perform world input).2 := by
  obtain ⟨call, fault⟩ := input
  cases call with
  | createSession record => exact move_writeTables (keeps_createSession record) rfl
  | createFreshSession seed =>
    exact move_writeTables (keeps_createFreshSession seed) rfl
  | createFreshOneShotOwner db sessionId now => exact move_createFreshOneShotOwner
  | recordSessionCost db entry => exact move_recordSessionCost
  | recordSessionConservativeCommitment entry =>
    exact move_writeTables (keeps_recordSessionConservativeCommitment entry) rfl
  | releaseSessionConservativeCommitments sessionId ts =>
    exact move_writeTables (keeps_releaseSessionConservativeCommitments sessionId ts) rfl
  | updateSession record => exact move_writeTables (keeps_updateSession record) rfl
  | writeTurn turn => exact move_writeTables (keeps_writeTurn turn) rfl
  | beginInvocation db given owner => exact move_beginInvocation
  | disposition db receipt value => exact move_disposition
  | retire db receipt => exact move_retire

theorem LedgerStep.move
    {world next : LedgerWorld} {call : (LedgerCall × WriteFault) × Option LedgerAnswer}
    (step : LedgerStep world call next) :
    LedgerMove world call.1 call.2 next := by
  have move := move_perform world call.1
  rwa [show perform world call.1 = (call.2, next) from step] at move

/-! ## Receipts along a run -/

/-- What the accepted calls about a receipt say of its invocation: how often its
cost was added and how often it left the pending count. -/
structure ReceiptCounts (tables : LedgerTables) (receipt : SessionUsageReceipt) (accepted : Bool)
    (charged departed : Nat) : Prop where
  departed_eq : departed = accepted.toNat
  charged_le : charged ≤ accepted.toNat
  row : ∀ row, tables.invocations.get receipt.key = some row →
    charged = 0 ∧ (row.coverageState = .pending ↔ accepted = false)
  mark : ∃ row, tables.sessions.get receipt.sessionId = some row ∧
    receipt.invocation.ordinal ≤ row.usageInvocationHighWater

namespace ReceiptCounts

variable
  {tables next : LedgerTables}
  {receipt : SessionUsageReceipt}
  {accepted : Bool}
  {charged departed : Nat}

/-- The ordinal of a receipt stays under the mark of its session. -/
theorem mark_of_effect
    (counts : ReceiptCounts tables receipt accepted charged departed) {added : Amounts}
    (effect : LedgerEffect added tables next) :
    ∃ row, next.sessions.get receipt.sessionId = some row ∧
      receipt.invocation.ordinal ≤ row.usageInvocationHighWater := by
  obtain ⟨row, found, below⟩ := counts.mark
  obtain ⟨last, isLast, later⟩ := effect.mark found
  exact ⟨last, isLast, below.trans later⟩

/-- A step that leaves the row of the invocation alone. -/
theorem keep
    (counts : ReceiptCounts tables receipt accepted charged departed) {added : Amounts}
    (effect : LedgerEffect added tables next)
    (same : next.invocations.get receipt.key = tables.invocations.get receipt.key) :
    ReceiptCounts next receipt accepted charged departed :=
  ⟨counts.departed_eq, counts.charged_le,
    fun row found => counts.row row (same ▸ found), counts.mark_of_effect effect⟩

theorem move
    {accepts charges : Bool} {more : Nat}
    (counts : ReceiptCounts tables receipt accepted charged departed) {added : Amounts}
    (effect : LedgerEffect added tables next)
    (moves : ReceiptEffect receipt tables next accepts charges) (atMost : more ≤ charges.toNat) :
    ReceiptCounts next receipt (accepted || accepts) (charged + more)
      (departed + (decide (next.pendingOf receipt.sessionId <
        tables.pendingOf receipt.sessionId)).toNat) := by
  have marked := counts.mark_of_effect effect
  cases moves with
  | kept invocations pending =>
    obtain rfl : more = 0 := by simpa using atMost
    simpa [pending] using counts.keep effect (by rw [invocations])
  | dropped invocations pending =>
    obtain rfl : more = 0 := by simpa using atMost
    refine ⟨?_, by simpa using counts.charged_le, fun row found => ?_, marked⟩
    · simp [pending, counts.departed_eq]
    · simp [invocations] at found
  | disposed row found isPending invocations pending =>
    obtain rfl : more = 0 := by simpa using atMost
    obtain ⟨uncharged, waiting⟩ := counts.row row found
    have unaccepted := waiting.mp isPending
    refine ⟨?_, by simp [uncharged], fun later isLater => ⟨uncharged, ?_⟩, marked⟩
    · rw [counts.departed_eq, unaccepted, pending]
      simp
    · obtain invocations | invocations := invocations
      · simp only [invocations, OrderedMap.get_set_self, Option.some.injEq] at isLater
        simp [← isLater]
      · simp [invocations] at isLater
  | completed row found invocations pending =>
    obtain ⟨uncharged, waiting⟩ := counts.row row found
    refine ⟨?_, by simpa [uncharged] using atMost, fun later isLater => ?_, marked⟩
    · rw [counts.departed_eq, pending]
      cases isAccepted : accepted with
      | false => simp [waiting.mpr isAccepted]
      | true =>
        have incomplete : row.coverageState ≠ .pending := fun isPending => by
          simp [waiting.mp isPending] at isAccepted
        simp [incomplete]
    · simp [invocations] at isLater

end ReceiptCounts

/-- What a run says of every receipt. -/
structure ReceiptsInvariant
    (start : LedgerWorld) (history : List ((LedgerCall × WriteFault) × Option LedgerAnswer))
    (world : LedgerWorld) : Prop where
  later : ∀ reference, world.nextObject ≤ reference →
    world.authorities.get reference = none
  distinct : ∀ first second held other,
    world.authorities.get first = some held →
    world.authorities.get second = some other →
    held.receipt.key = other.receipt.key → first = second
  held : ∀ reference held, world.authorities.get reference = some held →
    ReceiptCounts world.tables held.receipt (history.any (accepts reference))
      (countAlong perform (charges reference) start (history.map Prod.fst))
      (countAlong perform (departs reference) start (history.map Prod.fst))
  unheld : ∀ reference, world.authorities.get reference = none →
    history.any (accepts reference) = false ∧
      countAlong perform (charges reference) start (history.map Prod.fst) = 0 ∧
      countAlong perform (departs reference) start (history.map Prod.fst) = 0

theorem receiptsInvariant_start (modelCatalog effectScopes : List String) :
    ReceiptsInvariant (.fresh modelCatalog effectScopes) []
      (.fresh modelCatalog effectScopes) where
  later _ _ := rfl
  distinct _ _ _ _ isHeld := by simp [LedgerWorld.fresh] at isHeld
  held _ _ isHeld := by simp [LedgerWorld.fresh] at isHeld
  unheld _ _ := ⟨rfl, rfl, rfl⟩

section Step

variable
  {start world next : LedgerWorld}
  {history : List ((LedgerCall × WriteFault) × Option LedgerAnswer)}
  {call : (LedgerCall × WriteFault) × Option LedgerAnswer}

/-- A call that is not about a receipt says nothing of it. -/
theorem silent_of_ne {reference : Nat} (apart : call.1.1.receipt ≠ some reference) :
    accepts reference call = false ∧ charges reference world call.1 = false ∧
      departs reference world call.1 = false := by
  have differs : (call.1.1.receipt == some reference) = false := by simpa using apart
  simp [accepts, charges, departs, differs]

theorem silent_of_nothing
    (reference : Nat) (step : LedgerStep world call next) (nothing : call.2 = none)
    (unchanged : next.tables = world.tables) :
    accepts reference call = false ∧ charges reference world call.1 = false ∧
      departs reference world call.1 = false := by
  have reached : (perform world call.1).2 = next := congrArg Prod.snd step
  refine ⟨by simp [accepts, nothing], by simp [charges, reached, unchanged], ?_⟩
  cases found : world.authorities.get reference <;>
    simp [departs, reached, unchanged, found]

theorem SameReceipts.held
    (same : SameReceipts world next) {reference : Nat} {held : ReceiptAuthority}
    (found : next.authorities.get reference = some held) :
    ∃ old, world.authorities.get reference = some old ∧ old.receipt = held.receipt := by
  have receipts := same.receipts reference
  rw [found] at receipts
  exact Option.map_eq_some_iff.mp receipts.symm

theorem SameReceipts.unheld
    (same : SameReceipts world next) {reference : Nat}
    (absent : next.authorities.get reference = none) :
    world.authorities.get reference = none := by
  have receipts := same.receipts reference
  rw [absent] at receipts
  exact Option.map_eq_none_iff.mp receipts.symm

/-- One more call that is silent about a receipt. -/
theorem counts_of_silent (run : Run LedgerStep start history world) {reference : Nat}
    (silent : accepts reference call = false ∧ charges reference world call.1 = false ∧
      departs reference world call.1 = false) :
    (history ++ [call]).any (accepts reference) = history.any (accepts reference) ∧
      countAlong perform (charges reference) start ((history ++ [call]).map Prod.fst) =
        countAlong perform (charges reference) start (history.map Prod.fst) ∧
      countAlong perform (departs reference) start ((history ++ [call]).map Prod.fst) =
        countAlong perform (departs reference) start (history.map Prod.fst) := by
  obtain ⟨accepted, charged, departed⟩ := silent
  rw [countAlong_snoc _ run, countAlong_snoc _ run, charged, departed]
  simp [accepted]

/-- The clients hold the same receipts, and the call is about none of the
others. -/
theorem ReceiptsInvariant.of_same
    (invariant : ReceiptsInvariant start history world) (run : Run LedgerStep start history world)
    (same : SameReceipts world next)
    (held : ∀ reference old, world.authorities.get reference = some old →
      ReceiptCounts next.tables old.receipt ((history ++ [call]).any (accepts reference))
        (countAlong perform (charges reference) start ((history ++ [call]).map Prod.fst))
        (countAlong perform (departs reference) start ((history ++ [call]).map Prod.fst)))
    (unheld : ∀ reference, world.authorities.get reference = none →
      accepts reference call = false ∧ charges reference world call.1 = false ∧
        departs reference world call.1 = false) :
    ReceiptsInvariant start (history ++ [call]) next where
  later reference bound := by
    have absent := invariant.later reference (same.nextObject.trans bound)
    have receipts := same.receipts reference
    rw [absent] at receipts
    exact Option.map_eq_none_iff.mp receipts
  distinct first second held other isHeld isOther keys := by
    obtain ⟨oldHeld, isOldHeld, heldReceipt⟩ := same.held isHeld
    obtain ⟨oldOther, isOldOther, otherReceipt⟩ := same.held isOther
    exact invariant.distinct first second oldHeld oldOther isOldHeld isOldOther
      (by rw [heldReceipt, otherReceipt, keys])
  held reference now isHeld := by
    obtain ⟨old, isOld, receipt⟩ := same.held isHeld
    exact receipt ▸ held reference old isOld
  unheld reference absent := by
    have absentBefore := same.unheld absent
    obtain ⟨accepted, charged, departed⟩ :=
      counts_of_silent run (unheld reference absentBefore)
    rw [accepted, charged, departed]
    exact invariant.unheld reference absentBefore

theorem ReceiptsInvariant.counts_of_silent
    (invariant : ReceiptsInvariant start history world) (run : Run LedgerStep start history world)
    (step : LedgerStep world call next) {reference : Nat} {held : ReceiptAuthority}
    (isHeld : world.authorities.get reference = some held)
    (silent : accepts reference call = false ∧ charges reference world call.1 = false ∧
      departs reference world call.1 = false)
    (same : next.tables.invocations.get held.receipt.key =
      world.tables.invocations.get held.receipt.key) :
    ReceiptCounts next.tables held.receipt ((history ++ [call]).any (accepts reference))
      (countAlong perform (charges reference) start ((history ++ [call]).map Prod.fst))
      (countAlong perform (departs reference) start
        ((history ++ [call]).map Prod.fst)) := by
  obtain ⟨accepted, charged, departed⟩ := SessionLedger.counts_of_silent run silent
  rw [accepted, charged, departed]
  exact (invariant.held reference held isHeld).keep step.effect same

theorem ReceiptsInvariant.key_ne
    (invariant : ReceiptsInvariant start history world) {receipt : SessionUsageReceipt}
    (ordinal : ∀ row, world.tables.sessions.get receipt.sessionId = some row →
      row.usageInvocationHighWater < receipt.invocation.ordinal)
    {reference : Nat}
    {held : ReceiptAuthority}
    (isHeld : world.authorities.get reference = some held) :
    held.receipt.key ≠ receipt.key := by
  intro same
  obtain ⟨row, found, below⟩ := (invariant.held reference held isHeld).mark
  have sessions : held.receipt.sessionId = receipt.sessionId :=
    congrArg InvocationKey.sessionId same
  have ordinals : held.receipt.invocation.ordinal = receipt.invocation.ordinal :=
    congrArg InvocationKey.ordinal same
  have above := ordinal row (sessions ▸ found)
  omega

theorem receiptsInvariant_step
    (run : Run LedgerStep start history world) (invariant : ReceiptsInvariant start history world)
    (step : LedgerStep world call next) :
    ReceiptsInvariant start (history ++ [call]) next := by
  have reached : (perform world call.1).2 = next := congrArg Prod.snd step
  cases step.move with
  | apart same subject invocations =>
    have silent (reference : Nat) := @silent_of_ne world call reference (by simp [subject])
    exact invariant.of_same run same
      (fun reference old isOld => invariant.counts_of_silent run step isOld
        (silent reference) (by rw [invocations]))
      fun reference _ => silent reference
  | nothing same answered unchanged =>
    have silent (reference : Nat) :=
      silent_of_nothing reference step answered unchanged
    exact invariant.of_same run same
      (fun reference old isOld => invariant.counts_of_silent run step isOld
        (silent reference) (by rw [unchanged]))
      fun reference _ => silent reference
  | about reference held accepted charged same subject isHeld answered effect =>
    have counts := invariant.held reference held isHeld
    obtain ⟨row, found, -⟩ := counts.mark
    obtain ⟨moves, kept⟩ := effect (by simp [found])
    refine invariant.of_same run same (fun other old isOld => ?_)
      fun other absent => silent_of_ne fun about => ?_
    · by_cases isOther : other = reference
      · subst isOther
        cases isHeld.symm.trans isOld
        rw [countAlong_snoc _ run, countAlong_snoc _ run, List.any_append]
        have accepting : [call].any (accepts other) = accepted := by
          rw [Bool.eq_iff_iff, ← answered]
          simp [accepts, subject]
        have departing : departs other world call.1 =
            decide (next.tables.pendingOf held.receipt.sessionId <
              world.tables.pendingOf held.receipt.sessionId) := by
          simp [departs, subject, isHeld, reached]
        rw [accepting, departing]
        refine counts.move step.effect moves ?_
        cases charged with
        | true => exact Bool.toNat_le _
        | false => simp [charges, reached, kept rfl]
      · refine invariant.counts_of_silent run step isOld
          (silent_of_ne (by simp [subject, Ne.symm isOther])) ?_
        have keys : old.receipt.key ≠ held.receipt.key := fun same =>
          isOther (invariant.distinct other reference old held isOld isHeld same)
        cases moves with
        | kept invocations pending => rw [invocations]
        | dropped invocations pending =>
          rw [invocations, OrderedMap.get_delete_of_ne _ keys]
        | disposed row found isPending invocations pending =>
          obtain invocations | invocations := invocations
          · rw [invocations, OrderedMap.get_set_of_ne _ keys]
          · rw [invocations, OrderedMap.get_delete_of_ne _ keys]
        | completed row found invocations pending =>
          rw [invocations, OrderedMap.get_delete_of_ne _ keys]
    · cases subject.symm.trans about
      simp [isHeld] at absent
  | begun receipt subject ordinal mark invocations clients =>
    have silent (reference : Nat) := @silent_of_ne world call reference (by simp [subject])
    have keeps {reference : Nat} {old : ReceiptAuthority}
        (isOld : world.authorities.get reference = some old) :
        next.tables.invocations.get old.receipt.key =
          world.tables.invocations.get old.receipt.key := by
      rw [invocations, OrderedMap.get_set_of_ne _ (invariant.key_ne ordinal isOld)]
    obtain same | ⟨held, rfl, authorities, nextObject⟩ := clients
    · exact invariant.of_same run same
        (fun reference old isOld => invariant.counts_of_silent run step isOld
          (silent reference) (keeps isOld))
        fun reference _ => silent reference
    · refine ⟨fun reference bound => ?_, fun first second held' other isHeld isOther
        keys => ?_, fun reference now isNow => ?_, fun reference absent => ?_⟩
      · rw [authorities, OrderedMap.get_set_of_ne _ (by omega)]
        exact invariant.later reference (by omega)
      · rw [authorities, OrderedMap.get_set] at isHeld isOther
        split at isHeld
        · rename_i isNew
          split at isOther
          · next isNew' => exact isNew.trans isNew'.symm
          · cases isHeld
            exact absurd keys.symm (invariant.key_ne ordinal isOther)
        · split at isOther
          · cases isOther
            exact absurd keys (invariant.key_ne ordinal isHeld)
          · exact invariant.distinct first second held' other isHeld isOther keys
      · rw [authorities, OrderedMap.get_set] at isNow
        split at isNow
        · rename_i isNew
          cases isNow
          obtain ⟨accepted, charged, departed⟩ :=
            invariant.unheld reference (invariant.later reference isNew.ge)
          obtain ⟨accepted', charged', departed'⟩ :=
            counts_of_silent run (silent reference)
          rw [accepted', charged', departed', accepted, charged, departed]
          refine ⟨rfl, le_refl 0, fun row found => ⟨rfl, ?_⟩, mark⟩
          rw [invocations, OrderedMap.get_set_self] at found
          cases found
          simp [pendingRow]
        · exact invariant.counts_of_silent run step isNow (silent reference) (keeps isNow)
      · rw [authorities, OrderedMap.get_set] at absent
        split at absent
        · simp at absent
        · obtain ⟨accepted, charged, departed⟩ :=
            counts_of_silent run (silent reference)
          rw [accepted, charged, departed]
          exact invariant.unheld reference absent

end Step

theorem receiptsInvariant_run
    {modelCatalog effectScopes : List String}
    {history : List ((LedgerCall × WriteFault) × Option LedgerAnswer)} {world : LedgerWorld}
    (run : Run LedgerStep (.fresh modelCatalog effectScopes) history world) :
    ReceiptsInvariant (.fresh modelCatalog effectScopes) history world :=
  run.invariant (ReceiptsInvariant (.fresh modelCatalog effectScopes))
    (receiptsInvariant_start modelCatalog effectScopes)
    fun _ _ _ _ earlier invariant step => receiptsInvariant_step earlier invariant step

theorem costSum_eq_perModel
    (tables : LedgerTables) (sessionId : String) {measure : Measure} (isMoney : measure.IsMoney) :
    costSum tables.costs sessionId measure = tables.perModel sessionId measure := by
  rw [LedgerTables.perModel, coverageSum_money _ _ isMoney, Int.add_zero]

theorem coverageSum_eq_perModel
    (tables : LedgerTables) (sessionId : String) {measure : Measure}
    (counter : ¬measure.IsMoney) :
    coverageSum tables.coverage sessionId measure = tables.perModel sessionId measure := by
  have none : costSum tables.costs sessionId measure = 0 := by
    refine OrderedMap.total_eq_zero fun _ _ _ => ?_
    cases measure with
    | cost | conservative => exact absurd trivial counter
    | pending | unknown => exact ite_self 0
  rw [LedgerTables.perModel, none, Int.zero_add]

/-- A figure of a session that was created with zero totals, at the end of a run
whose calls found room for it. -/
theorem figure_of_run
    {modelCatalog effectScopes : List String}
    {history : List ((LedgerCall × WriteFault) × Option LedgerAnswer)} {world : LedgerWorld}
    {sessionId : String} {measure : Measure}
    (run : Run (RoomyStep sessionId measure) (.fresh modelCatalog effectScopes) history world)
    (created : ∃ creation ∈ history, createsZero sessionId creation)
    {row : AgentSessionRow}
    (found : world.tables.sessions.get sessionId = some row) :
    world.tables.perModel sessionId measure = row.figure measure := by
  obtain ⟨creation, member, creates⟩ := created
  obtain ⟨_, isRow, agrees, -⟩ := balanced_of_run run member creates
  cases found.symm.trans isRow
  exact agrees

/-- For every session created with zero totals and every run of store calls, each
possibly lost or left unacknowledged: where every accepted addition found room above
the total of the session, the sums over the cost rows of the session equal the totals
of its own row, and the realized sum never decreases; the coverage counters always
equal the sums over the coverage rows and are never negative; and every receipt adds
its cost at most once, leaving the pending count exactly once, at its first accepted
disposition or completion. -/
theorem session_ledger
    {modelCatalog effectScopes : List String}
    {history : List ((LedgerCall × WriteFault) × Option LedgerAnswer)} {world : LedgerWorld}
    (run : Run LedgerStep (.fresh modelCatalog effectScopes) history world) :
    (∀ sessionId, (∃ creation ∈ history, createsZero sessionId creation) →
      ∃ row, world.tables.sessions.get sessionId = some row ∧
        (Run (RoomyStep sessionId .cost) (.fresh modelCatalog effectScopes) history world →
          costSum world.tables.costs sessionId .cost = row.totalCostMicrocents ∧
          ∀ later finish, Run (RoomyStep sessionId .cost) world later finish →
            costSum world.tables.costs sessionId .cost ≤
              costSum finish.tables.costs sessionId .cost) ∧
        (Run (RoomyStep sessionId .conservative) (.fresh modelCatalog effectScopes) history
            world →
          costSum world.tables.costs sessionId .conservative =
            row.totalConservativeMicrocents) ∧
        coverageSum world.tables.coverage sessionId .pending =
          row.usagePendingInvocations ∧
        coverageSum world.tables.coverage sessionId .unknown =
          row.usageUnknownCalls ∧
        (0 ≤ row.usagePendingInvocations ∧ 0 ≤ row.usageUnknownCalls) ∧
        ∀ model coverage, world.tables.coverage.get ⟨sessionId, model⟩ = some coverage →
          0 ≤ coverage.pendingInvocations ∧ 0 ≤ coverage.unknownCalls) ∧
    ∀ reference, (world.authorities.get reference).isSome →
      countAlong perform (charges reference) (.fresh modelCatalog effectScopes)
          (history.map Prod.fst) ≤
        countAlong perform (departs reference) (.fresh modelCatalog effectScopes)
          (history.map Prod.fst) ∧
      countAlong perform (departs reference) (.fresh modelCatalog effectScopes)
          (history.map Prod.fst) =
        if history.any (accepts reference) then 1 else 0 := by
  have sound := sound_of_run run (sound_fresh modelCatalog effectScopes)
  refine ⟨fun sessionId created => ?_, fun reference present => ?_⟩
  · have roomy {measure : Measure} (counter : ¬measure.IsMoney) :
        Run (RoomyStep sessionId measure) (.fresh modelCatalog effectScopes) history world :=
      run.imp fun _ _ _ step => step.roomy counter
    obtain ⟨creation, member, creates⟩ := id created
    obtain ⟨row, found, -⟩ := balanced_of_run (@roomy .pending id) member creates
    obtain ⟨-, -, ⟨pendingNonneg, -⟩, ⟨unknownNonneg, -⟩, -⟩ :=
      sound.sessionBounds sessionId row found
    have isCost : Measure.IsMoney .cost := trivial
    have isConservative : Measure.IsMoney .conservative := trivial
    refine ⟨row, found, fun roomy => ⟨?_, fun later finish continues => ?_⟩, fun roomy => ?_,
      ?_, ?_, ⟨pendingNonneg, unknownNonneg⟩, fun model coverage isCoverage => ?_⟩
    · exact (costSum_eq_perModel _ _ isCost).trans (figure_of_run roomy created found)
    · rw [costSum_eq_perModel _ _ isCost, costSum_eq_perModel _ _ isCost]
      have balanced := balanced_of_run roomy member creates
      exact (balanced_of_roomyRun continues sound balanced).2.2 rfl
    · exact (costSum_eq_perModel _ _ isConservative).trans (figure_of_run roomy created found)
    · exact (coverageSum_eq_perModel _ _ id).trans (figure_of_run (roomy id) created found)
    · exact (coverageSum_eq_perModel _ _ id).trans (figure_of_run (roomy id) created found)
    · obtain ⟨⟨pendingAtLeast, -⟩, unknownAtLeast, -⟩ :=
        sound.coverageBounds _ coverage isCoverage
      exact ⟨pendingAtLeast, unknownAtLeast⟩
  · obtain ⟨held, isHeld⟩ := Option.isSome_iff_exists.mp present
    have counts := (receiptsInvariant_run run).held reference held isHeld
    refine ⟨counts.departed_eq ▸ counts.charged_le, counts.departed_eq.trans ?_⟩
    cases history.any (accepts reference) <;> rfl

/-- A seed without references. -/
def plainSeed : FreshSessionSeed where
  id := "s"
  description :=
    { agentId := none, agentSlug := "a", agentSnapshot := none, title := none,
      modelId := none, workingDir := none, gitRef := none,
      fsScopeTier := "sandboxed", status := "active", contextJson := "",
      exportedWorkflowPath := none }
  createdAt := 0

/-- A priced cost of a model, whose row would take the name of the model. -/
def plainCost (usageReceipt : Option Nat) (model : String)
    (costMicrocents : Nat) : SessionCostEntry where
  usageReceipt
  nativeMedia := false
  id := model
  sessionId := "s"
  model
  modelCatalogId := none
  inputTokens := 1
  outputTokens := 1
  costMicrocents
  priced := true
  ts := 1

/-- An invocation whose usage arrives after it was disposed of as incomplete; the
cost commits without an acknowledgement and is sent again. -/
def lateReceiptCalls : List (LedgerCall × WriteFault) :=
  [ (.createFreshSession plainSeed, .none),
    (.beginInvocation 0
      { sessionId := "s", model := "m", producerId := "p", dispatchId := "d",
        round := 0, chainAttempt := 1 } none, .none),
    (.disposition 0 0 .incomplete, .none),
    (.recordSessionCost 0 (plainCost (some 0) "m" 7), .afterCommit),
    (.recordSessionCost 0 (plainCost (some 0) "m" 7), .none) ]

/-- The second cost is refused: the first one took the row of the invocation. -/
example : (replay perform (.fresh [] []) lateReceiptCalls).1.map Prod.snd =
    [some .done, some (.begun ⟨"s", "m", ⟨"p", 1, "d", 0, 1⟩⟩),
      some (.accepted true), some (.accepted true), none] := by
  decide

theorem session_ledger_late_receipt :
    (∃ row,
      (replay perform (.fresh [] []) lateReceiptCalls).2.tables.sessions.get "s" =
          some row ∧
        costSum (replay perform (.fresh [] []) lateReceiptCalls).2.tables.costs "s" .cost =
          row.totalCostMicrocents) ∧
      countAlong perform (departs 0) (.fresh [] [])
        ((replay perform (.fresh [] []) lateReceiptCalls).1.map Prod.fst) = 1 := by
  have ledger := session_ledger (run_replay perform (.fresh [] []) lateReceiptCalls)
  have roomy := run_of_always (run_replay perform (.fresh [] []) lateReceiptCalls)
    (show always perform (.fresh [] []) (fun _ => roomCheck "s" .cost) _ = true by decide)
  obtain ⟨row, found, cost, -⟩ := ledger.1 "s"
    ⟨((replay perform (.fresh [] []) lateReceiptCalls).1.head (by decide)),
      List.head_mem _, rfl⟩
  exact ⟨⟨row, found, (cost (roomy.imp fun _ _ _ => roomyStep_of_check)).1⟩,
    (ledger.2 0 (by decide)).2.trans (if_pos (by decide))⟩

/-- Two costs of two models whose sum no binary64 number holds. -/
def roundedCalls : List (LedgerCall × WriteFault) :=
  [ (.createFreshSession plainSeed, .none),
    (.recordSessionCost 0 (plainCost none "a" (2 ^ 53 - 1)), .none),
    (.recordSessionCost 0 (plainCost none "b" (2 ^ 32)), .none) ]

/-- The total of the session rounds where the rows of the models do not. -/
theorem session_ledger_rounded :
    ¬∀ history world, Run LedgerStep (.fresh [] []) history world →
      ∀ sessionId row, (∃ creation ∈ history, createsZero sessionId creation) →
        world.tables.sessions.get sessionId = some row →
          costSum world.tables.costs sessionId .cost = row.totalCostMicrocents := by
  intro always
  have total : ((replay perform (.fresh [] []) roundedCalls).2.tables.sessions.get "s").map
      (·.totalCostMicrocents) = some 9007203549708288 := by decide
  have sum : costSum (replay perform (.fresh [] []) roundedCalls).2.tables.costs "s" .cost =
      9007203549708287 := by decide
  obtain ⟨row, found, isTotal⟩ := Option.map_eq_some_iff.mp total
  have agrees := always _ _ (run_replay perform (.fresh [] []) roundedCalls) "s" row
    ⟨((replay perform (.fresh [] []) roundedCalls).1.head (by decide)),
      List.head_mem _, rfl⟩ found
  rw [sum, isTotal] at agrees
  exact absurd agrees (by decide)

end SessionLedger
end Relavium.Store
