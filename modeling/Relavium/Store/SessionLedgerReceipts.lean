import Relavium.Store.SessionLedgerBalance

/-!
# What receipts do to the session ledger

A call about a receipt moves the row of its invocation from pending to
incomplete, or deletes it; the pending count of the session drops exactly when
the row was pending, except that a retired receipt leaves its count behind.
-/

namespace Relavium.Store
namespace SessionLedger

open Library
open Library.Statements
open Usage (UsageDisposition)

/-! ## Rows that a sequence leaves alone -/

section Keeps

variable
  {sessionId : String}
  {set : AgentSessionRow → AgentSessionRow}

theorem keeps_of_receiptRows
    {statements : LedgerStatements α} (keeps : Keeps LedgerTables.receiptRows statements) :
    Keeps LedgerTables.invocations statements :=
  fun before answer after commits =>
    (Prod.mk.inj (keeps before answer after commits)).2

theorem keepsCosts_of_receiptRows
    {statements : LedgerStatements α} (keeps : Keeps LedgerTables.receiptRows statements) :
    Keeps LedgerTables.costs statements :=
  fun before answer after commits =>
    (Prod.mk.inj (keeps before answer after commits)).1

theorem keeps_refuse {refusal : LedgerRefusal} {view : LedgerTables → β} :
    Keeps view (refuse refusal : LedgerStatements α) :=
  fun _ _ _ commits => absurd commits commits_refuse

theorem keeps_touchRevision :
    Keeps LedgerTables.receiptRows (touchRevision sessionId) :=
  Keeps.bind .select fun _ => Keeps.bind .require fun _ =>
    Keeps.bind keeps_updateSessionRow fun _ => .pure

theorem keeps_touchRevisions (count : Nat) :
    Keeps LedgerTables.receiptRows (touchRevisions sessionId count) := by
  induction count with
  | zero => exact .pure
  | succ count ih =>
    exact Keeps.bind keeps_touchRevision fun _ => ih

theorem keeps_updateBusinessColumns :
    Keeps LedgerTables.receiptRows (updateBusinessColumns sessionId set) :=
  Keeps.bind keeps_updateSessionRow fun changes => keeps_touchRevisions changes

theorem keeps_insertSession {row : AgentSessionRow} :
    Keeps LedgerTables.receiptRows (insertSession sessionId row) :=
  Keeps.bind .select fun _ => Keeps.bind .require fun _ =>
    Keeps.bind (.update fun _ => rfl) fun _ => keeps_touchRevision

theorem keeps_upsertCost
    {key : CostKey} {inserted : SessionCostRow} {change : SessionCostRow → SessionCostRow} :
    Keeps LedgerTables.invocations (upsertCost key inserted change) := by
  refine Keeps.bind .select fun tables => Keeps.bind ?_ fun _ =>
    keeps_of_receiptRows keeps_touchRevision
  split
  · exact .update fun _ => rfl
  · exact Keeps.bind .require fun _ => .update fun _ => rfl

theorem keepsCosts_changeCoverage {receipt : SessionUsageReceipt} {pending unknown : Int} :
    Keeps LedgerTables.costs (changeCoverage receipt pending unknown) := by
  refine Keeps.bind .select fun found => ?_
  cases found with
  | none => exact keeps_refuse
  | some row =>
    exact Keeps.bind .require fun _ => Keeps.bind (.update fun _ => rfl) fun _ =>
      Keeps.bind (keepsCosts_of_receiptRows keeps_updateSessionRow) fun _ =>
        .require

theorem keeps_receiptState {view : LedgerTables → β} {receipt : SessionUsageReceipt} :
    Keeps view (receiptState receipt) := by
  refine Keeps.bind .select fun found => ?_
  cases found with
  | none => exact keeps_refuse
  | some row => exact Keeps.bind .require fun _ => .pure

end Keeps

theorem keeps_withSessionUsageWrite
    {sessionIds : List String} {body : LedgerStatements α}
    (keeps : Keeps LedgerTables.invocations body) :
    Keeps LedgerTables.invocations (withSessionUsageWrite sessionIds body) := by
  intro before answer after commits
  obtain ⟨entered, left, ran, -, -, enters, leaves⟩ :=
    frame_of_withSessionUsageWrite commits
  rw [(Prod.mk.inj leaves).2, keeps _ _ _ ran, (Prod.mk.inj enters).2]

theorem keepsCosts_withSessionUsageWrite
    {sessionIds : List String} {body : LedgerStatements α}
    (keeps : Keeps LedgerTables.costs body) :
    Keeps LedgerTables.costs (withSessionUsageWrite sessionIds body) := by
  intro before answer after commits
  obtain ⟨entered, left, ran, -, -, enters, leaves⟩ :=
    frame_of_withSessionUsageWrite commits
  rw [(Prod.mk.inj leaves).1, keeps _ _ _ ran, (Prod.mk.inj enters).1]

theorem keeps_writeSessionCost (entry : SessionCostEntry) :
    Keeps LedgerTables.invocations (writeSessionCost entry) :=
  Keeps.bind keeps_upsertCost fun _ =>
    keeps_of_receiptRows keeps_updateBusinessColumns

/-! ## Transactions without a receipt -/

theorem keeps_createSession (record : AgentSessionRecord) :
    Keeps LedgerTables.invocations (createSession record) :=
  keeps_withSessionUsageWrite (keeps_of_receiptRows keeps_insertSession)

theorem keeps_createFreshSession (seed : FreshSessionSeed) :
    Keeps LedgerTables.invocations (createFreshSession seed) :=
  keeps_withSessionUsageWrite <| Keeps.bind .select fun _ =>
    Keeps.bind .require fun _ =>
      Keeps.bind (keeps_of_receiptRows keeps_insertSession) fun _ =>
        Keeps.bind (keeps_of_receiptRows keeps_updateSessionRow) fun _ => .pure

theorem keeps_reserveOneShot (sessionId : String) (now : Int) :
    Keeps LedgerTables.invocations
      (reserveOneShotSessionEffectTurnKey sessionId now) :=
  Keeps.bind .require fun _ => keeps_withSessionUsageWrite <|
    Keeps.bind .select fun _ => Keeps.bind .require fun _ =>
      keeps_of_receiptRows keeps_insertSession

theorem keeps_updateSession (record : AgentSessionRecord) :
    Keeps LedgerTables.invocations (updateSession record) :=
  keeps_withSessionUsageWrite (keeps_of_receiptRows keeps_updateBusinessColumns)

theorem keeps_writeTurn (turn : SessionTurnWrite) :
    Keeps LedgerTables.invocations (writeTurn turn) := by
  refine keeps_withSessionUsageWrite (Keeps.bind (keeps_forEach (fun message => ?_) _)
    fun _ => ?_)
  · exact Keeps.bind .require fun _ => Keeps.bind .select fun _ =>
      Keeps.bind .require fun _ => Keeps.bind (.update fun _ => rfl) fun _ =>
        keeps_of_receiptRows keeps_touchRevision
  · cases turn.session with
    | none => exact .pure
    | some record => exact keeps_of_receiptRows keeps_updateBusinessColumns

theorem keeps_recordSessionConservativeCommitment (entry : SessionConservativeEntry) :
    Keeps LedgerTables.invocations (recordSessionConservativeCommitment entry) :=
  keeps_withSessionUsageWrite <| Keeps.bind keeps_upsertCost fun _ =>
    keeps_of_receiptRows keeps_updateBusinessColumns

theorem keeps_releaseSessionConservativeCommitments (sessionId : String) (ts : Int) :
    Keeps LedgerTables.invocations
      (releaseSessionConservativeCommitments sessionId ts) := by
  refine keeps_withSessionUsageWrite (Keeps.bind .select fun released => ?_)
  split
  · exact .pure
  · refine Keeps.bind ?_ fun changes =>
      Keeps.bind (keeps_of_receiptRows (keeps_touchRevisions changes)) fun _ =>
        Keeps.bind (keeps_of_receiptRows keeps_updateBusinessColumns) fun _ => .pure
    intro before changes after commits
    cases commits_modifyGet.mp commits
    rfl

theorem keeps_recordSessionCost_of_none (entry : SessionCostEntry) :
    Keeps LedgerTables.invocations (recordSessionCost entry none) := by
  refine keeps_withSessionUsageWrite (Keeps.bind ?_ fun accepted => Keeps.bind ?_ fun _ => .pure)
  · rw [settleReceipt]
    split
    · exact .pure
    · exact Keeps.bind (keeps_of_receiptRows keeps_updateSessionRow) fun _ => .pure
  · split
    · exact keeps_writeSessionCost entry
    · exact .pure

/-! ## Transactions about a receipt -/

/-- The pending count in the row of a session. -/
def LedgerTables.pendingOf (tables : LedgerTables) (sessionId : String) : Int :=
  ((tables.sessions.get sessionId).map (·.usagePendingInvocations)).getD 0

theorem Shifts.pendingOf
    {before after : LedgerTables} {owner models : Amounts}
    (shifts : Shifts before after owner models) {sessionId : String}
    (present : (before.sessions.get sessionId).isSome) :
    after.pendingOf sessionId =
      before.pendingOf sessionId + owner sessionId .pending := by
  obtain ⟨row, found⟩ := Option.isSome_iff_exists.mp present
  obtain ⟨next, isNext, figures, -⟩ := shifts.row sessionId row found
  simpa [LedgerTables.pendingOf, found, isNext, AgentSessionRow.figure] using figures .pending

/-- What a committed call about a receipt does to its invocation, with whether it
was accepted and whether it may have added a cost. -/
inductive ReceiptEffect (receipt : SessionUsageReceipt)
    (before after : LedgerTables) : Bool → Bool → Prop
  /-- Nothing happened to the invocation. -/
  | kept :
      after.invocations = before.invocations →
      after.pendingOf receipt.sessionId = before.pendingOf receipt.sessionId →
      ReceiptEffect receipt before after false false
  /-- The receipt was retired. -/
  | dropped :
      after.invocations = before.invocations.delete receipt.key →
      after.pendingOf receipt.sessionId = before.pendingOf receipt.sessionId →
      ReceiptEffect receipt before after false false
  /-- A pending invocation was disposed of. -/
  | disposed (row : InvocationRow) :
      before.invocations.get receipt.key = some row →
      row.coverageState = .pending →
      (after.invocations = before.invocations.set receipt.key
          { row with coverageState := .incomplete } ∨
        after.invocations = before.invocations.delete receipt.key) →
      after.pendingOf receipt.sessionId =
        before.pendingOf receipt.sessionId - 1 →
      ReceiptEffect receipt before after true false
  /-- The invocation was completed with its cost. -/
  | completed (row : InvocationRow) :
      before.invocations.get receipt.key = some row →
      after.invocations = before.invocations.delete receipt.key →
      after.pendingOf receipt.sessionId =
        before.pendingOf receipt.sessionId -
          (if row.coverageState = .pending then 1 else 0) →
      ReceiptEffect receipt before after true true

/-- A receipt reads the state of its own invocation row. -/
theorem row_of_receiptState
    {receipt : SessionUsageReceipt} {before after : LedgerTables} {current : CoverageState}
    (commits : Commits (receiptState receipt) before current after) :
    (∃ row, before.invocations.get receipt.key = some row ∧
      row.coverageState = current) ∧ after = before := by
  simp only [receiptState, commits_bind, commits_select] at commits
  obtain ⟨_, _, ⟨rfl, rfl⟩, commits⟩ := commits
  cases found : before.invocations.get receipt.key with
  | none =>
    rw [found] at commits
    exact absurd commits commits_refuse
  | some row =>
    simp only [found, commits_bind, commits_require, commits_pure] at commits
    obtain ⟨_, _, ⟨-, rfl⟩, rfl, rfl⟩ := commits
    exact ⟨⟨row, rfl, rfl⟩, rfl⟩

section Receipts

variable
  {receipt : SessionUsageReceipt}
  {before after : LedgerTables}

/-- A disposition moves its receipt as its answer says. -/
theorem effect_disposeSessionUsageInvocation
    {disposition : UsageDisposition} {accepted : Bool}
    (present : (before.sessions.get receipt.sessionId).isSome)
    (commits : Commits (disposeSessionUsageInvocation receipt disposition) before
      accepted after) :
    ReceiptEffect receipt before after accepted false := by
  obtain ⟨entered, left, ran, enters, leaves, rowsEntered, rowsLeft⟩ :=
    frame_of_withSessionUsageWrite commits
  have isEntered : entered.invocations = before.invocations :=
    (Prod.mk.inj rowsEntered).2
  have isLeft : after.invocations = left.invocations := (Prod.mk.inj rowsLeft).2
  simp only [commits_bind] at ran
  obtain ⟨current, _, reads, ran⟩ := ran
  obtain ⟨⟨row, found, rfl⟩, rfl⟩ := row_of_receiptState reads
  rw [isEntered] at found
  split at ran
  · obtain ⟨rfl, rfl⟩ := commits_pure.mp ran
    refine .kept (isLeft.trans isEntered) ?_
    have whole := enters.trans leaves
    simpa using whole.pendingOf present
  · rename_i notIncomplete
    have isPending : row.coverageState = .pending := by
      cases state : row.coverageState with
      | pending => rfl
      | incomplete => exact absurd state notIncomplete
    simp only [commits_bind, commits_pure] at ran
    obtain ⟨_, counted, counts, _, left, writes, rfl, rfl⟩ := ran
    have shifts := shifting_changeCoverage receipt _ _ _ _ _ counts
    have same : counted.invocations = before.invocations :=
      (invocations_of_changeCoverage counts).trans isEntered
    have written : Shifts counted left 0 0 := by
      split at writes
      · exact still_update_of_invocations _ _ _ _ writes
      · exact still_deleteInvocation receipt _ _ _ writes
    have whole := ((enters.trans shifts).trans written).trans leaves
    refine .disposed row found isPending ?_ ?_
    · rw [isLeft]
      split at writes
      · rw [← commits_update.mp writes]
        simp only [same, found]
        exact .inl trivial
      · rw [← commits_update.mp writes]
        simp only [same]
        exact .inr trivial
    · rw [whole.pendingOf present]
      simp [coverageAmounts]
      omega

theorem keepsCosts_disposeSessionUsageInvocation {disposition : UsageDisposition} :
    Keeps LedgerTables.costs (disposeSessionUsageInvocation receipt disposition) := by
  refine keepsCosts_withSessionUsageWrite (Keeps.bind keeps_receiptState fun current =>
    ?_)
  split
  · exact .pure
  · refine Keeps.bind keepsCosts_changeCoverage fun _ => Keeps.bind ?_ fun _ => .pure
    split
    · exact .update fun _ => rfl
    · exact .update fun _ => rfl

theorem keepsCosts_retireSessionUsageInvocation :
    Keeps LedgerTables.costs (retireSessionUsageInvocation receipt) :=
  keepsCosts_withSessionUsageWrite (Keeps.bind keeps_receiptState fun _ => .update fun _ => rfl)

/-- Retiring drops the row of its receipt and nothing else. -/
theorem effect_retireSessionUsageInvocation
    {answer : Unit} (present : (before.sessions.get receipt.sessionId).isSome)
    (commits : Commits (retireSessionUsageInvocation receipt) before answer after) :
    ReceiptEffect receipt before after false false := by
  obtain ⟨entered, left, ran, enters, leaves, rowsEntered, rowsLeft⟩ :=
    frame_of_withSessionUsageWrite commits
  have isEntered : entered.invocations = before.invocations :=
    (Prod.mk.inj rowsEntered).2
  simp only [commits_bind] at ran
  obtain ⟨current, _, reads, deletes⟩ := ran
  obtain ⟨-, rfl⟩ := row_of_receiptState reads
  have whole := (enters.trans (still_deleteInvocation receipt _ _ _ deletes)).trans leaves
  refine .dropped ?_ (by simpa using whole.pendingOf present)
  rw [(Prod.mk.inj rowsLeft).2, ← commits_update.mp deletes, ← isEntered]

/-- A cost under a receipt is charged when the receipt accepts it. -/
theorem effect_recordSessionCost
    {entry : SessionCostEntry} {retired accepted : Bool}
    (present : (before.sessions.get receipt.sessionId).isSome)
    (commits : Commits (recordSessionCost entry (some (receipt, retired))) before
      accepted after) :
    ReceiptEffect receipt before after accepted accepted ∧
      (accepted = false → after.costs = before.costs) := by
  obtain ⟨entered, left, ran, enters, leaves, rowsEntered, rowsLeft⟩ :=
    frame_of_withSessionUsageWrite commits
  obtain ⟨costsEntered, _⟩ := Prod.mk.inj rowsEntered
  obtain ⟨costsLeft, _⟩ := Prod.mk.inj rowsLeft
  have isEntered : entered.invocations = before.invocations :=
    (Prod.mk.inj rowsEntered).2
  have isLeft : after.invocations = left.invocations := (Prod.mk.inj rowsLeft).2
  simp only [settleReceipt, commits_bind, commits_require, commits_pure] at ran
  obtain ⟨given, _, ⟨_, _, ⟨-, rfl⟩, settles⟩, _, _, writes, rfl, rfl⟩ := ran
  cases retired with
  | true =>
    obtain ⟨rfl, rfl⟩ := commits_pure.mp settles
    obtain ⟨-, rfl⟩ := commits_pure.mp writes
    have whole := enters.trans leaves
    exact ⟨.kept (isLeft.trans isEntered) (by simpa using whole.pendingOf present),
      fun _ => costsLeft.trans costsEntered⟩
  | false =>
    simp only [Bool.false_eq_true, if_false, completeSessionUsageInvocation,
      commits_bind, commits_pure] at settles
    obtain ⟨_, _, ⟨current, _, reads, _, _, counts, deletes⟩, rfl, rfl⟩ := settles
    obtain ⟨⟨row, found, rfl⟩, rfl⟩ := row_of_receiptState reads
    refine ⟨?_, by simp⟩
    have shifts := shifting_changeCoverage receipt _ _ _ _ _ counts
    have deleted := still_deleteInvocation receipt _ _ _ deletes
    obtain ⟨owner, models, written, -⟩ := pays_writeSessionCost writes
    have whole := (((enters.trans shifts).trans deleted).trans written).trans leaves
    rw [isEntered] at found
    refine .completed row found ?_ ?_
    · rw [isLeft, keeps_writeSessionCost entry _ _ _ writes,
        ← commits_update.mp deletes, ← isEntered,
        ← invocations_of_changeCoverage counts]
    · rw [whole.pendingOf present]
      have apart : atFigure entry.sessionId .cost owner receipt.sessionId .pending = 0 :=
        atFigure_of_ne (by simp) owner
      simp [coverageAmounts, apart]
      split <;> omega

end Receipts

end SessionLedger
end Relavium.Store
