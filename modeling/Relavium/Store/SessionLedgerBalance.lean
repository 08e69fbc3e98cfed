import Relavium.Store.SessionLedgerCalls
import Relavium.Store.SessionLedgerEffect

/-!
# The balance of the session ledger

Every ledger transaction shifts the row of a session and the sums over its
models by the same amounts, except the release of conservative commitments,
which clears both, and an addition of money, which rounds each column on its own.
The two stay equal as long as the total of the session has room for the amount.
-/

namespace Relavium.Store
namespace SessionLedger

open Library
open Library.Statements
open Usage (UsageDisposition)

/-- The figures that are sums of money. -/
def Measure.IsMoney : Measure → Prop
  | .cost => True
  | .conservative => True
  | .pending => False
  | .unknown => False

/-- The row of a session holds the sum of a figure over its models, which is small
enough for exact additions. -/
def LedgerTables.Balanced (tables : LedgerTables) (sessionId : String)
    (measure : Measure) : Prop :=
  ∃ row, tables.sessions.get sessionId = some row ∧
    tables.perModel sessionId measure = row.figure measure ∧
    row.figure measure ≤ 2 ^ 53

/-- What a transaction of the store does to all sessions, with the money it adds.
Where there is room for that, rows and sums shift by the same amounts, and the
realized money grows by exactly what was added. -/
def LedgerEffect (added : Amounts)
    (before after : LedgerTables) : Prop :=
  ∃ owner models, Shifts before after owner models ∧
    ∀ sessionId row measure, before.sessions.get sessionId = some row →
      before.perModel sessionId measure = row.figure measure →
      row.figure measure + added sessionId measure ≤ 2 ^ 53 →
      owner sessionId measure = models sessionId measure ∧
        (measure.IsMoney → models sessionId measure ≤ added sessionId measure) ∧
        (measure = .cost → models sessionId measure = added sessionId measure)

variable
  {before middle after : LedgerTables}

/-- A shift that moves no money, and rows and sums alike. -/
def Pairs (before after : LedgerTables) : Prop :=
  ∃ amounts : Amounts, Shifts before after amounts amounts ∧
    ∀ sessionId measure, measure.IsMoney → amounts sessionId measure = 0

theorem Shifts.pairs (shifts : Shifts before after 0 0) :
    Pairs before after :=
  ⟨0, shifts, fun _ _ _ => rfl⟩

theorem Pairs.trans (earlier : Pairs before middle) (later : Pairs middle after) :
    Pairs before after := by
  obtain ⟨amounts, shifts, none⟩ := earlier
  obtain ⟨amounts', shifts', none'⟩ := later
  refine ⟨amounts + amounts', shifts.trans shifts', fun sessionId measure isMoney => ?_⟩
  rw [Pi.add_apply, Pi.add_apply, none _ _ isMoney, none' _ _ isMoney, Int.add_zero]

theorem Pairs.effect (pairs : Pairs before after) :
    LedgerEffect 0 before after := by
  obtain ⟨amounts, shifts, none⟩ := pairs
  refine ⟨amounts, amounts, shifts, fun sessionId row measure _ _ _ => ⟨rfl, ?_, ?_⟩⟩
  · exact fun isMoney => (none sessionId measure isMoney).le
  · rintro rfl
    exact none sessionId .cost trivial

theorem LedgerEffect.sound
    {added : Amounts} (effect : LedgerEffect added before after) (sound : before.Sound) :
    after.Sound := by
  obtain ⟨_, _, shifts, -⟩ := effect
  exact shifts.sound sound

/-- No session loses its row, and its ordinals only grow. -/
theorem LedgerEffect.mark
    {added : Amounts} (effect : LedgerEffect added before after) {sessionId : String}
    {row : AgentSessionRow} (found : before.sessions.get sessionId = some row) :
    ∃ next, after.sessions.get sessionId = some next ∧
      row.usageInvocationHighWater ≤ next.usageInvocationHighWater := by
  obtain ⟨_, _, shifts, -⟩ := effect
  obtain ⟨next, isNext, -, mark⟩ := shifts.row sessionId row found
  exact ⟨next, isNext, mark⟩

/-- Statements that move no money, and rows and sums alike. -/
def Pairing (statements : LedgerStatements α) : Prop :=
  ∀ before answer after, Commits statements before answer after → Pairs before after

/-- Paired statements add no money. -/
theorem Pairing.effect
    {statements : LedgerStatements α} (pairing : Pairing statements) {answer : α}
    (commits : Commits statements before answer after) :
    LedgerEffect 0 before after :=
  (pairing before answer after commits).effect

theorem pairing_of_still {statements : LedgerStatements α} (still : Still statements) :
    Pairing statements :=
  fun before answer after commits => (still before answer after commits).pairs

/-- Paired statements compose. -/
theorem Pairing.bind
    {first : LedgerStatements α} {next : α → LedgerStatements β} (firstPairing : Pairing first)
    (nextPairing : ∀ answer, Pairing (next answer)) :
    Pairing (first >>= next) := by
  intro before answer after commits
  obtain ⟨given, middle, firstCommits, nextCommits⟩ := commits_bind.mp commits
  exact (firstPairing _ _ _ firstCommits).trans (nextPairing given _ _ _ nextCommits)

theorem Pairing.withSessionUsageWrite
    {sessionIds : List String} {body : LedgerStatements α} (pairing : Pairing body) :
    Pairing (withSessionUsageWrite sessionIds body) := by
  intro before answer after commits
  obtain ⟨entered, left, enters, ran, leaves⟩ :=
    commits_of_withSessionUsageWrite commits
  exact (enters.pairs.trans (pairing _ _ _ ran)).trans leaves.pairs

/-! ## Session rows -/

theorem pairing_insertSession (sessionId : String) (row : AgentSessionRow) :
    Pairing (insertSession sessionId row) :=
  pairing_of_still fun _ _ _ commits => (shifts_of_insertSession commits).2.1

theorem pairing_createSession (record : AgentSessionRecord) :
    Pairing (createSession record) :=
  (pairing_insertSession record.id _).withSessionUsageWrite

theorem pairing_createFreshSession (seed : FreshSessionSeed) :
    Pairing (createFreshSession seed) := by
  refine Pairing.withSessionUsageWrite ?_
  refine (pairing_of_still (still_select _)).bind fun _ => ?_
  refine (pairing_of_still (still_require _)).bind fun _ => ?_
  refine (pairing_insertSession seed.id _).bind fun _ => ?_
  refine Pairing.bind (pairing_of_still (still_updateSessionRow
    (fun row => funext fun measure => ?_) fun row => by exact le_refl _))
    fun _ => pairing_of_still (still_pure ())
  cases measure <;> rfl

theorem pairing_reserveOneShot (sessionId : String) (now : Int) :
    Pairing (reserveOneShotSessionEffectTurnKey sessionId now) := by
  refine (pairing_of_still (still_require _)).bind fun _ => ?_
  refine Pairing.withSessionUsageWrite ?_
  refine (pairing_of_still (still_select _)).bind fun _ => ?_
  exact (pairing_of_still (still_require _)).bind fun _ => pairing_insertSession sessionId _

theorem pairing_updateSession (record : AgentSessionRecord) :
    Pairing (updateSession record) :=
  (pairing_of_still (still_mutableSessionColumns record.id record)).withSessionUsageWrite

theorem pairing_writeTurn (turn : SessionTurnWrite) : Pairing (writeTurn turn) := by
  refine Pairing.withSessionUsageWrite ?_
  refine Pairing.bind (pairing_of_still (still_forEach (fun message => ?_) _)) fun _ => ?_
  · exact Shifting.after (fun _ => still_insertMessage message.row)
      (still_require _)
  · cases turn.session with
    | none => exact pairing_of_still (still_pure ())
    | some record => exact pairing_of_still (still_mutableSessionColumns record.id record)

/-! ## Receipts -/

theorem pairing_changeCoverage (receipt : SessionUsageReceipt) (pending unknown : Int) :
    Pairing (changeCoverage receipt pending unknown) := by
  intro before answer after commits
  refine ⟨_, shifting_changeCoverage receipt pending unknown _ _ _ commits,
    fun sessionId measure isMoney => ?_⟩
  unfold atSession
  split
  · cases measure with
    | cost | conservative => rfl
    | pending | unknown => cases isMoney
  · rfl

theorem still_receiptState (receipt : SessionUsageReceipt) :
    Still (receiptState receipt) := by
  refine Shifting.after (fun found => ?_) (still_select _)
  cases found with
  | none => exact shifting_refuse _
  | some row => exact Shifting.after (fun _ => still_pure _) (still_require _)

theorem still_deleteInvocation (receipt : SessionUsageReceipt) :
    Still (deleteInvocation receipt) :=
  still_update_of_invocations fun tables => tables.invocations.delete receipt.key

theorem pairing_completeSessionUsageInvocation (receipt : SessionUsageReceipt) :
    Pairing (completeSessionUsageInvocation receipt) :=
  (pairing_of_still (still_receiptState receipt)).bind fun _ =>
    (pairing_changeCoverage receipt _ _).bind fun _ =>
      pairing_of_still (still_deleteInvocation receipt)

theorem pairing_settleReceipt
    (entry : SessionCostEntry) (receipt : Option (SessionUsageReceipt × Bool)) :
    Pairing (settleReceipt entry receipt) := by
  cases receipt with
  | some held =>
    refine (pairing_of_still (still_require _)).bind fun _ => ?_
    split
    · exact pairing_of_still (still_pure _)
    · exact (pairing_completeSessionUsageInvocation held.1).bind fun _ =>
        pairing_of_still (still_pure _)
  | none =>
    rw [settleReceipt]
    split
    · exact pairing_of_still (still_pure _)
    · refine Pairing.bind (pairing_of_still (still_updateSessionRow
        (fun row => funext fun measure => ?_) fun row => by exact le_refl _))
        fun _ => pairing_of_still (still_pure _)
      cases measure <;> rfl

/-! ## Money -/

/-- The figures with an amount added to one of them, which rounds. -/
def addRounded (measure : Measure) (amount : Nat)
    (figures : Measure → Int) : Measure → Int :=
  Function.update figures measure (addNumbers (figures measure) amount)

/-- A rounded addition moves one figure by what the rounding adds. -/
theorem addRounded_sub (measure : Measure) (amount : Nat) (figures : Measure → Int) :
    addRounded measure amount figures - figures =
      Pi.single measure (addNumbers (figures measure) amount - figures measure) := by
  ext other
  by_cases same : other = measure
  · subst same
    simp [addRounded]
  · simp [addRounded, same]

variable {measure : Measure} {answer : Unit}

theorem AgentSessionRow.figure_nonneg (row : AgentSessionRow) (isMoney : measure.IsMoney) :
    0 ≤ row.figure measure := by
  cases measure with
  | cost | conservative => exact Int.natCast_nonneg _
  | pending | unknown => cases isMoney

theorem SessionCostRow.figure_nonneg (row : SessionCostRow) (measure : Measure) :
    0 ≤ row.figure measure := by
  cases measure with
  | cost | conservative => exact Int.natCast_nonneg _
  | pending | unknown => exact le_refl 0

/-- Coverage rows hold no money. -/
theorem coverageSum_money
    (coverage : OrderedMap CoverageKey CoverageRow) (sessionId : String)
    (isMoney : measure.IsMoney) :
    coverageSum coverage sessionId measure = 0 := by
  refine OrderedMap.total_eq_zero fun _ _ _ => ?_
  cases measure with
  | cost | conservative => exact ite_self 0
  | pending | unknown => cases isMoney

/-- One row of a model holds no more money than all rows of its session. -/
theorem figure_le_perModel
    {tables : LedgerTables} {key : CostKey} {row : SessionCostRow}
    (found : tables.costs.get key = some row) (isMoney : measure.IsMoney) :
    row.figure measure ≤ tables.perModel key.sessionId measure := by
  rw [LedgerTables.perModel, coverageSum_money _ _ isMoney, Int.add_zero]
  let weight : CostKey → SessionCostRow → Int := fun other row =>
    if other.sessionId = key.sessionId then row.figure measure else 0
  have nonneg (other : CostKey) (row : SessionCostRow) : 0 ≤ weight other row := by
    dsimp only [weight]
    split
    · exact row.figure_nonneg measure
    · exact le_refl 0
  calc row.figure measure
      _ = weight key row := (if_pos rfl).symm
      _ ≤ tables.costs.total weight :=
        OrderedMap.weight_le_total (fun other row _ => nonneg other row) found

/-- Money is added to one figure of a session: by exactly the amount, both in the
row and in the sum, where there is room for it. -/
def Pays (sessionId : String) (measure : Measure) (amount : Nat)
    (before after : LedgerTables) : Prop :=
  ∃ owner models : Int,
    Shifts before after (atFigure sessionId measure owner)
      (atFigure sessionId measure models) ∧
    ∀ row, before.sessions.get sessionId = some row →
      before.perModel sessionId measure = row.figure measure →
      row.figure measure + amount ≤ 2 ^ 53 →
      owner = amount ∧ models = amount

/-- The two writes of an addition: to the row of the model and to the total. -/
theorem pays_of_writes
    {key : CostKey} {amount : Nat} {inserted : SessionCostRow}
    {setCost : SessionCostRow → SessionCostRow} {setRow : AgentSessionRow → AgentSessionRow}
    (isMoney : measure.IsMoney) (inserts : inserted.figure = Pi.single measure (amount : Int))
    (costs : ∀ row, (setCost row).figure = addRounded measure amount row.figure)
    (rows : ∀ row, (setRow row).figure = addRounded measure amount row.figure)
    (mark : ∀ row,
      row.usageInvocationHighWater ≤ (setRow row).usageInvocationHighWater)
    (commits : Commits
      (upsertCost key inserted setCost >>= fun _ =>
        updateBusinessColumns key.sessionId setRow) before answer after) :
    Pays key.sessionId measure amount before after := by
  obtain ⟨_, middle, upserts, updates⟩ := commits_bind.mp commits
  have models := shifts_of_upsertCost upserts
  have owner := shifts_of_updateBusinessColumns mark updates
  have exactly {figure : Int} (nonneg : 0 ≤ figure) (room : figure + amount ≤ 2 ^ 53) :
      addNumbers figure amount - figure = amount := by
    rw [addNumbers_of_le nonneg (Int.natCast_nonneg amount) room]
    omega
  obtain ⟨added, isAdded, exact⟩ : ∃ added, costShift before key inserted setCost =
        Pi.single measure added ∧
      (before.perModel key.sessionId measure + amount ≤ 2 ^ 53 → added = amount) := by
    unfold costShift
    cases found : before.costs.get key with
    | none => exact ⟨amount, inserts, fun _ => rfl⟩
    | some row =>
      refine ⟨_, (congrArg (· - row.figure) (costs row)).trans
        (addRounded_sub measure amount row.figure), fun room => ?_⟩
      have bound := figure_le_perModel found isMoney
      exact exactly (row.figure_nonneg measure) (by omega)
  obtain ⟨paid, isPaid, exact'⟩ : ∃ paid, rowShift middle key.sessionId setRow =
        Pi.single measure paid ∧
      ∀ row, before.sessions.get key.sessionId = some row →
        row.figure measure + amount ≤ 2 ^ 53 → paid = amount := by
    unfold rowShift
    cases found : middle.sessions.get key.sessionId with
    | none =>
      refine ⟨0, by simp, fun row isRow => ?_⟩
      obtain ⟨next, isNext, -⟩ := models.row _ row isRow
      simp [found] at isNext
    | some next =>
      refine ⟨_, (congrArg (· - next.figure) (rows next)).trans
        (addRounded_sub measure amount next.figure), fun row isRow room => ?_⟩
      obtain ⟨_, isNext, figures, -⟩ := models.row _ row isRow
      cases found.symm.trans isNext
      have same : next.figure measure = row.figure measure := by
        simpa using figures measure
      exact exactly (next.figure_nonneg isMoney) (same ▸ room)
  rw [isAdded] at models
  rw [isPaid] at owner
  refine ⟨paid, added, by simpa [atFigure] using models.trans owner, fun row found agrees room => ?_⟩
  exact ⟨exact' row found room, exact (agrees ▸ room)⟩

/-- A payment between paired statements is an effect of its amount. -/
theorem Pays.effect
    {entered left : LedgerTables} {sessionId : String} {amount : Nat} (isMoney : measure.IsMoney)
    (earlier : Pairs before entered) (pays : Pays sessionId measure amount entered left)
    (later : Pairs left after) :
    LedgerEffect (atFigure sessionId measure amount) before after := by
  obtain ⟨first, enters, firstMoney⟩ := earlier
  obtain ⟨owner, models, shifts, exact⟩ := pays
  obtain ⟨last, leaves, lastMoney⟩ := later
  refine ⟨_, _, (enters.trans shifts).trans leaves, fun other row figure found agrees room => ?_⟩
  simp only [Pi.add_apply]
  by_cases target : other = sessionId ∧ figure = measure
  · obtain ⟨rfl, rfl⟩ := target
    obtain ⟨next, isNext, figures, -⟩ := enters.row _ row found
    have same : next.figure figure = row.figure figure := by
      rw [figures, firstMoney _ _ isMoney, Int.add_zero]
    have sums : entered.perModel other figure = before.perModel other figure := by
      rw [enters.sums, firstMoney _ _ isMoney, Int.add_zero]
    obtain ⟨rfl, rfl⟩ := exact next isNext (by rw [sums, agrees, same])
      (by simpa [same] using room)
    simp [firstMoney _ _ isMoney, lastMoney _ _ isMoney]
  · rw [atFigure_of_ne target, atFigure_of_ne target, atFigure_of_ne target]
    refine ⟨rfl, fun isMoney => ?_, ?_⟩
    · simp [firstMoney _ _ isMoney, lastMoney _ _ isMoney]
    · rintro rfl
      simp [firstMoney other .cost trivial, lastMoney other .cost trivial]

/-- A cost entry pays its cost to its session. -/
theorem pays_writeSessionCost
    {entry : SessionCostEntry} (commits : Commits (writeSessionCost entry) before answer after) :
    Pays entry.sessionId .cost entry.costMicrocents before after := by
  refine pays_of_writes (show Measure.IsMoney .cost from trivial) ?_ (fun row => ?_) (fun row => ?_)
    (fun row => by exact le_refl _) commits
  · ext measure
    cases measure <;> simp [SessionCostRow.figure]
  · ext measure
    cases measure <;> simp [SessionCostRow.figure, addRounded, addNumbers_natCast]
  · ext measure
    cases measure <;> simp [AgentSessionRow.figure, addRounded, addNumbers_natCast]

/-- A cost is added when the call answers `true`, and then in full where there is
room. -/
theorem pays_recordSessionCost
    {entry : SessionCostEntry} {receipt : Option (SessionUsageReceipt × Bool)} {accepted : Bool}
    (commits : Commits (recordSessionCost entry receipt) before accepted after) :
    LedgerEffect
      (if accepted then
        atFigure entry.sessionId .cost entry.costMicrocents
      else 0) before after := by
  obtain ⟨entered, left, enters, ran, leaves⟩ :=
    commits_of_withSessionUsageWrite commits
  simp only [commits_bind, commits_pure] at ran
  obtain ⟨given, settled, settles, _, _, writes, rfl, rfl⟩ := ran
  have earlier := enters.pairs.trans (pairing_settleReceipt entry receipt _ _ _ settles)
  cases given with
  | true => exact (pays_writeSessionCost writes).effect trivial earlier leaves.pairs
  | false =>
    obtain ⟨-, rfl⟩ := commits_pure.mp writes
    exact (earlier.trans leaves.pairs).effect

theorem pays_recordSessionConservativeCommitment
    {entry : SessionConservativeEntry}
    (commits : Commits (recordSessionConservativeCommitment entry) before answer after) :
    LedgerEffect (atFigure entry.sessionId .conservative entry.estimateMicrocents)
      before after := by
  obtain ⟨entered, left, enters, ran, leaves⟩ :=
    commits_of_withSessionUsageWrite commits
  have isMoney : Measure.IsMoney .conservative := trivial
  refine Pays.effect isMoney enters.pairs (pays_of_writes isMoney ?_ (fun row => ?_)
    (fun row => ?_) (fun row => by exact le_refl _) ran) leaves.pairs
  · ext measure
    cases measure <;> simp [SessionCostRow.figure]
  · ext measure
    cases measure <;> simp [SessionCostRow.figure, addRounded, addNumbers_natCast]
  · ext measure
    cases measure <;> simp [AgentSessionRow.figure, addRounded, addNumbers_natCast]

/-- A release clears the conservative column of a session. -/
theorem shifts_of_clearCosts (before : LedgerTables) (sessionId : String) (ts : Int) :
    Shifts before
      { before with
        costs := before.costs.mapValues fun key row =>
          if key.sessionId = sessionId then
            { row with conservativeMicrocents := 0, updatedAt := ts }
          else row }
      0
      (atFigure sessionId .conservative (-before.perModel sessionId .conservative)) where
  row _ row found := ⟨row, found, by simp, le_refl _⟩
  sums other measure := by
    by_cases cleared : other = sessionId ∧ measure = .conservative
    · obtain ⟨rfl, rfl⟩ := cleared
      rw [atFigure_self, Int.add_right_neg, LedgerTables.perModel,
        coverageSum_money _ _ (show Measure.IsMoney .conservative from trivial),
        Int.add_zero, costSum, OrderedMap.total_mapValues]
      refine OrderedMap.total_eq_zero fun key row _ => ?_
      by_cases own : key.sessionId = other <;> simp [own, SessionCostRow.figure]
    · rw [atFigure_of_ne cleared, Int.add_zero, LedgerTables.perModel,
        LedgerTables.perModel, costSum, OrderedMap.total_mapValues, costSum]
      refine congrArg (· + _) (OrderedMap.total_congr fun key row _ => ?_)
      by_cases own : key.sessionId = other
      · by_cases same : other = sessionId
        · cases measure with
          | conservative => exact absurd ⟨same, rfl⟩ cleared
          | cost | pending | unknown => simp [own, same, SessionCostRow.figure]
        · simp [own, same]
      · simp [own]
  sound sound :=
    ⟨fun key isKey => sound.costs key (by simpa using isKey), sound.coverage,
      sound.sessionBounds, sound.coverageBounds⟩

variable
  {sessionId : String}

/-- A release clears the conservative money of a session in its row and in the
rows of its models. -/
theorem effect_releaseSessionConservativeCommitments {ts : Int} {released : Nat}
    (commits : Commits (releaseSessionConservativeCommitments sessionId ts) before
      released after) :
    LedgerEffect 0 before after := by
  obtain ⟨entered, left, enters, ran, leaves⟩ :=
    commits_of_withSessionUsageWrite commits
  simp only [commits_bind, commits_select] at ran
  obtain ⟨_, _, ⟨rfl, rfl⟩, ran⟩ := ran
  split at ran
  · rw [(commits_pure.mp ran).2] at enters
    exact (enters.pairs.trans leaves.pairs).effect
  · simp only [commits_bind, commits_modifyGet, commits_pure] at ran
    obtain ⟨_, _, cleared, _, touched, touches, _, _, totals, -, rfl⟩ := ran
    cases cleared
    have models := (shifts_of_clearCosts entered sessionId ts).trans
      (still_touchRevisions _ _ _ _ _ touches)
    have owner := shifts_of_updateBusinessColumns
      (fun row => by exact le_refl _) totals
    have whole := (enters.trans (models.trans owner)).trans leaves
    simp only [zero_add, add_zero] at whole
    refine ⟨_, _, whole, fun other row measure found agrees _ => ?_⟩
    obtain ⟨middle, isMiddle, figures, -⟩ := (enters.trans models).row other row found
    by_cases target : other = sessionId
    · subst target
      have kept : middle.figure .conservative = row.figure .conservative := by
        simpa using figures .conservative
      have clears : rowShift touched other
          (fun row => { row with totalConservativeMicrocents := 0, updatedAt := ts }) =
            Pi.single .conservative (-row.figure .conservative) := by
        rw [← kept]
        ext measure
        cases measure <;> simp [rowShift, isMiddle, AgentSessionRow.figure]
      by_cases isFigure : measure = .conservative
      · subst isFigure
        have sums := enters.sums other .conservative
        simp only [Pi.zero_apply, Int.add_zero] at sums
        have nonneg := row.figure_nonneg (show Measure.IsMoney .conservative from trivial)
        simp only [atSession_self, clears, Pi.single_eq_same, atFigure_self, sums, agrees]
        refine ⟨trivial, fun _ => Int.neg_nonpos_of_nonneg nonneg, fun unaffected => ?_⟩
        cases unaffected
      · rw [atSession_self, clears, atFigure_of_ne fun both => isFigure both.2]
        simp [isFigure]
    · rw [atSession_of_ne target, atFigure_of_ne fun both => target both.1]
      simp

/-! ## Receipts -/

/-- The row that a new invocation has. -/
def pendingRow (receipt : SessionUsageReceipt) : InvocationRow where
  dispatchId := receipt.invocation.dispatchId
  round := receipt.invocation.round
  chainAttempt := receipt.invocation.chainAttempt
  model := receipt.model
  coverageState := .pending

/-- What the body of a begin does: it takes the next ordinal of the session and
adds a pending row. -/
structure Begins (before after : LedgerTables)
    (receipt : SessionUsageReceipt) : Prop where
  ordinal : ∀ row, before.sessions.get receipt.sessionId = some row →
    row.usageInvocationHighWater < receipt.invocation.ordinal
  mark : ∃ next, after.sessions.get receipt.sessionId = some next ∧
    receipt.invocation.ordinal ≤ next.usageInvocationHighWater
  invocations : after.invocations =
    before.invocations.set receipt.key (pendingRow receipt)
  pairs : Pairs before after

theorem invocations_of_updateSessionRow
    {set : AgentSessionRow → AgentSessionRow} {changes : Nat}
    (commits : Commits (updateSessionRow sessionId set) before changes after) :
    after.invocations = before.invocations := by
  obtain ⟨_, _, _, _, rfl⟩ | ⟨_, _, rfl⟩ := commits_updateSessionRow.mp commits
  · rfl
  · rfl

theorem invocations_of_changeCoverage
    {receipt : SessionUsageReceipt} {pending unknown : Int}
    (commits : Commits (changeCoverage receipt pending unknown) before () after) :
    after.invocations = before.invocations := by
  simp only [changeCoverage, commits_bind, commits_select] at commits
  obtain ⟨_, _, ⟨rfl, rfl⟩, commits⟩ := commits
  cases found : before.coverage.get ⟨receipt.sessionId, receipt.model⟩ with
  | none =>
    rw [found] at commits
    exact absurd commits commits_refuse
  | some row =>
    simp only [found, commits_bind, commits_require, commits_update] at commits
    obtain ⟨_, _, ⟨-, rfl⟩, _, _, rfl, _, _, updated, -, rfl⟩ := commits
    have kept := invocations_of_updateSessionRow updated
    exact kept

/-- A coverage row is there after its insertion, and adds nothing. -/
theorem shifts_of_insertCoverage
    {before : LedgerTables} {key : CoverageKey}
    (owned : (before.sessions.get key.sessionId).isSome) :
    Shifts before
      { before with
        coverage :=
          match before.coverage.get key with
          | some _ => before.coverage
          | none => before.coverage.set key ⟨0, 0⟩ } 0 0 := by
  cases found : before.coverage.get key with
  | some row => exact .of_same rfl rfl rfl
  | none =>
    have written := @shifts_of_setCoverage key ⟨0, 0⟩ before (fun _ => owned) (by decide)
    have none : CoverageRow.figure ⟨0, 0⟩ = 0 := by
      ext measure
      cases measure <;> rfl
    simpa [found, none] using written

/-- What the begin of an invocation writes when it commits. -/
theorem begins_of_commits
    {input : SessionUsageInvocationInput} {ownsOneShot : Bool} {receipt : SessionUsageReceipt}
    (commits : Commits (beginSessionUsageInvocation input ownsOneShot) before receipt
      after) :
    ∃ entered left, Shifts before entered 0 0 ∧ Begins entered left receipt ∧
      Shifts left after 0 0 ∧ entered.receiptRows = before.receiptRows ∧
      after.receiptRows = left.receiptRows := by
  simp only [beginSessionUsageInvocation, commits_bind, commits_require] at commits
  obtain ⟨_, _, ⟨-, rfl⟩, commits⟩ := commits
  obtain ⟨entered, left, ran, enters, leaves, rows⟩ :=
    frame_of_withSessionUsageWrite commits
  refine ⟨entered, left, enters, ?_, leaves, rows⟩
  simp only [commits_bind, commits_select] at ran
  obtain ⟨_, _, ⟨rfl, rfl⟩, ran⟩ := ran
  cases found : entered.sessions.get input.sessionId with
  | none =>
    rw [found] at ran
    exact absurd ran commits_refuse
  | some owner =>
    simp only [found, commits_bind, commits_require, commits_select,
      commits_update, commits_pure] at ran
    obtain ⟨_, _, ⟨-, rfl⟩, _, _, ⟨-, rfl⟩, _, _, marks, _, _, ⟨rfl, rfl⟩, _, _,
      ⟨absent, rfl⟩, _, _, rfl, _, _, rfl, _, _, counts, rfl, rfl⟩ := ran
    have same := invocations_of_changeCoverage counts
    obtain ⟨_, isRow, bounds, -, rfl⟩ | ⟨absurdly, _⟩ :=
      commits_updateSessionRow.mp marks
    · cases found.symm.trans isRow
      have marked := @shifts_of_set input.sessionId owner
        { owner with
          usageInvocationHighWater := owner.usageInvocationHighWater + 1 }
        entered found (Nat.le_succ _) bounds
      have still : AgentSessionRow.figure
          { owner with
            usageInvocationHighWater := owner.usageInvocationHighWater + 1 } -
            owner.figure = 0 := by
        ext measure
        cases measure <;> simp [AgentSessionRow.figure]
      rw [still, atSession_zero] at marked
      generalize isMarked : ({ entered with
        sessions := entered.sessions.set input.sessionId
          { owner with
            usageInvocationHighWater := owner.usageInvocationHighWater + 1 } } :
        LedgerTables) = afterMark at *
      obtain ⟨row, isRow, -, mark⟩ := marked.row input.sessionId owner found
      have inserted := @shifts_of_insertCoverage
        { afterMark with
          invocations := afterMark.invocations.set
            ⟨input.sessionId, input.producerId,
              owner.usageInvocationHighWater + 1⟩
            ⟨input.dispatchId, input.round, input.chainAttempt, input.model,
              .pending⟩ }
        ⟨input.sessionId, input.model⟩ (by simp [isRow])
      have counted := shifting_changeCoverage _ 1 0 _ _ _ counts
      have added : Shifts afterMark
          { afterMark with
            invocations := afterMark.invocations.set
              ⟨input.sessionId, input.producerId,
                owner.usageInvocationHighWater + 1⟩
              ⟨input.dispatchId, input.round, input.chainAttempt, input.model,
                .pending⟩ } 0 0 := .of_same rfl rfl rfl
      have placed := added.trans inserted
      obtain ⟨last, isLast, -, lastMark⟩ :=
        (placed.trans counted).row input.sessionId row isRow
      refine ⟨fun other isOther => ?_, ⟨last, isLast, ?_⟩, ?_, ?_⟩
      · cases found.symm.trans isOther
        exact Nat.lt_succ_self _
      · have isNew : afterMark.sessions.get input.sessionId = some
            { owner with
              usageInvocationHighWater := owner.usageInvocationHighWater + 1 } := by
          simp [← isMarked]
        cases isRow.symm.trans isNew
        exact lastMark
      · rw [same, ← isMarked]
        rfl
      · have still := marked.trans placed
        simp only [add_zero] at still
        exact still.pairs.trans (pairing_changeCoverage _ 1 0 _ _ _ counts)
    · simp [found] at absurdly

theorem pairing_beginSessionUsageInvocation
    (input : SessionUsageInvocationInput) (ownsOneShot : Bool) :
    Pairing (beginSessionUsageInvocation input ownsOneShot) := by
  intro before receipt after commits
  obtain ⟨entered, left, enters, begins, leaves, -⟩ := begins_of_commits commits
  exact (enters.pairs.trans begins.pairs).trans leaves.pairs

theorem pairing_disposeSessionUsageInvocation
    (receipt : SessionUsageReceipt) (disposition : UsageDisposition) :
    Pairing (disposeSessionUsageInvocation receipt disposition) := by
  refine Pairing.withSessionUsageWrite ?_
  refine (pairing_of_still (still_receiptState receipt)).bind fun current => ?_
  split
  · exact pairing_of_still (still_pure _)
  · refine (pairing_changeCoverage receipt _ _).bind fun _ => ?_
    refine Pairing.bind ?_ fun _ => pairing_of_still (still_pure _)
    split
    · exact pairing_of_still (still_update_of_invocations _)
    · exact pairing_of_still (still_deleteInvocation receipt)

theorem pairing_retireSessionUsageInvocation (receipt : SessionUsageReceipt) :
    Pairing (retireSessionUsageInvocation receipt) :=
  Pairing.withSessionUsageWrite
    ((pairing_of_still (still_receiptState receipt)).bind fun _ =>
      pairing_of_still (still_deleteInvocation receipt))

end SessionLedger
end Relavium.Store
