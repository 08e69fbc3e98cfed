import Relavium.Store.RunLog

/-!
# The money of record

`runs.total_cost_microcents` and the rows of `run_costs` are two records of the
same money.  Node terminals, settled attempts and the failing terminals book
what their absolute snapshot adds to the total, once in each record;
`run:completed` sets the total to the amount it carries and books no row.
-/

namespace Relavium.Store

open Library
open Library.Statements

/-- The run-wide total that a money-bearing event carries. -/
def EventBody.moneyCarried : EventBody → Option Nat
  | .nodeCompleted _ _ _ _ cumulative _ => cumulative
  | .nodeFailed _ _ cumulative _ => cumulative
  | .costAttemptSettled _ _ _ _ cumulative => some cumulative
  | .runCompleted _ _ totalCostMicrocents => some totalCostMicrocents
  | .runFailed _ _ cumulative => cumulative
  | .runCancelled cumulative => cumulative
  | _ => none

/-- The two records of the money of a run. -/
def RunTables.money (tables : RunTables) : Nat × Nat :=
  (tables.settledCost, tables.currentRunCost)

/-! ## Booking a snapshot -/

/-- A write that raises the total to a snapshot and settles the difference. -/
structure Books (before : RunTables) (snapshot : Option Nat)
    (after : RunTables) : Prop where
  total : after.currentRunCost = max before.currentRunCost (snapshot.getD 0)
  paired : after.settledCost + before.currentRunCost = before.settledCost + after.currentRunCost

variable
  {snapshot : Option Nat}

theorem Books.of_money
    {before middle after : RunTables} (books : Books before snapshot middle)
    (same : after.money = middle.money) :
    Books before snapshot after := by
  obtain ⟨settled, total⟩ := Prod.mk.inj same
  exact ⟨total.trans books.total, by rw [settled, total]; exact books.paired⟩

theorem Books.after_same
    {before middle after : RunTables} (same : middle.money = before.money)
    (books : Books middle snapshot after) :
    Books before snapshot after := by
  obtain ⟨settled, total⟩ := Prod.mk.inj same
  exact ⟨total ▸ books.total, settled ▸ total ▸ books.paired⟩

variable
  {before after : RunTables}

/-- An absent snapshot counts as the total so far. -/
theorem Books.of_getD (books : Books before (some (snapshot.getD before.currentRunCost)) after) :
    Books before snapshot after := by
  refine ⟨books.total.trans ?_, books.paired⟩
  cases snapshot with
  | none => simp
  | some amount => rfl

/-- A write that moves no money books nothing. -/
theorem books_of_same (same : after.money = before.money) :
    Books before none after := by
  obtain ⟨settled, total⟩ := Prod.mk.inj same
  exact ⟨by simpa using total, by rw [settled, total]⟩

/-- Adding what a snapshot adds leads to the larger of both. -/
theorem total_after_charge
    {prev cumulative : Nat} (prevSafe : prev < 2 ^ 53) (cumulativeSafe : cumulative < 2 ^ 53) :
    nearestDouble (prev + chargedSince cumulative prev) = max prev cumulative ∧
      chargedSince cumulative prev + prev = max prev cumulative := by
  have charged : chargedSince cumulative prev = cumulative - prev :=
    nearestDouble_of_lt (by omega)
  rw [charged, nearestDouble_of_lt (by omega)]
  omega

theorem settles_of_insertRunCost
    {row : RunCostRow} (commits : Commits (insertRunCost row) before () after) :
    before.run.isSome ∧ after.run = before.run ∧
      after.settledCost = before.settledCost + row.costMicrocents := by
  simp only [insertRunCost, requireRun, commits_bind, commits_select,
    commits_require, commits_update] at commits
  obtain ⟨_, _, ⟨_, _, ⟨rfl, rfl⟩, present, rfl⟩, rfl⟩ := commits
  exact ⟨present, rfl, by simp [RunTables.settledCost]⟩

variable
  {set : RunRow → RunRow}

theorem total_of_updateRun
    {total : Nat} (commits : Commits (updateRun set) before () after)
    (present : before.run.isSome) (sets : ∀ row, (set row).totalCostMicrocents = total) :
    after.settledCost = before.settledCost ∧ after.currentRunCost = total := by
  rw [← commits_update.mp commits]
  obtain ⟨row, isRow⟩ := Option.isSome_iff_exists.mp present
  exact ⟨rfl, by simp [RunTables.currentRunCost, isRow, sets]⟩

theorem money_of_updateRun
    (commits : Commits (updateRun set) before () after)
    (keeps : ∀ row, (set row).totalCostMicrocents = row.totalCostMicrocents) :
    after.money = before.money := by
  rw [← commits_update.mp commits]
  simp only [RunTables.money, RunTables.settledCost, RunTables.currentRunCost,
    Option.map_map, Prod.mk.injEq, true_and]
  congr 2
  exact funext keeps

theorem money_of_updateStep
    {nodeId : String} {attemptNumber : Option Nat} {set : StepExecutionRow → StepExecutionRow}
    (commits : Commits (updateStep nodeId attemptNumber set) before () after) :
    after.run = before.run ∧ after.money = before.money := by
  rw [← commits_update.mp commits]
  exact ⟨rfl, rfl⟩

theorem books_of_charge
    {before charged closed after : RunTables} {cumulative : Nat} {row : RunCostRow}
    (prevSafe : before.currentRunCost < 2 ^ 53) (cumulativeSafe : cumulative < 2 ^ 53)
    (inserted : Commits (insertRunCost row) before () charged)
    (charges : row.costMicrocents = chargedSince cumulative before.currentRunCost)
    (kept : closed.run = charged.run ∧ closed.money = charged.money)
    (updated : Commits (updateRun set) closed () after)
    (sets : ∀ run, (set run).totalCostMicrocents =
      nearestDouble (before.currentRunCost + row.costMicrocents)) :
    Books before (some cumulative) after := by
  obtain ⟨present, sameRun, settled⟩ := settles_of_insertRunCost inserted
  obtain ⟨sameSettled, isTotal⟩ :=
    total_of_updateRun updated (by rw [kept.1, sameRun]; exact present) sets
  obtain ⟨total, paired⟩ := total_after_charge prevSafe cumulativeSafe
  rw [charges, total] at isTotal
  refine ⟨isTotal, ?_⟩
  rw [isTotal, ← paired, sameSettled, (Prod.mk.inj kept.2).1, settled, charges]
  exact Nat.add_assoc _ _ _

theorem books_foldCumulative
    {cumulative : Option Nat} {ts : Int} {nodeId : String}
    (prevSafe : before.currentRunCost < 2 ^ 53)
    (cumulativeSafe : ∀ amount ∈ cumulative, amount < 2 ^ 53)
    (commits : Commits (foldCumulative cumulative ts nodeId) before () after) :
    Books before cumulative after := by
  cases cumulative with
  | none =>
    rw [← (commits_pure.mp commits).2]
    exact books_of_same rfl
  | some cumulative =>
    have safe := cumulativeSafe cumulative rfl
    simp only [foldCumulative, commits_bind, commits_select] at commits
    obtain ⟨_, _, ⟨rfl, rfl⟩, branch⟩ := commits
    split at branch
    · rename_i nothing
      rw [← (commits_pure.mp branch).2]
      obtain ⟨_, paired⟩ := total_after_charge prevSafe safe
      rw [nothing, Nat.zero_add] at paired
      exact ⟨paired, rfl⟩
    · rw [commits_bind] at branch
      obtain ⟨_, _, inserted, updated⟩ := branch
      refine books_of_charge prevSafe safe inserted rfl ⟨rfl, rfl⟩ updated fun run => ?_
      dsimp only

/-! ## The money of one event -/

/-- The amount of an event is a safe integer. -/
def EventBody.SafeMoney (body : EventBody) : Prop :=
  ∀ amount ∈ body.moneyCarried, amount < 2 ^ 53

/-- A closing total is the total so far. -/
def EventBody.ClosesAt
    (total : Nat) : EventBody → Prop
  | .runCompleted _ _ totalCostMicrocents => totalCostMicrocents = total
  | _ => True

variable
  {deps : RunHistoryStoreDeps}

/-- Every derived write books the snapshot of its event, but for a closing
total other than the total so far. -/
theorem books_applyDerived
    {ts : Int} {body : EventBody} (prevSafe : before.currentRunCost < 2 ^ 53)
    (safe : body.SafeMoney) (closes : body.ClosesAt before.currentRunCost)
    (commits : Commits (applyDerived deps ts body) before () after) (present : after.run.isSome) :
    Books before body.moneyCarried after := by
  cases body with
  | runStarted workflowId inputs executionMode =>
    simp only [applyDerived, applyRunStarted, commits_bind, commits_select,
      commits_require, commits_update] at commits
    obtain ⟨_, _, ⟨rfl, rfl⟩, _, _, ⟨_, rfl⟩, _, _, ⟨rfl, rfl⟩, _, _,
      ⟨fresh, rfl⟩, rfl⟩ := commits
    refine books_of_same ?_
    simp [RunTables.money, RunTables.settledCost, RunTables.currentRunCost, fresh]
  | nodeStarted nodeId nodeType attemptNumber =>
    simp only [applyDerived, applyNodeStarted, requireRun, commits_bind,
      commits_select, commits_require, commits_update] at commits
    obtain ⟨_, _, ⟨_, _, ⟨rfl, rfl⟩, _, rfl⟩, rfl⟩ := commits
    exact books_of_same rfl
  | nodeCompleted nodeId output tokensUsed durationMs cumulative attemptNumber =>
    simp only [applyDerived, applyNodeCompleted, commits_bind, commits_select] at commits
    obtain ⟨_, _, ⟨rfl, rfl⟩, _, charged, inserted, _, _, ⟨rfl, rfl⟩, _, closed,
      stepClosed, updated⟩ := commits
    refine Books.of_getD (books_of_charge prevSafe ?_ inserted rfl
      (money_of_updateStep stepClosed) updated fun run => ?_)
    · cases cumulative with
      | none => exact prevSafe
      | some amount => exact safe amount rfl
    · dsimp only
  | nodeRetrying nodeId error attemptNumber =>
    exact books_of_same (money_of_updateStep commits).2
  | nodeFailed nodeId error cumulative attemptNumber =>
    simp only [applyDerived, applyNodeFailed, commits_bind, commits_select] at commits
    obtain ⟨_, closed, stepClosed, _, folded, booked, _, _, ⟨rfl, rfl⟩, settled⟩ :=
      commits
    have closedMoney := (money_of_updateStep stepClosed).2
    have closedSafe : closed.currentRunCost < 2 ^ 53 := by
      rw [(Prod.mk.inj closedMoney).2]
      exact prevSafe
    exact ((books_foldCumulative closedSafe safe booked).after_same
      closedMoney).of_money (money_of_updateStep settled).2
  | costAttemptSettled nodeId inputTokens outputTokens cost cumulative =>
    simp only [applyDerived, applyAttemptSettled, commits_bind, commits_select] at commits
    obtain ⟨_, _, ⟨rfl, rfl⟩, _, charged, inserted, updated⟩ := commits
    refine books_of_charge prevSafe (safe _ rfl) inserted rfl ⟨rfl, rfl⟩ updated fun run => ?_
    dsimp only
  | humanGatePaused nodeId | budgetPaused nodeId | runPaused
  | budgetAuthorization nodeId paused | humanGateResumed nodeId =>
    exact books_of_same (money_of_updateRun commits fun _ => rfl)
  | runCompleted outputs totalTokensUsed totalCostMicrocents =>
    have wasPresent : before.run.isSome := by
      rw [← commits_update.mp commits] at present
      simpa using present
    obtain ⟨settled, total⟩ := total_of_updateRun commits wasPresent fun _ => rfl
    have same : totalCostMicrocents = before.currentRunCost := closes
    refine ⟨?_, ?_⟩
    · rw [total, same]
      exact (Nat.max_self _).symm
    · rw [settled, total, same]
  | runFailed error partialOutputs cumulative =>
    simp only [applyDerived, applyRunFailed, commits_bind] at commits
    obtain ⟨_, folded, booked, closed⟩ := commits
    exact (books_foldCumulative prevSafe safe booked).of_money
      (money_of_updateRun closed fun _ => rfl)
  | runCancelled cumulative =>
    simp only [applyDerived, applyRunCancelled, commits_bind] at commits
    obtain ⟨_, folded, booked, closed⟩ := commits
    exact (books_foldCumulative prevSafe safe booked).of_money
      (money_of_updateRun closed fun _ => rfl)
  | underived type nodeId =>
    rw [← (commits_pure.mp commits).2]
    exact books_of_same rfl

/-! ## The money of a run -/

/-- The money that a transaction brought in. -/
def StoreTransaction.moneyCarried : StoreTransaction → Option Nat
  | .persisted event _ => event.body.moneyCarried
  | _ => none

/-- The largest total that an accepted event carried, zero for none. -/
def largestCarried (history : List StoreTransaction) : Nat :=
  (history.filterMap StoreTransaction.moneyCarried).foldl max 0

theorem largestCarried_snoc (history : List StoreTransaction) (transaction : StoreTransaction) :
    largestCarried (history ++ [transaction]) =
      max (largestCarried history) (transaction.moneyCarried.getD 0) := by
  unfold largestCarried
  rw [List.filterMap_append, List.foldl_append]
  cases carried : transaction.moneyCarried with
  | none | some amount => simp [carried]

/-- Both records agree, on the largest total that was carried. -/
structure MoneyOfRecord (history : List StoreTransaction)
    (tables : RunTables) : Prop where
  settled : tables.settledCost = tables.currentRunCost
  largest : tables.currentRunCost = largestCarried history

/-- An accepted event carries a safe amount, and a closing total is the total so
far. -/
def MeetsCondition
    (before : RunTables) : StoreTransaction → Prop
  | .persisted event _ =>
    event.body.SafeMoney ∧ event.body.ClosesAt before.currentRunCost
  | _ => True

/-- A step that meets the condition. -/
def MeetingStep (deps : RunHistoryStoreDeps) (before : RunTables) (transaction : StoreTransaction)
    (after : RunTables) : Prop :=
  StoreStep deps before transaction after ∧ MeetsCondition before transaction

theorem books_of_persisted
    {event : DurableEvent} {ctx : Option DurableWriteContext}
    (prevSafe : before.currentRunCost < 2 ^ 53) (safe : event.body.SafeMoney)
    (closes : event.body.ClosesAt before.currentRunCost)
    (persisted : Persisted deps before event ctx after) :
    Books before event.body.moneyCarried after := by
  obtain ⟨middle, derived, present, rfl⟩ := persisted.derived
  exact (books_applyDerived prevSafe safe closes derived present).of_money rfl

/-- An accepted `run:completed` sets the total and settles nothing. -/
theorem money_of_completed
    {event : DurableEvent} {ctx : Option DurableWriteContext} {outputs : Json}
    {tokens : TokensUsed} {totalCostMicrocents : Nat}
    (completed : event.body = .runCompleted outputs tokens totalCostMicrocents)
    (persisted : Persisted deps before event ctx after) :
    after.settledCost = before.settledCost ∧
      after.currentRunCost = totalCostMicrocents := by
  obtain ⟨middle, derived, present, rfl⟩ := persisted.derived
  rw [completed] at derived
  have wasPresent : before.run.isSome := by
    rw [← commits_update.mp derived] at present
    simpa using present
  have closed := total_of_updateRun derived wasPresent fun _ => rfl
  exact closed

theorem moneyOfRecord_step
    {history : List StoreTransaction} {transaction : StoreTransaction}
    (holds : MoneyOfRecord history before ∧ before.currentRunCost < 2 ^ 53)
    (step : MeetingStep deps before transaction after) :
    MoneyOfRecord (history ++ [transaction]) after ∧
      after.currentRunCost < 2 ^ 53 := by
  obtain ⟨⟨settled, largest⟩, prevSafe⟩ := holds
  obtain ⟨step, meets⟩ := step
  cases step with
  | persisted accepted =>
    rename_i event ctx
    obtain ⟨safe, closes⟩ := meets
    have books := books_of_persisted prevSafe safe closes (persisted_of_accepted accepted)
    have small : event.body.moneyCarried.getD 0 < 2 ^ 53 := by
      cases carried : event.body.moneyCarried with
      | none => simp
      | some amount => exact safe amount carried
    refine ⟨⟨?_, ?_⟩, ?_⟩
    · have paired := books.paired
      omega
    · rw [books.total, largest, largestCarried_snoc]
      rfl
    · rw [books.total]
      exact Nat.max_lt.mpr ⟨prevSafe, small⟩
  | refused answered =>
    rw [tables_of_transaction_error answered]
    refine ⟨⟨settled, ?_⟩, prevSafe⟩
    rw [largestCarried_snoc]
    exact largest.trans (Nat.max_zero _).symm
  | faulted | leased performed =>
    refine ⟨⟨settled, ?_⟩, prevSafe⟩
    rw [largestCarried_snoc]
    exact largest.trans (Nat.max_zero _).symm

/-- In every run whose accepted events carry safe amounts and whose closing
total is the total so far, the rows of `run_costs` sum to the total of the run
and the total is the largest that any accepted event carried.  The next accepted
event keeps that, and does not lower the total, exactly when it is no
`run:completed` with another total; a rejected one changes neither record. -/
theorem money_of_record
    {deps : RunHistoryStoreDeps} {workflowIds : List String} {history : List StoreTransaction}
    {tables : RunTables}
    (run : Run (MeetingStep deps) (RunTables.empty workflowIds) history tables) :
    MoneyOfRecord history tables ∧
    (∀ event ctx next, StoreStep deps tables (.persisted event ctx) next →
      event.body.SafeMoney →
      (MoneyOfRecord (history ++ [.persisted event ctx]) next ∧
          tables.currentRunCost ≤ next.currentRunCost ↔
        event.body.ClosesAt tables.currentRunCost)) ∧
    (∀ event ctx next, StoreStep deps tables (.refused event ctx) next →
      next.money = tables.money) := by
  have holds :
      MoneyOfRecord history tables ∧ tables.currentRunCost < 2 ^ 53 :=
    run.invariant
      (fun history reached =>
        MoneyOfRecord history reached ∧ reached.currentRunCost < 2 ^ 53)
      ⟨⟨rfl, rfl⟩, Nat.two_pow_pos 53⟩
      (fun _ _ _ _ _ holds step => moneyOfRecord_step holds step)
  refine ⟨holds.1, ?_, ?_⟩
  · intro event ctx next step safe
    constructor
    · rintro ⟨kept, _⟩
      cases step with
      | persisted accepted =>
        cases isBody : event.body with
        | runCompleted outputs tokens totalCostMicrocents =>
          obtain ⟨settled, total⟩ :=
            money_of_completed isBody (persisted_of_accepted accepted)
          change totalCostMicrocents = tables.currentRunCost
          rw [← total, ← kept.settled, settled, holds.1.settled]
        | _ => trivial
    · intro closes
      refine ⟨(moneyOfRecord_step holds ⟨step, safe, closes⟩).1, ?_⟩
      cases step with
      | persisted accepted =>
        have books := books_of_persisted holds.2 safe closes (persisted_of_accepted accepted)
        rw [books.total]
        exact Nat.le_max_left _ _
  · intro event ctx next step
    rw [unchanged_of_refused step]

/-- A settled attempt of ten micro-cents. -/
def settledEvent : DurableEvent where
  sequenceNumber := 1
  timestamp := 0
  body := .costAttemptSettled "a" 5 5 10 10

/-- `run:completed` with a closing total. -/
def completedEvent (totalCostMicrocents : Nat) : DurableEvent where
  sequenceNumber := 2
  timestamp := 1
  body := .runCompleted (.object []) { input := 5, output := 5 } totalCostMicrocents

/-- The tables after the attempt settled. -/
def settledTables : RunTables := {
  startedTables with
  run := some { startedRow with totalCostMicrocents := 10 }
  costs := [{
    nodeId := "a"
    inputTokens := 5
    outputTokens := 5
    costMicrocents := 10
    createdAt := 0 }]
  events := [startedEvent.row, settledEvent.row] }

/-- The tables after the run closed with a total. -/
def completedTables (totalCostMicrocents : Nat) : RunTables := {
  settledTables with
  run := some {
    startedRow with
    status := .completed
    outputJson := some (.object [])
    totalInputTokens := 5
    totalOutputTokens := 5
    totalCostMicrocents
    completedAt := some 1
    updatedAt := 1 }
  events :=
    [startedEvent.row, settledEvent.row, (completedEvent totalCostMicrocents).row] }

theorem settledEvent_accepted :
    persistEvent exampleDeps settledEvent (guardedAt 0) startedTables =
      (.ok (), settledTables) := by
  decide

theorem completedEvent_accepted (totalCostMicrocents : Nat) :
    persistEvent exampleDeps (completedEvent totalCostMicrocents) none settledTables =
      (.ok (), completedTables totalCostMicrocents) := rfl

theorem money_of_record_closing :
    (completedTables 10).settledCost = (completedTables 10).currentRunCost := by
  have started : Run (MeetingStep exampleDeps) (RunTables.empty ["w"])
      [.persisted startedEvent (guardedAt (-1))] startedTables :=
    .snoc .nil ⟨.persisted startedEvent_accepted, nofun, trivial⟩
  have settled : Run (MeetingStep exampleDeps) (RunTables.empty ["w"])
      [.persisted startedEvent (guardedAt (-1)),
        .persisted settledEvent (guardedAt 0)] settledTables := by
    refine .snoc started ⟨.persisted settledEvent_accepted, ?_, trivial⟩
    rintro amount ⟨rfl⟩
    decide
  have completed : Run (MeetingStep exampleDeps) (RunTables.empty ["w"])
      [.persisted startedEvent (guardedAt (-1)), .persisted settledEvent (guardedAt 0),
        .persisted (completedEvent 10) none] (completedTables 10) := by
    refine .snoc settled ⟨.persisted (completedEvent_accepted 10), ?_, rfl⟩
    rintro amount ⟨rfl⟩
    decide
  exact (money_of_record completed).1.settled

/-- A closing total above what was settled leaves the two records apart. -/
theorem money_of_record_assigned :
    ¬∀ (history : List StoreTransaction) (tables : RunTables),
      Run (StoreStep exampleDeps) (RunTables.empty ["w"]) history tables →
      MoneyOfRecord history tables := by
  intro always
  have started : Run (StoreStep exampleDeps) (RunTables.empty ["w"])
      [.persisted startedEvent (guardedAt (-1))] startedTables :=
    .snoc .nil (.persisted startedEvent_accepted)
  have settled : Run (StoreStep exampleDeps) (RunTables.empty ["w"])
      [.persisted startedEvent (guardedAt (-1)),
        .persisted settledEvent (guardedAt 0)] settledTables :=
    .snoc started (.persisted settledEvent_accepted)
  have completed : Run (StoreStep exampleDeps) (RunTables.empty ["w"])
      [.persisted startedEvent (guardedAt (-1)), .persisted settledEvent (guardedAt 0),
        .persisted (completedEvent 12) none] (completedTables 12) :=
    .snoc settled (.persisted (completedEvent_accepted 12))
  have agrees := (always _ _ completed).settled
  exact absurd agrees (by decide)

end Relavium.Store
