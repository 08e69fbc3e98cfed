import Relavium.Store.RunHistory

/-!
# The event log of a run

Over every order of durable writes and lease transactions, by any number of
processes, the log of a run holds one terminal at most, no sequence number
twice, and the guarded appends in increasing order.
-/

namespace Relavium.Store

open Library
open Library.Statements

/-! ## Transactions against a run -/

/-- A transaction against the rows of a run, as its process saw it end. -/
inductive StoreTransaction
  /-- A durable write that was accepted. -/
  | persisted (event : DurableEvent) (ctx : Option DurableWriteContext)
  /-- A durable write that was rejected. -/
  | refused (event : DurableEvent) (ctx : Option DurableWriteContext)
  | leased (transaction : LeaseTransaction)

/-- One transaction of any process. -/
inductive StoreStep (deps : RunHistoryStoreDeps)
    (before : RunTables) : StoreTransaction → RunTables → Prop
  | persisted {event : DurableEvent} {ctx : Option DurableWriteContext}
      {after : RunTables} :
      persistEvent deps event ctx before = (.ok (), after) →
      StoreStep deps before (.persisted event ctx) after
  | refused {event : DurableEvent} {ctx : Option DurableWriteContext}
      {refusal : PersistError} {after : RunTables} :
      persistEvent deps event ctx before = (.error refusal, after) →
      StoreStep deps before (.refused event ctx) after
  /-- The transaction failed for a cause outside the tables: a lock, a disk. -/
  | faulted {event : DurableEvent} {ctx : Option DurableWriteContext} :
      StoreStep deps before (.refused event ctx) before
  | leased {transaction : LeaseTransaction} {lease : Option RunLeaseRow} :
      transaction.call.perform transaction.now before.lease =
        (transaction.answer, lease) →
      StoreStep deps before (.leased transaction) { before with lease }

variable
  {before after : RunTables}
  {deps : RunHistoryStoreDeps}

/-- A rejected write leaves every table as it was. -/
theorem unchanged_of_refused
    {event : DurableEvent} {ctx : Option DurableWriteContext}
    (step : StoreStep deps before (.refused event ctx) after) :
    after = before := by
  cases step with
  | refused answered => exact tables_of_transaction_error answered
  | faulted => rfl

/-! ## What derived writes leave alone -/

/-- The log and the lease, which no derived write touches. -/
def RunTables.logAndLease (tables : RunTables) :
    List RunEventRow × Option RunLeaseRow :=
  (tables.events, tables.lease)

theorem keeps_requireRun :
    Keeps RunTables.logAndLease requireRun :=
  .bind .select fun _ => .require

theorem keeps_updateRun (set : RunRow → RunRow) :
    Keeps RunTables.logAndLease (updateRun set) :=
  .update fun _ => rfl

theorem keeps_updateStep
    (nodeId : String) (attemptNumber : Option Nat) (set : StepExecutionRow → StepExecutionRow) :
    Keeps RunTables.logAndLease (updateStep nodeId attemptNumber set) :=
  .update fun _ => rfl

theorem keeps_insertRunCost (row : RunCostRow) :
    Keeps RunTables.logAndLease (insertRunCost row) :=
  .bind keeps_requireRun fun _ => .update fun _ => rfl

theorem keeps_foldCumulative (cumulative : Option Nat) (ts : Int) (nodeId : String) :
    Keeps RunTables.logAndLease (foldCumulative cumulative ts nodeId) := by
  cases cumulative with
  | none => exact .pure
  | some cumulative =>
    refine .bind .select fun prev => ?_
    dsimp only
    split
    · exact .pure
    · exact .bind (keeps_insertRunCost _) fun _ => keeps_updateRun _

/-- Derived writes touch neither the log nor the lease. -/
theorem keeps_applyDerived (deps : RunHistoryStoreDeps) (ts : Int) (body : EventBody) :
    Keeps RunTables.logAndLease (applyDerived deps ts body) := by
  cases body with
  | runStarted workflowId inputs executionMode =>
    refine .bind .select fun _ => .bind .require fun _ => ?_
    exact .bind .select fun _ => .bind .require fun _ => .update fun _ => rfl
  | nodeStarted nodeId nodeType attemptNumber =>
    exact .bind keeps_requireRun fun _ => .update fun _ => rfl
  | nodeCompleted nodeId output tokensUsed durationMs cumulative attemptNumber =>
    refine .bind .select fun _ => .bind (keeps_insertRunCost _) fun _ => ?_
    refine .bind .select fun _ => .bind (keeps_updateStep _ _ _) fun _ => ?_
    exact keeps_updateRun _
  | nodeRetrying nodeId error attemptNumber => exact keeps_updateStep _ _ _
  | nodeFailed nodeId error cumulative attemptNumber =>
    refine .bind (keeps_updateStep _ _ _) fun _ => ?_
    refine .bind (keeps_foldCumulative _ _ _) fun _ => ?_
    exact .bind .select fun _ => keeps_updateStep _ _ _
  | costAttemptSettled nodeId inputTokens outputTokens cost cumulative =>
    refine .bind .select fun _ => .bind (keeps_insertRunCost _) fun _ => ?_
    exact keeps_updateRun _
  | humanGatePaused nodeId | budgetPaused nodeId | runPaused
  | budgetAuthorization nodeId paused | humanGateResumed nodeId => exact keeps_updateRun _
  | runCompleted outputs totalTokensUsed totalCostMicrocents =>
    exact keeps_updateRun _
  | runFailed error partialOutputs cumulative | runCancelled cumulative =>
    exact .bind (keeps_foldCumulative _ _ _) fun _ => keeps_updateRun _
  | underived type nodeId => exact .pure

/-! ## What an accepted write did -/

/-- The row that an event is stored as. -/
def DurableEvent.row (event : DurableEvent) : RunEventRow where
  seq := event.sequenceNumber
  eventType := event.body.type
  nodeId := event.body.nodeId
  payload := event
  ts := event.timestamp

/-- The number at which a write expects the log to end. -/
def expectation (ctx : Option DurableWriteContext) : Option Int :=
  ctx.bind DurableWriteContext.expectedLastSequenceNumber

/-- The checks an accepted write passed, and what it left. -/
structure Persisted
    (deps : RunHistoryStoreDeps) (before : RunTables) (event : DurableEvent)
    (ctx : Option DurableWriteContext)
    (after : RunTables) : Prop where
  /-- The log ended where the writer expected, behind the event. -/
  guarded : ∀ expected, expectation ctx = some expected →
    before.lastSequenceNumber = expected ∧ expected < event.sequenceNumber
  /-- The writer held the lease it named. -/
  fenced : checkFence (ctx.bind DurableWriteContext.fence) before.lease = .ok ()
  /-- A terminal found none before it. -/
  single : event.body.type.isTerminal = true →
    ∀ row ∈ before.events, row.eventType.isTerminal = false
  /-- The sequence number was free. -/
  fresh : event.sequenceNumber ∉ before.events.map RunEventRow.seq
  /-- The derived writes came first, and the run is there after them. -/
  derived : ∃ middle,
    Commits (applyDerived deps event.timestamp event.body) before () middle ∧
    middle.run.isSome ∧
    after = { middle with events := middle.events ++ [event.row] }
  /-- The event is appended to the log. -/
  appended : after.events = before.events ++ [event.row]
  /-- The lease is not touched. -/
  lease : after.lease = before.lease

/-- The append guard passes only where the log ends as the writer expects. -/
theorem commits_checkAppend
    {expected : Option Int} {sequenceNumber : Nat}
    (commits : Commits (checkAppend expected sequenceNumber) before () after) :
    after = before ∧ ∀ wanted, expected = some wanted →
      before.lastSequenceNumber = wanted ∧ wanted < sequenceNumber := by
  cases expected with
  | none => exact ⟨(commits_pure.mp commits).2.symm, by simp⟩
  | some wanted =>
    simp only [checkAppend, commits_bind, commits_select, commits_require] at commits
    obtain ⟨_, _, ⟨rfl, rfl⟩, _, _, ⟨isLast, rfl⟩, ahead, rfl⟩ := commits
    refine ⟨rfl, ?_⟩
    rintro _ ⟨rfl⟩
    exact ⟨isLast, isLast ▸ ahead⟩

/-- The fence guard passes only the holder. -/
theorem commits_checkWriteFence
    {fence : Option Fence} (commits : Commits (checkWriteFence fence) before () after) :
    after = before ∧ checkFence fence before.lease = .ok () := by
  simp only [checkWriteFence, commits_bind, commits_select] at commits
  obtain ⟨_, _, ⟨rfl, rfl⟩, checked⟩ := commits
  cases isChecked : checkFence fence before.lease with
  | ok =>
    rw [isChecked] at checked
    exact ⟨(commits_pure.mp checked).2.symm, rfl⟩
  | error fenced =>
    rw [isChecked] at checked
    exact absurd checked commits_refuse

/-- A second terminal event is refused. -/
theorem commits_checkTerminal
    {type : EventType} (commits : Commits (checkTerminal type) before () after) :
    after = before ∧ (type.isTerminal = true →
      ∀ row ∈ before.events, row.eventType.isTerminal = false) := by
  unfold checkTerminal at commits
  split at commits
  · simp only [commits_bind, commits_select, commits_require] at commits
    obtain ⟨_, _, ⟨rfl, rfl⟩, noPrior, rfl⟩ := commits
    exact ⟨rfl, fun _ row member => by simpa using List.any_eq_false.mp noPrior row member⟩
  · rename_i notTerminal
    exact ⟨(commits_pure.mp commits).2.symm, fun terminal =>
      absurd terminal notTerminal⟩

/-- An event row is inserted under a new number, at the end. -/
theorem commits_insertRunEvent
    {row : RunEventRow} (commits : Commits (insertRunEvent row) before () after) :
    before.run.isSome ∧
      row.seq ∉ before.events.map RunEventRow.seq ∧
      after = { before with events := before.events ++ [row] } := by
  simp only [insertRunEvent, requireRun, commits_bind, commits_select,
    commits_require, commits_update] at commits
  obtain ⟨_, _, ⟨_, _, ⟨rfl, rfl⟩, present, rfl⟩, _, _, ⟨rfl, rfl⟩, _, _,
    ⟨fresh, rfl⟩, rfl⟩ := commits
  exact ⟨present, fresh, rfl⟩

/-- What an accepted event has passed, and what it leaves. -/
theorem persisted_of_accepted
    {event : DurableEvent} {ctx : Option DurableWriteContext}
    (accepted : persistEvent deps event ctx before = (.ok (), after)) :
    Persisted deps before event ctx after := by
  have commits := transaction_ok_iff.mp accepted
  simp only [fold, commits_bind] at commits
  obtain ⟨_, first, appendChecked, _, second, fenceChecked, _, third,
    terminalChecked, _, middle, derived, inserted⟩ := commits
  obtain ⟨rfl, guarded⟩ := commits_checkAppend appendChecked
  obtain ⟨rfl, fenced⟩ := commits_checkWriteFence fenceChecked
  obtain ⟨rfl, single⟩ := commits_checkTerminal terminalChecked
  obtain ⟨present, fresh, isAfter⟩ := commits_insertRunEvent inserted
  have kept := Prod.ext_iff.mp (keeps_applyDerived _ _ _ _ _ _ derived)
  have keptEvents : middle.events = third.events := kept.1
  have keptLease : middle.lease = third.lease := kept.2
  rw [keptEvents] at fresh
  refine ⟨guarded, fenced, single, fresh, ⟨middle, derived, present, isAfter⟩, ?_, ?_⟩
  · rw [isAfter, ← keptEvents]
    rfl
  · rw [isAfter, ← keptLease]

/-- Every transaction leaves the log or appends the event it accepted. -/
theorem events_of_step
    {transaction : StoreTransaction} (step : StoreStep deps before transaction after) :
    after.events = before.events ∨
      ∃ event ctx, transaction = .persisted event ctx ∧
        Persisted deps before event ctx after := by
  cases step with
  | persisted accepted => exact .inr ⟨_, _, rfl, persisted_of_accepted accepted⟩
  | refused answered =>
    exact .inl (by rw [tables_of_transaction_error answered])
  | faulted | leased _ => exact .inl rfl

/-! ## The log over a run -/

/-- Every row stands at or below the end of the log. -/
theorem le_lastSequenceNumber
    {tables : RunTables} {row : RunEventRow} (member : row ∈ tables.events) :
    (row.seq : Int) ≤ tables.lastSequenceNumber := by
  have isSeq : row.seq ∈ tables.events.map RunEventRow.seq :=
    List.mem_map_of_mem member
  unfold RunTables.lastSequenceNumber
  cases largest : (tables.events.map RunEventRow.seq).max? with
  | none => simp [List.max?_eq_none_iff.mp largest] at isSeq
  | some last =>
    have bound := (List.max?_eq_some_iff.mp largest).2 row.seq isSeq
    simpa using bound

/-- What holds of the log of a run at all times. -/
structure LogInvariant (tables : RunTables) : Prop where
  /-- No sequence number is stored twice. -/
  distinct : (tables.events.map RunEventRow.seq).Nodup
  /-- One terminal is stored at most. -/
  single : (tables.events.filter fun row => row.eventType.isTerminal).length ≤ 1

theorem logInvariant_empty (workflowIds : List String) :
    LogInvariant (RunTables.empty workflowIds) where
  distinct := List.nodup_nil
  single := Nat.zero_le 1

/-- Every transaction keeps the order of the log. -/
theorem logInvariant_step
    {transaction : StoreTransaction} (holds : LogInvariant before)
    (step : StoreStep deps before transaction after) :
    LogInvariant after := by
  rcases events_of_step step with same | ⟨event, ctx, rfl, persisted⟩
  · exact ⟨by rw [same]; exact holds.distinct, by rw [same]; exact holds.single⟩
  · constructor
    · have distinct := holds.distinct.concat persisted.fresh
      rw [List.concat_eq_append] at distinct
      rw [persisted.appended, List.map_append]
      exact distinct
    · rw [persisted.appended, List.filter_append, List.length_append]
      by_cases terminal : event.body.type.isTerminal = true
      · have none : before.events.filter (fun row => row.eventType.isTerminal) =
            [] := by
          rw [List.filter_eq_nil_iff]
          intro row member
          rw [persisted.single terminal row member]
          simp
        rw [none]
        exact (Nat.zero_add _).le.trans (List.length_filter_le _ _)
      · have notKept :
            [event.row].filter (fun row => row.eventType.isTerminal) = [] :=
          List.filter_cons_of_neg terminal
        rw [notKept]
        exact holds.single

variable
  {start finish : RunTables}

/-- The log of a run only grows at its end. -/
theorem events_prefix
    {history : List StoreTransaction} (run : Run (StoreStep deps) start history finish) :
    start.events <+: finish.events := by
  induction run with
  | nil => exact List.prefix_refl _
  | snoc _ step ih =>
    refine ih.trans ?_
    rcases events_of_step step with same | ⟨event, ctx, rfl, persisted⟩
    · rw [same]
    · rw [persisted.appended]
      exact List.prefix_append _ _

/-- Of two accepted writes, the earlier one's row is stored when the later one
commits. -/
theorem stored_before
    {before between after : List StoreTransaction} {first second : DurableEvent}
    {firstCtx secondCtx : Option DurableWriteContext}
    (run : Run (StoreStep deps) start
      (before ++ .persisted first firstCtx ::
        (between ++ .persisted second secondCtx :: after)) finish) :
    ∃ opening reached following,
      Persisted deps opening first firstCtx reached ∧
      ∃ stored, Persisted deps stored second secondCtx following ∧
        reached.events <+: stored.events := by
  obtain ⟨opening, _, rest⟩ := run.split
  have firstRun : Run (StoreStep deps) opening
      ([.persisted first firstCtx] ++
        (between ++ .persisted second secondCtx :: after)) finish := rest
  obtain ⟨reached, firstStep, later⟩ := firstRun.split
  obtain ⟨stored, betweenRun, secondRest⟩ := later.split
  have secondRun : Run (StoreStep deps) stored
      ([.persisted second secondCtx] ++ after) finish := secondRest
  obtain ⟨following, secondStep, _⟩ := secondRun.split
  cases firstStep.step_of_singleton with
  | persisted firstAccepted =>
    cases secondStep.step_of_singleton with
    | persisted secondAccepted =>
      exact ⟨opening, reached, following, persisted_of_accepted firstAccepted,
        stored, persisted_of_accepted secondAccepted, events_prefix betweenRun⟩

/-- An event accepted later lies ahead of every earlier one. -/
theorem ahead_of_earlier
    {before between after : List StoreTransaction} {first second : DurableEvent}
    {firstCtx secondCtx : Option DurableWriteContext} {expected : Int}
    (run : Run (StoreStep deps) start
      (before ++ .persisted first firstCtx ::
        (between ++ .persisted second secondCtx :: after)) finish)
    (guarded : expectation secondCtx = some expected) :
    (first.sequenceNumber : Int) ≤ expected ∧
      expected < second.sequenceNumber := by
  obtain ⟨opening, reached, following, firstPersisted, stored, secondPersisted,
    grown⟩ := stored_before run
  obtain ⟨isLast, ahead⟩ := secondPersisted.guarded expected guarded
  have member : first.row ∈ stored.events :=
    grown.subset (by rw [firstPersisted.appended]; simp)
  have bound := le_lastSequenceNumber member
  rw [isLast] at bound
  exact ⟨bound, ahead⟩

/-- For every order of transactions of any processes on a run: the log never
holds two terminals, a sequence number is stored once, an accepted guarded
append is ahead of every stored row, guarded non-terminals are stored in
increasing order, and two guarded appends with the same expectation never both
commit. -/
theorem run_log_order
    {deps : RunHistoryStoreDeps} {workflowIds : List String} {history : List StoreTransaction}
    {tables : RunTables}
    (run : Run (StoreStep deps) (RunTables.empty workflowIds) history tables) :
    (tables.events.filter fun row => row.eventType.isTerminal).length ≤ 1 ∧
    (tables.events.map RunEventRow.seq).Nodup ∧
    (∀ event ctx next, StoreStep deps tables (.persisted event ctx) next →
      expectation ctx ≠ none →
      ∀ row ∈ tables.events, row.seq < event.sequenceNumber) ∧
    ((∀ event ctx, .persisted event ctx ∈ history →
        event.body.type.isTerminal = false → expectation ctx ≠ none) →
      ∀ before first firstCtx between second secondCtx after,
        history = before ++ .persisted first firstCtx ::
          (between ++ .persisted second secondCtx :: after) →
        first.body.type.isTerminal = false →
        second.body.type.isTerminal = false →
        first.sequenceNumber < second.sequenceNumber) ∧
    (∀ before first firstCtx between second secondCtx after,
      history = before ++ .persisted first firstCtx ::
        (between ++ .persisted second secondCtx :: after) →
      expectation firstCtx ≠ none →
      expectation firstCtx ≠ expectation secondCtx) := by
  have invariant : LogInvariant tables :=
    run.invariant (fun _ reached => LogInvariant reached) (logInvariant_empty workflowIds)
      (fun _ _ _ _ _ holds step => logInvariant_step holds step)
  refine ⟨invariant.single, invariant.distinct, ?_, ?_, ?_⟩
  · intro event ctx next step guarded row member
    obtain ⟨expected, isExpected⟩ := Option.ne_none_iff_exists'.mp guarded
    cases step with
    | persisted accepted =>
      obtain ⟨isLast, ahead⟩ :=
        (persisted_of_accepted accepted).guarded expected isExpected
      have bound := le_lastSequenceNumber member
      omega
  · rintro allGuarded before first firstCtx between second secondCtx after rfl _ notTerminal
    have guarded := allGuarded second secondCtx (by simp) notTerminal
    obtain ⟨expected, isExpected⟩ := Option.ne_none_iff_exists'.mp guarded
    obtain ⟨behind, ahead⟩ := ahead_of_earlier run isExpected
    omega
  · rintro before first firstCtx between second secondCtx after rfl guarded same
    obtain ⟨expected, isExpected⟩ := Option.ne_none_iff_exists'.mp guarded
    have behind := (ahead_of_earlier run (same ▸ isExpected)).1
    obtain ⟨opening, reached, following, firstPersisted, _⟩ := stored_before run
    have ahead := (firstPersisted.guarded expected isExpected).2
    omega

/-- A store of one catalogued workflow. -/
def exampleDeps : RunHistoryStoreDeps where
  definitionJson := "{}"
  projectRoot := none

/-- `run:started` of the catalogued workflow. -/
def startedEvent : DurableEvent where
  sequenceNumber := 0
  timestamp := 0
  body := .runStarted "w" (.object []) .local'

/-- `run:cancelled` of a run that spent nothing. -/
def cancelledEvent : DurableEvent where
  sequenceNumber := 3
  timestamp := 1
  body := .runCancelled none

/-- A write that expects the log to end at a number. -/
def guardedAt (expected : Int) : Option DurableWriteContext :=
  some { expectedLastSequenceNumber := some expected, fence := none }

/-- The run row of a started run. -/
def startedRow : RunRow where
  workflowId := "w"
  projectRoot := none
  workflowDefinitionSnapshot := "{}"
  status := .running
  executionMode := .local'
  triggerType := "manual"
  inputJson := .object []
  outputJson := none
  errorJson := none
  startedAt := some 0
  completedAt := none
  totalInputTokens := 0
  totalOutputTokens := 0
  totalCostMicrocents := 0
  createdAt := 0
  updatedAt := 0

/-- The tables of a started run. -/
def startedTables : RunTables where
  workflowIds := ["w"]
  run := some startedRow
  steps := []
  costs := []
  events := [startedEvent.row]
  lease := none

theorem startedEvent_accepted :
    persistEvent exampleDeps startedEvent (guardedAt (-1))
      (RunTables.empty ["w"]) = (.ok (), startedTables) := by
  decide

theorem run_log_order_cancelled :
    (([startedEvent.row, cancelledEvent.row].filter fun row =>
      row.eventType.isTerminal).length ≤ 1) := by
  have started : Run (StoreStep exampleDeps) (RunTables.empty ["w"])
      [.persisted startedEvent (guardedAt (-1))] startedTables :=
    .snoc .nil (.persisted startedEvent_accepted)
  have cancelled : Run (StoreStep exampleDeps) (RunTables.empty ["w"])
      [.persisted startedEvent (guardedAt (-1)), .persisted cancelledEvent none]
      {
        startedTables with
        run := some {
          startedRow with
          status := .cancelled
          completedAt := some 1
          updatedAt := 1 }
        events := [startedEvent.row, cancelledEvent.row] } :=
    .snoc started (.persisted (by decide))
  exact (run_log_order cancelled).1

end Relavium.Store
