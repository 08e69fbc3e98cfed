import Relavium.Budget.MoneyFaults

/-!
# No invocation after a failure

Once a write has failed, no invocation that has not started does.  The check in
the queue is what refuses one whose caller had passed the barrier before.
-/

namespace Relavium.Budget
namespace Durability

open Library

/-- The callback has failed. -/
def Stage.failed : Stage → Bool
  | .settled succeeded => !succeeded
  | .handled .failed => true
  | .done .failed => true
  | _ => false

/-- The callback has been called. -/
def Stage.started : Stage → Bool
  | .queued => false
  | .handled .refused => false
  | .done .refused => false
  | _ => true

/-- A callback has failed, or an accounting was reported to have. -/
def Failed (money : MoneyDurability) : Prop :=
  0 < money.accountings ∨
    ∃ (position : Nat) (operation : Operation),
      money.operations[position]? = some operation ∧ operation.stage.failed = true

/-- The failures that have been handled have broken the durability. -/
structure Sticky (money : MoneyDurability) : Prop where
  accounting : 0 < money.accountings → money.broken = true
  failed : ∀ (position : Nat) (operation : Operation),
    money.operations[position]? = some operation →
    operation.stage = .handled .failed ∨ operation.stage = .done .failed →
    money.broken = true

variable
  {money next : MoneyDurability}

theorem Sticky.kept
    (sticky : Sticky money) (accountings : next.accountings = money.accountings)
    (operations : next.operations = money.operations) (broken : next.broken = money.broken) :
    Sticky next := by
  refine ⟨?_, ?_⟩
  · rw [accountings, broken]
    exact sticky.accounting
  · rw [operations, broken]
    exact sticky.failed

theorem Sticky.chained {money : MoneyDurability} (sticky : Sticky money) (kind : OperationKind) :
    Sticky (money.chain kind) := by
  refine ⟨sticky.accounting, fun position operation found ended => ?_⟩
  obtain before | ⟨-, rfl⟩ := getElem?_append_singleton_eq_some found
  · exact sticky.failed position operation before ended
  · obtain ended | ended := ended <;> cases ended

/-- An operation that fails breaks the money as it is handled. -/
theorem Sticky.advanced
    {changed : Nat} {stage : Stage} (sticky : Sticky money)
    (accountings : next.accountings = money.accountings)
    (operations : next.operations = (money.setStage changed stage).operations)
    (broken : next.broken = money.broken)
    (whole : ∀ given, money.operations[changed]? = some given →
      stage = .handled .failed ∨ stage = .done .failed → money.broken = true) :
    Sticky next := by
  refine ⟨?_, fun position operation found ended => ?_⟩
  · rw [accountings, broken]
    exact sticky.accounting
  · rw [operations] at found
    rw [broken]
    obtain ⟨-, given, there, rfl⟩ | ⟨-, unchanged⟩ := getElem?_modify_eq_some found
    · exact whole given there ended
    · exact sticky.failed position operation unchanged ended

theorem Sticky.of_broken {money : MoneyDurability} (broken : money.broken = true) :
    Sticky money :=
  ⟨fun _ => broken, fun _ _ _ _ => broken⟩

variable
  {attached : Bool}
  {event : Event}

/-- An event keeps the durability broken by what has failed. -/
theorem sticky_of_happens (happens : Happens attached money event next) (sticky : Sticky money) :
    Sticky next := by
  cases happens with
  | record => exact sticky.chained .record
  | usageDisposition => exact sticky.chained .usageDisposition
  | accountingFailure => exact .of_broken rfl
  | call begins | wake caller observed begins found settled
  | again caller observed begins found moved | throw caller begins fault found retained
  | join caller begins found empty | conservative caller observed begins found =>
    exact sticky.kept rfl rfl rfl
  | resume caller found =>
    exact (sticky.chained .beginUsageInvocation).kept rfl rfl rfl
  | start operation given stage found queued settled starts =>
    refine sticky.advanced rfl rfl rfl fun _ _ ended => ?_
    generalize given.kind = kind at starts
    obtain rfl | rfl := ended <;> cases starts
  | settle operation given succeeded found running | succeed operation given found settled =>
    refine sticky.advanced rfl rfl rfl fun _ _ ended => ?_
    obtain ended | ended := ended <;> cases ended
  | reject operation given found settled kind | fail operation given found settled kind =>
    exact .of_broken rfl
  | finish operation given result found handled =>
    refine sticky.advanced rfl rfl rfl fun other there ended => ?_
    obtain rfl := Option.some.inj (there.symm.trans found)
    obtain ended | ended := ended
    · cases ended
    · cases ended
      exact sticky.failed operation other found (.inl handled)

/-- In every run a failure leaves the money broken. -/
theorem sticky_of_run
    {history : List Event} {money : MoneyDurability}
    (run : Run (Step attached) initial history money) :
    Sticky money :=
  run.invariant (fun _ money => Sticky money)
    ⟨fun positive => absurd positive (Nat.lt_irrefl 0),
      fun position operation found => by simp [initial] at found⟩
    fun _ _ _ _ _ sticky step => sticky_of_happens (happens_of_step step) sticky

variable
  {position : Nat}

variable {money : MoneyDurability}

/-- When an operation is about to leave the queue, a failure has been handled:
that of a callback which has just settled would still hold the queue. -/
theorem broken_of_failed
    {given : Operation} (chained : Chained money) (sticky : Sticky money) (failed : Failed money)
    (found : money.operations[position]? = some given) (queued : given.stage = .queued)
    (settled : money.tailSettled given.after = true) :
    money.broken = true := by
  obtain positive | ⟨other, operation, there, bad⟩ := failed
  · exact sticky.accounting positive
  · rw [chained.after position given found] at settled
    have before := chained.doneBefore_of_tailSettled settled
    have left : operation.stage ≠ .queued := fun isQueued => by
      rw [isQueued] at bad
      cases bad
    have notLater : ¬ position < other := fun later => by
      have done := chained.inOrder other operation there left position given later found
      rw [queued] at done
      cases done
    have notSame : other ≠ position := fun same => by
      subst same
      cases there.symm.trans found
      exact left queued
    have done := before other operation (by omega) there
    refine sticky.failed other operation there (.inr ?_)
    cases stage : operation.stage with
    | done result =>
      rw [stage] at bad
      cases result with
      | failed => rfl
      | succeeded | refused => cases bad
    | queued | running | settled succeeded | handled result => rw [stage] at done; cases done

/-- A failure is never undone. -/
theorem failed_of_happens (happens : Happens attached money event next) (failed : Failed money) :
    Failed next := by
  obtain positive | ⟨position, operation, found, bad⟩ := failed
  · exact .inl (Nat.lt_of_lt_of_le positive (accountings_le happens))
  · refine .inr ?_
    cases operations_effect happens with
    | kept operations inFlight pending =>
      exact ⟨position, operation, operations ▸ found, bad⟩
    | chained kind operations inFlight pending =>
      refine ⟨position, operation, ?_, bad⟩
      rw [operations, List.getElem?_append_left (List.getElem?_eq_some_iff.mp found).1]
      exact found
    | advanced changed given stage there advances queued operations inFlight pending =>
      by_cases same : changed = position
      · subst same
        obtain rfl := Option.some.inj (there.symm.trans found)
        refine ⟨changed, { given with stage }, ?_, ?_⟩
        · rw [operations, List.getElem?_modify_eq, found]
          rfl
        · cases advances with
          | run was | detached was | refuse was | settle succeeded was | succeed was =>
            rw [was] at bad; cases bad
          | fail was => rfl
          | finish result was =>
            rw [was] at bad
            cases result with
            | failed => rfl
            | succeeded | refused => cases bad
      · refine ⟨position, operation, ?_, bad⟩
        rw [operations, List.getElem?_modify_ne _ _ same]
        exact found

/-- The invocation at a position has been started. -/
def InvocationStarted (money : MoneyDurability) (position : Nat) : Prop :=
  ∃ operation : Operation, money.operations[position]? = some operation ∧
    operation.kind = .beginUsageInvocation ∧ operation.stage.started = true

/-- A chained operation has not started. -/
theorem not_started_chain
    {kind : OperationKind} (operations : next.operations = (money.chain kind).operations)
    (started : InvocationStarted next position) :
    InvocationStarted money position := by
  obtain ⟨operation, found, begins, went⟩ := started
  rw [operations] at found
  obtain before | ⟨-, rfl⟩ := getElem?_append_singleton_eq_some found
  · exact ⟨operation, before, begins, went⟩
  · cases went

theorem started_before_stage
    {changed position : Nat} {given : Operation} {stage : Stage}
    (operations : next.operations = (money.setStage changed stage).operations)
    (found : money.operations[changed]? = some given)
    (went : given.kind = .beginUsageInvocation → stage.started = true →
      given.stage.started = true)
    (started : InvocationStarted next position) :
    InvocationStarted money position := by
  obtain ⟨operation, there, begins, starts⟩ := started
  rw [operations] at there
  obtain ⟨rfl, other, otherThere, rfl⟩ | ⟨-, unchanged⟩ := getElem?_modify_eq_some there
  · obtain rfl := Option.some.inj (otherThere.symm.trans found)
    exact ⟨other, found, begins, went begins starts⟩
  · exact ⟨operation, unchanged, begins, starts⟩

/-- After a failure no invocation starts. -/
theorem started_of_happens
    (chained : Chained money) (sticky : Sticky money) (failed : Failed money)
    (happens : Happens attached money event next) (started : InvocationStarted next position) :
    InvocationStarted money position := by
  cases happens with
  | record | usageDisposition => exact not_started_chain rfl started
  | accountingFailure | call begins | wake caller observed begins found settled
  | again caller observed begins found moved | throw caller begins fault found retained
  | join caller begins found empty | conservative caller observed begins found => exact started
  | resume caller found => exact not_started_chain rfl started
  | start operation given stage found queued settled starts =>
    refine started_before_stage rfl found (fun kind went => ?_) started
    -- Only the check in the queue stands between a queued invocation and its callback.
    have broken := broken_of_failed chained sticky failed found queued settled
    rw [kind] at starts
    cases starts with
    | begin attachment whole =>
      rw [broken] at whole
      cases whole
    | refuse reason => cases went
  | settle operation given succeeded found running =>
    exact started_before_stage rfl found (fun _ _ => by rw [running]; rfl) started
  | succeed operation given found settled | reject operation given found settled kind
  | fail operation given found settled kind =>
    exact started_before_stage rfl found (fun _ _ => by rw [settled]; rfl) started
  | finish operation given result found handled =>
    refine started_before_stage rfl found (fun _ went => ?_) started
    rw [handled]
    cases result with
    | refused => cases went
    | succeeded | failed => rfl

/-- Nor does one start in any run from there on. -/
theorem started_of_run
    {history continuation : List Event} {money later : MoneyDurability}
    (earlier : Run (Step attached) initial history money)
    (run : Run (Step attached) money continuation later) (failed : Failed money)
    (started : InvocationStarted later position) :
    InvocationStarted money position := by
  have both : Failed later ∧ ∀ position, InvocationStarted later position →
      InvocationStarted money position := by
    refine run.invariant
      (fun _ later => Failed later ∧ ∀ position, InvocationStarted later position →
        InvocationStarted money position)
      ⟨failed, fun _ same => same⟩ fun taken state event next before hypothesis step => ?_
    have happens := happens_of_step step
    have whole := earlier.append before
    exact ⟨failed_of_happens happens hypothesis.1, fun position went =>
      hypothesis.2 position (started_of_happens (chained_of_run whole)
        (sticky_of_run whole) hypothesis.1 happens went)⟩
  exact both.2 position started

/-! ## When nothing is left to run -/

/-- A call from outside. -/
def Event.isCall : Event → Bool
  | .record => true
  | .usageDisposition => true
  | .accountingFailure => true
  | .call _ => true
  | _ => false

/-- No job is left and no callback runs. -/
def Quiet (attached : Bool) (money : MoneyDurability) : Prop :=
  ∀ event next, Step attached money event next → event.isCall = true

/-- When money is quiet, no job can go on. -/
theorem Quiet.stuck (quiet : Quiet attached money) (event : Event) (job : event.isCall = false) :
    apply attached money event = none := by
  cases taken : apply attached money event with
  | none => rfl
  | some next =>
    rw [quiet event next taken] at job
    cases job

/-- With no job left every operation is done. -/
theorem Quiet.doneBefore (quiet : Quiet attached money) (chained : Chained money) (bound : Nat) :
    DoneBefore money bound := by
  induction bound with
  | zero => exact fun position _ before => absurd before (Nat.not_lt_zero position)
  | succ bound ih =>
    intro position operation before found
    by_cases earlier : position < bound
    · exact ih position operation earlier found
    · obtain rfl : position = bound := by omega
      obtain ⟨kind, after, stage⟩ := operation
      cases stage with
      | queued =>
        have stuck := quiet.stuck (.start position) rfl
        obtain rfl : after = position := chained.after position _ found
        have settled := tailSettled_of_doneBefore (List.getElem?_eq_some_iff.mp found).1.le ih
        simp [apply, found, settled] at stuck
      | running =>
        have stuck := quiet.stuck (.settle position true) rfl
        simp [apply, found] at stuck
      | settled succeeded =>
        have stuck := quiet.stuck (.handle position) rfl
        simp [apply, found] at stuck
      | handled result =>
        have stuck := quiet.stuck (.finish position) rfl
        simp [apply, found] at stuck
      | done result => rfl

/-- A call of `beginUsageInvocation` is rejected: its barrier has thrown, or the
queue has refused it. -/
def Rejected (money : MoneyDurability) (phase : CallerPhase) : Prop :=
  (∃ error, phase = .thrown error) ∨
    ∃ operation given, phase = .chained operation ∧
      money.operations[operation]? = some given ∧ given.stage = .done .refused

/-- With no job left every call of `beginUsageInvocation` is rejected whose
invocation has not been started. -/
theorem Quiet.rejected
    (quiet : Quiet attached money) (chained : Chained money) (watched : Watched money)
    {phase : CallerPhase} (found : money.callers[position]? = some { begins := true, phase }) :
    Rejected money phase ∨
      ∃ operation, phase = .chained operation ∧ InvocationStarted money operation := by
  have sound := watched position _ found
  cases phase with
  | awaiting observed =>
    have settled := tailSettled_of_doneBefore sound (quiet.doneBefore chained observed)
    have stuck := quiet.stuck (.wake position) rfl
    simp [apply, found, settled] at stuck
  | flushing observed =>
    have stuck := quiet.stuck (.flushed position true) rfl
    simp [apply, found] at stuck
  | joined =>
    have stuck := quiet.stuck (.resume position) rfl
    simp [apply, found] at stuck
  | thrown error => exact .inl (.inl ⟨error, rfl⟩)
  | chained operation =>
    obtain ⟨given, there, begins⟩ := sound
    have done := quiet.doneBefore chained (operation + 1) operation given
      (Nat.lt_succ_self operation) there
    by_cases went : given.stage.started = true
    · exact .inr ⟨operation, rfl, given, there, begins, went⟩
    · refine .inl (.inr ⟨operation, given, rfl, there, ?_⟩)
      cases stage : given.stage with
      | done result =>
        rw [stage] at went
        cases result with
        | refused => rfl
        | succeeded | failed => exact absurd rfl went
      | queued | running | settled succeeded | handled result => rw [stage] at done; cases done

/-- What holds of the barrier after a run. -/
structure MoneyBarrier (attached : Bool) (history : List Event)
    (money : MoneyDurability) : Prop where
  /-- A callback has been called only when all that was chained before is done. -/
  inOrder : InOrder money
  /-- A barrier resolves when every operation is done, with nothing retained. -/
  joins : ∀ event next caller, Step attached money event next →
    Enters money next caller .joined →
    money.failure = none ∧ ∀ operation ∈ next.operations, operation.stage.isDone = true
  /-- A barrier throws a failure that is retained, and clears it. -/
  throws : ∀ event next caller fault, Step attached money event next →
    Enters money next caller (.thrown (.ledger fault)) →
    money.failure = some fault ∧ next.failure = none
  /-- A failure raised into an empty slot is retained or has been thrown by one
  barrier; one raised while another is retained is thrown by none. -/
  failures : ∀ before event after middle next fault,
    history = before ++ event :: after →
    Run (Step attached) initial before middle →
    Step attached middle event next →
    Run (Step attached) next after money →
    raised middle event = some fault →
    held money fault = (decide (middle.failure = none)).toNat
  /-- The failure of an invocation is thrown by no barrier: the one call it was
  chained for awaits it. -/
  begins : ∀ (position : Nat) (operation : Operation),
    money.operations[position]? = some operation →
    operation.kind = .beginUsageInvocation →
    held money (.write position) = 0 ∧ phaseCount money (.chained position) = 1
  /-- After a failure no invocation is started. -/
  refuses : Failed money → ∀ continuation later position,
    Run (Step attached) money continuation later →
    InvocationStarted later position → InvocationStarted money position
  /-- When no job is left after a failure, a call whose invocation had not been
  started is rejected. -/
  rejects : Failed money → ∀ continuation later (caller : Nat) phase,
    Run (Step attached) money continuation later →
    Quiet attached later →
    later.callers[caller]? = some { begins := true, phase } →
    Rejected later phase ∨
      ∃ operation, phase = .chained operation ∧ InvocationStarted money operation

/-- No provider call outruns a broken ledger. -/
theorem money_barrier
    {attached : Bool} {history : List Event} (run : Run (Step attached) initial history money) :
    MoneyBarrier attached history money where
  inOrder := (chained_of_run run).inOrder
  joins _ _ _ step joins := done_of_joins (chained_of_run run) (watched_of_run run) step joins
  throws _ _ _ _ step throws := retained_of_throws step throws
  failures _ _ _ _ _ _ _ earlier step rest raises := held_of_raised earlier step rest raises
  begins position operation found begins := by
    refine ⟨held_begin run found begins, ?_⟩
    rw [owned_of_run run position]
    simp [isInvocation, found, begins]
  refuses failed _ _ _ continues started := started_of_run run continues failed started
  rejects failed _ later caller phase continues quiet found := by
    have whole := run.append continues
    obtain rejected | ⟨operation, chained, started⟩ :=
      quiet.rejected (chained_of_run whole) (watched_of_run whole) found
    · exact .inl rejected
    · exact .inr ⟨operation, chained, started_of_run run continues failed started⟩

/-- A call passes its barrier, a write fails behind it, and the queue refuses it. -/
def crossedBarrier : List Event :=
  [.call true, .flushed 0 true, .record, .resume 0, .start 0, .settle 0 false, .handle 0,
    .finish 0, .start 1, .finish 1]

theorem money_barrier_crossed :
    ∃ money, crossedBarrier.foldlM (apply true) initial = some money ∧
      money.operations[1]?.map Operation.stage = some (.done .refused) ∧
      MoneyBarrier true crossedBarrier money :=
  ⟨_, rfl, rfl, money_barrier (Run.of_foldlM rfl)⟩

/-- Two writes fail, one barrier throws the first failure and the next one
resolves. -/
def twoFailures : List Event :=
  [.record, .record, .start 0, .settle 0 false, .handle 0, .finish 0, .start 1,
    .settle 1 false, .handle 1, .finish 1, .call false, .wake 0, .flushed 0 true,
    .call false, .flushed 1 true]

/-- A failure that finds another retained is thrown by no barrier. -/
theorem second_failure_unthrown :
    ∃ money, Run (Step true) initial twoFailures money ∧
      money.operations[1]?.map Operation.stage = some (.done .failed) ∧
      money.callers[1]?.map Caller.phase = some .joined ∧
      ∀ continuation later, Run (Step true) money continuation later →
        thrownBy later (.write 1) = 0 := by
  refine ⟨_, Run.of_foldlM rfl, rfl, rfl, fun continuation later run => ?_⟩
  have kept : held later (.write 1) = held _ (.write 1) :=
    held_stays run ⟨_, .failed, rfl, .inr rfl⟩
  exact Nat.eq_zero_of_add_eq_zero_left (kept.trans (by decide))

end Durability
end Relavium.Budget
