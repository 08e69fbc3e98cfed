import Relavium.Budget.MoneyBarrier

/-!
# Where a failure goes

A failure that finds the slot empty is retained until one barrier throws it.  One
that finds another retained goes nowhere, and the durability stays broken.
-/

namespace Relavium.Budget
namespace Durability

open Library

/-- The failure an event raises for the barriers: that of a chained write, or of
an accounting. -/
def raised (money : MoneyDurability) : Event → Option Fault
  | .accountingFailure => some (.accounting money.accountings)
  | .handle operation =>
    money.operations[operation]?.bind fun given =>
      if given.stage = .settled false ∧ given.kind ≠ .beginUsageInvocation then
        some (.write operation)
      else none
  | _ => none

/-- How many callers are in the phase. -/
def phaseCount (money : MoneyDurability) (phase : CallerPhase) : Nat :=
  money.callers.countP fun caller => decide (caller.phase = phase)

/-- How many barriers have thrown the failure. -/
def thrownBy (money : MoneyDurability) (fault : Fault) : Nat :=
  phaseCount money (.thrown (.ledger fault))

/-- How often the failure is retained or has been thrown. -/
def held (money : MoneyDurability) (fault : Fault) : Nat :=
  (decide (money.failure = some fault)).toNat + thrownBy money fault

variable
  {money next : MoneyDurability}

theorem held_kept
    (fault : Fault) (failure : next.failure = money.failure)
    (callers : next.callers = money.callers) :
    held next fault = held money fault := by
  unfold held thrownBy phaseCount
  rw [failure, callers]

variable
  {changed : Nat}
  {begins : Bool}
  {before phase : CallerPhase}

theorem phaseCount_moved
    (counted : CallerPhase) (found : money.callers[changed]? = some { begins, phase := before })
    (waiting : before ≠ counted)
    (callers : next.callers = money.callers.modify changed fun given => { given with phase }) :
    phaseCount next counted =
      phaseCount money counted + (decide (phase = counted)).toNat := by
  have moved := countP_modify (fun caller : Caller => decide (caller.phase = counted))
    (fun given => { given with phase }) found
  simp only [decide_eq_false waiting, Bool.toNat_false, Nat.add_zero] at moved
  unfold phaseCount
  rw [callers, moved]

/-- A caller that changes its phase moves the fault it holds. -/
theorem held_moved
    (fault : Fault) (found : money.callers[changed]? = some { begins, phase := before })
    (waiting : ∀ error, before ≠ .thrown error) (quiet : ∀ error, phase ≠ .thrown (.ledger error))
    (failure : next.failure = money.failure)
    (callers : next.callers = money.callers.modify changed fun given => { given with phase }) :
    held next fault = held money fault := by
  unfold held thrownBy
  rw [phaseCount_moved _ found (waiting _) callers, decide_eq_false (quiet fault), failure]
  rfl

theorem observe_ne_thrown (money : MoneyDurability) (error : BarrierError) :
    money.observe ≠ .thrown error := by
  obtain waits | flushes := observe_cases money
  · rw [waits]
    exact CallerPhase.noConfusion
  · rw [flushes]
    exact CallerPhase.noConfusion

/-- A failure raised into an empty slot is held, and into a full one is not. -/
theorem held_failed
    {given : Fault} (fault : Fault) (failure : next.failure = money.failure.or (some given))
    (callers : next.callers = money.callers) :
    held next fault =
      held money fault +
        (decide (some given = some fault ∧ money.failure = none)).toNat := by
  unfold held thrownBy phaseCount
  rw [failure, callers]
  cases slot : money.failure with
  | none => simp [Nat.add_comm]
  | some retained => simp

variable
  {attached : Bool}
  {event : Event}

/-- A fault is held once more exactly when it is raised and none is retained. -/
theorem held_of_happens (fault : Fault) (happens : Happens attached money event next) :
    held next fault =
      held money fault +
        (decide (raised money event = some fault ∧ money.failure = none)).toNat := by
  have silent : raised money event = none → held next fault = held money fault →
      held next fault = held money fault +
        (decide (raised money event = some fault ∧ money.failure = none)).toNat := by
    intro nothing same
    simp [nothing, same]
  cases happens with
  | record | usageDisposition => exact silent rfl (held_kept fault rfl rfl)
  | accountingFailure => exact held_failed fault rfl rfl
  | call begins =>
    refine silent rfl ?_
    unfold held thrownBy phaseCount
    rw [List.countP_append]
    simp [observe_ne_thrown]
  | wake caller observed begins found settled =>
    exact silent rfl (held_moved fault found (fun _ => CallerPhase.noConfusion)
      (fun _ => CallerPhase.noConfusion) rfl rfl)
  | again caller observed begins found moved =>
    exact silent rfl (held_moved fault found (fun _ => CallerPhase.noConfusion)
      (fun _ => observe_ne_thrown money _) rfl rfl)
  | throw caller begins thrown found retained =>
    refine silent rfl ?_
    have counted : thrownBy ({ money with failure := none }.setPhase caller
        (.thrown (.ledger thrown))) fault = thrownBy money fault + _ :=
      phaseCount_moved _ found CallerPhase.noConfusion rfl
    unfold held
    rw [counted, retained]
    by_cases same : thrown = fault
    · simp [same, MoneyDurability.setPhase, Nat.add_comm]
    · simp [same, MoneyDurability.setPhase]
  | join caller begins found empty =>
    exact silent rfl (held_moved fault found (fun _ => CallerPhase.noConfusion)
      (fun _ => CallerPhase.noConfusion) rfl rfl)
  | conservative caller observed begins found =>
    refine silent rfl (held_moved fault found (fun _ => CallerPhase.noConfusion)
      (fun _ => ?_) rfl rfl)
    simp
  | resume caller found =>
    exact silent rfl (held_moved fault found (fun _ => CallerPhase.noConfusion)
      (fun _ => CallerPhase.noConfusion) rfl rfl)
  | start operation given stage found queued settled starts
  | settle operation given succeeded found running =>
    exact silent rfl (held_kept fault rfl rfl)
  | succeed operation given found settled =>
    exact silent (by simp [raised, found, settled]) (held_kept fault rfl rfl)
  | reject operation given found settled kind =>
    exact silent (by simp [raised, found, kind]) (held_kept fault rfl rfl)
  | fail operation given found settled kind =>
    have raises : raised money (.handle operation) = some (.write operation) := by
      simp [raised, found, settled, kind]
    rw [raises]
    exact held_failed fault rfl rfl
  | finish operation given result found handled =>
    exact silent rfl (held_kept fault rfl rfl)

/-! ## A failure is raised once -/

/-- The failure has been raised. -/
def Happened (money : MoneyDurability) : Fault → Prop
  | .write operation => ∃ given result, money.operations[operation]? = some given ∧
      (given.stage = .handled result ∨ given.stage = .done result)
  | .accounting call => call < money.accountings

variable
  {position : Nat}

/-- An operation that was handled stays handled. -/
theorem handled_of_effect
    {given : Operation} {result : OperationResult} (effect : OperationsEffect money next)
    (found : money.operations[position]? = some given)
    (handled : given.stage = .handled result ∨ given.stage = .done result) :
    ∃ later, next.operations[position]? = some later ∧ later.kind = given.kind ∧
      (later.stage = .handled result ∨ later.stage = .done result) := by
  cases effect with
  | kept operations inFlight pending =>
    exact ⟨given, operations ▸ found, rfl, handled⟩
  | chained kind operations inFlight pending =>
    refine ⟨given, ?_, rfl, handled⟩
    rw [operations, List.getElem?_append_left (List.getElem?_eq_some_iff.mp found).1]
    exact found
  | advanced changed other stage there advances queued operations inFlight pending =>
    by_cases same : changed = position
    · subst same
      obtain rfl := Option.some.inj (there.symm.trans found)
      refine ⟨{ other with stage }, ?_, rfl, .inr ?_⟩
      · rw [operations, List.getElem?_modify_eq, found]
        rfl
      · obtain ended | ended := handled
        · cases advances with
          | finish given was =>
            rw [was] at ended
            cases ended
            rfl
          | run was | detached was | refuse was | settle _ was | succeed was | fail was =>
            rw [was] at ended; cases ended
        · have undone := advances.not_done
          rw [ended] at undone
          cases undone
    · refine ⟨given, ?_, rfl, handled⟩
      rw [operations, List.getElem?_modify_ne _ _ same]
      exact found

theorem accountings_le (happens : Happens attached money event next) :
    money.accountings ≤ next.accountings := by
  cases happens with
  | accountingFailure => exact Nat.le_succ _
  | _ => exact Nat.le_refl _

variable
  {fault : Fault}

/-- What has happened stays so. -/
theorem happened_of_happens
    (happens : Happens attached money event next) (happened : Happened money fault) :
    Happened next fault := by
  cases fault with
  | write operation =>
    obtain ⟨given, result, found, handled⟩ := happened
    obtain ⟨later, there, -, still⟩ :=
      handled_of_effect (operations_effect happens) found handled
    exact ⟨later, result, there, still⟩
  | accounting call => exact Nat.lt_of_lt_of_le happened (accountings_le happens)

/-- A fault is raised by what had not happened before. -/
theorem happened_of_raised
    (happens : Happens attached money event next) (raises : raised money event = some fault) :
    ¬ Happened money fault ∧ Happened next fault := by
  cases happens with
  | accountingFailure =>
    cases raises
    exact ⟨Nat.lt_irrefl _, Nat.lt_succ_self _⟩
  | succeed operation given found settled => simp [raised, found, settled] at raises
  | reject operation given found settled kind => simp [raised, found, kind] at raises
  | fail operation given found settled kind =>
    obtain rfl : Fault.write operation = fault := by
      simpa [raised, found, settled, kind] using raises
    constructor
    · rintro ⟨other, result, there, ended⟩
      cases there.symm.trans found
      rw [settled] at ended
      obtain ended | ended := ended <;> cases ended
    · refine ⟨{ given with stage := .handled .failed }, .failed, ?_, .inl rfl⟩
      simp [MoneyDurability.fail, MoneyDurability.setStage, found]
  | _ => cases raises

variable
  {history : List Event}

variable {money : MoneyDurability}

/-- Only a failure that has been raised is held. -/
theorem held_eq_zero
    (run : Run (Step attached) initial history money) (fault : Fault)
    (fresh : ¬ Happened money fault) :
    held money fault = 0 := by
  refine run.invariant
    (fun _ money => ¬ Happened money fault → held money fault = 0) (fun _ => rfl)
    (fun _ money event next _ hypothesis step fresh => ?_) fresh
  have happens := happens_of_step step
  rw [held_of_happens fault happens,
    hypothesis fun happened => fresh (happened_of_happens happens happened)]
  have other : raised money event ≠ some fault := fun raises =>
    fresh (happened_of_raised happens raises).2
  simp [other]

/-- A failure that has been raised is held as often as it was. -/
theorem held_stays
    {money later : MoneyDurability} (run : Run (Step attached) money history later)
    (happened : Happened money fault) :
    held later fault = held money fault := by
  have both : Happened later fault ∧ held later fault = held money fault := by
    refine run.invariant
      (fun _ later => Happened later fault ∧ held later fault = held money fault)
      ⟨happened, rfl⟩ fun _ state event next _ hypothesis step => ?_
    have happens := happens_of_step step
    refine ⟨happened_of_happens happens hypothesis.1, ?_⟩
    have other : raised state event ≠ some fault := fun raises =>
      (happened_of_raised happens raises).1 hypothesis.1
    rw [held_of_happens fault happens, hypothesis.2]
    simp [other]
  exact both.2

/-- A failure is held once for good when the slot was empty, and never when not. -/
theorem held_of_raised
    {before after : List Event} {middle next later : MoneyDurability}
    (earlier : Run (Step attached) initial before middle) (step : Step attached middle event next)
    (rest : Run (Step attached) next after later) (raises : raised middle event = some fault) :
    held later fault = (decide (middle.failure = none)).toNat := by
  have happens := happens_of_step step
  have fresh := happened_of_raised happens raises
  rw [held_stays rest fresh.2, held_of_happens fault happens, held_eq_zero earlier fault fresh.1]
  simp [raises]

/-! ## The failure of an invocation -/

/-- The fault of a write belongs to an operation that is no invocation. -/
theorem write_of_held
    (run : Run (Step attached) initial history money) (isHeld : held money (.write position) ≠ 0) :
    ∃ operation : Operation, money.operations[position]? = some operation ∧
      operation.kind ≠ .beginUsageInvocation := by
  refine run.invariant
    (fun _ money => held money (.write position) ≠ 0 →
      ∃ operation : Operation, money.operations[position]? = some operation ∧
        operation.kind ≠ .beginUsageInvocation)
    (fun isHeld => absurd rfl isHeld)
    (fun _ money event next _ hypothesis step isHeld => ?_) isHeld
  have happens := happens_of_step step
  have stays : ∀ operation : Operation, money.operations[position]? = some operation →
      operation.kind ≠ .beginUsageInvocation →
      ∃ later : Operation, next.operations[position]? = some later ∧
        later.kind ≠ .beginUsageInvocation := by
    intro operation found write
    obtain ⟨later, there, kind⟩ := (operations_effect happens).kind_eq found
    exact ⟨later, there, kind ▸ write⟩
  by_cases before : held money (.write position) = 0
  · rw [held_of_happens _ happens, before] at isHeld
    have raises : raised money event = some (.write position) := by
      by_contra other
      simp [other] at isHeld
    cases happens with
    | accountingFailure => cases raises
    | succeed operation given found settled => simp [raised, found, settled] at raises
    | reject operation given found settled kind => simp [raised, found, kind] at raises
    | fail operation given found settled kind =>
      obtain rfl : operation = position := by
        simpa [raised, found, settled, kind] using raises
      exact stays given found kind
    | _ => cases raises
  · obtain ⟨operation, found, write⟩ := hypothesis before
    exact stays operation found write

/-- No caller holds the fault of an invocation as that of a write. -/
theorem held_begin
    {operation : Operation} (run : Run (Step attached) initial history money)
    (found : money.operations[position]? = some operation)
    (begins : operation.kind = .beginUsageInvocation) :
    held money (.write position) = 0 := by
  by_contra isHeld
  obtain ⟨other, there, write⟩ := write_of_held run isHeld
  cases there.symm.trans found
  exact write begins

/-- Whether the operation at a position is an invocation. -/
def isInvocation (money : MoneyDurability) (position : Nat) : Bool :=
  decide (money.operations[position]?.map Operation.kind = some .beginUsageInvocation)

/-- Every invocation was chained for one call. -/
def Owned (money : MoneyDurability) : Prop :=
  ∀ position, phaseCount money (.chained position) = (isInvocation money position).toNat

theorem isInvocation_chain (money : MoneyDurability) (kind : OperationKind) (position : Nat) :
    (isInvocation (money.chain kind) position).toNat =
      (isInvocation money position).toNat +
        (decide (money.operations.length = position ∧
          kind = .beginUsageInvocation)).toNat := by
  unfold isInvocation MoneyDurability.chain
  by_cases inside : position < money.operations.length
  · have other : money.operations.length ≠ position := by omega
    simp [List.getElem?_append_left inside, other]
  · have absent : money.operations[position]? = none := List.getElem?_eq_none (by omega)
    by_cases last : money.operations.length = position
    · subst last
      simp
    · have beyond : (money.operations ++
          [{ kind, after := money.inFlight, stage := .queued }])[position]? = none :=
        List.getElem?_eq_none (by simp; omega)
      simp [absent, beyond, last]

theorem isInvocation_setStage
    {stage : Stage} (position : Nat)
    (operations : next.operations = (money.setStage changed stage).operations) :
    isInvocation next position = isInvocation money position := by
  unfold isInvocation
  rw [operations, MoneyDurability.setStage, List.getElem?_modify]
  cases money.operations[position]? with
  | none => rfl
  | some given =>
    by_cases same : changed = position
    · simp [same]
    · simp [same]

theorem Owned.chain
    {kind : OperationKind} (owned : Owned money) (write : kind ≠ .beginUsageInvocation) :
    Owned (money.chain kind) := by
  intro position
  rw [isInvocation_chain, ← owned position]
  simp [write, phaseCount, MoneyDurability.chain]

/-- A caller that waits for its own invocation may change its phase. -/
theorem Owned.moved
    (owned : Owned money) (found : money.callers[changed]? = some { begins, phase := before })
    (unchained : ∀ operation, before ≠ .chained operation)
    (quiet : ∀ operation, phase ≠ .chained operation)
    (operations : next.operations = money.operations)
    (callers : next.callers = money.callers.modify changed fun given => { given with phase }) :
    Owned next := by
  intro position
  rw [phaseCount_moved _ found (unchained _) callers, decide_eq_false (quiet position),
    owned position]
  unfold isInvocation
  rw [operations]
  rfl

theorem Owned.advanced
    {stage : Stage} (owned : Owned money)
    (operations : next.operations = (money.setStage changed stage).operations)
    (callers : next.callers = money.callers) :
    Owned next := by
  intro position
  rw [isInvocation_setStage position operations, ← owned position]
  unfold phaseCount
  rw [callers]

theorem observe_ne_chained (money : MoneyDurability) (operation : Nat) :
    money.observe ≠ .chained operation := by
  obtain waits | flushes := observe_cases money
  · rw [waits]
    exact CallerPhase.noConfusion
  · rw [flushes]
    exact CallerPhase.noConfusion

/-- An event chains an invocation for the call it resumes. -/
theorem owned_of_happens (happens : Happens attached money event next) (owned : Owned money) :
    Owned next := by
  cases happens with
  | record | usageDisposition => exact owned.chain OperationKind.noConfusion
  | accountingFailure => exact owned
  | call begins =>
    intro position
    refine Eq.trans ?_ (owned position)
    unfold phaseCount
    rw [List.countP_append]
    simp [observe_ne_chained]
  | wake caller observed begins found settled =>
    exact owned.moved found (fun _ => CallerPhase.noConfusion)
      (fun _ => CallerPhase.noConfusion) rfl rfl
  | again caller observed begins found moved =>
    exact owned.moved found (fun _ => CallerPhase.noConfusion) (observe_ne_chained money) rfl rfl
  | throw caller begins thrown found retained | join caller begins found empty
  | conservative caller observed begins found =>
    exact owned.moved found (fun _ => CallerPhase.noConfusion)
      (fun _ => CallerPhase.noConfusion) rfl rfl
  | resume caller found =>
    intro position
    have counted : phaseCount ((money.chain .beginUsageInvocation).setPhase caller
        (.chained money.operations.length)) (.chained position) =
        phaseCount money (.chained position) + _ :=
      phaseCount_moved _ found CallerPhase.noConfusion rfl
    refine counted.trans ?_
    rw [owned position]
    refine Eq.trans ?_ (isInvocation_chain money .beginUsageInvocation position).symm
    simp
  | start operation given stage found queued settled starts
  | settle operation given succeeded found running | succeed operation given found settled
  | reject operation given found settled kind | fail operation given found settled kind
  | finish operation given result found handled => exact owned.advanced rfl rfl

/-- In every run each invocation has one caller. -/
theorem owned_of_run (run : Run (Step attached) initial history money) :
    Owned money :=
  run.invariant (fun _ money => Owned money) (fun _ => rfl)
    fun _ _ _ _ _ owned step => owned_of_happens (happens_of_step step) owned

end Durability
end Relavium.Budget
