import Mathlib.Order.Nat
import Relavium.Library.Counting
import Relavium.Budget.MoneyDurabilityEffect

/-!
# The chain and the barrier

The chained operations run one at a time, in the order in which they were
chained, and a barrier that has seen the same tail before and after its waits has
seen every operation done.
-/

namespace Relavium.Budget
namespace Durability

open Library

/-- Every operation chained before the bound is done. -/
def DoneBefore (money : MoneyDurability) (bound : Nat) : Prop :=
  ∀ position operation, position < bound →
    money.operations[position]? = some operation → operation.stage.isDone = true

/-- An operation leaves the queue when those chained before it are done. -/
def InOrder (money : MoneyDurability) : Prop :=
  ∀ position operation, money.operations[position]? = some operation →
    operation.stage ≠ .queued → DoneBefore money position

/-- The chain of operations. -/
structure Chained (money : MoneyDurability) : Prop where
  counted : money.inFlight = money.operations.length
  after : ∀ (position : Nat) (operation : Operation),
    money.operations[position]? = some operation → operation.after = position
  outstanding : money.pending = (money.operations.countP fun operation => !operation.stage.isDone)
  inOrder : InOrder money

theorem chained_initial : Chained initial where
  counted := rfl
  after position operation found := by simp [initial] at found
  outstanding := rfl
  inOrder position operation found := by simp [initial] at found

/-- A settled tail has everything before it done. -/
theorem Chained.doneBefore_of_tailSettled
    {money : MoneyDurability} (chained : Chained money) {tail : Nat}
    (settled : money.tailSettled tail = true) :
    DoneBefore money tail := by
  cases tail with
  | zero =>
    intro position operation before found
    exact absurd before (Nat.not_lt_zero position)
  | succ last =>
    intro position operation before found
    obtain ⟨final, there, done⟩ : ∃ final, money.operations[last]? = some final ∧
        final.stage.isDone = true := by
      simpa [MoneyDurability.tailSettled, Option.any_eq_true] using settled
    by_cases same : position = last
    · subst same
      cases found.symm.trans there
      exact done
    · refine chained.inOrder last final there (fun queued => ?_) position operation
        (by omega) found
      rw [queued] at done
      cases done

/-- The tail is settled once everything before it is done. -/
theorem tailSettled_of_doneBefore
    {money : MoneyDurability} {tail : Nat} (bounded : tail ≤ money.operations.length)
    (done : DoneBefore money tail) :
    money.tailSettled tail = true := by
  cases tail with
  | zero => rfl
  | succ last =>
    have found := List.getElem?_eq_getElem (Nat.lt_of_succ_le bounded)
    simpa [MoneyDurability.tailSettled, found] using done last _ (Nat.lt_succ_self last) found

variable
  {money next : MoneyDurability}

/-- What is done stays done. -/
theorem doneBefore_of_effect
    {bound : Nat} (effect : OperationsEffect money next)
    (bounded : bound ≤ money.operations.length) (done : DoneBefore money bound) :
    DoneBefore next bound := by
  intro position operation before found
  cases effect with
  | kept operations inFlight pending =>
    rw [operations] at found
    exact done position operation before found
  | chained kind operations inFlight pending =>
    rw [operations, List.getElem?_append_left (by omega)] at found
    exact done position operation before found
  | advanced changed given stage there advances queued operations inFlight pending =>
    rw [operations] at found
    obtain ⟨rfl, other, otherThere, -⟩ | ⟨different, unchanged⟩ :=
      getElem?_modify_eq_some found
    · obtain rfl := Option.some.inj (otherThere.symm.trans there)
      have undone := advances.not_done
      rw [done position other before there] at undone
      cases undone
    · exact done position operation before unchanged

/-- Operations go on starting after the ones before them are done. -/
theorem chained_of_effect (effect : OperationsEffect money next) (chained : Chained money) :
    Chained next := by
  have keeps := fun bound => @doneBefore_of_effect money next bound effect
  have bounded : ∀ {position : Nat} {operation : Operation},
      money.operations[position]? = some operation →
      position ≤ money.operations.length := fun found =>
    (List.getElem?_eq_some_iff.mp found).1.le
  cases effect with
  | kept operations inFlight pending =>
    refine ⟨by rw [inFlight, operations, chained.counted], ?_,
      by rw [pending, operations, chained.outstanding], ?_⟩
    · rw [operations]
      exact chained.after
    · intro position operation found left
      rw [operations] at found
      exact keeps _ (bounded found) (chained.inOrder position operation found left)
  | chained kind operations inFlight pending =>
    refine ⟨by rw [inFlight, operations]; simp, ?_, ?_, ?_⟩
    · intro position operation found
      rw [operations] at found
      obtain before | ⟨rfl, rfl⟩ := getElem?_append_singleton_eq_some found
      · exact chained.after position operation before
      · exact chained.counted
    · rw [pending, operations, chained.outstanding, List.countP_append]
      simp [Stage.isDone]
    · intro position operation found left
      rw [operations] at found
      obtain before | ⟨rfl, rfl⟩ := getElem?_append_singleton_eq_some found
      · exact keeps _ (bounded before) (chained.inOrder position operation before left)
      · exact absurd rfl left
  | advanced changed given stage there advances queued operations inFlight pending =>
    refine ⟨by rw [inFlight, operations, List.length_modify, chained.counted], ?_, ?_, ?_⟩
    · intro position operation found
      rw [operations] at found
      obtain ⟨rfl, other, otherThere, rfl⟩ | ⟨-, unchanged⟩ :=
        getElem?_modify_eq_some found
      · exact chained.after position other otherThere
      · exact chained.after position operation unchanged
    · have counted := countP_modify (fun operation : Operation => !operation.stage.isDone)
        (fun given => { given with stage }) there
      rw [pending, operations, chained.outstanding]
      rw [advances.not_done] at counted
      cases done : stage.isDone with
      | false =>
        rw [done] at counted
        simp only [Bool.not_false, Bool.toNat_true] at counted
        simp only [Bool.toNat_false]
        omega
      | true =>
        rw [done] at counted
        simp only [Bool.not_false, Bool.toNat_true, Bool.not_true, Bool.toNat_false] at counted
        simp only [Bool.toNat_true]
        omega
    · intro position operation found left
      rw [operations] at found
      obtain ⟨rfl, other, otherThere, rfl⟩ | ⟨-, unchanged⟩ :=
        getElem?_modify_eq_some found
      · obtain rfl := Option.some.inj (otherThere.symm.trans there)
        refine keeps _ (bounded there) ?_
        by_cases isQueued : other.stage = .queued
        · have settled := queued isQueued
          rw [chained.after position other there] at settled
          exact chained.doneBefore_of_tailSettled settled
        · exact chained.inOrder position other there isQueued
      · exact keeps _ (bounded unchanged) (chained.inOrder position operation unchanged left)

variable
  {attached : Bool}

/-- In every run an operation starts when those before it are done. -/
theorem chained_of_run
    {history : List Event} {money : MoneyDurability}
    (run : Run (Step attached) initial history money) :
    Chained money :=
  run.invariant (fun _ money => Chained money) chained_initial
    fun _ _ _ _ _ chained step =>
      chained_of_effect (operations_effect (happens_of_step step)) chained

/-! ## The callers -/

/-- What the phase of a caller says about the chain. -/
def PhaseSound (money : MoneyDurability) : CallerPhase → Prop
  | .awaiting observed => observed ≤ money.operations.length
  | .flushing observed =>
    observed ≤ money.operations.length ∧ DoneBefore money observed
  | .chained operation =>
    ∃ given : Operation, money.operations[operation]? = some given ∧
      given.kind = .beginUsageInvocation
  | _ => True

/-- What the phases of all callers say. -/
def Watched (money : MoneyDurability) : Prop :=
  ∀ (position : Nat) (caller : Caller), money.callers[position]? = some caller →
    PhaseSound money caller.phase

theorem OperationsEffect.length_le (effect : OperationsEffect money next) :
    money.operations.length ≤ next.operations.length := by
  cases effect with
  | kept operations inFlight pending => rw [operations]
  | chained kind operations inFlight pending => rw [operations]; simp
  | advanced changed given stage there advances queued operations inFlight pending =>
    rw [operations, List.length_modify]

/-- An operation keeps its kind. -/
theorem OperationsEffect.kind_eq
    {position : Nat} {given : Operation} (effect : OperationsEffect money next)
    (found : money.operations[position]? = some given) :
    ∃ later : Operation, next.operations[position]? = some later ∧
      later.kind = given.kind := by
  cases effect with
  | kept operations inFlight pending => exact ⟨given, operations ▸ found, rfl⟩
  | chained kind operations inFlight pending =>
    refine ⟨given, ?_, rfl⟩
    rw [operations, List.getElem?_append_left (List.getElem?_eq_some_iff.mp found).1]
    exact found
  | advanced changed other stage there advances queued operations inFlight pending =>
    rw [operations]
    by_cases same : changed = position
    · subst same
      rw [List.getElem?_modify_eq, found]
      exact ⟨{ given with stage }, rfl, rfl⟩
    · rw [List.getElem?_modify_ne _ _ same]
      exact ⟨given, found, rfl⟩

variable
  {phase : CallerPhase}

/-- A phase stays sound while operations advance. -/
theorem PhaseSound.of_effect
    (effect : OperationsEffect money next) (sound : PhaseSound money phase) :
    PhaseSound next phase := by
  cases phase with
  | awaiting observed => exact le_trans sound effect.length_le
  | flushing observed =>
    exact ⟨le_trans sound.1 effect.length_le, doneBefore_of_effect effect sound.1 sound.2⟩
  | joined | thrown error => trivial
  | chained operation =>
    obtain ⟨given, found, begins⟩ := sound
    obtain ⟨later, there, kind⟩ := effect.kind_eq found
    exact ⟨later, there, kind.trans begins⟩

/-- What a barrier observes is sound: where nothing is outstanding, all is done. -/
theorem Chained.observe_sound {money : MoneyDurability} (chained : Chained money) :
    PhaseSound money money.observe := by
  unfold MoneyDurability.observe
  by_cases waits : 0 < money.pending ∨ money.failure.isSome = true
  · rw [if_pos waits]
    exact chained.counted.le
  · rw [if_neg waits]
    refine ⟨chained.counted.le, fun position operation _ found => ?_⟩
    have none : (money.operations.countP fun operation => !operation.stage.isDone) = 0 := by
      have outstanding := chained.outstanding
      have idle : ¬ 0 < money.pending := fun positive => waits (.inl positive)
      omega
    have all := List.countP_eq_zero.mp none operation (List.mem_of_getElem? found)
    simpa using all

theorem Watched.kept
    (watched : Watched money) (effect : OperationsEffect money next)
    (callers : next.callers = money.callers) :
    Watched next := by
  intro position caller found
  rw [callers] at found
  exact (watched position caller found).of_effect effect

theorem Watched.moved
    {changed : Nat} (watched : Watched money) (effect : OperationsEffect money next)
    (callers : next.callers = money.callers.modify changed fun given => { given with phase })
    (sound : PhaseSound next phase) :
    Watched next := by
  intro position caller found
  rw [callers] at found
  obtain ⟨-, other, -, rfl⟩ | ⟨-, unchanged⟩ := getElem?_modify_eq_some found
  · exact sound
  · exact (watched position caller unchanged).of_effect effect

variable
  {event : Event}

/-- An event keeps what the phases say. -/
theorem watched_of_happens
    (happens : Happens attached money event next) (chained : Chained money)
    (watched : Watched money) :
    Watched next := by
  have effect := operations_effect happens
  cases happens with
  | record | usageDisposition | accountingFailure => exact watched.kept effect rfl
  | call begins =>
    intro position caller found
    obtain before | ⟨-, rfl⟩ := getElem?_append_singleton_eq_some found
    · exact watched position caller before
    · exact chained.observe_sound
  | wake caller observed begins found settled =>
    refine watched.moved effect rfl ?_
    exact ⟨watched caller _ found, chained.doneBefore_of_tailSettled settled⟩
  | again caller observed begins found moved =>
    exact watched.moved effect rfl chained.observe_sound
  | throw caller begins fault found retained | join caller begins found empty
  | conservative caller observed begins found => exact watched.moved effect rfl trivial
  | resume caller found =>
    have last : (money.chain .beginUsageInvocation).operations[money.operations.length]? =
        some { kind := .beginUsageInvocation, after := money.inFlight, stage := .queued } :=
      List.getElem?_concat_length
    exact watched.moved effect rfl ⟨_, last, rfl⟩
  | start operation given stage found queued settled starts =>
    exact watched.kept effect rfl
  | settle operation given succeeded found running | succeed operation given found settled
  | reject operation given found settled kind | fail operation given found settled kind
  | finish operation given result found handled => exact watched.kept effect rfl

/-- In every run callers wait for operations that exist. -/
theorem watched_of_run
    {history : List Event} {money : MoneyDurability}
    (run : Run (Step attached) initial history money) :
    Watched money :=
  run.invariant (fun _ money => Watched money)
    (fun position caller found => by simp [initial] at found)
    fun _ _ _ _ earlier watched step =>
      watched_of_happens (happens_of_step step) (chained_of_run earlier) watched

/-! ## Leaving the barrier -/

/-- A caller is in the phase. -/
def InPhase (money : MoneyDurability) (caller : Nat) (phase : CallerPhase) : Prop :=
  ∃ begins, money.callers[caller]? = some { begins, phase }

/-- The event takes the caller to the phase. -/
def Enters (money next : MoneyDurability) (caller : Nat)
    (phase : CallerPhase) : Prop :=
  InPhase next caller phase ∧ ¬ InPhase money caller phase

variable
  {caller : Nat}

theorem not_enters_kept (callers : next.callers = money.callers) :
    ¬ Enters money next caller phase := by
  rintro ⟨⟨begins, found⟩, before⟩
  exact before ⟨begins, callers ▸ found⟩

theorem eq_of_enters_moved {caller changed : Nat} {entered phase : CallerPhase}
    (callers : next.callers = money.callers.modify changed fun given => { given with phase })
    (enters : Enters money next caller entered) :
    entered = phase := by
  obtain ⟨⟨begins, found⟩, before⟩ := enters
  rw [callers] at found
  obtain ⟨-, other, -, equal⟩ | ⟨-, unchanged⟩ := getElem?_modify_eq_some found
  · injection equal
  · exact absurd ⟨begins, unchanged⟩ before

theorem eq_observe_of_enters
    {begins : Bool}
    (callers : next.callers = money.callers ++ [{ begins, phase := money.observe }])
    (enters : Enters money next caller phase) :
    phase = money.observe := by
  obtain ⟨⟨begins, found⟩, before⟩ := enters
  rw [callers] at found
  obtain there | ⟨-, equal⟩ := getElem?_append_singleton_eq_some found
  · exact absurd ⟨begins, there⟩ before
  · injection equal

/-- What an event that takes a caller to a phase has found. -/
inductive Entry (money next : MoneyDurability) (caller : Nat) : CallerPhase → Prop
  | observing : Entry money next caller money.observe
  | flushing (observed : Nat) : Entry money next caller (.flushing observed)
  | joined :
      InPhase money caller (.flushing money.inFlight) →
      money.failure = none →
      next.operations = money.operations →
      Entry money next caller .joined
  | thrown (fault : Fault) :
      InPhase money caller (.flushing money.inFlight) →
      money.failure = some fault →
      next.failure = none →
      Entry money next caller (.thrown (.ledger fault))
  | conservative : Entry money next caller (.thrown .conservative)
  | chained (operation : Nat) : Entry money next caller (.chained operation)

theorem position_of_enters_moved {caller changed : Nat} {entered phase : CallerPhase}
    (callers : next.callers = money.callers.modify changed fun given => { given with phase })
    (enters : Enters money next caller entered) :
    caller = changed := by
  obtain ⟨⟨begins, found⟩, before⟩ := enters
  rw [callers] at found
  obtain ⟨same, -⟩ | ⟨-, unchanged⟩ := getElem?_modify_eq_some found
  · exact same
  · exact absurd ⟨begins, unchanged⟩ before

/-- How a caller comes to the phase that it enters. -/
theorem entry_of_enters
    (happens : Happens attached money event next) (enters : Enters money next caller phase) :
    Entry money next caller phase := by
  cases happens with
  | record | usageDisposition | accountingFailure => exact absurd enters (not_enters_kept rfl)
  | call begins =>
    obtain rfl := eq_observe_of_enters rfl enters
    exact .observing
  | wake changed observed begins found settled =>
    obtain rfl := eq_of_enters_moved rfl enters
    exact .flushing observed
  | again changed observed begins found moved =>
    obtain rfl := eq_of_enters_moved rfl enters
    exact .observing
  | throw changed begins fault found retained =>
    obtain rfl := eq_of_enters_moved rfl enters
    obtain rfl := position_of_enters_moved rfl enters
    exact .thrown fault ⟨begins, found⟩ retained rfl
  | join changed begins found empty =>
    obtain rfl := eq_of_enters_moved rfl enters
    obtain rfl := position_of_enters_moved rfl enters
    exact .joined ⟨begins, found⟩ empty rfl
  | conservative changed observed begins found =>
    obtain rfl := eq_of_enters_moved rfl enters
    exact .conservative
  | resume changed found =>
    obtain rfl := eq_of_enters_moved rfl enters
    exact .chained _
  | start operation given stage found queued settled starts
  | settle operation given succeeded found running | succeed operation given found settled
  | reject operation given found settled kind | fail operation given found settled kind
  | finish operation given result found handled =>
    exact absurd enters (not_enters_kept rfl)

/-- A call waits for the tail, or flushes it. -/
theorem observe_cases (money : MoneyDurability) :
    money.observe = .awaiting money.inFlight ∨
      money.observe = .flushing money.inFlight := by
  unfold MoneyDurability.observe
  split
  · exact .inl rfl
  · exact .inr rfl

/-- A barrier that resolves has found nothing retained and every operation done. -/
theorem done_of_joins
    (chained : Chained money) (watched : Watched money) (step : Step attached money event next)
    (joins : Enters money next caller .joined) :
    money.failure = none ∧
      ∀ operation ∈ next.operations, operation.stage.isDone = true := by
  generalize joined : CallerPhase.joined = phase at joins
  cases entry_of_enters (happens_of_step step) joins with
  | observing =>
    obtain waits | flushes := observe_cases money
    · rw [waits] at joined
      cases joined
    · rw [flushes] at joined
      cases joined
  | flushing observed | thrown fault flushing retained cleared | conservative
  | chained operation => cases joined
  | joined flushing empty operations =>
    refine ⟨empty, fun operation member => ?_⟩
    obtain ⟨begins, found⟩ := flushing
    rw [operations] at member
    obtain ⟨position, there⟩ := List.mem_iff_getElem?.mp member
    have sound : PhaseSound money (.flushing money.inFlight) := watched caller _ found
    exact sound.2 position operation
      (chained.counted ▸ (List.getElem?_eq_some_iff.mp there).1) there

/-- A caller throws the retained fault, which is then forgotten. -/
theorem retained_of_throws
    {fault : Fault} (step : Step attached money event next)
    (throws : Enters money next caller (.thrown (.ledger fault))) :
    money.failure = some fault ∧ next.failure = none := by
  generalize thrown : CallerPhase.thrown (.ledger fault) = phase at throws
  cases entry_of_enters (happens_of_step step) throws with
  | observing =>
    obtain waits | flushes := observe_cases money
    · rw [waits] at thrown
      cases thrown
    · rw [flushes] at thrown
      cases thrown
  | flushing observed | joined flushing empty operations | conservative | chained operation =>
    cases thrown
  | thrown given flushing retained cleared =>
    cases thrown
    exact ⟨retained, cleared⟩

end Durability
end Relavium.Budget
