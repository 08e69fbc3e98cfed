import Relavium.Library.Transaction

/-!
# Pre- and postconditions of statements

What holds when a sequence of statements answers, and what holds when it refuses.
-/

namespace Relavium.Library
namespace Statements

/-- From tables with the precondition the sequence ends as stated: with an answer, or
with a refusal. -/
def Triple (pre : τ → Prop) (statements : Statements τ ε α) (answered : α → τ → Prop)
    (refused : ε → τ → Prop) : Prop :=
  ∀ before, pre before →
    match statements before with
    | (.ok answer, after) => answered answer after
    | (.error refusal, after) => refused refusal after

namespace Triple

variable
  {pre : τ → Prop}
  {answered : α → τ → Prop}
  {refused : ε → τ → Prop}

theorem of_ok
    {statements : Statements τ ε α} {before after : τ} {answer : α}
    (triple : Triple pre statements answered refused) (holds : pre before)
    (ran : statements before = (.ok answer, after)) :
    answered answer after := by
  simpa only [ran] using triple before holds

theorem of_error
    {statements : Statements τ ε α} {before after : τ} {refusal : ε}
    (triple : Triple pre statements answered refused) (holds : pre before)
    (ran : statements before = (.error refusal, after)) :
    refused refusal after := by
  simpa only [ran] using triple before holds

theorem of_cases {statements : Statements τ ε α}
    (onAnswer : ∀ before answer after, pre before →
      statements before = (.ok answer, after) → answered answer after)
    (onRefusal : ∀ before refusal after, pre before →
      statements before = (.error refusal, after) → refused refusal after) :
    Triple pre statements answered refused := by
  intro before holds
  cases ran : statements before with
  | mk outcome after =>
    cases outcome with
    | ok answer => exact onAnswer before answer after holds ran
    | error refusal => exact onRefusal before refusal after holds ran

/-- Less may be assumed and more be shown. -/
theorem weaken
    {pre' : τ → Prop} {answered' : α → τ → Prop} {refused' : ε → τ → Prop}
    {statements : Statements τ ε α} (triple : Triple pre' statements answered' refused')
    (assumed : ∀ tables, pre tables → pre' tables)
    (answers : ∀ answer tables, answered' answer tables → answered answer tables)
    (refuses : ∀ refusal tables, refused' refusal tables → refused refusal tables) :
    Triple pre statements answered refused :=
  of_cases (fun _ _ _ holds ran => answers _ _ (triple.of_ok (assumed _ holds) ran))
    (fun _ _ _ holds ran => refuses _ _ (triple.of_error (assumed _ holds) ran))

/-- A value the precondition speaks of may be fixed first. -/
theorem exists_pre
    {given : ι → τ → Prop} {statements : Statements τ ε α}
    (each : ∀ index, Triple (given index) statements answered refused) :
    Triple (fun tables => ∃ index, given index tables) statements answered refused :=
  fun before ⟨index, holds⟩ => each index before holds

/-- A fact of the precondition that is not about the tables may be used. -/
theorem of_imp
    {fact : Prop} {statements : Statements τ ε α}
    (holds : fact → Triple pre statements answered refused) :
    Triple (fun tables => fact ∧ pre tables) statements answered refused :=
  fun before ⟨isFact, given⟩ => holds isFact before given

/-- A fact that the precondition implies may be used. -/
theorem known
    {fact : Prop} {statements : Statements τ ε α} (isKnown : ∀ tables, pre tables → fact)
    (holds : fact → Triple pre statements answered refused) :
    Triple pre statements answered refused :=
  fun before given => holds (isKnown before given) before given

theorem pure {answer : α} (holds : ∀ tables, pre tables → answered answer tables) :
    Triple pre (Pure.pure answer : Statements τ ε α) answered refused :=
  holds

theorem refuse {refusal : ε} (holds : ∀ tables, pre tables → refused refusal tables) :
    Triple pre (Statements.refuse refusal : Statements τ ε α) answered refused :=
  holds

theorem select {read : τ → α} (holds : ∀ tables, pre tables → answered (read tables) tables) :
    Triple pre (Statements.select read : Statements τ ε α) answered refused :=
  holds

theorem update
    {write : τ → τ} {answered : Unit → τ → Prop}
    (holds : ∀ tables, pre tables → answered () (write tables)) :
    Triple pre (Statements.update write : Statements τ ε Unit) answered refused :=
  holds

theorem ofExcept
    {checked : Except ε α}
    (onAnswer : ∀ answer tables, pre tables → checked = .ok answer → answered answer tables)
    (onRefusal : ∀ refusal tables, pre tables → refused refusal tables) :
    Triple pre (Statements.ofExcept checked : Statements τ ε α) answered refused := by
  intro before holds
  cases checked with
  | ok answer => exact onAnswer answer before holds rfl
  | error refusal => exact onRefusal refusal before holds

theorem require
    {condition : Prop} [Decidable condition] {refusal : ε} {answered : Unit → τ → Prop}
    (onAnswer : ∀ tables, pre tables → condition → answered () tables)
    (onRefusal : ∀ tables, pre tables → refused refusal tables) :
    Triple pre (Statements.require condition refusal : Statements τ ε Unit) answered refused := by
  intro before holds
  by_cases isMet : condition
  · rw [Statements.require, if_pos isMet]
    exact onAnswer before holds isMet
  · rw [Statements.require, if_neg isMet]
    exact onRefusal before holds

/-- The second sequence takes over where the first one answers. -/
theorem bind
    {first : Statements τ ε α} {next : α → Statements τ ε β} {middle : α → τ → Prop}
    {answered : β → τ → Prop} (firstHolds : Triple pre first middle refused)
    (nextHolds : ∀ answer, Triple (middle answer) (next answer) answered refused) :
    Triple pre (first >>= next) answered refused := by
  intro before holds
  change match andThen first next before with
    | (.ok answer, after) => answered answer after
    | (.error refusal, after) => refused refusal after
  rw [andThen]
  cases ran : first before with
  | mk outcome written =>
    cases outcome with
    | ok answer => exact nextHolds answer written (firstHolds.of_ok holds ran)
    | error refusal => exact firstHolds.of_error holds ran

/-- An assertion that each step keeps is kept by steps for the items of a list. -/
theorem mapM
    {step : γ → Statements τ ε α} (each : ∀ item, Triple pre (step item) (fun _ => pre) refused)
    (list : List γ) :
    Triple pre (list.mapM step) (fun _ => pre) refused := by
  induction list with
  | nil => exact fun _ holds => holds
  | cons item rest ih =>
    rw [List.mapM_cons]
    exact bind (each item) fun _ => bind ih fun _ _ holds => holds

theorem foldlM
    {step : α → γ → Statements τ ε α}
    (each : ∀ reached item, Triple pre (step reached item) (fun _ => pre) refused) (list : List γ)
    (start : α) :
    Triple pre (list.foldlM step start) (fun _ => pre) refused := by
  induction list generalizing start with
  | nil => exact fun _ holds => holds
  | cons item rest ih =>
    rw [List.foldlM_cons]
    exact bind (each start item) ih

/-- The same, with the assertion between the two. -/
theorem via
    {first : Statements τ ε α} {next : α → Statements τ ε β} {answered : β → τ → Prop}
    (middle : α → τ → Prop) (firstHolds : Triple pre first middle refused)
    (nextHolds : ∀ answer, Triple (middle answer) (next answer) answered refused) :
    Triple pre (first >>= next) answered refused :=
  bind firstHolds nextHolds

theorem select_bind {read : τ → α} {next : α → Statements τ ε β} {answered : β → τ → Prop}
    (nextHolds : ∀ value,
      Triple (fun tables => pre tables ∧ read tables = value) (next value) answered refused) :
    Triple pre (Statements.select read >>= next) answered refused :=
  bind (select fun _ holds => ⟨holds, rfl⟩) nextHolds

/-- The handler takes over where the sequence refuses. -/
theorem tryCatch
    {statements : Statements τ ε α} {handle : ε → Statements τ ε α} {thrown : ε → τ → Prop}
    (holds : Triple pre statements answered thrown)
    (handled : ∀ refusal, Triple (thrown refusal) (handle refusal) answered refused) :
    Triple pre (Statements.tryCatch statements handle) answered refused := by
  intro before given
  unfold Statements.tryCatch
  cases ran : statements before with
  | mk outcome written =>
    cases outcome with
    | ok answer => exact holds.of_ok given ran
    | error refusal => exact handled refusal written (holds.of_error given ran)

/-- The last write happens after an answer and after a refusal. -/
theorem ensuring {statements : Statements τ ε α} {write : τ → τ}
    (holds : Triple pre statements (fun answer tables => answered answer (write tables))
      (fun refusal tables => refused refusal (write tables))) :
    Triple pre (Statements.ensuring statements write) answered refused := by
  intro before given
  unfold Statements.ensuring
  cases ran : statements before with
  | mk outcome written =>
    cases outcome with
    | ok answer => exact holds.of_ok given ran
    | error refusal => exact holds.of_error given ran

end Triple

/-- The sequence keeps an invariant of the tables, however it ends. -/
def Preserves (invariant : τ → Prop)
    (statements : Statements τ ε α) : Prop :=
  Triple invariant statements (fun _ => invariant) (fun _ => invariant)

namespace Preserves

variable {invariant : τ → Prop}

theorem pure {answer : α} :
    Preserves invariant (Pure.pure answer : Statements τ ε α) :=
  Triple.pure fun _ holds => holds

theorem refuse {refusal : ε} :
    Preserves invariant (Statements.refuse refusal : Statements τ ε α) :=
  Triple.refuse fun _ holds => holds

theorem require {condition : Prop} [Decidable condition] {refusal : ε} :
    Preserves invariant (Statements.require condition refusal : Statements τ ε Unit) :=
  Triple.require (fun _ holds _ => holds) fun _ holds => holds

theorem update {write : τ → τ} (keeps : ∀ tables, invariant tables → invariant (write tables)) :
    Preserves invariant (Statements.update write : Statements τ ε Unit) :=
  Triple.update keeps

theorem bind
    {first : Statements τ ε α} {next : α → Statements τ ε β}
    (firstKeeps : Preserves invariant first)
    (nextKeeps : ∀ answer, Preserves invariant (next answer)) :
    Preserves invariant (first >>= next) :=
  Triple.bind firstKeeps nextKeeps

theorem select_bind
    {read : τ → α} {next : α → Statements τ ε β}
    (nextKeeps : ∀ value, Preserves invariant (next value)) :
    Preserves invariant (Statements.select read >>= next) :=
  Triple.bind (Triple.select fun _ holds => holds) nextKeeps

end Preserves

end Statements
end Relavium.Library
