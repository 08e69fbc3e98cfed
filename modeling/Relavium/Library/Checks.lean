import Mathlib.Data.List.Forall2
import Mathlib.Order.Basic
import Mathlib.Tactic.Common

/-!
# Computations that may fail

The rules by which a successful computation in `Except` is taken apart.
-/

namespace Relavium.Library

theorem bind_eq_ok {first : Except ε α} {rest : α → Except ε β} {result : β} :
    (first >>= rest) = .ok result ↔
      ∃ value, first = .ok value ∧ rest value = .ok result := by
  cases first with
  | error | ok value => simp [bind, Except.bind]

variable {computation : Except ε α} {refusal : ε}

theorem toOption_eq_some {result : α} :
    computation.toOption = some result ↔ computation = .ok result := by
  cases computation <;> simp [Except.toOption]

@[simp] theorem pure_eq_ok {value result : α} :
    (pure value : Except ε α) = .ok result ↔ value = result := by
  simp [pure, Except.pure]

theorem mapError_eq_ok {translate : ε → ω} {result : α} :
    computation.mapError translate = .ok result ↔
      computation = .ok result := by
  cases computation <;> simp [Except.mapError]

/-- Fail with a given error unless a condition holds. -/
def require (error : ε) (condition : Prop) [Decidable condition] :
    Except ε Unit :=
  if condition then .ok () else .error error

theorem require_eq_ok {error : ε} {condition : Prop} [Decidable condition] {result : Unit} :
    require error condition = .ok result ↔ condition := by
  unfold require
  split <;> simp_all

theorem mapM_eq_ok_of_forall
    {change : α → Except ε β} {view : γ → β} {Related : γ → α → Prop} {list : List α}
    (each :
      ∀ item ∈ list,
        ∃ image, change item = .ok (view image) ∧ Related image item) :
    ∃ images,
      list.mapM change = .ok (images.map view) ∧
      List.Forall₂ Related images list := by
  induction list with
  | nil => exact ⟨[], rfl, .nil⟩
  | cons item rest ih =>
    obtain ⟨image, changed, related⟩ := each item List.mem_cons_self
    obtain ⟨images, changedRest, relatedRest⟩ :=
      ih fun other member =>
        each other (List.mem_cons_of_mem item member)
    refine ⟨image :: images, ?_, .cons related relatedRest⟩
    rw [List.mapM_cons, changed, changedRest]
    rfl

/-- A refused sequence was refused by its first or by its second part. -/
theorem bind_eq_error {first : Except ε α} {rest : α → Except ε β} :
    (first >>= rest) = .error refusal ↔
      first = .error refusal ∨
        ∃ value, first = .ok value ∧ rest value = .error refusal := by
  cases first with
  | error | ok value => simp [bind, Except.bind]

theorem foldlM_error
    {step : β → α → Except ε β} {items : List α} {start : β}
    (refused : items.foldlM step start = .error refusal) :
    ∃ reached item, step reached item = .error refusal := by
  induction items generalizing start with
  | nil => exact absurd refused (by simp [pure, Except.pure])
  | cons item rest ih =>
    rw [List.foldlM_cons] at refused
    obtain stopped | ⟨next, _, later⟩ := bind_eq_error.mp refused
    · exact ⟨start, item, stopped⟩
    · exact ih later

/-- A fold whose steps only increase ends at least where it started. -/
theorem le_of_foldlM
    [Preorder β] {step : β → α → Except ε β}
    (increases : ∀ reached item next, step reached item = .ok next → reached ≤ next)
    {items : List α} {start finish : β} (folded : items.foldlM step start = .ok finish) :
    start ≤ finish := by
  induction items generalizing start with
  | nil => exact le_of_eq (pure_eq_ok.mp folded)
  | cons item rest ih =>
    rw [List.foldlM_cons] at folded
    obtain ⟨next, taken, later⟩ := bind_eq_ok.mp folded
    exact (increases _ _ _ taken).trans (ih later)

/-- A map over a list depends on the images of the items alone. -/
theorem mapM_congr_of_map
    {change : α → Except ε β} {other : γ → Except ε β} {left : List α} {right : List γ}
    (same : left.map change = right.map other) :
    left.mapM change = right.mapM other := by
  induction left generalizing right with
  | nil =>
    cases right with
    | nil => rfl
    | cons => cases same
  | cons item rest ih =>
    cases right with
    | nil => cases same
    | cons head tail =>
      obtain ⟨heads, tails⟩ := List.cons.inj same
      rw [List.mapM_cons, List.mapM_cons, heads, ih tails]

/-- Why a computation failed. -/
def failureOf : Except ε α → Option ε
  | .ok _ => none
  | .error refusal => some refusal

theorem failureOf_eq_some_iff :
    failureOf computation = some refusal ↔ computation = .error refusal := by
  cases computation <;> simp [failureOf]

/-- A map over a list fails as its first item that fails. -/
theorem mapM_eq_of_failures (change : α → Except ε β) (list : List α) :
    list.mapM change =
      match list.findSome? fun item => failureOf (change item) with
      | some refusal => .error refusal
      | none => .ok (list.filterMap fun item => (change item).toOption) := by
  induction list with
  | nil => rfl
  | cons item rest ih =>
    rw [List.mapM_cons, ih]
    cases changed : change item with
    | error refusal => simp [changed, failureOf, bind, Except.bind]
    | ok image =>
      have passes : failureOf (change item) = none := by rw [changed, failureOf]
      have answers : (change item).toOption = some image := by rw [changed]; rfl
      simp only [List.findSome?_cons, passes, List.filterMap_cons, answers]
      cases rest.findSome? fun item => failureOf (change item) <;> rfl

end Relavium.Library
