import Mathlib.Algebra.Group.Int.Defs
import Mathlib.Algebra.Group.Nat.Defs
import Mathlib.Data.Int.Notation
import Mathlib.Order.Defs.LinearOrder
import Mathlib.Tactic.DeriveFintype

/-!
# Numbers as an integer guard sees them

An ECMAScript number that reaches a `Number.isSafeInteger` guard is either an
integer or something the guard rejects: a fraction, an infinity or NaN.
-/

namespace Relavium.Library

/-- `Number.MAX_SAFE_INTEGER`. -/
def maxSafeInteger : Int := 2 ^ 53 - 1

/-- A number argument before it is checked. -/
inductive Quantity
  | integer (value : Int)
  | nonInteger
  deriving DecidableEq

namespace Quantity

/-- The value of a number that passes `Number.isSafeInteger(x) && x >= 0`. -/
def nonNegativeSafe : Quantity → Option Int
  | .integer value =>
    if 0 ≤ value ∧ value ≤ maxSafeInteger then some value else none
  | .nonInteger => none

theorem nonNegativeSafe_eq_some_iff (quantity : Quantity) (value : Int) :
    quantity.nonNegativeSafe = some value ↔
      quantity = .integer value ∧ 0 ≤ value ∧ value ≤ maxSafeInteger := by
  cases quantity with
  | nonInteger => simp [nonNegativeSafe]
  | integer given =>
    simp only [nonNegativeSafe, Option.ite_none_right_eq_some, Option.some.injEq, integer.injEq]
    constructor
    · rintro ⟨range, rfl⟩
      exact ⟨rfl, range⟩
    · rintro ⟨rfl, range⟩
      exact ⟨range, rfl⟩

end Quantity

/-- A number that passed the guard. -/
structure SafeAmount where
  value : Int
  nonneg : 0 ≤ value
  safe : value ≤ maxSafeInteger
  deriving DecidableEq

/-- The amount of a number that passes the guard. -/
def Quantity.safeAmount : Quantity → Option SafeAmount
  | .integer value =>
    if range : 0 ≤ value ∧ value ≤ maxSafeInteger then
      some { value, nonneg := range.1, safe := range.2 }
    else none
  | .nonInteger => none

/-- A small natural number is a safe amount. -/
def SafeAmount.ofNat (value : Nat)
    (small : value < 2 ^ 53) : SafeAmount where
  value
  nonneg := Int.natCast_nonneg value
  safe := by
    unfold maxSafeInteger
    omega

end Relavium.Library
