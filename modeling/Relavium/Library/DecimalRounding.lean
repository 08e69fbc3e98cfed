import Relavium.Library.Binary64
import Mathlib.Data.Nat.Digits.Lemmas

/-!
# Rounding decimals to binary64

A decimal is rounded to the nearest binary64 number, and every binary64 number
has a shortest decimal that rounds to it.
-/

namespace Relavium.Library
namespace Binary64

/-- The number nearest to `significand * 10 ^ power`. -/
def ofDecimal (negative : Bool) (significand : Nat)
    (power : Int) : Option Binary64 :=
  nearest negative (significand * 10 ^ power.toNat) (10 ^ (-power).toNat)

/-- Trailing zeros of the significand may move into the power. -/
theorem ofDecimal_trailing (negative : Bool) (significand zeros : Nat) (power : Int) :
    ofDecimal negative (significand * 10 ^ zeros) (power - zeros) =
      ofDecimal negative significand power := by
  refine nearest_congr negative (by positivity) (by positivity) ?_
  have balanced :
      zeros + (power - zeros).toNat + (-power).toNat =
        power.toNat + (-(power - zeros)).toNat := by
    omega
  calc
    significand * 10 ^ zeros * 10 ^ (power - zeros).toNat * 10 ^ (-power).toNat =
        significand *
          10 ^ (zeros + (power - zeros).toNat + (-power).toNat) := by
      ring
    _ = significand * 10 ^ power.toNat * 10 ^ (-(power - zeros)).toNat := by
      rw [balanced]
      ring

/-- The decimal that a number is exactly equal to, up to its sign. -/
def exactDecimal (number : Binary64) : Nat × Int :=
  if 0 ≤ number.exponent then
    (number.mantissa * 2 ^ number.exponent.toNat, 0)
  else
    (number.mantissa * 5 ^ (-number.exponent).toNat, number.exponent)

/-- The exact decimal of a double reads back. -/
theorem ofDecimal_exactDecimal (number : Binary64) :
    ofDecimal number.negative number.exactDecimal.1 number.exactDecimal.2 =
      some number := by
  have counted := number.shift_eq
  unfold exactDecimal ofDecimal
  split
  · next nonnegative =>
      refine nearest_of_eq number (by positivity) ?_
      have total : number.exponent.toNat + 1074 = number.shift := by omega
      dsimp only
      have whole : (-0 : Int).toNat = 0 := rfl
      rw [whole, Int.toNat_zero, ← total, Nat.pow_add]
      simp only [Nat.pow_zero, Nat.mul_one, Nat.mul_assoc]
  · next fractional =>
      refine nearest_of_eq number (by positivity) ?_
      have total : number.shift + (-number.exponent).toNat = 1074 := by omega
      have noPower : number.exponent.toNat = 0 := by omega
      have tens :
          10 ^ (-number.exponent).toNat =
            2 ^ (-number.exponent).toNat * 5 ^ (-number.exponent).toNat :=
        Nat.mul_pow 2 5 _
      dsimp only
      rw [noPower, tens, ← total, Nat.pow_add]
      ring

/-- Whether a decimal rounds to the number. -/
def fits (number : Binary64)
    (decimal : Nat × Int) : Bool :=
  ofDecimal number.negative decimal.1 decimal.2 = some number

/-- A significand with one digit too many moves its zero into the power. -/
def carry (kept : Nat)
    (decimal : Nat × Int) : Nat × Int :=
  if decimal.1 = 10 ^ kept then (10 ^ (kept - 1), decimal.2 + 1) else decimal

/-- The decimal of at most `kept` digits that is nearest to the number among
those that round to it. -/
def decimalOfLength (number : Binary64)
    (kept : Nat) : Option (Nat × Int) :=
  let whole := number.exactDecimal.1
  let dropped := (Nat.digits 10 whole).length - kept
  let power := number.exactDecimal.2 + dropped
  let lower := whole / 10 ^ dropped
  [roundHalfEven whole (10 ^ dropped), lower, lower + 1].map
      (fun significand => carry kept (significand, power))
    |>.find? number.fits

/-- The shortest decimal that rounds to the number. -/
def shortestDecimal (number : Binary64) : Nat × Int :=
  let digits := (Nat.digits 10 number.exactDecimal.1).length
  ((List.range digits).findSome? fun index =>
    number.decimalOfLength (index + 1)).getD number.exactDecimal

/-- The shortest decimal of a double reads back. -/
theorem ofDecimal_shortestDecimal (number : Binary64) :
    ofDecimal number.negative number.shortestDecimal.1 number.shortestDecimal.2 =
      some number := by
  unfold shortestDecimal
  dsimp only
  cases found :
      (List.range (Nat.digits 10 number.exactDecimal.1).length).findSome?
        (fun index => number.decimalOfLength (index + 1)) with
  | none => exact ofDecimal_exactDecimal number
  | some decimal =>
    obtain ⟨index, _, chosen⟩ := List.exists_of_findSome?_eq_some found
    unfold decimalOfLength at chosen
    have accepted := List.find?_some chosen
    exact of_decide_eq_true accepted

theorem ofDecimal_zero (negative : Bool) (power : Int) :
    ofDecimal negative 0 power = some { zero with negative := negative } := by
  have noValue :
      0 * 10 ^ power.toNat * 2 ^ 1074 =
        zero.mantissa * 2 ^ zero.shift * 10 ^ (-power).toNat := by
    rw [Nat.zero_mul, Nat.zero_mul]
    exact (Nat.zero_mul _).symm
  exact nearest_of_eq { zero with negative := negative } (by positivity) noValue

theorem shortestDecimal_ne_zero {number : Binary64} (nonzero : number.mantissa ≠ 0) :
    number.shortestDecimal.1 ≠ 0 := by
  intro vanishes
  have rounds := ofDecimal_shortestDecimal number
  rw [vanishes, ofDecimal_zero, Option.some.injEq] at rounds
  exact nonzero (rounds ▸ rfl)

end Binary64
end Relavium.Library
