import Mathlib.Data.Nat.Size
import Mathlib.Data.Int.Notation
import Mathlib.Order.Defs.LinearOrder
import Mathlib.Tactic.Ring
import Mathlib.Tactic.Positivity

/-!
# Finite binary64 numbers

The finite numbers of IEEE 754 binary64 in their canonical form: a sign, a
mantissa below `2 ^ 53` and an exponent, normalized unless the exponent is the
least one.  Both zeros are present and distinct, as `Object.is` sees them.

A nonnegative rational is rounded to the nearest of them, the one with the even
mantissa when two are equally near.  The result depends on the rational alone
and not on how it is written as a fraction, and a binary64 number is its own
nearest one.
-/

namespace Relavium.Library

/-- The integer nearest to a fraction, ties going to even. -/
def roundHalfEven (numerator denominator : Nat) : Nat :=
  let lower := numerator / denominator
  let rest := numerator % denominator
  if 2 * rest < denominator ∨ 2 * rest = denominator ∧ lower % 2 = 0 then lower
  else lower + 1

theorem roundHalfEven_mul_right (value : Nat) {denominator : Nat} (positive : 0 < denominator) :
    roundHalfEven (value * denominator) denominator = value := by
  simp [roundHalfEven, Nat.mul_div_cancel value positive, positive]

/-- Rounding depends on the ratio alone. -/
theorem roundHalfEven_scale (numerator denominator : Nat) {factor : Nat} (positive : 0 < factor) :
    roundHalfEven (factor * numerator) (factor * denominator) =
      roundHalfEven numerator denominator := by
  have below :
      2 * (factor * (numerator % denominator)) < factor * denominator ↔
        2 * (numerator % denominator) < denominator := by
    rw [Nat.mul_left_comm]
    exact Nat.mul_lt_mul_left positive
  have halfway :
      2 * (factor * (numerator % denominator)) = factor * denominator ↔
        2 * (numerator % denominator) = denominator := by
    rw [Nat.mul_left_comm]
    exact Nat.mul_right_inj (Nat.ne_of_gt positive)
  unfold roundHalfEven
  simp only [Nat.mul_div_mul_left _ _ positive, Nat.mul_mod_mul_left, below, halfway]

/-- Rounding does not lead below the integer part. -/
theorem div_le_roundHalfEven (numerator denominator : Nat) :
    numerator / denominator ≤ roundHalfEven numerator denominator := by
  unfold roundHalfEven
  dsimp only
  split
  · exact le_refl _
  · exact Nat.le_succ _

theorem roundHalfEven_le_succ (numerator denominator : Nat) :
    roundHalfEven numerator denominator ≤ numerator / denominator + 1 := by
  unfold roundHalfEven
  dsimp only
  split
  · exact Nat.le_succ _
  · exact le_refl _

/-- What is more than half a unit below an integer is rounded below it. -/
theorem roundHalfEven_lt
    {numerator denominator bound : Nat}
    (below : 2 * numerator + denominator < 2 * (bound * denominator)) :
    roundHalfEven numerator denominator < bound := by
  have positive : 0 < denominator := by
    apply Nat.pos_of_ne_zero
    rintro rfl
    simp at below
  have parts := Nat.div_add_mod numerator denominator
  have isBelow : numerator / denominator < bound := by
    rw [Nat.div_lt_iff_lt_mul positive]
    omega
  unfold roundHalfEven
  dsimp only
  split
  · exact isBelow
  · rename_i roundsUp
    by_contra notBelow
    have isLast : bound = numerator / denominator + 1 := by omega
    rw [isLast, Nat.add_mul, Nat.one_mul, Nat.mul_comm _ denominator] at below
    omega

/-- A finite binary64 number, of absolute value `mantissa * 2 ^ exponent`. -/
structure Binary64 where
  negative : Bool
  mantissa : Nat
  exponent : Int
  mantissaBound : mantissa < 2 ^ 53
  exponentLe : exponent ≤ 971
  leExponent : -1074 ≤ exponent
  normalized : 2 ^ 52 ≤ mantissa ∨ exponent = -1074
  deriving DecidableEq

namespace Binary64

/-- The positive zero. -/
def zero : Binary64 where
  negative := false
  mantissa := 0
  exponent := -1074
  mantissaBound := by decide
  exponentLe := by decide
  leExponent := by decide
  normalized := Or.inr rfl

/-- The number with the given parts, when they are in canonical form. -/
def ofParts (negative : Bool) (mantissa : Nat)
    (exponent : Int) : Option Binary64 :=
  if canonical :
      (mantissa < 2 ^ 53 ∧ exponent ≤ 971) ∧ -1074 ≤ exponent ∧
        (2 ^ 52 ≤ mantissa ∨ exponent = -1074) then
    some
      { negative := negative
        mantissa := mantissa
        exponent := exponent
        mantissaBound := canonical.1.1
        exponentLe := canonical.1.2
        leExponent := canonical.2.1
        normalized := canonical.2.2 }
  else none

theorem ofParts_self (number : Binary64) :
    ofParts number.negative number.mantissa number.exponent = some number :=
  dif_pos
    ⟨⟨number.mantissaBound, number.exponentLe⟩, number.leExponent, number.normalized⟩

/-- The exponent counted from the least one. -/
def shift (number : Binary64) : Nat :=
  (number.exponent + 1074).toNat

theorem shift_eq (number : Binary64) :
    (number.shift : Int) = number.exponent + 1074 := by
  have least := number.leExponent
  unfold shift
  omega

/-- The binary64 number nearest to a fraction, ties going to the even mantissa;
`none` beyond the largest one. -/
def nearest (negative : Bool)
    (numerator denominator : Nat) : Option Binary64 :=
  let scaled := numerator * 2 ^ 1074
  let shift := (scaled / denominator).size - 53
  let mantissa := roundHalfEven scaled (denominator * 2 ^ shift)
  if mantissa = 2 ^ 53 then ofParts negative (2 ^ 52) (shift + 1 - 1074)
  else ofParts negative mantissa (shift - 1074)

theorem size_sub_shift (number : Binary64) :
    (number.mantissa * 2 ^ number.shift).size - 53 = number.shift := by
  have bound := number.mantissaBound
  have upper : (number.mantissa * 2 ^ number.shift).size ≤ 53 + number.shift := by
    rw [Nat.size_le, Nat.pow_add]
    exact Nat.mul_lt_mul_of_pos_right bound (by positivity)
  obtain normal | least := number.normalized
  · have lower : 52 + number.shift < (number.mantissa * 2 ^ number.shift).size := by
      rw [Nat.lt_size, Nat.pow_add]
      exact Nat.mul_le_mul_right _ normal
    omega
  · have zero : number.shift = 0 := by
      have counted := number.shift_eq
      omega
    omega

/-- A quotient that is a double rounds to it. -/
theorem nearest_of_eq
    (number : Binary64) {numerator denominator : Nat} (positive : 0 < denominator)
    (equal :
      numerator * 2 ^ 1074 = number.mantissa * 2 ^ number.shift * denominator) :
    nearest number.negative numerator denominator = some number := by
  have rounded :
      roundHalfEven (number.mantissa * 2 ^ number.shift * denominator)
          (denominator * 2 ^ number.shift) =
        number.mantissa := by
    rw [Nat.mul_assoc, Nat.mul_comm (2 ^ number.shift) denominator]
    exact roundHalfEven_mul_right _ (by positivity)
  have inside : number.mantissa ≠ 2 ^ 53 := Nat.ne_of_lt number.mantissaBound
  have exponent : (number.shift : Int) - 1074 = number.exponent := by
    rw [number.shift_eq]
    omega
  unfold nearest
  simp only [equal, Nat.mul_div_cancel _ positive, size_sub_shift, rounded,
    inside, if_false, exponent]
  exact ofParts_self number

/-- Rounding does not depend on how the quotient is written. -/
theorem nearest_scale
    (negative : Bool) (numerator denominator : Nat) {factor : Nat} (positive : 0 < factor) :
    nearest negative (factor * numerator) (factor * denominator) =
      nearest negative numerator denominator := by
  unfold nearest
  simp only [Nat.mul_assoc factor, Nat.mul_div_mul_left _ _ positive,
    roundHalfEven_scale _ _ positive]

/-- The nearest number depends on the ratio alone. -/
theorem nearest_congr
    (negative : Bool) {numerator denominator otherNumerator otherDenominator : Nat}
    (positive : 0 < denominator) (otherPositive : 0 < otherDenominator)
    (same : numerator * otherDenominator = otherNumerator * denominator) :
    nearest negative numerator denominator =
      nearest negative otherNumerator otherDenominator := by
  calc
    nearest negative numerator denominator =
        nearest negative (otherDenominator * numerator)
          (otherDenominator * denominator) :=
      (nearest_scale negative _ _ otherPositive).symm
    _ = nearest negative (denominator * otherNumerator)
          (denominator * otherDenominator) := by
      rw [Nat.mul_comm otherDenominator numerator, same,
        Nat.mul_comm otherNumerator, Nat.mul_comm otherDenominator]
    _ = nearest negative otherNumerator otherDenominator :=
      nearest_scale negative _ _ positive

/-- The integer part. -/
def floor (number : Binary64) : Nat :=
  number.mantissa * 2 ^ number.shift / 2 ^ 1074

/-- A number from its parts, counted from the least exponent. -/
theorem ofParts_shift
    {negative : Bool} {mantissa shift : Nat} (bound : mantissa < 2 ^ 53) (finite : shift ≤ 2045)
    (normalized : 2 ^ 52 ≤ mantissa ∨ shift = 0) :
    ∃ number, ofParts negative mantissa ((shift : Int) - 1074) = some number ∧
      number.mantissa = mantissa ∧ number.shift = shift := by
  have canonical :
      (mantissa < 2 ^ 53 ∧ (shift : Int) - 1074 ≤ 971) ∧
        -1074 ≤ (shift : Int) - 1074 ∧
        (2 ^ 52 ≤ mantissa ∨ (shift : Int) - 1074 = -1074) := by omega
  refine ⟨_, dif_pos canonical, rfl, ?_⟩
  simp [Binary64.shift]

/-- The nearest number is a rounded mantissa with the exponent that the quotient
asks for. -/
theorem nearest_parts
    (negative : Bool) {numerator denominator shift : Nat}
    (isShift : (numerator * 2 ^ 1074 / denominator).size - 53 = shift) (finite : shift < 2045) :
    ∃ number, nearest negative numerator denominator = some number ∧
      number.mantissa * 2 ^ number.shift =
        roundHalfEven (numerator * 2 ^ 1074) (denominator * 2 ^ shift) *
          2 ^ shift := by
  have quotient :
      numerator * 2 ^ 1074 / (denominator * 2 ^ shift) =
        numerator * 2 ^ 1074 / denominator / 2 ^ shift :=
    (Nat.div_div_eq_div_mul _ _ _).symm
  have upper : numerator * 2 ^ 1074 / denominator < 2 ^ (53 + shift) := by
    apply Nat.size_le.mp
    omega
  have lower : 2 ^ 52 ≤ numerator * 2 ^ 1074 / denominator / 2 ^ shift ∨
      shift = 0 := by
    obtain isZero | isLarge := Nat.eq_zero_or_pos shift
    · exact .inr isZero
    · left
      rw [Nat.le_div_iff_mul_le (by positivity), ← Nat.pow_add]
      apply Nat.lt_size.mp
      omega
  have atMost : roundHalfEven (numerator * 2 ^ 1074) (denominator * 2 ^ shift) ≤
      2 ^ 53 := by
    refine (roundHalfEven_le_succ _ _).trans ?_
    rw [quotient, Nat.succ_le_iff, Nat.div_lt_iff_lt_mul (by positivity),
      ← Nat.pow_add]
    exact upper
  have atLeast := div_le_roundHalfEven (numerator * 2 ^ 1074) (denominator * 2 ^ shift)
  rw [quotient] at atLeast
  unfold nearest
  simp only [isShift]
  split
  · rename_i isPower
    obtain ⟨number, isNumber, isMantissa, isShift⟩ :=
      @ofParts_shift negative (2 ^ 52) (shift + 1) (by decide) (by omega)
        (.inl (le_refl _))
    refine ⟨number, ?_, ?_⟩
    · rw [← isNumber]
      push_cast
      rfl
    · rw [isMantissa, isShift, isPower]
      ring
  · rename_i notPower
    obtain ⟨number, isNumber, isMantissa, isShift⟩ :=
      @ofParts_shift negative _ shift (Nat.lt_of_le_of_ne atMost notPower) (by omega)
        (lower.imp_left fun isNormal => isNormal.trans atLeast)
    exact ⟨number, isNumber, by rw [isMantissa, isShift]⟩

end Binary64

end Relavium.Library
