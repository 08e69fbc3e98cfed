import Relavium.Library.Binary64
import Relavium.Library.SafeInteger
import Mathlib.Algebra.Order.Ring.Int

/-!
# Integer arithmetic of double precision numbers

Adding two integers that are binary64 numbers yields the nearest integer that
is one, the even of two equally near ones.  Below `2 ^ 53` every integer is a
binary64 number and addition is exact; from there on it stays at or above
`2 ^ 53`.  The integer part of a rounded quotient is that of the quotient as
long as the dividend is below `2 ^ 53`.
-/

namespace Relavium.Library

/-- The binary64 number nearest to a natural number, ties going to even. -/
def nearestDouble (value : Nat) : Nat :=
  let unit := 2 ^ (value.size - 53)
  let lower := value / unit
  let rest := value % unit
  if 2 * rest < unit ∨ 2 * rest = unit ∧ lower % 2 = 0 then lower * unit
  else (lower + 1) * unit

/-- The binary64 number nearest to an integer. -/
def roundToDouble : Int → Int
  | .ofNat value => nearestDouble value
  | .negSucc value => -(nearestDouble (value + 1) : Int)

/-- The sum of two integers, as ECMAScript adds numbers. -/
def addNumbers (left right : Int) : Int :=
  roundToDouble (left + right)

variable {value : Nat} {left right : Int}

theorem nearestDouble_of_lt (small : value < 2 ^ 53) :
    nearestDouble value = value := by
  have size : value.size - 53 = 0 := by
    have bound := Nat.size_le.mpr small
    omega
  simp [nearestDouble, size, Nat.mod_one]

/-- The first number that is no safe integer is exact, too. -/
theorem nearestDouble_of_le (small : value ≤ 2 ^ 53) :
    nearestDouble value = value := by
  obtain below | rfl := Nat.lt_or_eq_of_le small
  · exact nearestDouble_of_lt below
  · decide

/-- Between `2 ^ 53` and `2 ^ 54` the binary64 numbers are the even integers; ties
go to the multiples of four. -/
theorem nearestDouble_of_lt_double (large : 2 ^ 53 ≤ value) (small : value < 2 ^ 54) :
    nearestDouble value = if value % 4 = 3 then value + 1 else value - value % 2 := by
  have isSize : value.size = 54 :=
    Nat.le_antisymm (Nat.size_le.mpr small) (Nat.lt_size.mpr large)
  unfold nearestDouble
  simp only [isSize, Nat.reduceSub, Nat.pow_one]
  split <;> split <;> omega

/-- Rounding adds at most one part in `2 ^ 53`. -/
theorem nearestDouble_le (value : Nat) :
    2 ^ 53 * nearestDouble value ≤ (2 ^ 53 + 1) * value := by
  have parts := Nat.div_add_mod value (2 ^ (value.size - 53))
  have enough : 2 ^ 52 * 2 ^ (value.size - 53) ≤ value ∨ value.size - 53 = 0 := by
    obtain small | large := Nat.lt_or_ge 53 value.size
    · left
      rw [← Nat.pow_add]
      refine Nat.lt_size.mp ?_
      omega
    · right
      omega
  have unit : 0 < 2 ^ (value.size - 53) := by positivity
  unfold nearestDouble
  simp only
  generalize value / 2 ^ (value.size - 53) = lower at parts ⊢
  generalize isRest : value % 2 ^ (value.size - 53) = rest at parts ⊢
  have remains : rest < 2 ^ (value.size - 53) := isRest ▸ Nat.mod_lt value unit
  obtain atLeast | isZero := enough
  · generalize 2 ^ (value.size - 53) = step at parts remains atLeast unit ⊢
    rw [Nat.mul_comm step lower] at parts
    split
    · omega
    · rename_i roundsUp
      rw [Nat.add_mul, Nat.one_mul]
      omega
  · rw [isZero, Nat.pow_zero] at parts remains ⊢
    have noRest : rest = 0 := by omega
    split
    · omega
    · next roundsUp => exact absurd (.inl (by omega)) roundsUp

/-- Rounding does not lead back below `2 ^ 53`. -/
theorem le_nearestDouble (large : 2 ^ 53 ≤ value) :
    2 ^ 53 ≤ nearestDouble value := by
  have size : 53 < value.size := Nat.lt_size.mpr large
  obtain ⟨shift, shiftIs⟩ : ∃ shift, value.size - 53 = shift + 1 :=
    ⟨value.size - 54, by omega⟩
  have leading : 2 ^ (shift + 53) ≤ value := by
    refine Nat.lt_size.mp ?_
    omega
  have lower : 2 ^ 52 ≤ value / 2 ^ (shift + 1) := by
    rw [Nat.le_div_iff_mul_le (by positivity), ← Nat.pow_add]
    exact (congrArg (2 ^ ·) (by omega : 52 + (shift + 1) = shift + 53)).le.trans
      leading
  have unit : 2 ≤ 2 ^ (shift + 1) := by
    rw [Nat.pow_succ]
    exact Nat.le_mul_of_pos_left 2 (by positivity)
  have product {quotient : Nat} (atLeast : 2 ^ 52 ≤ quotient) :
      2 ^ 53 ≤ quotient * 2 ^ (shift + 1) :=
    calc 2 ^ 53 = 2 ^ 52 * 2 := by rw [← Nat.pow_succ]
      _ ≤ quotient * 2 ^ (shift + 1) := Nat.mul_le_mul atLeast unit
  unfold nearestDouble
  simp only [shiftIs]
  split
  · exact product lower
  · exact product (Nat.le_succ_of_le lower)

theorem roundToDouble_natCast (value : Nat) :
    roundToDouble value = nearestDouble value := rfl

/-- Small non-negative integers are exact. -/
theorem roundToDouble_of_le {value : Int} (nonneg : 0 ≤ value) (small : value ≤ 2 ^ 53) :
    roundToDouble value = value := by
  obtain ⟨value, rfl⟩ := Int.eq_ofNat_of_zero_le nonneg
  rw [roundToDouble_natCast, nearestDouble_of_le]
  omega

theorem roundToDouble_of_safe {value : Int} (nonneg : 0 ≤ value) (safe : value ≤ maxSafeInteger) :
    roundToDouble value = value := by
  refine roundToDouble_of_le nonneg ?_
  unfold maxSafeInteger at safe
  omega

theorem roundToDouble_nonneg {value : Int} (nonneg : 0 ≤ value) :
    0 ≤ roundToDouble value := by
  obtain ⟨value, rfl⟩ := Int.eq_ofNat_of_zero_le nonneg
  exact Int.natCast_nonneg _

/-- Rounding keeps negative integers negative. -/
theorem nonneg_of_roundToDouble_nonneg {value : Int} (nonneg : 0 ≤ roundToDouble value) :
    0 ≤ value := by
  cases value with
  | ofNat value => exact Int.natCast_nonneg _
  | negSucc value =>
    have positive : 0 < nearestDouble (value + 1) := by
      rcases Nat.lt_or_ge (value + 1) (2 ^ 53) with small | large
      · rw [nearestDouble_of_lt small]
        omega
      · exact Nat.lt_of_lt_of_le (by positivity) (le_nearestDouble large)
    rw [roundToDouble] at nonneg
    omega

/-- What rounds to a safe integer is that integer. -/
theorem eq_of_roundToDouble_safe
    {value : Int} (nonneg : 0 ≤ value) (safe : roundToDouble value ≤ maxSafeInteger) :
    roundToDouble value = value := by
  obtain ⟨value, rfl⟩ := Int.eq_ofNat_of_zero_le nonneg
  rw [roundToDouble_natCast] at safe ⊢
  rcases Nat.lt_or_ge value (2 ^ 53) with small | large
  · rw [nearestDouble_of_lt small]
  · have bound := le_nearestDouble large
    unfold maxSafeInteger at safe
    omega

theorem addNumbers_natCast (left right : Nat) :
    addNumbers left right = nearestDouble (left + right) := by
  rw [addNumbers, ← Int.natCast_add, roundToDouble_natCast]

theorem addNumbers_of_le
    (leftNonneg : 0 ≤ left) (rightNonneg : 0 ≤ right) (small : left + right ≤ 2 ^ 53) :
    addNumbers left right = left + right :=
  roundToDouble_of_le (Int.add_nonneg leftNonneg rightNonneg) small

theorem addNumbers_nonneg (leftNonneg : 0 ≤ left) (rightNonneg : 0 ≤ right) :
    0 ≤ addNumbers left right :=
  roundToDouble_nonneg (Int.add_nonneg leftNonneg rightNonneg)

/-- A safe sum is exact. -/
theorem addNumbers_of_safe
    (leftNonneg : 0 ≤ left) (rightNonneg : 0 ≤ right) (safe : left + right ≤ maxSafeInteger) :
    addNumbers left right = left + right :=
  roundToDouble_of_safe (Int.add_nonneg leftNonneg rightNonneg) safe

/-- A sum that comes out safe was exact. -/
theorem eq_of_addNumbers_safe
    (leftNonneg : 0 ≤ left) (rightNonneg : 0 ≤ right)
    (safe : addNumbers left right ≤ maxSafeInteger) :
    addNumbers left right = left + right :=
  eq_of_roundToDouble_safe (Int.add_nonneg leftNonneg rightNonneg) safe

/-! ## Quotients -/

/-- The shift of a quotient of a safe integer stays below the scale. -/
theorem shift_le_scale
    {dividend divisor scale shift : Nat} (safe : dividend < 2 ^ 53)
    (isShift : (dividend * 2 ^ scale / divisor).size - 53 = shift) :
    shift ≤ scale := by
  have bound : (dividend * 2 ^ scale / divisor).size ≤ 53 + scale := by
    rw [Nat.size_le, Nat.pow_add]
    refine (Nat.div_le_self _ _).trans_lt ?_
    exact Nat.mul_lt_mul_of_pos_right safe (by positivity)
  omega

/-- The units of a rounded quotient are less than twice as fine as the divisor. -/
theorem divisor_lt_units
    {dividend divisor units shift : Nat} (safe : dividend < 2 ^ 53) (unitsPos : 0 < units)
    (positive : 0 < divisor)
    (leading : 2 ^ (52 + shift) ≤ dividend * (units * 2 ^ shift) / divisor) :
    divisor < 2 * units := by
  rw [Nat.le_div_iff_mul_le positive, Nat.pow_add] at leading
  have cancelled : 2 ^ 52 * divisor ≤ dividend * units := by
    apply Nat.le_of_mul_le_mul_right _ (show 0 < 2 ^ shift by positivity)
    calc 2 ^ 52 * divisor * 2 ^ shift = 2 ^ 52 * 2 ^ shift * divisor := by ring
      _ ≤ dividend * (units * 2 ^ shift) := leading
      _ = dividend * units * 2 ^ shift := by ring
  have bound : dividend * units < 2 ^ 53 * units :=
    Nat.mul_lt_mul_of_pos_right safe unitsPos
  omega

/-- The integer part of a rounded quotient is that of the quotient, for a safe
integer. -/
theorem floor_rounded
    {dividend divisor scale shift : Nat} (safe : dividend < 2 ^ 53) (positive : 0 < divisor)
    (fine : 53 < scale) (isShift : (dividend * 2 ^ scale / divisor).size - 53 = shift) :
    roundHalfEven (dividend * 2 ^ scale) (divisor * 2 ^ shift) * 2 ^ shift / 2 ^ scale =
      dividend / divisor := by
  obtain ⟨units, isUnits⟩ : ∃ units, 2 ^ scale = units * 2 ^ shift :=
    ⟨2 ^ (scale - shift), by
      rw [← Nat.pow_add, Nat.sub_add_cancel (shift_le_scale safe isShift)]⟩
  have unitPos : 0 < 2 ^ shift := by positivity
  have unitsPos : 0 < units := by
    apply Nat.pos_of_ne_zero
    rintro rfl
    have : 0 < 2 ^ scale := by positivity
    omega
  have rounded : roundHalfEven (dividend * 2 ^ scale) (divisor * 2 ^ shift) =
      roundHalfEven (dividend * units) divisor := by
    rw [isUnits, ← roundHalfEven_scale (dividend * units) divisor unitPos]
    congr 1 <;> ring
  have parts := Nat.div_add_mod dividend divisor
  have remainder := Nat.mod_lt dividend positive
  have atLeast : dividend / divisor * units ≤ roundHalfEven (dividend * units) divisor := by
    refine le_trans ?_ (div_le_roundHalfEven _ _)
    rw [Nat.le_div_iff_mul_le positive]
    calc dividend / divisor * units * divisor = divisor * (dividend / divisor) * units := by ring
      _ ≤ dividend * units := Nat.mul_le_mul_right _ (by omega)
  have below : roundHalfEven (dividend * units) divisor < (dividend / divisor + 1) * units := by
    obtain isZero | isLarge := Nat.eq_zero_or_pos shift
    · subst isZero
      have small : dividend * 2 ^ scale / divisor < 2 ^ 53 := by
        apply Nat.size_le.mp
        omega
      have isScale : units = 2 ^ scale := by simpa using isUnits.symm
      have wide : 2 ^ 53 < units := by
        rw [isScale]
        exact Nat.pow_lt_pow_right (by decide) fine
      have atMost := roundHalfEven_le_succ (dividend * units) divisor
      rw [← isScale] at small
      have : units ≤ (dividend / divisor + 1) * units :=
        Nat.le_mul_of_pos_left _ (Nat.succ_pos _)
      omega
    · have leading : 2 ^ (52 + shift) ≤ dividend * (units * 2 ^ shift) / divisor := by
        apply Nat.lt_size.mp
        rw [← isUnits]
        omega
      have coarse := divisor_lt_units safe unitsPos positive leading
      apply roundHalfEven_lt
      have next : dividend * units + units ≤ (dividend / divisor + 1) * units * divisor := by
        calc dividend * units + units = (dividend + 1) * units := by ring
          _ ≤ (divisor * (dividend / divisor) + divisor) * units :=
            Nat.mul_le_mul_right _ (by omega)
          _ = (dividend / divisor + 1) * units * divisor := by ring
      omega
  rw [rounded, isUnits, Nat.mul_div_mul_right _ _ unitPos, Nat.div_eq_iff unitsPos]
  rw [Nat.add_mul, Nat.one_mul] at below
  omega

/-- `Math.floor(dividend / divisor)` of two integers, the divisor positive. -/
def floorQuotient (dividend divisor : Nat) : Nat :=
  ((Binary64.nearest false dividend divisor).map Binary64.floor).getD 0

/-- The rounded quotient of a safe integer does not reach the next integer. -/
theorem floorQuotient_of_safe
    {dividend divisor : Nat} (safe : dividend < 2 ^ 53) (positive : 0 < divisor) :
    floorQuotient dividend divisor = dividend / divisor := by
  obtain ⟨shift, isShift⟩ : ∃ shift, (dividend * 2 ^ 1074 / divisor).size - 53 = shift := ⟨_, rfl⟩
  have small := shift_le_scale safe isShift
  obtain ⟨number, isNumber, isValue⟩ := Binary64.nearest_parts false isShift (by omega)
  rw [floorQuotient, isNumber, Option.map_some, Option.getD_some, Binary64.floor, isValue]
  exact floor_rounded safe positive (by decide) isShift

end Relavium.Library
