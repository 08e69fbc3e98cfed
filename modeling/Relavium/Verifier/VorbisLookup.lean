import Relavium.Library.DoubleInteger
import Mathlib.Order.Bounds.Basic

/-!
# Sizes of lookup tables

Model of `powerFits` and `lookupValues` of
`packages/shared/src/media-verifier-vorbis.ts`.  A lookup table of a Vorbis
codebook has as many values as the largest integer whose power does not exceed
the number of entries.  `powerFits` compares a power with a limit and saturates
its base, so that its products stay small.

The numbers are integers that every operation rounds to binary64.  Halving
and the remainder by two are exact and are written as such.
-/

namespace Relavium.Verifier
namespace Vorbis

open Library

/-- A number that `powerFits` forms. -/
inductive Formed
  /-- An exponent that is halved. -/
  | exponent (number : Nat)
  /-- A bit, a quotient, a product or the saturated base. -/
  | amount (number : Nat)

def Formed.number : Formed → Nat
  | .exponent number => number
  | .amount number => number

/-- The value after a turn of the loop. -/
def nextValue
    (base exponent value : Nat) : Nat :=
  if exponent % 2 ≠ 0 then nearestDouble (value * base) else value

/-- The base after a turn of the loop: its square, or a base beyond the limit. -/
def nextBase
    (limit base half : Nat) : Nat :=
  if 0 < half then
    if floorQuotient limit base < base then nearestDouble (limit + 1)
    else nearestDouble (base * base)
  else base

/-- The numbers that a turn of the loop forms when it goes on. -/
def turnFormed
    (limit base exponent value : Nat) : List Formed :=
  .amount (exponent % 2) ::
    (if exponent % 2 ≠ 0 then
      [.amount (floorQuotient limit base), .amount (nextValue base exponent value)]
    else []) ++
    .exponent (exponent / 2) ::
      (if 0 < exponent / 2 then
        [.amount (floorQuotient limit base), .amount (nextBase limit base (exponent / 2))]
      else [])

/-- The loop of `powerFits`, with the numbers that it forms. -/
def powerLoop
    (limit base exponent value : Nat) : Bool × List Formed :=
  if 0 < exponent then
    if exponent % 2 ≠ 0 ∧ floorQuotient limit base < value then
      (false, [.amount (exponent % 2), .amount (floorQuotient limit base)])
    else
      let (fits, formed) := powerLoop limit (nextBase limit base (exponent / 2)) (exponent / 2)
        (nextValue base exponent value)
      (fits, turnFormed limit base exponent value ++ formed)
  else (decide (value ≤ limit), [])
termination_by exponent

/-- `powerFits`, for a positive base. -/
def powerFits
    (base exponent limit : Nat) : Bool :=
  (powerLoop limit base exponent 1).1

/-- The numbers that `powerFits` forms. -/
def powerFormed
    (base exponent limit : Nat) : List Formed :=
  (powerLoop limit base exponent 1).2

/-- The middle of a search, as `Math.floor((low + high + 1) / 2)` rounds it. -/
def searchMiddle (low high : Nat) : Nat :=
  nearestDouble (nearestDouble (low + high) + 1) / 2

/-- The search of `lookupValues`, given up after so many turns. -/
def lookupSearch
    (entries dimensions : Nat) : Nat → Nat → Nat → Option Nat
  | 0, _, _ => none
  | turns + 1, low, high =>
    if low < high then
      let middle := searchMiddle low high
      if powerFits middle dimensions entries then
        lookupSearch entries dimensions turns middle high
      else lookupSearch entries dimensions turns low (nearestDouble (middle - 1))
    else some low

/-- `lookupValues`; nothing if its search takes more turns. -/
def lookupValues
    (turns entries dimensions : Nat) : Option Nat :=
  if entries = 0 ∨ dimensions = 0 then some 0
  else lookupSearch entries dimensions turns 0 entries

/-! ## Powers -/

variable
  {limit base exponent value : Nat}

/-- A base that exceeds the limit decides every power but the zeroth. -/
theorem power_exceeds (positive : 0 < value) (isPower : 0 < exponent) (exceeds : limit < base) :
    limit < value * base ^ exponent :=
  calc limit < base := exceeds
    _ ≤ base ^ exponent := Nat.le_self_pow (by omega) base
    _ ≤ value * base ^ exponent := Nat.le_mul_of_pos_left _ positive

section Turn

variable
  (safe : limit < 2 ^ 53)
  (isBase : 0 < base)

include safe isBase

/-- The comparison with a quotient decides like that with a product. -/
theorem floorQuotient_lt_iff : floorQuotient limit base < value ↔ limit < value * base := by
  rw [floorQuotient_of_safe safe isBase]
  exact Nat.div_lt_iff_lt_mul isBase

/-- A product that is formed is exact, as it does not exceed the limit. -/
theorem nextValue_eq (undecided : ¬(exponent % 2 ≠ 0 ∧ floorQuotient limit base < value)) :
    nextValue base exponent value = value * base ^ (exponent % 2) := by
  obtain isEven | isOdd := Nat.mod_two_eq_zero_or_one exponent
  · simp [nextValue, isEven]
  · have fits : value * base ≤ limit := by
      rw [floorQuotient_lt_iff safe isBase] at undecided
      omega
    simp [nextValue, isOdd, nearestDouble_of_lt (fits.trans_lt safe)]

/-- The base of the next turn is the square, or the square exceeds the limit and
the base does, too. -/
theorem nextBase_cases {half : Nat} (isHalf : 0 < half) :
    nextBase limit base half = base * base ∧ base * base ≤ limit ∨
      nextBase limit base half = limit + 1 ∧ limit < base * base := by
  rw [nextBase, if_pos isHalf]
  split
  · rename_i saturated
    exact .inr ⟨nearestDouble_of_le safe, (floorQuotient_lt_iff safe isBase).mp saturated⟩
  · rename_i fits
    rw [floorQuotient_lt_iff safe isBase, Nat.not_lt] at fits
    exact .inl ⟨nearestDouble_of_lt (fits.trans_lt safe), fits⟩

theorem nextBase_pos {half : Nat} :
    0 < nextBase limit base half := by
  obtain isLast | isHalf := Nat.eq_zero_or_pos half
  · simpa [nextBase, isLast] using isBase
  · obtain ⟨isSquare, -⟩ | ⟨isSaturated, -⟩ := nextBase_cases safe isBase isHalf
    · rw [isSquare]
      exact Nat.mul_pos isBase isBase
    · rw [isSaturated]
      exact Nat.succ_pos limit

/-- The base of the next turn decides like the square. -/
theorem nextBase_fits {half : Nat} (positive : 0 < value) :
    value * nextBase limit base half ^ half ≤ limit ↔ value * (base * base) ^ half ≤ limit := by
  obtain isLast | isHalf := Nat.eq_zero_or_pos half
  · simp [isLast]
  · obtain ⟨isSquare, -⟩ | ⟨isSaturated, exceeds⟩ := nextBase_cases safe isBase isHalf
    · rw [isSquare]
    · have byLimit := power_exceeds positive isHalf (Nat.lt_succ_self limit)
      have byBase := power_exceeds positive isHalf exceeds
      rw [isSaturated]
      exact iff_of_false (Nat.not_le.mpr byLimit) (Nat.not_le.mpr byBase)

end Turn

theorem power_halved (base exponent value : Nat) :
    value * base ^ exponent =
      value * base ^ (exponent % 2) * (base * base) ^ (exponent / 2) := by
  conv_lhs => rw [← Nat.div_add_mod exponent 2, pow_add, pow_mul, pow_two]
  ring

theorem powerLoop_iff (safe : limit < 2 ^ 53) (isBase : 0 < base) (positive : 0 < value) :
    (powerLoop limit base exponent value).1 = true ↔ value * base ^ exponent ≤ limit := by
  fun_induction powerLoop limit base exponent value with
  | case1 base exponent value isPower decided =>
    -- The product exceeds the limit already.
    have exceeds : limit < value * base := (floorQuotient_lt_iff safe isBase).mp decided.2
    have grows : value * base ≤ value * base ^ exponent :=
      Nat.mul_le_mul_left value (Nat.le_self_pow (by omega) base)
    simp only [Bool.false_eq_true, false_iff]
    omega
  | case2 base exponent value isPower undecided fits formed isRest ih =>
    have isValue := nextValue_eq safe isBase undecided
    have nextPositive : 0 < value * base ^ (exponent % 2) :=
      Nat.mul_pos positive (Nat.pow_pos isBase)
    rw [isRest, isValue] at ih
    rw [ih (nextBase_pos safe isBase) nextPositive, nextBase_fits safe isBase nextPositive,
      ← power_halved]
  | case3 base exponent value notPower =>
    obtain rfl : exponent = 0 := by omega
    simp

theorem powerFits_iff (safe : limit < 2 ^ 53) (isBase : 0 < base) :
    powerFits base exponent limit = true ↔ base ^ exponent ≤ limit := by
  rw [powerFits, powerLoop_iff safe isBase Nat.one_pos, Nat.one_mul]

/-- A number that is formed is a smaller exponent or stays below a bound. -/
def Formed.Within
    (exponent bound : Nat) : Formed → Prop
  | .exponent number => number ≤ exponent
  | .amount number => number ≤ bound

theorem turnFormed_within
    {bound : Nat} (safe : limit < 2 ^ 53) (isBase : 0 < base) (limitBound : limit + 1 ≤ bound)
    (undecided : ¬(exponent % 2 ≠ 0 ∧ floorQuotient limit base < value)) :
    ∀ formed ∈ turnFormed limit base exponent value, formed.Within exponent bound := by
  have quotient : floorQuotient limit base ≤ bound := by
    rw [floorQuotient_of_safe safe isBase]
    exact (Nat.div_le_self limit base).trans (by omega)
  have bit : exponent % 2 ≤ bound := by omega
  have product : exponent % 2 ≠ 0 → nextValue base exponent value ≤ bound := fun isOdd => by
    have isOne : exponent % 2 = 1 := by omega
    rw [nextValue_eq safe isBase undecided, isOne, pow_one]
    rw [floorQuotient_lt_iff safe isBase] at undecided
    omega
  have square : 0 < exponent / 2 → nextBase limit base (exponent / 2) ≤ bound := by
    intro isHalf
    obtain ⟨isSquare, fits⟩ | ⟨isSaturated, -⟩ := nextBase_cases safe isBase isHalf
    · omega
    · omega
  refine List.forall_mem_append.mpr ⟨List.forall_mem_cons.mpr ⟨bit, ?_⟩,
    List.forall_mem_cons.mpr ⟨Nat.div_le_self exponent 2, ?_⟩⟩
  · split
    · next isOdd => simpa [Formed.Within] using ⟨quotient, product isOdd⟩
    · simp
  · split
    · next isHalf => simpa [Formed.Within] using ⟨quotient, square isHalf⟩
    · simp

/-- What the loop forms stays below every bound on the base and the saturated base. -/
theorem powerLoop_within
    {bound : Nat} (safe : limit < 2 ^ 53) (isBase : 0 < base) (limitBound : limit + 1 ≤ bound) :
    ∀ formed ∈ (powerLoop limit base exponent value).2, formed.Within exponent bound := by
  fun_induction powerLoop limit base exponent value with
  | case1 base exponent value isPower decided =>
    have quotient := Nat.div_le_self limit base
    simp only [List.mem_cons, List.not_mem_nil, or_false, forall_eq_or_imp, forall_eq,
      Formed.Within, floorQuotient_of_safe safe isBase]
    omega
  | case2 base exponent value isPower undecided fits formed isRest ih =>
    rw [isRest] at ih
    refine List.forall_mem_append.mpr
      ⟨turnFormed_within safe isBase limitBound undecided, fun number isFormed => ?_⟩
    have within := ih (nextBase_pos safe isBase) number isFormed
    cases number with
    | exponent number => exact within.trans (Nat.div_le_self exponent 2)
    | amount number => exact within
  | case3 => simp

/-! ## Roots -/

/-- Whether the search ends: it does unless the middle of two neighbours rounds to
the lower one, which a power with two factors keeps it from meeting. -/
def SearchEnds (entries dimensions : Nat) : Prop :=
  2 ≤ dimensions ∨ entries ≤ 2 ^ 52 ∨ entries % 2 = 0

/-- The sum that a turn of the search halves is formed exactly. -/
def SumExact (low high : Nat) : Prop :=
  low < high → low + high + 1 ≤ 2 ^ 53

variable
  {entries dimensions low high : Nat}

theorem searchMiddle_of_exact (sumExact : SumExact low high) (isOpen : low < high) :
    searchMiddle low high = (low + high + 1) / 2 := by
  have bound := sumExact isOpen
  rw [searchMiddle, nearestDouble_of_le (by omega : low + high ≤ 2 ^ 53),
    nearestDouble_of_le bound]

/-- A square root is small, so that sums with it stay exact. -/
theorem sumExact_of_root
    {middle : Nat} (safe : entries < 2 ^ 53) (manyDimensions : 2 ≤ dimensions)
    (fits : middle ^ dimensions ≤ entries) (isMiddle : high ≤ 2 * middle) :
    SumExact middle high := by
  intro isOpen
  have isSquare : middle ^ 2 ≤ middle ^ dimensions :=
    Nat.pow_le_pow_right (by omega) manyDimensions
  have small : middle < 2 ^ 27 := by
    apply lt_of_pow_lt_pow_left₀ 2 (Nat.zero_le _)
    omega
  omega

/-- The search with exact sums keeps a power that fits below one that does not, and
ends as soon as its bounds meet. -/
theorem lookupSearch_of_exact
    {turns : Nat} (safe : entries < 2 ^ 53) (sumsExact : 2 ≤ dimensions ∨ entries ≤ 2 ^ 52)
    (ordered : low ≤ high) (bounded : high ≤ entries) (sumExact : SumExact low high)
    (fits : low ^ dimensions ≤ entries) (exceeds : entries < (high + 1) ^ dimensions)
    (enough : high - low < turns) :
    ∃ root, lookupSearch entries dimensions turns low high = some root ∧
      root ^ dimensions ≤ entries ∧ entries < (root + 1) ^ dimensions := by
  induction turns generalizing low high with
  | zero => omega
  | succ turns ih =>
    rw [lookupSearch]
    split
    · rename_i isOpen
      have isMiddle := searchMiddle_of_exact sumExact isOpen
      dsimp only
      rw [isMiddle]
      obtain ⟨middle, isHalf⟩ : ∃ middle, (low + high + 1) / 2 = middle := ⟨_, rfl⟩
      rw [isHalf]
      have powerFits := @powerFits_iff entries middle dimensions safe (by omega)
      split
      · rename_i isFit
        have isRoot := powerFits.mp isFit
        apply ih (by omega) bounded _ isRoot exceeds (by omega)
        obtain manyDimensions | small := sumsExact
        · exact sumExact_of_root safe manyDimensions isRoot (by omega)
        · intro stillOpen
          omega
      · rename_i noFit
        have isBelow : nearestDouble (middle - 1) = middle - 1 :=
          nearestDouble_of_lt (by omega)
        rw [isBelow]
        apply ih (by omega) (by omega) _ fits _ (by omega)
        · intro stillOpen
          have := sumExact isOpen
          omega
        · rw [Nat.sub_add_cancel (by omega)]
          exact Nat.lt_of_not_le fun isFit => noFit (powerFits.mpr isFit)
    · rename_i isClosed
      obtain rfl : low = high := by omega
      exact ⟨low, rfl, fits, exceeds⟩

/-! ### The first powers -/

/-- The middle of bounds whose upper one is even and large lies between them. -/
theorem searchMiddle_even (isEven : high % 2 = 0) (safe : high < 2 ^ 53) (isOpen : low < high) :
    low < searchMiddle low high ∧ searchMiddle low high ≤ high := by
  unfold searchMiddle
  obtain small | large := Nat.lt_or_ge (low + high) (2 ^ 53)
  · rw [nearestDouble_of_lt small, nearestDouble_of_le small]
    omega
  · rw [nearestDouble_of_lt_double large (by omega)]
    split <;> rw [nearestDouble_of_lt_double (by omega) (by omega)] <;> split <;> omega

/-- The middle of bounds whose upper one is odd and large does not reach it. -/
theorem searchMiddle_odd
    (isOdd : high % 2 = 1) (large : 2 ^ 52 < high) (safe : high < 2 ^ 53) (isOpen : low < high) :
    searchMiddle low high < high ∧ 0 < searchMiddle low high := by
  unfold searchMiddle
  obtain small | isLarge := Nat.lt_or_ge (low + high) (2 ^ 53)
  · rw [nearestDouble_of_lt small, nearestDouble_of_le small]
    omega
  · rw [nearestDouble_of_lt_double isLarge (by omega)]
    split <;> rw [nearestDouble_of_lt_double (by omega) (by omega)] <;> split <;> omega

/-- The search for a first power of an even integer ends with it. -/
theorem lookupSearch_even
    {turns : Nat} (isEven : entries % 2 = 0) (safe : entries < 2 ^ 53) (ordered : low ≤ entries)
    (enough : entries - low < turns) :
    lookupSearch entries 1 turns low entries = some entries := by
  induction turns generalizing low with
  | zero => omega
  | succ turns ih =>
    rw [lookupSearch]
    split
    · rename_i isOpen
      obtain ⟨above, below⟩ := searchMiddle_even isEven safe isOpen
      have isFit := (@powerFits_iff entries (searchMiddle low entries) 1 safe
        (by omega)).mpr (by simpa using below)
      simp only [isFit, if_true]
      exact ih below (by omega)
    · next isClosed => rw [Nat.le_antisymm ordered (Nat.le_of_not_lt isClosed)]

/-- The search for a first power of a large odd integer does not end. -/
theorem lookupSearch_odd
    {turns : Nat} (isOdd : entries % 2 = 1) (large : 2 ^ 52 < entries) (safe : entries < 2 ^ 53)
    (isOpen : low < entries) :
    lookupSearch entries 1 turns low entries = none := by
  induction turns generalizing low with
  | zero => rfl
  | succ turns ih =>
    obtain ⟨below, positive⟩ := searchMiddle_odd isOdd large safe isOpen
    have isFit := (@powerFits_iff entries (searchMiddle low entries) 1 safe
      positive).mpr (by simpa using below.le)
    rw [lookupSearch, if_pos isOpen]
    simp only [isFit, if_true]
    exact ih below

/-! ### The search -/

/-- A power that fits below one that does not is that of the largest root. -/
theorem isGreatest_of_power
    {root : Nat} (fits : root ^ dimensions ≤ entries)
    (exceeds : entries < (root + 1) ^ dimensions) :
    IsGreatest (fun root => root ^ dimensions ≤ entries) root := by
  refine ⟨fits, fun other isRoot => ?_⟩
  apply Nat.le_of_lt_succ
  exact lt_of_pow_lt_pow_left₀ dimensions (Nat.zero_le _) (Nat.lt_of_le_of_lt isRoot exceeds)

/-- The claimed bound on intermediate values, exactness and end of the search all
fail: halved exponents exceed the base and the limit, a saturated base of `2 ^ 53 + 1`
rounds back to the limit, and the middle of `2 ^ 52` and `2 ^ 52 + 1` to the lower. -/
theorem lookup_not_exact :
    (¬∀ base exponent limit : Nat, 1 ≤ base →
      ∀ formed ∈ powerFormed base exponent limit, formed.number ≤ max base (limit + 1)) ∧
    (powerFits (2 ^ 27) 4 (2 ^ 53) = true ∧ 2 ^ 53 < (2 ^ 27) ^ 4) ∧
    ∀ turns, lookupValues turns (2 ^ 52 + 1) 1 = none := by
  refine ⟨fun bounded => ?_, ⟨?_, by decide⟩, fun turns => ?_⟩
  · have isFormed : Formed.exponent 2 ∈ powerFormed 1 4 0 := by
      rw [powerFormed, powerLoop]
      simp [turnFormed]
    have impossible := bounded 1 4 0 (Nat.le_refl 1) _ isFormed
    simp [Formed.number] at impossible
  · have turn {base exponent value : Nat} (isEven : exponent % 2 = 0) (isPower : 0 < exponent) :
        (powerLoop (2 ^ 53) base exponent value).1 =
          (powerLoop (2 ^ 53) (nextBase (2 ^ 53) base (exponent / 2)) (exponent / 2) value).1 := by
      rw [powerLoop]
      simp [isEven, isPower, nextValue]
    have isSaturated : nextBase (2 ^ 53) (2 ^ 27) 2 = 2 ^ 53 := by decide +kernel
    have isLimit : nextBase (2 ^ 53) (2 ^ 53) 1 = 2 ^ 53 := by decide +kernel
    have isWhole : ¬floorQuotient (2 ^ 53) (2 ^ 53) < 1 := by decide +kernel
    have isValue : nextValue (2 ^ 53) 1 1 = 2 ^ 53 := by decide
    rw [powerFits, turn rfl (by decide), isSaturated, turn rfl (by decide), isLimit, powerLoop,
      if_pos (by decide), if_neg fun decided => isWhole decided.2, isValue, powerLoop]
    rfl
  · rw [lookupValues, if_neg (by decide)]
    exact lookupSearch_odd (by decide) (by decide) (by decide) (by decide)

/-- For a limit that is a safe integer the comparison of powers is exact and forms no
large amounts; and so the lookup finds the largest root of a safe integer, unless it is
the first root of an odd one beyond `2 ^ 52`, whose search does not end. -/
theorem lookupValues_exact :
    (∀ base exponent limit : Nat, 1 ≤ base → limit < 2 ^ 53 →
      (powerFits base exponent limit = true ↔ base ^ exponent ≤ limit) ∧
        ∀ formed ∈ powerFormed base exponent limit,
          formed.Within exponent (max base (limit + 1))) ∧
      ∀ entries dimensions : Nat, 1 ≤ entries → entries < 2 ^ 53 → 1 ≤ dimensions →
        (SearchEnds entries dimensions →
          ∃ root, IsGreatest (fun root => root ^ dimensions ≤ entries) root ∧
            ∀ turns > entries, lookupValues turns entries dimensions = some root) ∧
        (¬SearchEnds entries dimensions →
          ∀ turns, lookupValues turns entries dimensions = none) := by
  refine ⟨fun base exponent limit isBase safe => ⟨powerFits_iff safe isBase,
    powerLoop_within safe isBase (Nat.le_max_right base (limit + 1))⟩,
    fun entries dimensions isEntries safe isDimensions => ?_⟩
  have isSearch (turns : Nat) : lookupValues turns entries dimensions =
      lookupSearch entries dimensions turns 0 entries :=
    if_neg (by omega)
  simp only [isSearch]
  refine ⟨fun ends => ?_, fun endless turns => ?_⟩
  · by_cases sumsExact : 2 ≤ dimensions ∨ entries ≤ 2 ^ 52
    · have search {turns : Nat} (enough : entries < turns) :=
        lookupSearch_of_exact safe sumsExact (Nat.zero_le entries) (le_refl entries)
          (fun _ => by omega) (show 0 ^ dimensions ≤ entries by
            simp [Nat.pos_iff_ne_zero.mp isDimensions])
          (show entries < (entries + 1) ^ dimensions from
            Nat.le_self_pow (by omega) (entries + 1)) enough
      obtain ⟨root, -, fits, exceeds⟩ := search (Nat.lt_succ_self entries)
      have isRoot := isGreatest_of_power fits exceeds
      refine ⟨root, isRoot, fun turns enough => ?_⟩
      obtain ⟨other, isFound, fits, exceeds⟩ := search enough
      rw [isFound, (isGreatest_of_power fits exceeds).unique isRoot]
    · have isFirst : dimensions = 1 := by omega
      have isEven : entries % 2 = 0 := by
        unfold SearchEnds at ends
        omega
      subst isFirst
      refine ⟨entries, isGreatest_of_power (by simp) (by simp), fun turns enough => ?_⟩
      exact lookupSearch_even isEven safe (Nat.zero_le entries) enough
  · unfold SearchEnds at endless
    obtain rfl : dimensions = 1 := by omega
    exact lookupSearch_odd (by omega) (by omega) safe (by omega)

/-- The largest fourth power up to eighty is that of two. -/
theorem lookupValues_eighty :
    powerFits 3 4 80 = false ∧
      ∃ root, IsGreatest (fun root => root ^ 4 ≤ 80) root ∧
        ∀ turns > 80, lookupValues turns 80 4 = some root := by
  have exact := lookupValues_exact
  refine ⟨Bool.eq_false_iff.mpr fun fits => ?_, (exact.2 80 4 (by decide) (by decide)
    (by decide)).1 (.inl (by decide))⟩
  exact absurd ((exact.1 3 4 80 (by decide) (by decide)).1.mp fits) (by decide)

end Vorbis
end Relavium.Verifier
