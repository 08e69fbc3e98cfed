import Relavium.Library.DecimalRounding
import Relavium.Library.Json

/-!
# Numbers as text

A decimal literal, as JSON writes one, is read digit by digit and rounded to
the nearest binary64 number.  In the other direction a number is written as its
shortest decimal, in positional or exponent notation by its magnitude.  Reading
what has been written gives the number back.
-/

namespace Relavium.Library

/-- An ECMAScript number. -/
inductive JsNumber
  | finite (value : Binary64)
  | infinity (negative : Bool)
  | notANumber
  deriving DecidableEq

/-- A rounded number; beyond the largest one it is an infinity. -/
def JsNumber.ofNearest (negative : Bool) : Option Binary64 → JsNumber
  | some number => .finite number
  | none => .infinity negative

/-- The code unit of a decimal digit. -/
def digitUnit (digit : Nat) : UInt16 :=
  UInt16.ofNat (48 + digit)

/-- Whether a code unit is a decimal digit. -/
def isDigitUnit (unit : UInt16) : Bool :=
  decide (48 ≤ unit.toNat ∧ unit.toNat ≤ 57)

/-- The decimal digits of a number, the first one first. -/
def decimalDigits (value : Nat) : List Nat :=
  (Nat.digits 10 value).reverse

/-- The number that decimal digits stand for. -/
def digitsValue (digits : List Nat) : Nat :=
  digits.foldl (fun value digit => value * 10 + digit) 0

/-- Split the digits off the front of a text. -/
def spanDigits : JsString → List Nat × JsString
  | [] => ([], [])
  | unit :: rest =>
    if isDigitUnit unit then
      ((unit.toNat - 48) :: (spanDigits rest).1, (spanDigits rest).2)
    else ([], unit :: rest)

/-- The parts of a decimal literal. -/
structure NumericLiteral where
  /-- The literal starts with a minus sign. -/
  negative : Bool
  /-- The digits before the point. -/
  whole : List Nat
  /-- The digits after the point, which is absent without any. -/
  fraction : List Nat
  /-- The sign and the digits of the exponent. -/
  exponent : Option (Bool × List Nat)

namespace NumericLiteral

/-- The power of ten that the exponent stands for. -/
def exponentValue (literal : NumericLiteral) : Int :=
  match literal.exponent with
  | none => 0
  | some (true, digits) => -(digitsValue digits : Int)
  | some (false, digits) => digitsValue digits

/-- The number nearest to the literal. -/
def value (literal : NumericLiteral) : JsNumber :=
  JsNumber.ofNearest literal.negative
    (Binary64.ofDecimal literal.negative (digitsValue (literal.whole ++ literal.fraction))
      (literal.exponentValue - literal.fraction.length))

/-- The point with the digits after it. -/
def fractionText (fraction : List Nat) : JsString :=
  if fraction = [] then [] else 0x2E :: fraction.map digitUnit

/-- The exponent with its sign. -/
def exponentText : Option (Bool × List Nat) → JsString
  | none => []
  | some (negative, digits) =>
    0x65 :: (if negative then 0x2D else 0x2B) :: digits.map digitUnit

/-- The literal as text. -/
def text (literal : NumericLiteral) : JsString :=
  (if literal.negative then [0x2D] else []) ++
    (literal.whole.map digitUnit ++
      (fractionText literal.fraction ++ exponentText literal.exponent))

/-- The digits before the point do not start with a superfluous zero. -/
def wholeAllowed : List Nat → Bool
  | [] => false
  | [_] => true
  | first :: _ :: _ => decide (first ≠ 0)

/-- Read a point and the digits after it, if there is a point. -/
def parseFraction : JsString → Option (List Nat × JsString)
  | [] => some ([], [])
  | unit :: rest =>
    if unit = 0x2E then
      if (spanDigits rest).1 = [] then none else some (spanDigits rest)
    else some ([], unit :: rest)

/-- Read the sign of an exponent, if it has one. -/
def parseExponentSign : JsString → Bool × JsString
  | [] => (false, [])
  | unit :: rest =>
    if unit = 0x2D then (true, rest)
    else if unit = 0x2B then (false, rest)
    else (false, unit :: rest)

/-- Read an exponent, if there is one. -/
def parseExponent : JsString → Option (Option (Bool × List Nat) × JsString)
  | [] => some (none, [])
  | unit :: rest =>
    if unit = 0x65 ∨ unit = 0x45 then
      let signed := parseExponentSign rest
      let digits := spanDigits signed.2
      if digits.1 = [] then none
      else some (some (signed.1, digits.1), digits.2)
    else some (none, unit :: rest)

/-- Read the part of a literal after its sign. -/
def parseUnsigned (negative : Bool)
    (source : JsString) : Option (NumericLiteral × JsString) :=
  let whole := spanDigits source
  if wholeAllowed whole.1 then
    (parseFraction whole.2).bind fun fraction =>
      (parseExponent fraction.2).map fun exponent =>
        ({ negative := negative
           whole := whole.1
           fraction := fraction.1
           exponent := exponent.1 },
          exponent.2)
  else none

/-- Read a literal from the front of a text. -/
def parse : JsString → Option (NumericLiteral × JsString)
  | [] => none
  | unit :: rest =>
    if unit = 0x2D then parseUnsigned true rest
    else parseUnsigned false (unit :: rest)

end NumericLiteral

section Digits

theorem toNat_digitUnit {digit : Nat} (small : digit < 10) :
    (digitUnit digit).toNat = 48 + digit := by
  unfold digitUnit
  rw [UInt16.toNat_ofNat']
  omega

theorem isDigitUnit_digitUnit {digit : Nat} (small : digit < 10) :
    isDigitUnit (digitUnit digit) = true := by
  unfold isDigitUnit
  rw [toNat_digitUnit small]
  simp only [decide_eq_true_eq]
  omega

/-- The text does not go on with a digit. -/
def NoDigitAhead (rest : JsString) : Prop :=
  ∀ unit ∈ rest.head?, isDigitUnit unit = false

theorem spanDigits_of_noDigitAhead {rest : JsString} (ends : NoDigitAhead rest) :
    spanDigits rest = ([], rest) := by
  cases rest with
  | nil => rfl
  | cons unit rest =>
    have other := ends unit rfl
    simp [spanDigits, other]

/-- Digits that have been written are read back. -/
theorem spanDigits_append
    {digits : List Nat} (small : ∀ digit ∈ digits, digit < 10) {rest : JsString}
    (ends : NoDigitAhead rest) :
    spanDigits (digits.map digitUnit ++ rest) = (digits, rest) := by
  induction digits with
  | nil => exact spanDigits_of_noDigitAhead ends
  | cons digit digits ih =>
    have here := small digit List.mem_cons_self
    have later := ih fun other member =>
      small other (List.mem_cons_of_mem digit member)
    rw [List.map_cons, List.cons_append, spanDigits,
      isDigitUnit_digitUnit here, if_pos rfl, later, toNat_digitUnit here]
    simp

theorem decimalDigits_small (value : Nat) :
    ∀ digit ∈ decimalDigits value, digit < 10 := by
  intro digit member
  exact Nat.digits_lt_base (by decide) (List.mem_reverse.mp member)

theorem decimalDigits_ne_nil {value : Nat} (nonzero : value ≠ 0) :
    decimalDigits value ≠ [] := by
  unfold decimalDigits
  rw [ne_eq, List.reverse_eq_nil_iff]
  exact Nat.digits_ne_nil_iff_ne_zero.mpr nonzero

theorem decimalDigits_head
    {value first : Nat} {rest : List Nat} (shape : decimalDigits value = first :: rest) :
    first ≠ 0 := by
  have nonzero : value ≠ 0 := by
    rintro rfl
    simp [decimalDigits] at shape
  have reversed : Nat.digits 10 value = rest.reverse ++ [first] := by
    rw [← List.reverse_reverse (Nat.digits 10 value), ← decimalDigits, shape, List.reverse_cons]
  have last := Nat.getLast_digit_ne_zero 10 nonzero
  simpa [reversed] using last

/-- The digits of a number have its value. -/
theorem digitsValue_decimalDigits (value : Nat) :
    digitsValue (decimalDigits value) = value := by
  unfold digitsValue decimalDigits
  rw [List.foldl_reverse]
  conv_rhs => rw [← Nat.ofDigits_digits 10 value, Nat.ofDigits_eq_foldr]
  congr 1
  funext digit value
  simp only [Nat.cast_id]
  ring

theorem digitsValue_append_zeros (digits : List Nat) (zeros : Nat) :
    digitsValue (digits ++ List.replicate zeros 0) =
      digitsValue digits * 10 ^ zeros := by
  induction zeros with
  | zero => simp
  | succ zeros ih =>
    rw [List.replicate_succ', ← List.append_assoc, digitsValue,
      List.foldl_append, ← digitsValue, ih, Nat.pow_succ]
    simp [Nat.mul_assoc]

theorem digitsValue_zeros_append (zeros : Nat) (digits : List Nat) :
    digitsValue (List.replicate zeros 0 ++ digits) = digitsValue digits := by
  induction zeros with
  | zero => rfl
  | succ zeros ih =>
    simpa [List.replicate_succ, digitsValue] using ih

end Digits

namespace NumericLiteral

/-- A literal as JSON writes it. -/
structure WellFormed (literal : NumericLiteral) : Prop where
  wholeAllowed : wholeAllowed literal.whole = true
  wholeSmall : ∀ digit ∈ literal.whole, digit < 10
  fractionSmall : ∀ digit ∈ literal.fraction, digit < 10
  exponentSmall :
    ∀ negative digits,
      literal.exponent = some (negative, digits) →
        digits ≠ [] ∧ ∀ digit ∈ digits, digit < 10

/-- The text does not go on with a part of a literal. -/
structure Ends (rest : JsString) : Prop where
  noDigit : NoDigitAhead rest
  noPoint : ∀ unit ∈ rest.head?, unit ≠ 0x2E
  noExponent : ∀ unit ∈ rest.head?, unit ≠ 0x65 ∧ unit ≠ 0x45

theorem parseExponent_exponentText {exponent : Option (Bool × List Nat)}
    (wellFormed :
      ∀ negative digits,
        exponent = some (negative, digits) →
          digits ≠ [] ∧ ∀ digit ∈ digits, digit < 10)
    {rest : JsString}
    (ends : Ends rest) :
    parseExponent (exponentText exponent ++ rest) = some (exponent, rest) := by
  cases exponent with
  | none =>
    cases rest with
    | nil => rfl
    | cons unit rest =>
      have other := ends.noExponent unit rfl
      simp [exponentText, parseExponent, other]
  | some exponent =>
    obtain ⟨negative, digits⟩ := exponent
    obtain ⟨nonempty, small⟩ := wellFormed negative digits rfl
    have digitsRead := spanDigits_append small ends.noDigit
    have signRead :
        parseExponentSign
            ((if negative then 0x2D else 0x2B) :: (digits.map digitUnit ++ rest)) =
          (negative, digits.map digitUnit ++ rest) := by
      cases negative <;> rfl
    simp only [exponentText, List.cons_append, parseExponent, true_or, if_true,
      signRead, digitsRead, nonempty, if_false]

variable
  {rest : JsString}

theorem exponentText_ahead (exponent : Option (Bool × List Nat)) (ends : Ends rest) :
    NoDigitAhead (exponentText exponent ++ rest) ∧
      ∀ unit ∈ (exponentText exponent ++ rest).head?, unit ≠ 0x2E := by
  cases exponent with
  | none => exact ⟨ends.noDigit, ends.noPoint⟩
  | some exponent =>
    constructor
    · intro unit first
      obtain rfl : (0x65 : UInt16) = unit := by
        simpa [exponentText] using first
      decide
    · intro unit first
      obtain rfl : (0x65 : UInt16) = unit := by
        simpa [exponentText] using first
      decide

theorem parseFraction_fractionText
    {fraction : List Nat} (small : ∀ digit ∈ fraction, digit < 10) (noDigit : NoDigitAhead rest)
    (noPoint : ∀ unit ∈ rest.head?, unit ≠ 0x2E) :
    parseFraction (fractionText fraction ++ rest) = some (fraction, rest) := by
  by_cases whole : fraction = []
  · subst whole
    cases rest with
    | nil => rfl
    | cons unit rest =>
      have other := noPoint unit rfl
      simp [fractionText, parseFraction, other]
  · simp only [fractionText, whole, if_false, List.cons_append, parseFraction,
      if_true, spanDigits_append small noDigit]

theorem fractionText_ahead (fraction : List Nat) (noDigit : NoDigitAhead rest) :
    NoDigitAhead (fractionText fraction ++ rest) := by
  by_cases whole : fraction = []
  · simpa [fractionText, whole] using noDigit
  · intro unit first
    obtain rfl : (0x2E : UInt16) = unit := by
      simpa [fractionText, whole] using first
    decide

variable
  {literal : NumericLiteral}

/-- A well-formed literal reads back. -/
theorem parseUnsigned_text (wellFormed : literal.WellFormed) (ends : Ends rest) :
    parseUnsigned literal.negative
        (literal.whole.map digitUnit ++
          (fractionText literal.fraction ++ (exponentText literal.exponent ++ rest))) =
      some (literal, rest) := by
  obtain ⟨noDigit, noPoint⟩ := exponentText_ahead literal.exponent ends
  have wholeRead := spanDigits_append wellFormed.wholeSmall
    (fractionText_ahead literal.fraction noDigit)
  have fractionRead :=
    parseFraction_fractionText wellFormed.fractionSmall noDigit noPoint
  have exponentRead :=
    parseExponent_exponentText wellFormed.exponentSmall ends
  simp only [parseUnsigned, wholeRead, wellFormed.wholeAllowed, if_true,
    fractionRead, Option.bind_some, exponentRead, Option.map_some]

theorem value_of_ofDecimal {number : Binary64}
    (rounds :
      Binary64.ofDecimal literal.negative (digitsValue (literal.whole ++ literal.fraction))
          (literal.exponentValue - literal.fraction.length) =
        some number) :
    literal.value = .finite number :=
  congrArg (JsNumber.ofNearest literal.negative) rounds

/-- A literal that has been written is read back. -/
theorem parse_text (wellFormed : literal.WellFormed) (ends : Ends rest) :
    parse (literal.text ++ rest) = some (literal, rest) := by
  have unsigned := parseUnsigned_text wellFormed ends
  cases sign : literal.negative with
  | true =>
    rw [sign] at unsigned
    simpa [text, sign, parse] using unsigned
  | false =>
    rw [sign] at unsigned
    have allowed := wellFormed.wholeAllowed
    cases digits : literal.whole with
    | nil => simp [digits, NumericLiteral.wholeAllowed] at allowed
    | cons first others =>
      have small := wellFormed.wholeSmall first (by simp [digits])
      have notMinus : digitUnit first ≠ 0x2D := fun same => by
        have counted := toNat_digitUnit small
        rw [same] at counted
        have minus : (0x2D : UInt16).toNat = 45 := rfl
        omega
      rw [digits] at unsigned
      simp only [List.map_cons, List.cons_append] at unsigned
      simp only [text, sign, digits, Bool.false_eq_true, if_false,
        List.nil_append, List.map_cons, List.cons_append,
        List.append_assoc, parse, notMinus]
      exact unsigned

end NumericLiteral

namespace Binary64

/-- The literal that writes a decimal with the given digits, of which the first
has the place value `10 ^ (place - 1)`. -/
def literalOf (negative : Bool) (digits : List Nat)
    (place : Int) : NumericLiteral :=
  if (digits.length : Int) ≤ place ∧ place ≤ 21 then
    { negative := negative
      whole := digits ++ List.replicate (place - digits.length).toNat 0
      fraction := []
      exponent := none }
  else if 0 < place ∧ place ≤ 21 then
    { negative := negative
      whole := digits.take place.toNat
      fraction := digits.drop place.toNat
      exponent := none }
  else if -6 < place ∧ place ≤ 0 then
    { negative := negative
      whole := [0]
      fraction := List.replicate (-place).toNat 0 ++ digits
      exponent := none }
  else
    { negative := negative
      whole := digits.take 1
      fraction := digits.drop 1
      exponent :=
        some (decide (place - 1 < 0), decimalDigits (place - 1).natAbs) }

/-- The literal that a number is written as. -/
def toLiteral (number : Binary64) : NumericLiteral :=
  if number.mantissa = 0 then
    { negative := false
      whole := [0]
      fraction := []
      exponent := none }
  else
    let decimal := number.shortestDecimal
    let digits := decimalDigits decimal.1
    literalOf number.negative digits (decimal.2 + digits.length)

/-- The text of a number. -/
def toText (number : Binary64) : JsString :=
  number.toLiteral.text

section Literal

variable
  {digits : List Nat}
  {place : Int}

theorem wellFormed_literalOf
    (negative : Bool) (nonempty : digits ≠ []) (small : ∀ digit ∈ digits, digit < 10)
    (leading : ∀ first ∈ digits.head?, first ≠ 0) :
    (literalOf negative digits place).WellFormed := by
  obtain ⟨first, others, rfl⟩ := List.exists_cons_of_ne_nil nonempty
  have firstNonzero : first ≠ 0 := leading first rfl
  have allowed : ∀ more, NumericLiteral.wholeAllowed (first :: more) = true := by
    intro more
    cases more with
    | nil => rfl
    | cons second more => simp [NumericLiteral.wholeAllowed, firstNonzero]
  have zerosSmall : ∀ count, ∀ digit ∈ List.replicate count 0, digit < 10 := by
    intro count digit member
    rw [List.eq_of_mem_replicate member]
    decide
  have noExponent : ∀ sign exponentDigits,
      (none : Option (Bool × List Nat)) = some (sign, exponentDigits) →
        exponentDigits ≠ [] ∧ ∀ digit ∈ exponentDigits, digit < 10 := by
    intro _ _ impossible
    cases impossible
  unfold literalOf
  split
  · refine ⟨allowed _, ?_, by simp, noExponent⟩
    intro digit member
    obtain member | member := List.mem_append.mp member
    · exact small digit member
    · exact zerosSmall _ digit member
  · split
    · next positive =>
        obtain ⟨count, counted⟩ : ∃ count, place.toNat = count + 1 :=
          ⟨place.toNat - 1, by omega⟩
        refine ⟨?_, ?_, ?_, noExponent⟩
        · rw [counted, List.take_succ_cons]
          exact allowed _
        · exact fun digit member => small digit (List.mem_of_mem_take member)
        · exact fun digit member => small digit (List.mem_of_mem_drop member)
    · next notPositive =>
      split
      · refine ⟨rfl, zerosSmall 1, ?_, noExponent⟩
        intro digit member
        obtain member | member := List.mem_append.mp member
        · exact zerosSmall _ digit member
        · exact small digit member
      · next outside =>
          have notOne : (place - 1).natAbs ≠ 0 := by omega
          refine ⟨allowed _, ?_, ?_, ?_⟩
          · exact fun digit member => small digit (List.mem_of_mem_take member)
          · exact fun digit member => small digit (List.mem_of_mem_drop member)
          · intro sign exponentDigits same
            simp only [Option.some.injEq, Prod.mk.injEq] at same
            rw [← same.2]
            exact ⟨decimalDigits_ne_nil notOne, decimalDigits_small _⟩

theorem value_literalOf (negative : Bool) (nonempty : digits ≠ []) {number : Binary64}
    (rounds :
      ofDecimal negative (digitsValue digits) (place - digits.length) = some number) :
    (literalOf negative digits place).value = .finite number := by
  unfold literalOf
  split
  · next fits =>
      refine NumericLiteral.value_of_ofDecimal ?_
      have zeros := ofDecimal_trailing negative (digitsValue digits)
        (place - digits.length).toNat (place - digits.length)
      have power :
          (place - digits.length : Int) - (place - digits.length).toNat = 0 := by
        omega
      rw [power, ← digitsValue_append_zeros] at zeros
      simpa [NumericLiteral.exponentValue] using zeros.trans rounds
  · split
    · next positive =>
        refine NumericLiteral.value_of_ofDecimal ?_
        have power :
            (0 : Int) - (digits.drop place.toNat).length =
              place - digits.length := by
          rw [List.length_drop]
          omega
        simpa only [NumericLiteral.exponentValue, List.take_append_drop, power] using rounds
    · split
      · next small =>
          refine NumericLiteral.value_of_ofDecimal ?_
          have power :
              (0 : Int) - (List.replicate (-place).toNat 0 ++ digits).length =
                place - digits.length := by
            rw [List.length_append, List.length_replicate]
            omega
          have leading :
              digitsValue ([0] ++ (List.replicate (-place).toNat 0 ++ digits)) =
                digitsValue digits := by
            rw [← List.append_assoc]
            exact digitsValue_zeros_append ((-place).toNat + 1) digits
          simpa only [NumericLiteral.exponentValue, leading, power] using rounds
      · refine NumericLiteral.value_of_ofDecimal ?_
        have sign :
            NumericLiteral.exponentValue
                { negative := negative
                  whole := digits.take 1
                  fraction := digits.drop 1
                  exponent :=
                    some (decide (place - 1 < 0), decimalDigits (place - 1).natAbs) } =
              place - 1 := by
          by_cases below : place - 1 < 0
          · simp only [NumericLiteral.exponentValue, below, decide_true,
              digitsValue_decimalDigits]
            omega
          · simp only [NumericLiteral.exponentValue, below, decide_false,
              digitsValue_decimalDigits]
            omega
        have power :
            place - 1 - (digits.drop 1).length = place - digits.length := by
          have positive := List.length_pos_iff.mpr nonempty
          rw [List.length_drop]
          omega
        rw [sign, power, List.take_append_drop]
        exact rounds

end Literal

variable
  {number : Binary64}

theorem digits_shortestDecimal (nonzero : number.mantissa ≠ 0) :
    decimalDigits number.shortestDecimal.1 ≠ [] :=
  decimalDigits_ne_nil (shortestDecimal_ne_zero nonzero)

theorem wellFormed_toLiteral (number : Binary64) :
    number.toLiteral.WellFormed := by
  unfold toLiteral
  split
  · exact ⟨rfl, by simp, by simp, by simp⟩
  · next nonzero =>
      apply wellFormed_literalOf
      · exact digits_shortestDecimal nonzero
      · exact decimalDigits_small _
      · intro first atHead
        cases shape : decimalDigits number.shortestDecimal.1 with
        | nil => exact absurd shape (digits_shortestDecimal nonzero)
        | cons head others =>
          rw [shape, List.head?_cons, Option.mem_some_iff] at atHead
          exact atHead ▸ decimalDigits_head shape

theorem exponent_of_mantissa_zero (vanishes : number.mantissa = 0) :
    number.exponent = -1074 := by
  have normalized := number.normalized
  omega

/-- The literal of a double other than minus zero has its value. -/
theorem value_toLiteral (notNegativeZero : ¬(number.negative = true ∧ number.mantissa = 0)) :
    number.toLiteral.value = .finite number := by
  unfold toLiteral
  split
  · next vanishes =>
      have sign : number.negative = false := by
        simpa [vanishes] using notNegativeZero
      have isZero : number = { zero with negative := false } := by
        have least := exponent_of_mantissa_zero vanishes
        obtain ⟨negative, mantissa, exponent, _, _, _, _⟩ := number
        dsimp only at vanishes sign least
        subst vanishes sign least
        rfl
      rw [isZero]
      refine NumericLiteral.value_of_ofDecimal ?_
      exact ofDecimal_zero false 0
  · next nonzero =>
      apply value_literalOf
      · exact digits_shortestDecimal nonzero
      · rw [digitsValue_decimalDigits, Int.add_sub_cancel]
        exact ofDecimal_shortestDecimal number

end Binary64

end Relavium.Library
