import Relavium.Library.Json
import Mathlib.Data.List.Basic

/-!
# JSON strings

A string is written between quotation marks, with escapes for the quotation
mark, the backslash, the control characters and the surrogates that stand on
their own.  Reading a string that has been written gives it back.
-/

namespace Relavium.Library

/-- A leading surrogate. -/
def isLeadSurrogate (unit : UInt16) : Bool :=
  decide (0xD800 ≤ unit.toNat ∧ unit.toNat ≤ 0xDBFF)

/-- A trailing surrogate. -/
def isTrailSurrogate (unit : UInt16) : Bool :=
  decide (0xDC00 ≤ unit.toNat ∧ unit.toNat ≤ 0xDFFF)

/-- A surrogate of either kind. -/
def isSurrogate (unit : UInt16) : Bool :=
  decide (0xD800 ≤ unit.toNat ∧ unit.toNat ≤ 0xDFFF)

/-- Every surrogate is part of a pair. -/
inductive WellFormedUtf16 : JsString → Prop
  | nil : WellFormedUtf16 []
  | unit
      {unit : UInt16}
      {rest : JsString}
      (plain : isSurrogate unit = false)
      (later : WellFormedUtf16 rest) :
      WellFormedUtf16 (unit :: rest)
  | pair
      {lead trail : UInt16}
      {rest : JsString}
      (leads : isLeadSurrogate lead = true)
      (trails : isTrailSurrogate trail = true)
      (later : WellFormedUtf16 rest) :
      WellFormedUtf16 (lead :: trail :: rest)

namespace JsonString

/-- The code unit of a hexadecimal digit, in lower case. -/
def hexUnit (digit : Nat) : UInt16 :=
  UInt16.ofNat (if digit < 10 then 48 + digit else 87 + digit)

/-- The value of a hexadecimal digit. -/
def hexValue (unit : UInt16) : Option Nat :=
  if 48 ≤ unit.toNat ∧ unit.toNat ≤ 57 then some (unit.toNat - 48)
  else if 97 ≤ unit.toNat ∧ unit.toNat ≤ 102 then some (unit.toNat - 87)
  else if 65 ≤ unit.toNat ∧ unit.toNat ≤ 70 then some (unit.toNat - 55)
  else none

/-- An escape by code, `\uXXXX`. -/
def unicodeEscape (unit : UInt16) : JsString :=
  [0x5C, 0x75, hexUnit (unit.toNat / 4096), hexUnit (unit.toNat / 256 % 16),
    hexUnit (unit.toNat / 16 % 16), hexUnit (unit.toNat % 16)]

/-- The letter of a short escape, for the units that have one. -/
def shortEscape (unit : UInt16) : Option UInt16 :=
  if unit = 0x08 then some 0x62
  else if unit = 0x09 then some 0x74
  else if unit = 0x0A then some 0x6E
  else if unit = 0x0C then some 0x66
  else if unit = 0x0D then some 0x72
  else if unit = 0x22 then some 0x22
  else if unit = 0x5C then some 0x5C
  else none

/-- A unit that is not a surrogate, as it stands in a JSON string. -/
def writeUnit (unit : UInt16) : JsString :=
  match shortEscape unit with
  | some letter => [0x5C, letter]
  | none => if unit.toNat < 0x20 then unicodeEscape unit else [unit]

/-- The text between the quotation marks. -/
def writeBody : JsString → JsString
  | [] => []
  | unit :: rest =>
    if isLeadSurrogate unit then
      match rest with
      | [] => unicodeEscape unit
      | trail :: later =>
        if isTrailSurrogate trail then unit :: trail :: writeBody later
        else unicodeEscape unit ++ writeBody (trail :: later)
    else if isTrailSurrogate unit then unicodeEscape unit ++ writeBody rest
    else writeUnit unit ++ writeBody rest

/-- A string as JSON writes it. -/
def quote (text : JsString) : JsString :=
  0x22 :: (writeBody text ++ [0x22])

/-- The unit that the letter of a short escape stands for. -/
def unescape (letter : UInt16) : Option UInt16 :=
  if letter = 0x62 then some 0x08
  else if letter = 0x74 then some 0x09
  else if letter = 0x6E then some 0x0A
  else if letter = 0x66 then some 0x0C
  else if letter = 0x72 then some 0x0D
  else if letter = 0x22 then some 0x22
  else if letter = 0x5C then some 0x5C
  else if letter = 0x2F then some 0x2F
  else none

/-- The unit that four hexadecimal digits stand for. -/
def unitOfHex (first second third fourth : UInt16) : Option UInt16 :=
  match hexValue first, hexValue second, hexValue third, hexValue fourth with
  | some first, some second, some third, some fourth =>
    some (UInt16.ofNat (((first * 16 + second) * 16 + third) * 16 + fourth))
  | _, _, _, _ => none

/-- Put a unit in front of what the rest is read as. -/
def prepend (unit : UInt16)
    (result : Option (JsString × JsString)) : Option (JsString × JsString) :=
  result.map fun parts => (unit :: parts.1, parts.2)

/-- Read a string up to its closing quotation mark. -/
def readBody : JsString → Option (JsString × JsString)
  | [] => none
  | unit :: rest =>
    if unit = 0x22 then some ([], rest)
    else if unit = 0x5C then
      match rest with
      | [] => none
      | letter :: later =>
        if letter = 0x75 then
          match later with
          | first :: second :: third :: fourth :: later =>
            match unitOfHex first second third fourth with
            | some escaped => prepend escaped (readBody later)
            | none => none
          | _ => none
        else
          match unescape letter with
          | some escaped => prepend escaped (readBody later)
          | none => none
    else if unit.toNat < 0x20 then none
    else prepend unit (readBody rest)

theorem readBody_closing (rest : JsString) :
    readBody (0x22 :: rest) = some ([], rest) := by
  rw [readBody.eq_def]
  rfl

/-- A letter after a backslash stands for a unit, unless it starts a code. -/
theorem readBody_escaped
    {unit letter : UInt16} (notCode : letter ≠ 0x75) (escaped : unescape letter = some unit)
    (rest : JsString) :
    readBody (0x5C :: letter :: rest) = prepend unit (readBody rest) := by
  have notQuote : (0x5C : UInt16) ≠ 0x22 := by decide
  rw [readBody.eq_def]
  simp only [notQuote, if_false, if_true, notCode, escaped]

/-- A code after a backslash stands for its unit. -/
theorem readBody_code
    {unit first second third fourth : UInt16}
    (code : unitOfHex first second third fourth = some unit) (rest : JsString) :
    readBody (0x5C :: 0x75 :: first :: second :: third :: fourth :: rest) =
      prepend unit (readBody rest) := by
  have notQuote : (0x5C : UInt16) ≠ 0x22 := by decide
  rw [readBody.eq_def]
  simp only [notQuote, if_false, if_true, code]

theorem readBody_verbatim
    {unit : UInt16} (notQuote : unit ≠ 0x22) (notBackslash : unit ≠ 0x5C)
    (printable : ¬unit.toNat < 0x20) (rest : JsString) :
    readBody (unit :: rest) = prepend unit (readBody rest) := by
  rw [readBody.eq_def]
  simp only [notQuote, notBackslash, printable, if_false]

theorem readBody_short
    {unit letter : UInt16} (short : shortEscape unit = some letter) (rest : JsString) :
    readBody (0x5C :: letter :: rest) = prepend unit (readBody rest) := by
  have letterIs : letter ≠ 0x75 ∧ unescape letter = some unit := by
    unfold shortEscape at short
    split at short
    · next same => subst same; cases short; decide
    · split at short
      · next same => subst same; cases short; decide
      · split at short
        · next same => subst same; cases short; decide
        · split at short
          · next same => subst same; cases short; decide
          · split at short
            · next same => subst same; cases short; decide
            · split at short
              · next same => subst same; cases short; decide
              · split at short
                · next same => subst same; cases short; decide
                · cases short
  exact readBody_escaped letterIs.1 letterIs.2 rest

theorem hexValue_hexUnit {digit : Nat} (small : digit < 16) :
    hexValue (hexUnit digit) = some digit := by
  have table : ∀ digit < 16, hexValue (hexUnit digit) = some digit := by decide
  exact table digit small

theorem unitOfHex_hexUnit (unit : UInt16) :
    unitOfHex (hexUnit (unit.toNat / 4096)) (hexUnit (unit.toNat / 256 % 16))
        (hexUnit (unit.toNat / 16 % 16)) (hexUnit (unit.toNat % 16)) =
      some unit := by
  have bound : unit.toNat < 65536 := unit.toNat_lt
  have digits : ((unit.toNat / 4096 * 16 + unit.toNat / 256 % 16) * 16 +
      unit.toNat / 16 % 16) * 16 + unit.toNat % 16 = unit.toNat := by
    omega
  unfold unitOfHex
  rw [hexValue_hexUnit (by omega), hexValue_hexUnit (by omega),
    hexValue_hexUnit (by omega), hexValue_hexUnit (by omega)]
  dsimp only
  rw [digits, UInt16.ofNat_toNat]

theorem readBody_unicodeEscape (unit : UInt16) (rest : JsString) :
    readBody (unicodeEscape unit ++ rest) = prepend unit (readBody rest) :=
  readBody_code (unitOfHex_hexUnit unit) rest

/-- A written unit reads back. -/
theorem readBody_writeUnit (unit : UInt16) (rest : JsString) :
    readBody (writeUnit unit ++ rest) = prepend unit (readBody rest) := by
  unfold writeUnit
  cases short : shortEscape unit with
  | some letter => exact readBody_short short rest
  | none =>
    dsimp only
    split
    · exact readBody_unicodeEscape unit rest
    · next printable =>
        refine readBody_verbatim ?_ ?_ printable rest
        · rintro rfl
          simp [shortEscape] at short
        · rintro rfl
          simp [shortEscape] at short

theorem readBody_surrogate {unit : UInt16} (surrogate : 0xD800 ≤ unit.toNat) (rest : JsString) :
    readBody (unit :: rest) = prepend unit (readBody rest) := by
  have large : ∀ small : UInt16, small.toNat < 0xD800 → unit ≠ small := by
    rintro small isSmall rfl
    omega
  exact readBody_verbatim (large _ (by decide)) (large _ (by decide)) (by omega)
    rest

/-- A string that has been written is read back. -/
theorem readBody_writeBody (text : JsString) (rest : JsString) :
    readBody (writeBody text ++ 0x22 :: rest) = some (text, rest) := by
  induction text using writeBody.induct with
  | case1 => exact readBody_closing rest
  | case2 unit leads =>
    rw [writeBody.eq_def]
    simp only [leads, if_true]
    rw [readBody_unicodeEscape, readBody_closing]
    rfl
  | case3 unit leads trail later trails ih =>
    have leadRange := of_decide_eq_true leads
    have trailRange := of_decide_eq_true trails
    rw [writeBody.eq_def]
    simp only [leads, trails, if_true, List.cons_append]
    rw [readBody_surrogate leadRange.1, readBody_surrogate (by omega),
      ih]
    rfl
  | case4 unit leads trail later alone ih =>
    rw [writeBody.eq_def]
    simp only [leads, alone, Bool.false_eq_true, if_true, if_false, List.append_assoc]
    rw [readBody_unicodeEscape, ih]
    rfl
  | case5 unit later notLead trails ih =>
    rw [writeBody.eq_def]
    simp only [notLead, trails, Bool.false_eq_true, if_true, if_false, List.append_assoc]
    rw [readBody_unicodeEscape, ih]
    rfl
  | case6 unit later notLead notTrail ih =>
    rw [writeBody.eq_def]
    simp only [notLead, notTrail, Bool.false_eq_true, if_false, List.append_assoc]
    rw [readBody_writeUnit, ih]
    rfl

end JsonString
end Relavium.Library
