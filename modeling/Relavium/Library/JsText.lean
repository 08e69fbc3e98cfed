import Mathlib.Data.List.DropRight
import Relavium.Library.Json

/-!
# Operations on ECMAScript strings

Strings are lists of UTF-16 code units.  The white space is that of the
language: what `trim` removes and what `\s` matches in a regular expression.
-/

namespace Relavium.Library

/-- The code units of a text in the basic plane. -/
def jsText (text : String) : JsString :=
  text.toList.map fun character => UInt16.ofNat character.toNat

theorem length_jsText_ofList (characters : List Char) :
    (jsText (String.ofList characters)).length = characters.length := by
  simp [jsText]

namespace JsText

/-- The white space and the line terminators. -/
def isWhiteSpace (unit : UInt16) : Bool :=
  decide (
    0x09 ≤ unit.toNat ∧ unit.toNat ≤ 0x0D ∨
    0x2000 ≤ unit.toNat ∧ unit.toNat ≤ 0x200A ∨
    unit.toNat ∈ [0x20, 0xA0, 0x1680, 0x2028, 0x2029, 0x202F, 0x205F, 0x3000, 0xFEFF])

/-- `text.trim()`. -/
def trim (text : JsString) : JsString :=
  (text.dropWhile isWhiteSpace).rdropWhile isWhiteSpace

/-- `\d`. -/
def isDigit (unit : UInt16) : Bool :=
  decide (48 ≤ unit.toNat ∧ unit.toNat ≤ 57)

/-- `[A-Za-z]`. -/
def isLetter (unit : UInt16) : Bool :=
  decide (65 ≤ unit.toNat ∧ unit.toNat ≤ 90 ∨
    97 ≤ unit.toNat ∧ unit.toNat ≤ 122)

/-- `\w`. -/
def isWord (unit : UInt16) : Bool :=
  isLetter unit || isDigit unit || unit = 0x5F

/-- The Latin capitals made small, and everything else as it is. -/
def lowerLatin (text : JsString) : JsString :=
  text.map fun unit =>
    if 65 ≤ unit.toNat ∧ unit.toNat ≤ 90 then UInt16.ofNat (unit.toNat + 32) else unit

/-- What follows the start of a text, if the text starts so. -/
def afterStart
    (start text : JsString) : Option JsString :=
  if start.isPrefixOf text then some (text.drop start.length) else none

theorem drop_eq_cons
    {list : List α} {index : Nat} {element : α} (isElement : list[index]? = some element) :
    list.drop index = element :: list.drop (index + 1) := by
  obtain ⟨inRange, rfl⟩ := List.getElem?_eq_some_iff.mp isElement
  exact List.drop_eq_getElem_cons inRange

end JsText
end Relavium.Library
