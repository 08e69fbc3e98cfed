import Relavium.Library.JsonGrammar

/-!
# Escapes in JSON text

Units beyond the printable ASCII ones stand in JSON text only inside strings.  Any
choice of them can be written as `\uXXXX` in a finished text: the text is read as
the same value.
-/

namespace Relavium.Library
namespace JsonParse

section Escape

-- which units of a text are escaped
variable (chosen : UInt16 → Bool)

/-- One unit, escaped if it is chosen. -/
def escapeUnit (unit : UInt16) : JsString :=
  if chosen unit then JsonString.unicodeEscape unit else [unit]

/-- A text with the chosen units escaped. -/
def escapeUnits (text : JsString) : JsString :=
  text.flatMap (escapeUnit chosen)

@[simp] theorem escapeUnits_nil : escapeUnits chosen [] = [] := rfl

theorem escapeUnits_append (first second : JsString) :
    escapeUnits chosen (first ++ second) =
      escapeUnits chosen first ++ escapeUnits chosen second :=
  List.flatMap_append

variable {chosen}

variable
  {unit : UInt16}

theorem escapeUnits_cons_of_not_chosen (plain : chosen unit = false) (rest : JsString) :
    escapeUnits chosen (unit :: rest) = unit :: escapeUnits chosen rest := by
  simp [escapeUnits, escapeUnit, plain]

theorem escapeUnits_cons_of_chosen (isChosen : chosen unit = true) (rest : JsString) :
    ∃ digits, escapeUnits chosen (unit :: rest) = 0x5C :: digits :=
  ⟨_, by rw [escapeUnits, List.flatMap_cons, escapeUnit, if_pos isChosen]; rfl⟩

-- nothing of ASCII is chosen but the unit after the last printable one
variable (beyondAscii : ∀ unit, chosen unit = true → 127 ≤ unit.toNat)

include beyondAscii

theorem not_chosen_of_lt (ascii : unit.toNat < 127) :
    chosen unit = false := by
  by_contra isChosen
  have beyond := beyondAscii unit (by simpa using isChosen)
  omega

theorem escapeUnits_cons_of_lt (ascii : unit.toNat < 127) (rest : JsString) :
    escapeUnits chosen (unit :: rest) = unit :: escapeUnits chosen rest :=
  escapeUnits_cons_of_not_chosen (not_chosen_of_lt beyondAscii ascii) rest

theorem escapeUnits_append_of_lt
    {word : JsString} (ascii : ∀ unit ∈ word, unit.toNat < 127) (rest : JsString) :
    escapeUnits chosen (word ++ rest) = word ++ escapeUnits chosen rest := by
  induction word with
  | nil => rfl
  | cons unit word ih =>
    rw [List.cons_append, escapeUnits_cons_of_lt beyondAscii (ascii unit List.mem_cons_self),
      ih fun other isWord => ascii other (List.mem_cons_of_mem _ isWord)]
    rfl

/-- White space in front is skipped before or after escaping. -/
theorem skipSpace_escapeUnits (text : JsString) :
    skipSpace (escapeUnits chosen text) = escapeUnits chosen (skipSpace text) := by
  induction text with
  | nil => rfl
  | cons unit rest ih =>
    cases space : isSpace unit with
    | true =>
      have ascii : unit.toNat < 127 := by
        simp only [isSpace, Bool.or_eq_true, decide_eq_true_eq] at space
        obtain ((rfl | rfl) | rfl) | rfl := space <;> decide
      rw [escapeUnits_cons_of_lt beyondAscii ascii]
      simpa [skipSpace, space] using ih
    | false =>
      rw [skipSpace_of_not_space space]
      cases isChosen : chosen unit with
      | true =>
        obtain ⟨digits, same⟩ := escapeUnits_cons_of_chosen isChosen rest
        rw [same]
        rfl
      | false =>
        rw [escapeUnits_cons_of_not_chosen isChosen]
        exact skipSpace_of_not_space space _

/-- An ASCII unit after white space comes after it in the escaped text. -/
theorem skipSpace_escapeUnits_of_eq
    {text rest : JsString} (starts : skipSpace text = unit :: rest) (ascii : unit.toNat < 127) :
    skipSpace (escapeUnits chosen text) = unit :: escapeUnits chosen rest := by
  rw [skipSpace_escapeUnits beyondAscii, starts, escapeUnits_cons_of_lt beyondAscii ascii]

/-- No ASCII unit comes to the front but the backslash. -/
theorem skipSpace_escapeUnits_ne
    {text : JsString} (notBackslash : unit ≠ 0x5C)
    (other : ∀ after, skipSpace text ≠ unit :: after) (after : JsString) :
    skipSpace (escapeUnits chosen text) ≠ unit :: after := by
  rw [skipSpace_escapeUnits beyondAscii]
  intro same
  cases starts : skipSpace text with
  | nil => simp [starts] at same
  | cons first rest =>
    rw [starts] at same
    cases isChosen : chosen first with
    | true =>
      obtain ⟨digits, escaped⟩ := escapeUnits_cons_of_chosen isChosen rest
      rw [escaped] at same
      exact notBackslash (List.cons.inj same).1.symm
    | false =>
      rw [escapeUnits_cons_of_not_chosen isChosen] at same
      obtain ⟨rfl, -⟩ := List.cons.inj same
      exact other rest starts

/-! ## Tokens -/

/-- An escaped body spells the same text. -/
theorem Spells.escapeUnits {body text : JsString} (spells : Spells body text) :
    Spells (escapeUnits chosen body) text := by
  have hexAscii : ∀ unit value, JsonString.hexValue unit = some value → unit.toNat < 127 := by
    intro unit value isHex
    unfold JsonString.hexValue at isHex
    split at isHex
    · omega
    · split at isHex
      · omega
      · split at isHex
        · omega
        · simp at isHex
  induction spells with
  | nil => exact .nil
  | @code first second third fourth unit body text code _ ih =>
    have codeRead := code
    unfold JsonString.unitOfHex at code
    split at code
    · rename_i firstHex secondHex thirdHex fourthHex
      rw [escapeUnits_cons_of_lt beyondAscii (by decide),
        escapeUnits_cons_of_lt beyondAscii (by decide),
        escapeUnits_cons_of_lt beyondAscii (hexAscii _ _ firstHex),
        escapeUnits_cons_of_lt beyondAscii (hexAscii _ _ secondHex),
        escapeUnits_cons_of_lt beyondAscii (hexAscii _ _ thirdHex),
        escapeUnits_cons_of_lt beyondAscii (hexAscii _ _ fourthHex)]
      exact .code codeRead ih
    · simp at code
  | @short letter unit body text notCode escaped _ ih =>
    have ascii : letter.toNat < 127 := by
      by_contra beyond
      have none : JsonString.unescape letter = none := by
        unfold JsonString.unescape
        repeat' rw [if_neg (by rintro rfl; exact beyond (by decide))]
      rw [none] at escaped
      simp at escaped
    rw [escapeUnits_cons_of_lt beyondAscii (by decide),
      escapeUnits_cons_of_lt beyondAscii ascii]
    exact .short notCode escaped ih
  | @verbatim unit body text notQuote notBackslash printable _ ih =>
    cases isChosen : chosen unit with
    | true =>
      have split : JsonParse.escapeUnits chosen (unit :: body) =
          JsonString.unicodeEscape unit ++ JsonParse.escapeUnits chosen body := by
        rw [JsonParse.escapeUnits, List.flatMap_cons, escapeUnit, if_pos isChosen]
        rfl
      rw [split]
      exact .code (JsonString.unitOfHex_hexUnit unit) ih
    | false =>
      rw [escapeUnits_cons_of_not_chosen isChosen]
      exact .verbatim notQuote notBackslash printable ih

theorem spanDigits_escapeUnits (text : JsString) :
    spanDigits (escapeUnits chosen text) =
      ((spanDigits text).1, escapeUnits chosen (spanDigits text).2) := by
  induction text with
  | nil => rfl
  | cons unit rest ih =>
    cases isChosen : chosen unit with
    | true =>
      have notDigit : isDigitUnit unit = false := by
        have beyond := beyondAscii unit isChosen
        simp only [isDigitUnit, decide_eq_false_iff_not]
        omega
      have unread : spanDigits (unit :: rest) = ([], unit :: rest) := by
        simp [spanDigits, notDigit]
      obtain ⟨digits, same⟩ := escapeUnits_cons_of_chosen isChosen rest
      rw [unread, same]
      rfl
    | false =>
      rw [escapeUnits_cons_of_not_chosen isChosen]
      cases isDigit : isDigitUnit unit with
      | true => simp [spanDigits, isDigit, ih]
      | false =>
        simp only [spanDigits, isDigit, Bool.false_eq_true, if_false]
        rw [escapeUnits_cons_of_not_chosen isChosen]

variable
  {text after : JsString}

theorem parseFraction_escapeUnits
    {digits : List Nat} (read : NumericLiteral.parseFraction text = some (digits, after)) :
    NumericLiteral.parseFraction (escapeUnits chosen text) =
      some (digits, escapeUnits chosen after) := by
  cases text with
  | nil =>
    cases read
    rfl
  | cons unit rest =>
    rw [NumericLiteral.parseFraction] at read
    split at read
    · rename_i isPoint
      subst isPoint
      split at read
      · simp at read
      · rename_i hasDigits
        have same := Option.some.inj read
        rw [escapeUnits_cons_of_lt beyondAscii (by decide), NumericLiteral.parseFraction,
          if_pos rfl, spanDigits_escapeUnits beyondAscii, if_neg hasDigits, same]
    · rename_i notPoint
      cases read
      cases isChosen : chosen unit with
      | true =>
        obtain ⟨digits, same⟩ := escapeUnits_cons_of_chosen isChosen rest
        rw [same]
        rfl
      | false =>
        rw [escapeUnits_cons_of_not_chosen isChosen, NumericLiteral.parseFraction,
          if_neg notPoint]

theorem parseExponentSign_escapeUnits (text : JsString) :
    NumericLiteral.parseExponentSign (escapeUnits chosen text) =
      ((NumericLiteral.parseExponentSign text).1,
        escapeUnits chosen (NumericLiteral.parseExponentSign text).2) := by
  cases text with
  | nil => rfl
  | cons unit rest =>
    cases isChosen : chosen unit with
    | true =>
      have beyond := beyondAscii unit isChosen
      have notMinus : unit ≠ 0x2D := by rintro rfl; exact absurd beyond (by decide)
      have notPlus : unit ≠ 0x2B := by rintro rfl; exact absurd beyond (by decide)
      have unread : NumericLiteral.parseExponentSign (unit :: rest) =
          (false, unit :: rest) := by
        rw [NumericLiteral.parseExponentSign, if_neg notMinus, if_neg notPlus]
      obtain ⟨digits, same⟩ := escapeUnits_cons_of_chosen isChosen rest
      rw [unread, same]
      rfl
    | false =>
      rw [escapeUnits_cons_of_not_chosen isChosen, NumericLiteral.parseExponentSign,
        NumericLiteral.parseExponentSign]
      split
      · rfl
      · split
        · rfl
        · rw [escapeUnits_cons_of_not_chosen isChosen]

theorem parseExponent_escapeUnits
    {exponent : Option (Bool × List Nat)}
    (read : NumericLiteral.parseExponent text = some (exponent, after)) :
    NumericLiteral.parseExponent (escapeUnits chosen text) =
      some (exponent, escapeUnits chosen after) := by
  cases text with
  | nil =>
    cases read
    rfl
  | cons unit rest =>
    rw [NumericLiteral.parseExponent] at read
    split at read
    · rename_i isMark
      have ascii : unit.toNat < 127 := by obtain rfl | rfl := isMark <;> decide
      dsimp only at read
      split at read
      · simp at read
      · rename_i hasDigits
        cases read
        rw [escapeUnits_cons_of_lt beyondAscii ascii, NumericLiteral.parseExponent, if_pos isMark]
        simp only [parseExponentSign_escapeUnits beyondAscii,
          spanDigits_escapeUnits beyondAscii, if_neg hasDigits]
    · rename_i notMark
      cases read
      cases isChosen : chosen unit with
      | true =>
        obtain ⟨digits, same⟩ := escapeUnits_cons_of_chosen isChosen rest
        rw [same]
        rfl
      | false =>
        rw [escapeUnits_cons_of_not_chosen isChosen, NumericLiteral.parseExponent, if_neg notMark]

theorem parseUnsigned_escapeUnits
    {negative : Bool} {literal : NumericLiteral}
    (read : NumericLiteral.parseUnsigned negative text = some (literal, after)) :
    NumericLiteral.parseUnsigned negative (escapeUnits chosen text) =
      some (literal, escapeUnits chosen after) := by
  unfold NumericLiteral.parseUnsigned at read ⊢
  dsimp only at read ⊢
  rw [spanDigits_escapeUnits beyondAscii]
  split at read
  · rename_i allowed
    obtain ⟨fraction, readFraction, rest⟩ := Option.bind_eq_some_iff.mp read
    obtain ⟨exponent, readExponent, same⟩ := Option.map_eq_some_iff.mp rest
    cases same
    rw [if_pos allowed, parseFraction_escapeUnits beyondAscii readFraction, Option.bind_some,
      parseExponent_escapeUnits beyondAscii readExponent]
    rfl
  · simp at read

/-- A number is read the same way from the escaped text. -/
theorem numericLiteral_escapeUnits
    {literal : NumericLiteral} (read : NumericLiteral.parse text = some (literal, after)) :
    NumericLiteral.parse (escapeUnits chosen text) =
      some (literal, escapeUnits chosen after) := by
  cases text with
  | nil => simp [NumericLiteral.parse] at read
  | cons unit rest =>
    rw [NumericLiteral.parse] at read
    split at read
    · rename_i isMinus
      subst isMinus
      rw [escapeUnits_cons_of_lt beyondAscii (by decide), NumericLiteral.parse, if_pos rfl]
      exact parseUnsigned_escapeUnits beyondAscii read
    · rename_i notMinus
      have escaped := parseUnsigned_escapeUnits beyondAscii read
      cases isChosen : chosen unit with
      | true =>
        obtain ⟨digits, same⟩ := escapeUnits_cons_of_chosen isChosen rest
        rw [same] at escaped ⊢
        exact escaped
      | false =>
        rw [escapeUnits_cons_of_not_chosen isChosen] at escaped ⊢
        rw [NumericLiteral.parse, if_neg notMinus]
        exact escaped

/-! ## Texts -/

/-- Escaping keeps what a text parses to. -/
theorem Parses.escapeUnits {reading : Reading} (parses : Parses text reading after) :
    Parses (escapeUnits chosen text) reading (escapeUnits chosen after) := by
  have readString : ∀ {source body after : JsString},
      JsonString.readBody source = some (body, after) →
      JsonString.readBody (JsonParse.escapeUnits chosen source) =
        some (body, JsonParse.escapeUnits chosen after) := by
    intro source text after read
    obtain ⟨body, spells, rfl⟩ := readBody_eq_some.mp read
    rw [escapeUnits_append, escapeUnits_cons_of_lt beyondAscii (by decide)]
    exact (spells.escapeUnits beyondAscii).read _
  induction parses with
  | emptyArray starts closes =>
    exact .emptyArray (skipSpace_escapeUnits_of_eq beyondAscii starts (by decide))
      (skipSpace_escapeUnits_of_eq beyondAscii closes (by decide))
  | array starts goesOn _ ih =>
    rw [← skipSpace_escapeUnits beyondAscii] at ih
    exact .array (skipSpace_escapeUnits_of_eq beyondAscii starts (by decide))
      (skipSpace_escapeUnits_ne beyondAscii (by decide) goesOn) ih
  | emptyObject starts closes =>
    exact .emptyObject (skipSpace_escapeUnits_of_eq beyondAscii starts (by decide))
      (skipSpace_escapeUnits_of_eq beyondAscii closes (by decide))
  | object starts goesOn _ ih =>
    rw [← skipSpace_escapeUnits beyondAscii] at ih
    exact .object (skipSpace_escapeUnits_of_eq beyondAscii starts (by decide))
      (skipSpace_escapeUnits_ne beyondAscii (by decide) goesOn) ih
  | string starts read =>
    exact .string (skipSpace_escapeUnits_of_eq beyondAscii starts (by decide))
      (readString read)
  | @number text rest after unit literal starts numeric read =>
    have ascii : unit.toNat < 127 := by
      obtain rfl | isDigit := numeric
      · decide
      · have inside := of_decide_eq_true isDigit
        omega
    have escaped := numericLiteral_escapeUnits beyondAscii read
    rw [escapeUnits_cons_of_lt beyondAscii ascii] at escaped
    exact .number (skipSpace_escapeUnits_of_eq beyondAscii starts ascii) numeric escaped
  | @keyword text rest after unit value starts read =>
    have ascii : unit.toNat < 127 := by
      obtain rfl | rfl | rfl := parseKeyword_starts read <;> decide
    obtain ⟨word, isKeyword, same⟩ := parseKeyword_eq_some.mp read
    have wordAscii : ∀ unit ∈ word, unit.toNat < 127 := by
      simp only [keywords, List.mem_cons, Prod.mk.injEq, List.not_mem_nil, or_false] at isKeyword
      obtain ⟨rfl, -⟩ | ⟨rfl, -⟩ | ⟨rfl, -⟩ := isKeyword <;> decide
    have escaped := congrArg (JsonParse.escapeUnits chosen) same
    rw [escapeUnits_cons_of_lt beyondAscii ascii,
      escapeUnits_append_of_lt beyondAscii wordAscii] at escaped
    exact .keyword (skipSpace_escapeUnits_of_eq beyondAscii starts ascii)
      (parseKeyword_eq_some.mpr ⟨word, isKeyword, escaped⟩)
  | lastItem _ closes ih =>
    exact .lastItem ih (skipSpace_escapeUnits_of_eq beyondAscii closes (by decide))
  | moreItems _ comma _ firstParses othersParse =>
    exact .moreItems firstParses
      (skipSpace_escapeUnits_of_eq beyondAscii comma (by decide)) othersParse
  | lastMember starts read colon _ closes ih =>
    exact .lastMember (skipSpace_escapeUnits_of_eq beyondAscii starts (by decide))
      (readString read) (skipSpace_escapeUnits_of_eq beyondAscii colon (by decide))
      ih (skipSpace_escapeUnits_of_eq beyondAscii closes (by decide))
  | moreMembers starts read colon _ comma _ firstParses othersParse =>
    exact .moreMembers (skipSpace_escapeUnits_of_eq beyondAscii starts (by decide))
      (readString read) (skipSpace_escapeUnits_of_eq beyondAscii colon (by decide))
      firstParses (skipSpace_escapeUnits_of_eq beyondAscii comma (by decide)) othersParse

/-- Escaping units of a finished text changes nothing about its value. -/
theorem parse_escapeUnits
    {text : JsString} {value : JsValue} (isValue : parse text = some value) :
    parse (escapeUnits chosen text) = some value := by
  obtain ⟨after, parses, ends⟩ := parse_eq_some.mp isValue
  refine parse_eq_some.mpr ⟨_, parses.escapeUnits beyondAscii, ?_⟩
  rw [skipSpace_escapeUnits beyondAscii, ends]
  rfl

end Escape

end JsonParse
end Relavium.Library
