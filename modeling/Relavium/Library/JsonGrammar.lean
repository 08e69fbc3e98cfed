import Relavium.Library.JsonRoundTrip

/-!
# The grammar of JSON text

What the reader of JSON text takes from a text, as derivations: a derivation says
which value, items or members the text starts with and what is left after them.
The reader with enough fuel gives exactly what there is a derivation for, so that
facts about it are proved by induction on derivations.
-/

namespace Relavium.Library
namespace JsonParse

/-- What the reader is asked for, with its answer. -/
inductive Reading
  | value (value : JsValue)
  /-- Items up to the closing bracket. -/
  | items (items : List JsValue)
  /-- Keys and values up to the closing brace. -/
  | members (members : List (JsString × JsValue))

/-- A text starts with what is read, and this is left after it. -/
inductive Parses : JsString → Reading → JsString → Prop
  | emptyArray
      {text rest after : JsString}
      (starts : skipSpace text = 0x5B :: rest)
      (closes : skipSpace rest = 0x5D :: after) :
      Parses text (.value (.array [])) after
  | array
      {text rest after : JsString}
      {items : List JsValue}
      (starts : skipSpace text = 0x5B :: rest)
      (goesOn : ∀ after, skipSpace rest ≠ 0x5D :: after)
      (parsed : Parses (skipSpace rest) (.items items) after) :
      Parses text (.value (.array items)) after
  | emptyObject
      {text rest after : JsString}
      (starts : skipSpace text = 0x7B :: rest)
      (closes : skipSpace rest = 0x7D :: after) :
      Parses text (.value (.object [])) after
  | object
      {text rest after : JsString}
      {members : List (JsString × JsValue)}
      (starts : skipSpace text = 0x7B :: rest)
      (goesOn : ∀ after, skipSpace rest ≠ 0x7D :: after)
      (parsed : Parses (skipSpace rest) (.members members) after) :
      Parses text (.value (.object (propertiesOf members))) after
  | string
      {text rest body after : JsString}
      (starts : skipSpace text = 0x22 :: rest)
      (read : JsonString.readBody rest = some (body, after)) :
      Parses text (.value (.string body)) after
  | number
      {text rest after : JsString}
      {unit : UInt16}
      {literal : NumericLiteral}
      (starts : skipSpace text = unit :: rest)
      (numeric : StartsNumber unit)
      (read : NumericLiteral.parse (unit :: rest) = some (literal, after)) :
      Parses text (.value (.number literal.value)) after
  | keyword
      {text rest after : JsString}
      {unit : UInt16}
      {value : JsValue}
      (starts : skipSpace text = unit :: rest)
      (read : parseKeyword (unit :: rest) = some (value, after)) :
      Parses text (.value value) after
  | lastItem
      {text middle after : JsString}
      {item : JsValue}
      (first : Parses text (.value item) middle)
      (closes : skipSpace middle = 0x5D :: after) :
      Parses text (.items [item]) after
  | moreItems
      {text middle rest after : JsString}
      {item : JsValue}
      {items : List JsValue}
      (first : Parses text (.value item) middle)
      (comma : skipSpace middle = 0x2C :: rest)
      (others : Parses rest (.items items) after) :
      Parses text (.items (item :: items)) after
  | lastMember
      {text keyText key afterKey valueText middle after : JsString}
      {value : JsValue}
      (starts : skipSpace text = 0x22 :: keyText)
      (read : JsonString.readBody keyText = some (key, afterKey))
      (colon : skipSpace afterKey = 0x3A :: valueText)
      (first : Parses valueText (.value value) middle)
      (closes : skipSpace middle = 0x7D :: after) :
      Parses text (.members [(key, value)]) after
  | moreMembers
      {text keyText key afterKey valueText middle rest after : JsString}
      {value : JsValue}
      {members : List (JsString × JsValue)}
      (starts : skipSpace text = 0x22 :: keyText)
      (read : JsonString.readBody keyText = some (key, afterKey))
      (colon : skipSpace afterKey = 0x3A :: valueText)
      (first : Parses valueText (.value value) middle)
      (comma : skipSpace middle = 0x2C :: rest)
      (others : Parses rest (.members members) after) :
      Parses text (.members ((key, value) :: members)) after

/-! ## Tokens -/

variable
  {text after : JsString}

/-- A keyword is read off the front of a text. -/
theorem parseKeyword_eq_some {value : JsValue} :
    parseKeyword text = some (value, after) ↔
      ∃ word, (word, value) ∈ keywords ∧ text = word ++ after := by
  constructor
  · intro read
    obtain ⟨⟨word, named⟩, isKeyword, found⟩ := List.exists_of_findSome?_eq_some read
    split at found
    · rename_i isStart
      obtain ⟨rest, rfl⟩ := List.isPrefixOf_iff_prefix.mp isStart
      cases found
      exact ⟨word, isKeyword, by simp⟩
    · simp at found
  · rintro ⟨word, isKeyword, rfl⟩
    simp only [keywords, List.mem_cons, Prod.mk.injEq, List.not_mem_nil, or_false] at isKeyword
    obtain ⟨rfl, rfl⟩ | ⟨rfl, rfl⟩ | ⟨rfl, rfl⟩ := isKeyword <;> rfl

variable
  {unit : UInt16}

theorem parseKeyword_starts
    {rest after : JsString} {value : JsValue}
    (read : parseKeyword (unit :: rest) = some (value, after)) :
    unit = 0x6E ∨ unit = 0x74 ∨ unit = 0x66 := by
  obtain ⟨word, isKeyword, same⟩ := parseKeyword_eq_some.mp read
  simp only [keywords, List.mem_cons, Prod.mk.injEq, List.not_mem_nil, or_false] at isKeyword
  obtain ⟨rfl, rfl⟩ | ⟨rfl, rfl⟩ | ⟨rfl, rfl⟩ := isKeyword
  · exact .inl (List.cons.inj same).1
  · exact .inr (.inl (List.cons.inj same).1)
  · exact .inr (.inr (List.cons.inj same).1)

theorem length_skipSpace_le (text : JsString) :
    (skipSpace text).length ≤ text.length :=
  (List.dropWhile_suffix _).length_le

theorem length_lt_of_skipSpace {text rest : JsString} (starts : skipSpace text = unit :: rest) :
    rest.length < text.length := by
  have shorter := length_skipSpace_le text
  rw [starts, List.length_cons] at shorter
  exact shorter

/-- How a string stands between its quotation marks. -/
inductive Spells : JsString → JsString → Prop
  | nil : Spells [] []
  | code
      {first second third fourth unit : UInt16}
      {body text : JsString}
      (code : JsonString.unitOfHex first second third fourth = some unit)
      (later : Spells body text) :
      Spells (0x5C :: 0x75 :: first :: second :: third :: fourth :: body) (unit :: text)
  | short
      {letter unit : UInt16}
      {body text : JsString}
      (notCode : letter ≠ 0x75)
      (escaped : JsonString.unescape letter = some unit)
      (later : Spells body text) :
      Spells (0x5C :: letter :: body) (unit :: text)
  | verbatim
      {unit : UInt16}
      {body text : JsString}
      (notQuote : unit ≠ 0x22)
      (notBackslash : unit ≠ 0x5C)
      (printable : ¬unit.toNat < 0x20)
      (later : Spells body text) :
      Spells (unit :: body) (unit :: text)

/-- What stands before the closing quotation mark is read. -/
theorem Spells.read {body text : JsString} (spells : Spells body text) (after : JsString) :
    JsonString.readBody (body ++ 0x22 :: after) = some (text, after) := by
  induction spells with
  | nil => exact JsonString.readBody_closing after
  | code code _ ih =>
    simp only [List.cons_append]
    rw [JsonString.readBody_code code, ih]
    rfl
  | short notCode escaped _ ih =>
    simp only [List.cons_append]
    rw [JsonString.readBody_escaped notCode escaped, ih]
    rfl
  | verbatim notQuote notBackslash printable _ ih =>
    simp only [List.cons_append]
    rw [JsonString.readBody_verbatim notQuote notBackslash printable, ih]
    rfl

theorem prepend_eq_some
    {result : Option (JsString × JsString)}
    (read : JsonString.prepend unit result = some (text, after)) :
    ∃ later, result = some (later, after) ∧ text = unit :: later := by
  obtain ⟨⟨later, rest⟩, rfl, same⟩ := Option.map_eq_some_iff.mp read
  cases same
  exact ⟨later, rfl, rfl⟩

/-- The reader of bodies accepts what the grammar spells. -/
theorem readBody_eq_some {source text after : JsString} :
    JsonString.readBody source = some (text, after) ↔
      ∃ body, Spells body text ∧ source = body ++ 0x22 :: after := by
  constructor
  · intro read
    induction source using JsonString.readBody.induct generalizing text with
    | case1 => simp [JsonString.readBody] at read
    | case2 rest =>
      rw [JsonString.readBody_closing] at read
      cases read
      exact ⟨[], .nil, rfl⟩
    | case3 => simp [JsonString.readBody] at read
    | case4 first second third fourth later unit code _ ih =>
      rw [JsonString.readBody_code code] at read
      obtain ⟨text, readLater, rfl⟩ := prepend_eq_some read
      obtain ⟨body, spells, rfl⟩ := ih readLater
      exact ⟨_, .code code spells, rfl⟩
    | case5 _ _ _ _ _ noCode => simp [JsonString.readBody, noCode] at read
    | case6 later tooShort =>
      have refused : JsonString.readBody (0x5C :: 0x75 :: later) = none := by
        rw [JsonString.readBody.eq_def]
        dsimp only
        rw [if_neg (by decide), if_pos rfl, if_pos rfl]
        split
        · exact (tooShort _ _ _ _ _ rfl).elim
        · rfl
      rw [refused] at read
      simp at read
    | case7 letter later notCode unit escaped _ ih =>
      rw [JsonString.readBody_escaped notCode escaped] at read
      obtain ⟨text, readLater, rfl⟩ := prepend_eq_some read
      obtain ⟨body, spells, rfl⟩ := ih readLater
      exact ⟨_, .short notCode escaped spells, rfl⟩
    | case8 letter later notCode noLetter =>
      rw [JsonString.readBody.eq_def] at read
      simp [notCode, noLetter] at read
    | case9 unit rest notQuote notBackslash control =>
      rw [JsonString.readBody.eq_def] at read
      simp [notQuote, notBackslash, control] at read
    | case10 unit rest notQuote notBackslash printable ih =>
      rw [JsonString.readBody_verbatim notQuote notBackslash printable] at read
      obtain ⟨text, readLater, rfl⟩ := prepend_eq_some read
      obtain ⟨body, spells, rfl⟩ := ih readLater
      exact ⟨_, .verbatim notQuote notBackslash printable spells, rfl⟩
  · rintro ⟨body, spells, rfl⟩
    exact spells.read after

/-- A unit of a number. -/
def NumberUnit (unit : UInt16) : Prop :=
  unit = 0x2D ∨ unit = 0x2B ∨ unit = 0x2E ∨ unit = 0x65 ∨ unit = 0x45 ∨
    isDigitUnit unit = true

theorem spanDigits_append_rest (text : JsString) :
    ∃ taken, text = taken ++ (spanDigits text).2 ∧ ∀ unit ∈ taken, NumberUnit unit := by
  induction text with
  | nil => exact ⟨[], rfl, by simp⟩
  | cons unit rest ih =>
    by_cases isDigit : isDigitUnit unit = true
    · obtain ⟨taken, same, units⟩ := ih
      refine ⟨unit :: taken, ?_, ?_⟩
      · simpa [spanDigits, isDigit] using same
      · simpa [NumberUnit, isDigit] using units
    · exact ⟨[], by simp [spanDigits, isDigit], by simp⟩

theorem parseFraction_append_rest
    {digits : List Nat} (read : NumericLiteral.parseFraction text = some (digits, after)) :
    ∃ taken, text = taken ++ after ∧ ∀ unit ∈ taken, NumberUnit unit := by
  cases text with
  | nil =>
    obtain ⟨-, rfl⟩ := Prod.mk.inj (Option.some.inj read)
    exact ⟨[], rfl, by simp⟩
  | cons unit rest =>
    rw [NumericLiteral.parseFraction] at read
    split at read
    · rename_i isPoint
      split at read
      · simp at read
      · obtain ⟨taken, same, units⟩ := spanDigits_append_rest rest
        obtain rfl := congrArg Prod.snd (Option.some.inj read)
        exact ⟨unit :: taken, by simpa using same, by simpa [NumberUnit, isPoint] using units⟩
    · obtain ⟨-, rfl⟩ := Prod.mk.inj (Option.some.inj read)
      exact ⟨[], rfl, by simp⟩

theorem parseExponentSign_append_rest (text : JsString) :
    ∃ taken, text = taken ++ (NumericLiteral.parseExponentSign text).2 ∧
      ∀ unit ∈ taken, NumberUnit unit := by
  cases text with
  | nil => exact ⟨[], rfl, by simp⟩
  | cons unit rest =>
    rw [NumericLiteral.parseExponentSign]
    split
    · next isMinus => exact ⟨[unit], rfl, by simp [NumberUnit, isMinus]⟩
    · split
      · next isPlus => exact ⟨[unit], rfl, by simp [NumberUnit, isPlus]⟩
      · exact ⟨[], rfl, by simp⟩

theorem parseExponent_append_rest
    {exponent : Option (Bool × List Nat)}
    (read : NumericLiteral.parseExponent text = some (exponent, after)) :
    ∃ taken, text = taken ++ after ∧ ∀ unit ∈ taken, NumberUnit unit := by
  cases text with
  | nil =>
    obtain ⟨-, rfl⟩ := Prod.mk.inj (Option.some.inj read)
    exact ⟨[], rfl, by simp⟩
  | cons unit rest =>
    rw [NumericLiteral.parseExponent] at read
    split at read
    · rename_i isMark
      dsimp only at read
      split at read
      · simp at read
      · obtain ⟨-, rfl⟩ := Prod.mk.inj (Option.some.inj read)
        obtain ⟨sign, signed, signUnits⟩ := parseExponentSign_append_rest rest
        obtain ⟨digits, same, digitUnits⟩ :=
          spanDigits_append_rest (NumericLiteral.parseExponentSign rest).2
        refine ⟨unit :: (sign ++ digits), ?_, ?_⟩
        · rw [List.cons_append, List.append_assoc, ← same, ← signed]
        · intro other isTaken
          obtain rfl | isSign | isDigit := by simpa using isTaken
          · obtain rfl | rfl := isMark <;> simp [NumberUnit]
          · exact signUnits other isSign
          · exact digitUnits other isDigit
    · obtain ⟨-, rfl⟩ := Prod.mk.inj (Option.some.inj read)
      exact ⟨[], rfl, by simp⟩

variable
  {literal : NumericLiteral}

theorem parseUnsigned_append_rest
    {negative : Bool}
    (read : NumericLiteral.parseUnsigned negative text = some (literal, after)) :
    ∃ taken, text = taken ++ after ∧ ∀ unit ∈ taken, NumberUnit unit := by
  unfold NumericLiteral.parseUnsigned at read
  dsimp only at read
  split at read
  · obtain ⟨fraction, readFraction, rest⟩ := Option.bind_eq_some_iff.mp read
    obtain ⟨exponent, readExponent, same⟩ := Option.map_eq_some_iff.mp rest
    obtain ⟨-, rfl⟩ := Prod.mk.inj same
    obtain ⟨whole, wholeSame, wholeUnits⟩ := spanDigits_append_rest text
    obtain ⟨point, pointSame, pointUnits⟩ := parseFraction_append_rest readFraction
    obtain ⟨mark, markSame, markUnits⟩ := parseExponent_append_rest readExponent
    refine ⟨whole ++ (point ++ mark), ?_, ?_⟩
    · rw [List.append_assoc, List.append_assoc, ← markSame, ← pointSame, ← wholeSame]
    · intro unit isTaken
      obtain isWhole | isPoint | isMark := by simpa using isTaken
      · exact wholeUnits unit isWhole
      · exact pointUnits unit isPoint
      · exact markUnits unit isMark
  · simp at read

theorem numericLiteral_append_rest (read : NumericLiteral.parse text = some (literal, after)) :
    ∃ taken, text = taken ++ after ∧ ∀ unit ∈ taken, NumberUnit unit := by
  cases text with
  | nil => simp [NumericLiteral.parse] at read
  | cons unit rest =>
    rw [NumericLiteral.parse] at read
    split at read
    · rename_i isMinus
      obtain ⟨taken, same, units⟩ := parseUnsigned_append_rest read
      exact ⟨unit :: taken, by rw [same]; rfl, by simpa [NumberUnit, isMinus] using units⟩
    · exact parseUnsigned_append_rest read

/-- A number has digits. -/
theorem parseUnsigned_length_lt
    {negative : Bool}
    (read : NumericLiteral.parseUnsigned negative text = some (literal, after)) :
    after.length < text.length := by
  unfold NumericLiteral.parseUnsigned at read
  dsimp only at read
  split at read
  · rename_i allowed
    obtain ⟨fraction, readFraction, rest⟩ := Option.bind_eq_some_iff.mp read
    obtain ⟨exponent, readExponent, same⟩ := Option.map_eq_some_iff.mp rest
    obtain ⟨-, rfl⟩ := Prod.mk.inj same
    obtain ⟨point, pointSame, -⟩ := parseFraction_append_rest readFraction
    obtain ⟨mark, markSame, -⟩ := parseExponent_append_rest readExponent
    have shorter : (spanDigits text).2.length < text.length := by
      cases text with
      | nil => simp [spanDigits, NumericLiteral.wholeAllowed] at allowed
      | cons unit units =>
        by_cases isDigit : isDigitUnit unit = true
        · obtain ⟨taken, same, -⟩ := spanDigits_append_rest units
          have rests := congrArg List.length same
          rw [List.length_append] at rests
          simp only [spanDigits, isDigit, if_true, List.length_cons]
          omega
        · simp [spanDigits, isDigit, NumericLiteral.wholeAllowed] at allowed
    have pointLength := congrArg List.length pointSame
    have markLength := congrArg List.length markSame
    rw [List.length_append] at pointLength markLength
    omega
  · simp at read

theorem numericLiteral_length_lt (read : NumericLiteral.parse text = some (literal, after)) :
    after.length < text.length := by
  cases text with
  | nil => simp [NumericLiteral.parse] at read
  | cons unit rest =>
    rw [NumericLiteral.parse] at read
    split at read
    · exact (parseUnsigned_length_lt read).trans (by simp)
    · exact parseUnsigned_length_lt read

/-! ## The reader and the grammar -/

/-- Every reading takes at least one unit. -/
theorem Parses.length_lt {reading : Reading} (parses : Parses text reading after) :
    after.length < text.length := by
  induction parses with
  | emptyArray starts closes =>
    exact (length_lt_of_skipSpace closes).trans (length_lt_of_skipSpace starts)
  | array starts _ _ ih =>
    exact ih.trans_le ((length_skipSpace_le _).trans (length_lt_of_skipSpace starts).le)
  | emptyObject starts closes =>
    exact (length_lt_of_skipSpace closes).trans (length_lt_of_skipSpace starts)
  | object starts _ _ ih =>
    exact ih.trans_le ((length_skipSpace_le _).trans (length_lt_of_skipSpace starts).le)
  | string starts read =>
    obtain ⟨body, -, rfl⟩ := readBody_eq_some.mp read
    have shorter := length_lt_of_skipSpace starts
    simp only [List.length_append, List.length_cons] at shorter
    omega
  | @number text rest after unit literal starts numeric read =>
    have shorter := length_skipSpace_le text
    have taken := numericLiteral_length_lt read
    rw [starts] at shorter
    exact taken.trans_le shorter
  | @keyword text rest after unit value starts read =>
    obtain ⟨word, isKeyword, same⟩ := parseKeyword_eq_some.mp read
    have long : 0 < word.length := by
      simp only [keywords, List.mem_cons, Prod.mk.injEq, List.not_mem_nil, or_false] at isKeyword
      obtain ⟨rfl, -⟩ | ⟨rfl, -⟩ | ⟨rfl, -⟩ := isKeyword <;> decide
    have shorter := length_skipSpace_le text
    rw [starts, same, List.length_append] at shorter
    omega
  | lastItem _ closes ih =>
    exact (length_lt_of_skipSpace closes).trans ih
  | moreItems _ comma _ firstShorter othersShorter =>
    exact othersShorter.trans ((length_lt_of_skipSpace comma).trans firstShorter)
  | lastMember starts read colon _ closes firstShorter =>
    obtain ⟨body, -, rfl⟩ := readBody_eq_some.mp read
    have keyShorter := length_lt_of_skipSpace starts
    have colonShorter := length_lt_of_skipSpace colon
    have closeShorter := length_lt_of_skipSpace closes
    simp only [List.length_append, List.length_cons] at keyShorter
    omega
  | moreMembers starts read colon _ comma _ firstShorter othersShorter =>
    obtain ⟨body, -, rfl⟩ := readBody_eq_some.mp read
    have keyShorter := length_lt_of_skipSpace starts
    have colonShorter := length_lt_of_skipSpace colon
    have commaShorter := length_lt_of_skipSpace comma
    simp only [List.length_append, List.length_cons] at keyShorter
    omega

/-- What one call of the reader may answer, when the calls it makes answer what is
derived. -/
structure Sound (fuel : Nat) : Prop where
  value : ∀ text value after,
    parseValue fuel text = some (value, after) → Parses text (.value value) after
  items : ∀ text items after,
    parseItems fuel text = some (items, after) → Parses text (.items items) after
  members : ∀ text members after,
    parseMembers fuel text = some (members, after) → Parses text (.members members) after

variable
  {fuel : Nat}

/-- A value read is one the grammar derives. -/
theorem parses_of_parseValue
    (sound : Sound fuel) {value : JsValue}
    (read : parseValue (fuel + 1) text = some (value, after)) :
    Parses text (.value value) after := by
  rw [parseValue] at read
  cases starts : skipSpace text with
  | nil => simp [starts] at read
  | cons unit rest =>
    simp only [starts] at read
    split at read
    · rename_i isBracket
      subst isBracket
      split at read
      · rename_i closes
        cases read
        exact .emptyArray starts closes
      · rename_i goesOn
        obtain ⟨⟨items, rest⟩, readItems, same⟩ := Option.map_eq_some_iff.mp read
        cases same
        exact .array starts (fun after closes => goesOn after closes)
          (sound.items _ _ _ readItems)
    · split at read
      · rename_i isBrace
        subst isBrace
        split at read
        · rename_i closes
          cases read
          exact .emptyObject starts closes
        · rename_i goesOn
          obtain ⟨⟨members, rest⟩, readMembers, same⟩ := Option.map_eq_some_iff.mp read
          cases same
          exact .object starts (fun after closes => goesOn after closes)
            (sound.members _ _ _ readMembers)
      · split at read
        · rename_i isQuote
          subst isQuote
          obtain ⟨⟨body, rest⟩, readBody, same⟩ := Option.map_eq_some_iff.mp read
          cases same
          exact .string starts readBody
        · split at read
          · rename_i numeric
            obtain ⟨⟨literal, rest⟩, readNumber, same⟩ := Option.map_eq_some_iff.mp read
            cases same
            exact .number starts (by simpa [StartsNumber] using numeric) readNumber
          · exact .keyword starts read

theorem parses_of_parseItems
    (sound : Sound fuel) {items : List JsValue}
    (read : parseItems (fuel + 1) text = some (items, after)) :
    Parses text (.items items) after := by
  rw [parseItems] at read
  obtain ⟨⟨item, middle⟩, first, rest⟩ := Option.bind_eq_some_iff.mp read
  dsimp only at rest
  split at rest
  · rename_i comma
    obtain ⟨⟨others, after⟩, readOthers, same⟩ := Option.map_eq_some_iff.mp rest
    cases same
    exact .moreItems (sound.value _ _ _ first) comma (sound.items _ _ _ readOthers)
  · rename_i closes
    cases rest
    exact .lastItem (sound.value _ _ _ first) closes
  · simp at rest

theorem parses_of_parseMembers
    (sound : Sound fuel) {members : List (JsString × JsValue)}
    (read : parseMembers (fuel + 1) text = some (members, after)) :
    Parses text (.members members) after := by
  rw [parseMembers] at read
  split at read
  · rename_i starts
    obtain ⟨⟨key, afterKey⟩, readKey, rest⟩ := Option.bind_eq_some_iff.mp read
    dsimp only at rest
    split at rest
    · rename_i colon
      obtain ⟨⟨value, middle⟩, first, rest⟩ := Option.bind_eq_some_iff.mp rest
      dsimp only at rest
      split at rest
      · rename_i comma
        obtain ⟨⟨others, after⟩, readOthers, same⟩ := Option.map_eq_some_iff.mp rest
        cases same
        exact .moreMembers starts readKey colon (sound.value _ _ _ first) comma
          (sound.members _ _ _ readOthers)
      · rename_i closes
        cases rest
        exact .lastMember starts readKey colon (sound.value _ _ _ first) closes
      · simp at rest
    · simp at rest
  · simp at read

/-- Whatever the reader answers is derived. -/
theorem sound (fuel : Nat) : Sound fuel := by
  induction fuel with
  | zero =>
    constructor
    · intro text value after read
      simp [parseValue] at read
    · intro text items after read
      simp [parseItems] at read
    · intro text members after read
      simp [parseMembers] at read
  | succ fuel ih =>
    exact ⟨fun _ _ _ => parses_of_parseValue ih, fun _ _ _ => parses_of_parseItems ih,
      fun _ _ _ => parses_of_parseMembers ih⟩

/-- The answer of the reader to a question with so much fuel. -/
def AnswersWith (fuel : Nat)
    (text after : JsString) : Reading → Prop
  | .value value => 2 * text.length ≤ fuel → parseValue fuel text = some (value, after)
  | .items items => 2 * text.length + 1 ≤ fuel → parseItems fuel text = some (items, after)
  | .members members =>
    2 * text.length + 1 ≤ fuel → parseMembers fuel text = some (members, after)

/-- What the grammar derives is read, given fuel. -/
theorem Parses.answersWith {reading : Reading} (parses : Parses text reading after) (fuel : Nat) :
    AnswersWith fuel text after reading := by
  induction parses generalizing fuel with
  | emptyArray starts closes =>
    intro enough
    have shorter := length_lt_of_skipSpace starts
    obtain ⟨fuel, rfl⟩ : ∃ less, fuel = less + 1 := ⟨fuel - 1, by omega⟩
    rw [parseValue]
    simp only [starts, if_true, closes]
  | @array text rest after items starts goesOn _ ih =>
    intro enough
    have shorter := length_lt_of_skipSpace starts
    have skipped := length_skipSpace_le rest
    obtain ⟨fuel, rfl⟩ : ∃ less, fuel = less + 1 := ⟨fuel - 1, by omega⟩
    rw [parseValue]
    simp only [starts, if_true]
    rw [ih fuel (by omega)]
    rfl
  | emptyObject starts closes =>
    intro enough
    have shorter := length_lt_of_skipSpace starts
    obtain ⟨fuel, rfl⟩ : ∃ less, fuel = less + 1 := ⟨fuel - 1, by omega⟩
    rw [parseValue]
    simp [starts, closes]
  | @object text rest after members starts goesOn _ ih =>
    intro enough
    have shorter := length_lt_of_skipSpace starts
    have skipped := length_skipSpace_le rest
    obtain ⟨fuel, rfl⟩ : ∃ less, fuel = less + 1 := ⟨fuel - 1, by omega⟩
    rw [parseValue]
    simp only [starts]
    rw [if_neg (by decide), if_pos trivial, ih fuel (by omega)]
    rfl
  | string starts read =>
    intro enough
    have shorter := length_lt_of_skipSpace starts
    obtain ⟨fuel, rfl⟩ : ∃ less, fuel = less + 1 := ⟨fuel - 1, by omega⟩
    rw [parseValue]
    simp only [starts]
    rw [if_neg (by decide), if_neg (by decide), if_pos trivial, read]
    rfl
  | number starts numeric read =>
    intro enough
    have shorter := length_lt_of_skipSpace starts
    obtain ⟨fuel, rfl⟩ : ∃ less, fuel = less + 1 := ⟨fuel - 1, by omega⟩
    rw [parseValue]
    simp only [starts]
    rw [if_neg (numeric.ne (by decide)), if_neg (numeric.ne (by decide)),
      if_neg (numeric.ne (by decide)), if_pos (by simpa [StartsNumber] using numeric), read]
    rfl
  | keyword starts read =>
    intro enough
    have shorter := length_lt_of_skipSpace starts
    obtain ⟨fuel, rfl⟩ : ∃ less, fuel = less + 1 := ⟨fuel - 1, by omega⟩
    rw [parseValue]
    simp only [starts]
    obtain rfl | rfl | rfl := parseKeyword_starts read
    · exact read
    · exact read
    · exact read
  | lastItem _ closes ih =>
    intro enough
    obtain ⟨fuel, rfl⟩ : ∃ less, fuel = less + 1 := ⟨fuel - 1, by omega⟩
    rw [parseItems, ih fuel (by omega), Option.bind_some]
    simp only [closes]
  | moreItems first comma _ firstAnswers othersAnswer =>
    intro enough
    have shorter := first.length_lt
    have rests := length_lt_of_skipSpace comma
    obtain ⟨fuel, rfl⟩ : ∃ less, fuel = less + 1 := ⟨fuel - 1, by omega⟩
    rw [parseItems, firstAnswers fuel (by omega), Option.bind_some]
    simp only [comma]
    rw [othersAnswer fuel (by omega)]
    rfl
  | lastMember starts read colon first closes ih =>
    intro enough
    obtain ⟨body, -, rfl⟩ := readBody_eq_some.mp read
    have keyShorter := length_lt_of_skipSpace starts
    have colonShorter := length_lt_of_skipSpace colon
    simp only [List.length_append, List.length_cons] at keyShorter
    obtain ⟨fuel, rfl⟩ : ∃ less, fuel = less + 1 := ⟨fuel - 1, by omega⟩
    rw [parseMembers]
    simp only [starts, read, Option.bind_some, colon]
    rw [ih fuel (by omega), Option.bind_some]
    simp only [closes]
  | moreMembers starts read colon first comma _ firstAnswers othersAnswer =>
    intro enough
    obtain ⟨body, -, rfl⟩ := readBody_eq_some.mp read
    have keyShorter := length_lt_of_skipSpace starts
    have colonShorter := length_lt_of_skipSpace colon
    have firstShorter := first.length_lt
    have commaShorter := length_lt_of_skipSpace comma
    simp only [List.length_append, List.length_cons] at keyShorter
    obtain ⟨fuel, rfl⟩ : ∃ less, fuel = less + 1 := ⟨fuel - 1, by omega⟩
    rw [parseMembers]
    simp only [starts, read, Option.bind_some, colon]
    rw [firstAnswers fuel (by omega), Option.bind_some]
    simp only [comma]
    rw [othersAnswer fuel (by omega)]
    rfl

/-- A text is a value when the grammar takes all of it but white space. -/
theorem parse_eq_some {text : JsString} {value : JsValue} :
    parse text = some value ↔
      ∃ after, Parses text (.value value) after ∧ skipSpace after = [] := by
  unfold parse
  constructor
  · intro read
    split at read
    · rename_i given after isRead
      split at read
      · rename_i ends
        cases read
        exact ⟨after, (sound _).value _ _ _ isRead, ends⟩
      · simp at read
    · simp at read
  · rintro ⟨after, parses, ends⟩
    rw [parses.answersWith (2 * text.length + 1) (by omega)]
    simp only [ends, if_true]

end JsonParse
end Relavium.Library
