import Relavium.Library.JsonGrammar

/-!
# Nesting in JSON text

How deep a position of a JSON text lies inside brackets and braces, strings left
out.  The text of an object comes back to the depth it started from at its last
unit and not before, so that a text cut short before that unit is not a value.
-/

namespace Relavium.Library
namespace JsonParse

/-- Where a scan of JSON text stands. -/
inductive ScanMode
  | outside
  | inString
  /-- After a backslash in a string. -/
  | escaped

/-- The state of a scan. -/
structure Nesting where
  depth : Nat
  mode : ScanMode

/-- One unit of a scan. -/
def Nesting.next (nesting : Nesting)
    (unit : UInt16) : Nesting :=
  match nesting.mode with
  | .outside =>
    if unit = 0x7B ∨ unit = 0x5B then { nesting with depth := nesting.depth + 1 }
    else if unit = 0x7D ∨ unit = 0x5D then { nesting with depth := nesting.depth - 1 }
    else if unit = 0x22 then { nesting with mode := .inString }
    else nesting
  | .inString =>
    if unit = 0x22 then { nesting with mode := .outside }
    else if unit = 0x5C then { nesting with mode := .escaped }
    else nesting
  | .escaped => { nesting with mode := .inString }

/-- The state after a text. -/
def Nesting.scan (nesting : Nesting)
    (text : JsString) : Nesting :=
  text.foldl Nesting.next nesting

/-- A scan stays at or above a depth. -/
def Nesting.StaysAbove (floor : Nat)
    (nesting : Nesting) : JsString → Prop
  | [] => floor ≤ nesting.depth
  | unit :: rest => floor ≤ nesting.depth ∧ (nesting.next unit).StaysAbove floor rest

/-- A scan outside strings, at a depth. -/
def outsideAt (depth : Nat) : Nesting where
  depth := depth
  mode := .outside

/-- A text leaves its scan at the depth and mode it found, and goes no lower in
between. -/
structure Level (text : JsString) : Prop where
  returns : ∀ depth, (outsideAt depth).scan text = outsideAt depth
  staysAbove : ∀ depth, (outsideAt depth).StaysAbove depth text

namespace Nesting

@[simp] theorem scan_nil (nesting : Nesting) : nesting.scan [] = nesting := rfl

@[simp] theorem scan_cons (nesting : Nesting) (unit : UInt16) (rest : JsString) :
    nesting.scan (unit :: rest) = (nesting.next unit).scan rest := rfl

theorem scan_append (nesting : Nesting) (first second : JsString) :
    nesting.scan (first ++ second) = (nesting.scan first).scan second :=
  List.foldl_append ..

theorem StaysAbove.append
    {floor : Nat} {nesting : Nesting} {first second : JsString}
    (above : nesting.StaysAbove floor first)
    (later : (nesting.scan first).StaysAbove floor second) :
    nesting.StaysAbove floor (first ++ second) := by
  induction first generalizing nesting with
  | nil => exact later
  | cons unit rest ih =>
    exact ⟨above.1, ih above.2 later⟩

theorem StaysAbove.of_initial
    {floor : Nat} {nesting : Nesting} {text part : JsString}
    (above : nesting.StaysAbove floor text) (starts : part <+: text) :
    floor ≤ (nesting.scan part).depth := by
  induction text generalizing nesting part with
  | nil =>
    obtain rfl := List.prefix_nil.mp starts
    exact above
  | cons unit rest ih =>
    cases part with
    | nil => exact above.1
    | cons first part =>
      obtain ⟨rfl, later⟩ := List.cons_prefix_cons.mp starts
      rw [scan_cons]
      exact ih above.2 later

theorem StaysAbove.mono
    {floor lower : Nat} {nesting : Nesting} {text : JsString}
    (above : nesting.StaysAbove floor text) (below : lower ≤ floor) :
    nesting.StaysAbove lower text := by
  induction text generalizing nesting with
  | nil => exact below.trans above
  | cons unit rest ih =>
    exact ⟨below.trans above.1, ih above.2⟩

end Nesting

/-! ## Texts that are level -/

namespace Level

theorem nil : Level [] where
  returns _ := rfl
  staysAbove depth := le_refl depth

theorem append {first second : JsString} (earlier : Level first) (later : Level second) :
    Level (first ++ second) where
  returns depth := by rw [Nesting.scan_append, earlier.returns, later.returns]
  staysAbove depth := by
    refine (earlier.staysAbove depth).append ?_
    rw [earlier.returns]
    exact later.staysAbove depth

/-- A unit that neither nests nor quotes is level. -/
theorem singleton
    {unit : UInt16}
    (plain : unit ≠ 0x7B ∧ unit ≠ 0x5B ∧ unit ≠ 0x7D ∧ unit ≠ 0x5D ∧ unit ≠ 0x22) :
    Level [unit] := by
  have same : ∀ depth, (outsideAt depth).next unit = outsideAt depth := by
    intro depth
    simp [Nesting.next, outsideAt, plain]
  constructor
  · intro depth
    exact same depth
  · intro depth
    refine ⟨le_refl depth, ?_⟩
    rw [same]
    exact le_refl depth

theorem of_plain {text : JsString}
    (plain : ∀ unit ∈ text,
      unit ≠ 0x7B ∧ unit ≠ 0x5B ∧ unit ≠ 0x7D ∧ unit ≠ 0x5D ∧ unit ≠ 0x22) :
    Level text := by
  induction text with
  | nil => exact .nil
  | cons unit rest ih =>
    exact (singleton (plain unit List.mem_cons_self)).append
      (ih fun other isRest => plain other (List.mem_cons_of_mem _ isRest))

/-- A level text between brackets or braces is level. -/
theorem wrap
    {inner : JsString} {opening closing : UInt16} (level : Level inner)
    (nests : opening = 0x7B ∨ opening = 0x5B) (unnests : closing = 0x7D ∨ closing = 0x5D) :
    Level (opening :: (inner ++ [closing])) := by
  have inside : ∀ depth, (outsideAt depth).next opening = outsideAt (depth + 1) := by
    intro depth
    simp [Nesting.next, outsideAt, nests]
  have outside : ∀ depth, (outsideAt (depth + 1)).next closing = outsideAt depth := by
    intro depth
    have notOpening : closing ≠ 0x7B ∧ closing ≠ 0x5B := by
      obtain rfl | rfl := unnests <;> decide
    simp [Nesting.next, outsideAt, notOpening, unnests]
  constructor
  · intro depth
    rw [Nesting.scan_cons, inside, Nesting.scan_append, level.returns, Nesting.scan_cons, outside]
    rfl
  · intro depth
    refine ⟨le_refl depth, ?_⟩
    rw [inside]
    refine ((level.staysAbove (depth + 1)).mono (by omega)).append ?_
    rw [level.returns]
    refine ⟨by simp [outsideAt], ?_⟩
    rw [outside]
    exact le_refl depth

end Level

/-- A scan that starts inside a string stays in it up to the closing mark. -/
theorem Spells.scan {body text : JsString} (spells : Spells body text) (depth : Nat) :
    Nesting.scan { depth, mode := .inString } body = { depth, mode := .inString } ∧
      Nesting.StaysAbove depth { depth, mode := .inString } body := by
  have hexPlain : ∀ unit value, JsonString.hexValue unit = some value →
      unit ≠ 0x22 ∧ unit ≠ 0x5C := by
    intro unit value isHex
    constructor <;> rintro rfl <;> simp [JsonString.hexValue] at isHex
  induction spells with
  | nil => exact ⟨rfl, le_refl depth⟩
  | @code first second third fourth unit body text code _ ih =>
    unfold JsonString.unitOfHex at code
    split at code
    · rename_i firstHex secondHex thirdHex fourthHex
      obtain ⟨firstQuote, firstSlash⟩ := hexPlain _ _ firstHex
      obtain ⟨secondQuote, secondSlash⟩ := hexPlain _ _ secondHex
      obtain ⟨thirdQuote, thirdSlash⟩ := hexPlain _ _ thirdHex
      obtain ⟨fourthQuote, fourthSlash⟩ := hexPlain _ _ fourthHex
      simpa [Nesting.StaysAbove, Nesting.next, firstQuote, firstSlash, secondQuote,
        secondSlash, thirdQuote, thirdSlash, fourthQuote, fourthSlash]
        using ih
    · simp at code
  | short _ _ _ ih =>
    simpa [Nesting.StaysAbove, Nesting.next] using ih
  | verbatim notQuote notBackslash _ _ ih =>
    simpa [Nesting.StaysAbove, Nesting.next, notQuote, notBackslash] using ih

/-- A string leaves the nesting where it was. -/
theorem Spells.level {body text : JsString} (spells : Spells body text) :
    Level (0x22 :: (body ++ [0x22])) := by
  constructor
  · intro depth
    rw [Nesting.scan_cons,
      show (outsideAt depth).next 0x22 = { depth, mode := .inString } from rfl,
      Nesting.scan_append, (spells.scan depth).1]
    rfl
  · intro depth
    refine ⟨le_refl depth, ?_⟩
    rw [show (outsideAt depth).next 0x22 = { depth, mode := .inString } from rfl]
    refine (spells.scan depth).2.append ?_
    rw [(spells.scan depth).1]
    exact ⟨le_refl depth, le_refl depth⟩

theorem level_of_spaces {text : JsString} (spaces : ∀ unit ∈ text, isSpace unit = true) :
    Level text := by
  refine .of_plain fun unit isUnit => ?_
  have space := spaces unit isUnit
  refine ⟨?_, ?_, ?_, ?_, ?_⟩ <;> rintro rfl <;> simp [isSpace] at space

theorem level_of_number {text : JsString} (units : ∀ unit ∈ text, NumberUnit unit) :
    Level text := by
  refine .of_plain fun unit isUnit => ?_
  have number := units unit isUnit
  refine ⟨?_, ?_, ?_, ?_, ?_⟩ <;> rintro rfl <;> simp [NumberUnit, isDigitUnit] at number

/-- White space is skipped off the front of a text. -/
theorem exists_spaces (text : JsString) :
    ∃ spaces, text = spaces ++ skipSpace text ∧ ∀ unit ∈ spaces, isSpace unit = true :=
  ⟨text.takeWhile isSpace, (List.takeWhile_append_dropWhile).symm,
    List.all_eq_true.mp List.all_takeWhile⟩

theorem exists_level_of_skipSpace
    {text rest : JsString} {unit : UInt16} (starts : skipSpace text = unit :: rest) :
    ∃ spaces, text = spaces ++ unit :: rest ∧ Level spaces := by
  obtain ⟨spaces, same, areSpaces⟩ := exists_spaces text
  rw [starts] at same
  exact ⟨spaces, same, level_of_spaces areSpaces⟩

/-- What was read off a text is level; items and members stand before the closing
bracket or brace. -/
def LevelBefore
    (text after : JsString) : Reading → Prop
  | .value _ => ∃ taken, text = taken ++ after ∧ Level taken
  | .items _ => ∃ inner, text = inner ++ 0x5D :: after ∧ Level inner
  | .members _ => ∃ inner, text = inner ++ 0x7D :: after ∧ Level inner

/-- A reading leaves the nesting where it was. -/
theorem Parses.levelBefore
    {text after : JsString} {reading : Reading} (parses : Parses text reading after) :
    LevelBefore text after reading := by
  induction parses with
  | emptyArray starts closes =>
    obtain ⟨spaces, rfl, level⟩ := exists_level_of_skipSpace starts
    obtain ⟨inner, rfl, innerLevel⟩ := exists_level_of_skipSpace closes
    exact ⟨spaces ++ 0x5B :: (inner ++ [0x5D]), by simp,
      level.append (innerLevel.wrap (.inr rfl) (.inr rfl))⟩
  | @array text rest after items starts _ _ ih =>
    obtain ⟨spaces, rfl, level⟩ := exists_level_of_skipSpace starts
    obtain ⟨skipped, rests, areSpaces⟩ := exists_spaces rest
    obtain ⟨inner, same, innerLevel⟩ := ih
    exact ⟨spaces ++ 0x5B :: ((skipped ++ inner) ++ [0x5D]), by
        rw [rests, same]
        simp,
      level.append (((level_of_spaces areSpaces).append innerLevel).wrap (.inr rfl) (.inr rfl))⟩
  | emptyObject starts closes =>
    obtain ⟨spaces, rfl, level⟩ := exists_level_of_skipSpace starts
    obtain ⟨inner, rfl, innerLevel⟩ := exists_level_of_skipSpace closes
    exact ⟨spaces ++ 0x7B :: (inner ++ [0x7D]), by simp,
      level.append (innerLevel.wrap (.inl rfl) (.inl rfl))⟩
  | @object text rest after members starts _ _ ih =>
    obtain ⟨spaces, rfl, level⟩ := exists_level_of_skipSpace starts
    obtain ⟨skipped, rests, areSpaces⟩ := exists_spaces rest
    obtain ⟨inner, same, innerLevel⟩ := ih
    exact ⟨spaces ++ 0x7B :: ((skipped ++ inner) ++ [0x7D]), by
        rw [rests, same]
        simp,
      level.append (((level_of_spaces areSpaces).append innerLevel).wrap (.inl rfl) (.inl rfl))⟩
  | string starts read =>
    obtain ⟨spaces, rfl, level⟩ := exists_level_of_skipSpace starts
    obtain ⟨body, spells, rfl⟩ := readBody_eq_some.mp read
    exact ⟨spaces ++ 0x22 :: (body ++ [0x22]), by simp, level.append spells.level⟩
  | number starts _ read =>
    obtain ⟨spaces, rfl, level⟩ := exists_level_of_skipSpace starts
    obtain ⟨taken, same, units⟩ := numericLiteral_append_rest read
    exact ⟨spaces ++ taken, by rw [same, List.append_assoc],
      level.append (level_of_number units)⟩
  | keyword starts read =>
    obtain ⟨spaces, rfl, level⟩ := exists_level_of_skipSpace starts
    obtain ⟨word, isKeyword, same⟩ := parseKeyword_eq_some.mp read
    have wordLevel : Level word := by
      simp only [keywords, List.mem_cons, Prod.mk.injEq, List.not_mem_nil, or_false] at isKeyword
      obtain ⟨rfl, -⟩ | ⟨rfl, -⟩ | ⟨rfl, -⟩ := isKeyword <;> exact .of_plain (by decide)
    exact ⟨spaces ++ word, by rw [same, List.append_assoc], level.append wordLevel⟩
  | lastItem _ closes ih =>
    obtain ⟨taken, rfl, level⟩ := ih
    obtain ⟨spaces, rfl, spacesLevel⟩ := exists_level_of_skipSpace closes
    exact ⟨taken ++ spaces, by simp, level.append spacesLevel⟩
  | moreItems _ comma _ firstLevel othersLevel =>
    obtain ⟨taken, rfl, level⟩ := firstLevel
    obtain ⟨spaces, rfl, spacesLevel⟩ := exists_level_of_skipSpace comma
    obtain ⟨inner, rfl, innerLevel⟩ := othersLevel
    exact ⟨taken ++ (spaces ++ ([0x2C] ++ inner)), by simp,
      level.append (spacesLevel.append ((Level.singleton (by decide)).append innerLevel))⟩
  | lastMember starts read colon _ closes ih =>
    obtain ⟨spaces, rfl, level⟩ := exists_level_of_skipSpace starts
    obtain ⟨body, spells, rfl⟩ := readBody_eq_some.mp read
    obtain ⟨before, rfl, beforeLevel⟩ := exists_level_of_skipSpace colon
    obtain ⟨taken, rfl, takenLevel⟩ := ih
    obtain ⟨ending, rfl, endingLevel⟩ := exists_level_of_skipSpace closes
    exact ⟨spaces ++ (0x22 :: (body ++ [0x22]) ++ (before ++ ([0x3A] ++ (taken ++ ending)))),
      by simp,
      level.append (spells.level.append (beforeLevel.append
        ((Level.singleton (by decide)).append (takenLevel.append endingLevel))))⟩
  | moreMembers starts read colon _ comma _ firstLevel othersLevel =>
    obtain ⟨spaces, rfl, level⟩ := exists_level_of_skipSpace starts
    obtain ⟨body, spells, rfl⟩ := readBody_eq_some.mp read
    obtain ⟨before, rfl, beforeLevel⟩ := exists_level_of_skipSpace colon
    obtain ⟨taken, rfl, takenLevel⟩ := firstLevel
    obtain ⟨middle, rfl, middleLevel⟩ := exists_level_of_skipSpace comma
    obtain ⟨inner, rfl, innerLevel⟩ := othersLevel
    exact ⟨spaces ++ (0x22 :: (body ++ [0x22]) ++
        (before ++ ([0x3A] ++ (taken ++ (middle ++ ([0x2C] ++ inner)))))),
      by simp,
      level.append (spells.level.append (beforeLevel.append
        ((Level.singleton (by decide)).append (takenLevel.append (middleLevel.append
          ((Level.singleton (by decide)).append innerLevel))))))⟩

/-! ## Objects that are cut short -/

theorem exists_level_of_brace
    {text : JsString} {value : JsValue} (isValue : parse (0x7B :: text) = some value) :
    ∃ inner spaces, text = inner ++ 0x7D :: spaces ∧ Level inner ∧
      ∀ unit ∈ spaces, isSpace unit = true := by
  obtain ⟨after, parses, ends⟩ := parse_eq_some.mp isValue
  have atBrace : skipSpace (0x7B :: text) = 0x7B :: text := rfl
  obtain ⟨spaces, same, areSpaces⟩ := exists_spaces after
  rw [ends, List.append_nil] at same
  subst same
  cases parses with
  | emptyArray starts _ | array starts _ _ =>
    rw [atBrace] at starts
    simp at starts
  | emptyObject starts closes =>
    rw [atBrace] at starts
    obtain ⟨-, rfl⟩ := List.cons.inj starts
    obtain ⟨inner, rfl, level⟩ := exists_level_of_skipSpace closes
    exact ⟨inner, after, rfl, level, areSpaces⟩
  | @object _ rest _ members starts _ parsed =>
    rw [atBrace] at starts
    obtain ⟨-, rfl⟩ := List.cons.inj starts
    obtain ⟨skipped, rests, skippedSpaces⟩ := exists_spaces text
    obtain ⟨inner, innerSame, level⟩ := parsed.levelBefore
    exact ⟨skipped ++ inner, after, by rw [rests, innerSame]; simp,
      (level_of_spaces skippedSpaces).append level, areSpaces⟩
  | string starts _ =>
    rw [atBrace] at starts
    simp at starts
  | number starts numeric _ =>
    rw [atBrace] at starts
    exact absurd (List.cons.inj starts).1.symm (numeric.ne (by decide))
  | keyword starts read =>
    rw [atBrace] at starts
    obtain ⟨rfl, -⟩ := List.cons.inj starts
    exact absurd (parseKeyword_starts read) (by decide)

/-- The text of an object, without white space around it. -/
structure ObjectText (text : JsString) : Prop where
  isValue : ∃ value, parse text = some value
  braces : ∃ inner, text = 0x7B :: (inner ++ [0x7D])

/-- What stands between the braces of an object is level. -/
theorem ObjectText.level {inner : JsString} (isObject : ObjectText (0x7B :: (inner ++ [0x7D]))) :
    Level inner := by
  obtain ⟨value, isValue⟩ := isObject.isValue
  obtain ⟨found, spaces, same, level, areSpaces⟩ := exists_level_of_brace isValue
  cases spaces using List.reverseRecOn with
  | nil =>
    obtain ⟨rfl, -⟩ := List.append_inj' same rfl
    exact level
  | append_singleton spaces last _ =>
    -- The text ends in its brace, so nothing comes after it.
    rw [← List.cons_append, ← List.append_assoc] at same
    have lastSame : (0x7D : UInt16) = last :=
      (List.cons.inj (List.append_inj' same rfl).2).1
    have space := areSpaces last (by simp)
    rw [← lastSame] at space
    exact absurd space (by decide)

/-- A proper beginning of an object does not parse. -/
theorem parse_cut
    {text part : JsString} (isObject : ObjectText text) (starts : part <+: text)
    (short : part ≠ text) :
    parse part = none := by
  obtain ⟨inner, rfl⟩ := isObject.braces
  cases part with
  | nil => rfl
  | cons first part =>
    obtain ⟨rfl, later⟩ := List.cons_prefix_cons.mp starts
    cases isValue : parse (0x7B :: part) with
    | none => rfl
    | some value =>
      exfalso
      obtain ⟨found, spaces, rfl, level, -⟩ := exists_level_of_brace isValue
      -- The closing brace that was found stands inside the whole object.
      have inside : found ++ [0x7D] <+: inner := by
        have within : found ++ [0x7D] <+: inner ++ [0x7D] :=
          (by simp : found ++ [0x7D] <+: found ++ 0x7D :: spaces).trans later
        obtain same | inside := List.prefix_concat_iff.mp within
        · obtain ⟨rfl, -⟩ := List.append_inj' same rfl
          have notLonger := later.length_le
          simp only [List.length_append, List.length_cons, List.length_nil] at notLonger
          obtain rfl : spaces = [] := List.eq_nil_of_length_eq_zero (by omega)
          exact absurd rfl short
        · exact inside
      have above := (isObject.level.staysAbove 1).of_initial inside
      have down := (level.wrap (.inl rfl) (.inl rfl) : Level (0x7B :: (found ++ [0x7D]))).returns 0
      rw [Nesting.scan_cons, show (outsideAt 0).next 0x7B = outsideAt 1 from rfl] at down
      rw [down] at above
      exact absurd above (by decide)

/-- A text that ends in anything but its brace or white space is not an object. -/
theorem parse_brace_append_ne
    {part : JsString} {unit : UInt16} (notBrace : unit ≠ 0x7D) (visible : isSpace unit = false) :
    parse (0x7B :: (part ++ [unit])) = none := by
  cases isValue : parse (0x7B :: (part ++ [unit])) with
  | none => rfl
  | some value =>
    exfalso
    obtain ⟨inner, spaces, same, -, areSpaces⟩ := exists_level_of_brace isValue
    cases spaces using List.reverseRecOn with
    | nil =>
      have lastSame := (List.append_inj' same rfl).2
      exact notBrace (List.cons.inj lastSame).1
    | append_singleton spaces last _ =>
      rw [← List.cons_append, ← List.append_assoc] at same
      have lastSame := (List.cons.inj (List.append_inj' same rfl).2).1
      have space := areSpaces last (by simp)
      rw [← lastSame, visible] at space
      exact absurd space (by decide)

end JsonParse
end Relavium.Library
