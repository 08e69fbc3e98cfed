import Relavium.Library.JsonParse

/-!
# Reading what has been written

A text reads as a value when the reader returns that value and stops at the end
of the text.  Texts of scalars read as those scalars, and comma-separated
texts between brackets or braces read as arrays and objects of what they read
as.
-/

namespace Relavium.Library
namespace JsonParse

/-- What may come after a value without white space. -/
def ValueEnds (rest : JsString) : Prop :=
  ∀ unit ∈ rest.head?, unit = 0x2C ∨ unit = 0x5D ∨ unit = 0x7D

/-- The first unit is neither white space nor a closing bracket. -/
def Opens (text : JsString) : Prop :=
  ∃ unit rest, text = unit :: rest ∧ isSpace unit = false ∧ unit ≠ 0x5D

/-- Reading the text gives the value. -/
structure Reads (text : JsString) (value : JsValue) : Prop where
  opens : Opens text
  reads :
    ∀ fuel rest,
      2 * text.length ≤ fuel →
      ValueEnds rest →
        parseValue fuel (text ++ rest) = some (value, rest)

/-- Texts separated by commas. -/
def joinTexts : List JsString → JsString
  | [] => []
  | [text] => text
  | text :: others => text ++ 0x2C :: joinTexts others

theorem skipSpace_of_not_space
    {unit : UInt16} (visible : isSpace unit = false) (rest : JsString) :
    skipSpace (unit :: rest) = unit :: rest := by
  simp [skipSpace, visible]

theorem ValueEnds.literalEnds {rest : JsString} (ends : ValueEnds rest) :
    NumericLiteral.Ends rest := by
  refine ⟨?_, ?_, ?_⟩
  · intro unit first
    obtain rfl | rfl | rfl := ends unit first <;> rfl
  · intro unit first
    obtain rfl | rfl | rfl := ends unit first <;> decide
  · intro unit first
    obtain rfl | rfl | rfl := ends unit first <;> decide

theorem valueEnds_comma (rest : JsString) : ValueEnds (0x2C :: rest) := by
  intro unit first
  simp only [List.head?_cons, Option.mem_some_iff] at first
  exact Or.inl first.symm

theorem valueEnds_bracket (rest : JsString) : ValueEnds (0x5D :: rest) := by
  intro unit first
  simp only [List.head?_cons, Option.mem_some_iff] at first
  exact Or.inr (Or.inl first.symm)

theorem valueEnds_brace (rest : JsString) : ValueEnds (0x7D :: rest) := by
  intro unit first
  simp only [List.head?_cons, Option.mem_some_iff] at first
  exact Or.inr (Or.inr first.symm)

theorem Opens.length_pos {text : JsString} (opens : Opens text) :
    1 ≤ text.length := by
  obtain ⟨unit, rest, rfl, _⟩ := opens
  exact Nat.le_add_left 1 rest.length

theorem Reads.of_succ {text : JsString} {value : JsValue} (opens : Opens text)
    (reads :
      ∀ fuel rest,
        2 * text.length ≤ fuel + 1 →
        ValueEnds rest →
          parseValue (fuel + 1) (text ++ rest) = some (value, rest)) :
    Reads text value := by
  refine ⟨opens, fun fuel rest enough ends => ?_⟩
  have long := opens.length_pos
  obtain ⟨fuel, rfl⟩ : ∃ less, fuel = less + 1 := ⟨fuel - 1, by omega⟩
  exact reads fuel rest enough ends

section Scalars

theorem reads_keyword {text : JsString} {value : JsValue} (keyword : (text, value) ∈ keywords) :
    Reads text value := by
  simp only [keywords, List.mem_cons, Prod.mk.injEq, List.not_mem_nil, or_false] at keyword
  obtain ⟨rfl, rfl⟩ | ⟨rfl, rfl⟩ | ⟨rfl, rfl⟩ := keyword
  · exact Reads.of_succ ⟨_, _, rfl, rfl, by decide⟩ fun _ _ _ _ => rfl
  · exact Reads.of_succ ⟨_, _, rfl, rfl, by decide⟩ fun _ _ _ _ => rfl
  · exact Reads.of_succ ⟨_, _, rfl, rfl, by decide⟩ fun _ _ _ _ => rfl

theorem reads_quote (text : JsString) :
    Reads (JsonString.quote text) (.string text) := by
  refine Reads.of_succ ⟨_, _, rfl, rfl, by decide⟩ fun fuel rest _ _ => ?_
  have body := JsonString.readBody_writeBody text rest
  have atQuote :
      parseValue (fuel + 1) (0x22 :: (JsonString.writeBody text ++ 0x22 :: rest)) =
        (JsonString.readBody (JsonString.writeBody text ++ 0x22 :: rest)).map
          fun result => (.string result.1, result.2) := rfl
  simp only [JsonString.quote, List.cons_append, List.append_assoc, List.nil_append]
  rw [atQuote, body]
  rfl

/-- A unit that a number starts with. -/
def StartsNumber (unit : UInt16) : Prop :=
  unit = 0x2D ∨ isDigitUnit unit = true

theorem StartsNumber.ne
    {unit : UInt16} (starts : StartsNumber unit) {other : UInt16}
    (outside : other.toNat < 45 ∨ 57 < other.toNat) :
    unit ≠ other := by
  rintro rfl
  obtain rfl | digit := starts
  · simp at outside
  · have inside := of_decide_eq_true digit
    omega

theorem StartsNumber.visible {unit : UInt16} (starts : StartsNumber unit) :
    isSpace unit = false := by
  simp [isSpace, starts.ne]

theorem parseValue_number
    {unit : UInt16} (starts : StartsNumber unit) (fuel : Nat) (rest : JsString) :
    parseValue (fuel + 1) (unit :: rest) =
      (NumericLiteral.parse (unit :: rest)).map fun result =>
        (.number result.1.value, result.2) := by
  have numeric : (decide (unit = 0x2D) || isDigitUnit unit) = true := by
    simpa [StartsNumber] using starts
  have notBracket : unit ≠ 0x5B := starts.ne (by decide)
  have notBrace : unit ≠ 0x7B := starts.ne (by decide)
  have notQuote : unit ≠ 0x22 := starts.ne (by decide)
  rw [parseValue.eq_def]
  simp only [skipSpace_of_not_space starts.visible, notBracket, notBrace,
    notQuote, if_false, numeric, if_true]

theorem literal_starts {literal : NumericLiteral} (wellFormed : literal.WellFormed) :
    ∃ unit rest, literal.text = unit :: rest ∧ StartsNumber unit := by
  unfold NumericLiteral.text
  cases literal.negative with
  | true => exact ⟨_, _, rfl, Or.inl rfl⟩
  | false =>
    have allowed := wellFormed.wholeAllowed
    have small := wellFormed.wholeSmall
    cases digits : literal.whole with
    | nil => simp [digits, NumericLiteral.wholeAllowed] at allowed
    | cons first others =>
      have firstSmall := small first (by simp [digits])
      exact ⟨digitUnit first, _, rfl, Or.inr (isDigitUnit_digitUnit firstSmall)⟩

/-- A number other than minus zero reads back. -/
theorem reads_number
    {value : Binary64} (notNegativeZero : ¬(value.negative = true ∧ value.mantissa = 0)) :
    Reads value.toText (.number (.finite value)) := by
  have wellFormed := Binary64.wellFormed_toLiteral value
  obtain ⟨unit, others, shape, starts⟩ := literal_starts wellFormed
  have opens : Opens value.toText :=
    ⟨unit, others, shape, starts.visible, starts.ne (by decide)⟩
  refine Reads.of_succ opens fun fuel rest _ ends => ?_
  have readBack := NumericLiteral.parse_text wellFormed ends.literalEnds
  rw [shape, List.cons_append] at readBack
  rw [Binary64.toText, shape, List.cons_append, parseValue_number starts,
    readBack, Option.map_some, Binary64.value_toLiteral notNegativeZero]

end Scalars

section Containers

theorem Opens.append {text : JsString} (opens : Opens text) (rest : JsString) :
    Opens (text ++ rest) := by
  obtain ⟨unit, others, rfl, visible⟩ := opens
  exact ⟨unit, others ++ rest, rfl, visible⟩

theorem joinTexts_cons_cons (text next : JsString) (others : List JsString) :
    joinTexts (text :: next :: others) =
      text ++ 0x2C :: joinTexts (next :: others) :=
  rfl

theorem parseItems_comma
    {text : JsString} {item : JsValue} (reads : Reads text item) (fuel : Nat)
    (enough : 2 * text.length ≤ fuel) (rest : JsString) :
    parseItems (fuel + 1) (text ++ 0x2C :: rest) =
      (parseItems fuel rest).map fun others =>
        (item :: others.1, others.2) := by
  rw [parseItems.eq_def]
  dsimp only
  rw [reads.reads fuel _ enough (valueEnds_comma rest)]
  rfl

/-- An item before the closing bracket is the last one. -/
theorem parseItems_bracket
    {text : JsString} {item : JsValue} (reads : Reads text item) (fuel : Nat)
    (enough : 2 * text.length ≤ fuel) (rest : JsString) :
    parseItems (fuel + 1) (text ++ 0x5D :: rest) = some ([item], rest) := by
  rw [parseItems.eq_def]
  dsimp only
  rw [reads.reads fuel _ enough (valueEnds_bracket rest)]
  rfl

theorem parseItems_joinTexts
    {texts : List JsString} {items : List JsValue} (reads : List.Forall₂ Reads texts items)
    (nonempty : texts ≠ []) (rest : JsString) (fuel : Nat)
    (enough : 2 * (joinTexts texts).length + 1 ≤ fuel) :
    parseItems fuel (joinTexts texts ++ 0x5D :: rest) = some (items, rest) := by
  induction reads generalizing fuel with
  | nil => exact absurd rfl nonempty
  | @cons text item texts items first others ih =>
    obtain ⟨fuel, rfl⟩ : ∃ less, fuel = less + 1 := ⟨fuel - 1, by omega⟩
    cases texts with
    | nil =>
      cases others
      rw [joinTexts] at enough ⊢
      exact parseItems_bracket first fuel (by omega) rest
    | cons next texts =>
      rw [joinTexts_cons_cons, List.length_append, List.length_cons] at enough
      have later := ih (List.cons_ne_nil _ _) fuel (by omega)
      rw [joinTexts_cons_cons, List.append_assoc, List.cons_append,
        parseItems_comma first fuel (by omega), later]
      rfl

/-- An array reads back when its items do. -/
theorem reads_array
    {texts : List JsString} {items : List JsValue} (reads : List.Forall₂ Reads texts items) :
    Reads (0x5B :: (joinTexts texts ++ [0x5D])) (.array items) := by
  refine Reads.of_succ ⟨_, _, rfl, rfl, by decide⟩ fun fuel rest enough _ => ?_
  cases reads with
  | nil => rfl
  | @cons text item texts items first others =>
    have all := parseItems_joinTexts (List.Forall₂.cons first others)
      (List.cons_ne_nil _ _) rest fuel (by simp at enough; omega)
    obtain ⟨unit, units, shape, visible, notBracket⟩ :
        Opens (joinTexts (text :: texts) ++ 0x5D :: rest) := by
      cases texts with
      | nil => exact first.opens.append _
      | cons next texts =>
        rw [joinTexts_cons_cons, List.append_assoc]
        exact first.opens.append _
    rw [List.cons_append, List.append_assoc, List.singleton_append, shape]
    rw [shape] at all
    rw [parseValue.eq_def]
    simp only [skipSpace_of_not_space (show isSpace 0x5B = false from rfl),
      if_true, skipSpace_of_not_space visible]
    split
    · next after same =>
        exact absurd (List.cons.inj same).1 notBracket
    · rw [all]
      rfl

/-- A key with the text of its value. -/
def memberText (member : JsString × JsString) : JsString :=
  JsonString.quote member.1 ++ 0x3A :: member.2

/-- A key with its text reads as that key with its value. -/
structure MemberReads (member : JsString × JsString)
    (property : JsString × JsValue) : Prop where
  sameKey : property.1 = member.1
  valueReads : Reads member.2 property.2

section Member

variable
  {member : JsString × JsString}
  {property : JsString × JsValue}

theorem parseMembers_key (member : JsString × JsString) (fuel : Nat) (rest : JsString) :
    parseMembers (fuel + 1) (memberText member ++ rest) =
      (parseValue fuel (member.2 ++ rest)).bind fun first =>
        match skipSpace first.2 with
        | 0x2C :: rest =>
          (parseMembers fuel rest).map fun others =>
            ((member.1, first.1) :: others.1, others.2)
        | 0x7D :: rest => some ([(member.1, first.1)], rest)
        | _ => none := by
  have body := JsonString.readBody_writeBody member.1 (0x3A :: (member.2 ++ rest))
  simp only [memberText, JsonString.quote, List.cons_append, List.append_assoc, List.nil_append]
  rw [parseMembers.eq_def]
  have atQuote : ∀ units, skipSpace (0x22 :: units) = 0x22 :: units :=
    fun _ => rfl
  simp only [atQuote, body, Option.bind_some]
  rfl

theorem parseMembers_comma
    (reads : MemberReads member property) (fuel : Nat) (enough : 2 * member.2.length ≤ fuel)
    (rest : JsString) :
    parseMembers (fuel + 1) (memberText member ++ 0x2C :: rest) =
      (parseMembers fuel rest).map fun others =>
        (property :: others.1, others.2) := by
  have value := reads.valueReads.reads fuel _ enough (valueEnds_comma rest)
  rw [parseMembers_key, value, ← reads.sameKey]
  rfl

/-- A member before the closing brace is the last one. -/
theorem parseMembers_brace
    (reads : MemberReads member property) (fuel : Nat) (enough : 2 * member.2.length ≤ fuel)
    (rest : JsString) :
    parseMembers (fuel + 1) (memberText member ++ 0x7D :: rest) =
      some ([property], rest) := by
  have value := reads.valueReads.reads fuel _ enough (valueEnds_brace rest)
  rw [parseMembers_key, value, ← reads.sameKey]
  rfl

end Member

theorem parseMembers_joinTexts
    {members : List (JsString × JsString)} {properties : List (JsString × JsValue)}
    (reads : List.Forall₂ MemberReads members properties) (nonempty : members ≠ [])
    (rest : JsString) (fuel : Nat)
    (enough : 2 * (joinTexts (members.map memberText)).length + 1 ≤ fuel) :
    parseMembers fuel (joinTexts (members.map memberText) ++ 0x7D :: rest) =
      some (properties, rest) := by
  induction reads generalizing fuel with
  | nil => exact absurd rfl nonempty
  | @cons member property members properties first others
      ih =>
      obtain ⟨fuel, rfl⟩ : ∃ less, fuel = less + 1 := ⟨fuel - 1, by omega⟩
      have shorter : member.2.length ≤ (memberText member).length := by
        simp only [memberText, List.length_append, List.length_cons]
        omega
      cases members with
      | nil =>
        cases others
        rw [List.map_cons, List.map_nil, joinTexts] at enough ⊢
        exact parseMembers_brace first fuel (by omega) rest
      | cons next members =>
        rw [List.map_cons, List.map_cons, joinTexts_cons_cons, ← List.map_cons] at enough ⊢
        rw [List.length_append, List.length_cons] at enough
        have later := ih (List.cons_ne_nil _ _) fuel (by omega)
        rw [List.append_assoc, List.cons_append, parseMembers_comma first fuel (by omega), later]
        rfl

/-- Properties with distinct keys are all kept, in order. -/
theorem propertiesOf_of_nodup
    {members : List (JsString × JsValue)} (distinct : (members.map Prod.fst).Nodup) :
    propertiesOf members = members := by
  have general :
      ∀ (earlier later : List (JsString × JsValue)),
        ((earlier ++ later).map Prod.fst).Nodup →
          later.foldl
              (fun properties member =>
                OrderedMap.setEntry member.1 member.2 properties)
              earlier =
            earlier ++ later := by
    intro earlier later
    induction later generalizing earlier with
    | nil => simp
    | cons member later ih =>
      intro distinct
      have absent : OrderedMap.lookupEntry member.1 earlier = none := by
        cases found : OrderedMap.lookupEntry member.1 earlier with
        | none => rfl
        | some value =>
          rw [List.map_append, List.nodup_append] at distinct
          have present :=
            (OrderedMap.lookupEntry_eq_some_iff distinct.1 member.1 value).mp found
          exact absurd rfl (distinct.2.2 member.1
            (List.mem_map.mpr ⟨_, present, rfl⟩) member.1 List.mem_cons_self)
      rw [List.foldl_cons, OrderedMap.setEntry_of_none absent, ih]
      · simp
      · simpa using distinct
  exact general [] members distinct

/-- An object reads back when its members do. -/
theorem reads_object
    {members : List (JsString × JsString)} {properties : List (JsString × JsValue)}
    (reads : List.Forall₂ MemberReads members properties)
    (distinct : (properties.map Prod.fst).Nodup) :
    Reads (0x7B :: (joinTexts (members.map memberText) ++ [0x7D]))
      (.object properties) := by
  refine Reads.of_succ ⟨_, _, rfl, rfl, by decide⟩ fun fuel rest enough _ => ?_
  cases reads with
  | nil => rfl
  | @cons member property members properties first others =>
    have all := parseMembers_joinTexts (List.Forall₂.cons first others)
      (List.cons_ne_nil _ _) rest fuel (by simp at enough; simp; omega)
    obtain ⟨units, shape⟩ : ∃ units,
        joinTexts ((member :: members).map memberText) ++ 0x7D :: rest =
          0x22 :: units := by
      cases members with
      | nil | cons next members => exact ⟨_, rfl⟩
    rw [List.cons_append, List.append_assoc, List.singleton_append, shape]
    rw [shape] at all
    have atQuote : skipSpace (0x22 :: units) = 0x22 :: units := rfl
    have atBrace :
        parseValue (fuel + 1) (0x7B :: 0x22 :: units) =
          (parseMembers fuel (0x22 :: units)).map fun result =>
            (.object (propertiesOf result.1), result.2) := rfl
    rw [atBrace, all, Option.map_some, propertiesOf_of_nodup distinct]

end Containers

/-- A text that reads alone parses. -/
theorem parse_of_reads {text : JsString} {value : JsValue} (reads : Reads text value) :
    parse text = some value := by
  have ends : ValueEnds [] := fun unit first => by simp at first
  have whole := reads.reads (2 * text.length + 1) [] (by omega) ends
  rw [List.append_nil] at whole
  rw [parse, whole]
  rfl

end JsonParse
end Relavium.Library
