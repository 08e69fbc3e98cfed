import Relavium.Library.JsonEscapes
import Relavium.Library.JsonStringify

/-!
# What JSON makes of a value

`JSON.stringify` takes any value.  A number that is not finite and an undefined item
become `null`, an undefined member is left out, and an object of another class stands
for a value of its own.  The reading of a value is what its text parses to.
-/

namespace Relavium.Library

namespace JsValue

/-- The keys of every object in the value are distinct. -/
inductive DistinctKeys : JsValue → Prop
  | undefined : DistinctKeys .undefined
  | null : DistinctKeys .null
  | boolean (value : Bool) : DistinctKeys (.boolean value)
  | number (value : JsNumber) : DistinctKeys (.number value)
  | string (text : JsString) : DistinctKeys (.string text)
  | exotic : DistinctKeys .exotic
  | array
      {items : List JsValue}
      (itemsDistinct : ∀ item ∈ items, DistinctKeys item) :
      DistinctKeys (.array items)
  | object
      {properties : List (JsString × JsValue)}
      (distinct : (properties.map Prod.fst).Nodup)
      (valuesDistinct : ∀ property ∈ properties, DistinctKeys property.2) :
      DistinctKeys (.object properties)

section Plain

-- what an object of another class stands for, if it can be written
variable (exotic : Option JsValue)

mutual

/-- A value with `null` for what has no JSON of its own. -/
def plain : JsValue → JsValue
  | .number (.infinity _) | .number .notANumber => .null
  | .array items => .array (plainItems items)
  | .object properties => .object (plainProperties properties)
  | .exotic => exotic.getD .null
  | .undefined => .undefined
  | .null => .null
  | .boolean value => .boolean value
  | .number (.finite value) => .number (.finite value)
  | .string text => .string text

def plainItems : List JsValue → List JsValue
  | [] => []
  | item :: rest => (if item.isUndefined then .null else plain item) :: plainItems rest

def plainProperties : List (JsString × JsValue) → List (JsString × JsValue)
  | [] => []
  | property :: rest => (property.1, plain property.2) :: plainProperties rest

end

/-- What the text of a value parses to. -/
def reading (value : JsValue) : JsValue :=
  (plain exotic value).kept

theorem plainItems_eq_map (items : List JsValue) :
    plainItems exotic items =
      items.map fun item => if item.isUndefined then .null else plain exotic item := by
  induction items with
  | nil => rfl
  | cons item rest ih => rw [plainItems, ih, List.map_cons]

theorem plainProperties_eq_map (properties : List (JsString × JsValue)) :
    plainProperties exotic properties =
      properties.map fun property => (property.1, plain exotic property.2) := by
  induction properties with
  | nil => rfl
  | cons property rest ih =>
    rw [plainProperties, ih, List.map_cons]

variable {exotic}

/-- What another object stands for is JSON. -/
def ExoticJson (exotic : Option JsValue) : Prop :=
  ∀ value, exotic = some value → value.Serializable

theorem Serializable.isUndefined_eq_false {value : JsValue} (serializable : value.Serializable) :
    value.isUndefined = false := by
  cases serializable <;> rfl

theorem isUndefined_plain (exoticJson : ExoticJson exotic) (value : JsValue) :
    (plain exotic value).isUndefined = value.isUndefined := by
  cases value with
  | exotic =>
    cases known : exotic with
    | none => rfl
    | some value => exact (exoticJson value known).isUndefined_eq_false
  | number value => cases value <;> rfl
  | undefined | null | boolean value | string text | array items | object properties => rfl

/-- The plain form of a value can be written. -/
theorem serializable_plain
    (exoticJson : ExoticJson exotic) {value : JsValue} (distinct : value.DistinctKeys)
    (defined : value ≠ .undefined) :
    (plain exotic value).Serializable := by
  induction distinct with
  | undefined => exact absurd rfl defined
  | null => exact .null
  | boolean value => exact .boolean value
  | number value =>
    cases value with
    | finite value => exact .number value
    | infinity negative | notANumber => exact .null
  | string text => exact .string text
  | exotic =>
    cases known : exotic with
    | none => exact .null
    | some value => exact exoticJson value known
  | @array items _ ih =>
    rw [plain, plainItems_eq_map]
    refine .array fun item isItem => ?_
    obtain ⟨given, isGiven, rfl⟩ := List.mem_map.mp isItem
    split
    · exact .null
    · rename_i defined
      exact ih given isGiven fun same =>
        defined (by rw [same]; rfl)
  | @object properties keys _ ih =>
    rw [plain, plainProperties_eq_map]
    refine .object ?_ fun property isProperty defined => ?_
    · rw [List.map_map]
      exact keys
    · obtain ⟨given, isGiven, rfl⟩ := List.mem_map.mp isProperty
      exact ih given isGiven fun same => defined (by rw [same]; rfl)

/-- A value that its text spells out: its numbers are finite and no negative zeros, and
it has no undefined members. -/
inductive IsData : JsValue → Prop
  | null : IsData .null
  | boolean (value : Bool) : IsData (.boolean value)
  | number
      {value : Binary64}
      (notNegativeZero : ¬(value.negative = true ∧ value.mantissa = 0)) :
      IsData (.number (.finite value))
  | string (text : JsString) : IsData (.string text)
  | array
      {items : List JsValue}
      (itemsData : ∀ item ∈ items, IsData item) :
      IsData (.array items)
  | object
      {properties : List (JsString × JsValue)}
      (valuesData : ∀ property ∈ properties, IsData property.2) :
      IsData (.object properties)

theorem IsData.isUndefined_eq_false {value : JsValue} (isData : value.IsData) :
    value.isUndefined = false := by
  cases isData <;> rfl

theorem eq_zero_of_mantissa
    {value : Binary64} (notNegativeZero : ¬(value.negative = true ∧ value.mantissa = 0))
    (vanishes : value.mantissa = 0) :
    Binary64.zero = value := by
  have exponent := Binary64.exponent_of_mantissa_zero vanishes
  obtain ⟨negative, mantissa, power, _, _, _, _⟩ := value
  obtain rfl : mantissa = 0 := vanishes
  obtain rfl : power = -1074 := exponent
  obtain rfl : negative = false := by simpa using notNegativeZero
  rfl

/-- What a text spells out is read back as it was. -/
theorem reading_of_isData {value : JsValue} (isData : value.IsData) :
    reading exotic value = value := by
  unfold reading
  induction isData with
  | null | boolean value => rfl
  | @number value notNegativeZero =>
    rw [plain, kept]
    split
    · next vanishes => rw [eq_zero_of_mantissa notNegativeZero vanishes]
    · rfl
  | string text => rfl
  | @array items itemsData ih =>
    rw [plain, plainItems_eq_map, kept, keptItems_eq_map, List.map_map]
    congr 1
    refine (List.map_congr_left fun item isItem => ?_).trans (List.map_id items)
    rw [Function.comp_apply, (itemsData item isItem).isUndefined_eq_false]
    exact ih item isItem
  | @object properties valuesData ih =>
    rw [plain, plainProperties_eq_map, kept, keptProperties_eq_map]
    congr 1
    rw [List.filter_eq_self.mpr, List.map_map]
    · refine (List.map_congr_left fun property isProperty => ?_).trans (List.map_id properties)
      exact congrArg (Prod.mk property.1) (ih property isProperty)
    · intro property isProperty
      obtain ⟨given, isGiven, rfl⟩ := List.mem_map.mp isProperty
      have same := ih given isGiven
      have defined := (valuesData given isGiven).isUndefined_eq_false
      rw [← same, isUndefined_kept] at defined
      simp [defined]

end Plain

end JsValue

namespace JsonText

open JsonParse (joinTexts memberText)
open JsValue (plain reading ExoticJson)

section Reading

variable
  {exotic : Option JsValue}

mutual

theorem write_plain (exoticJson : ExoticJson exotic) :
    (value : JsValue) → {text : JsString} →
      write (exotic.bind (write none)) value = some text →
        write none (plain exotic value) = some text
  | .undefined, _, written | .null, _, written | .boolean true, _, written
  | .boolean false, _, written | .number (.infinity _), _, written
  | .number .notANumber, _, written | .number (.finite _), _, written
  | .string _, _, written => written
  | .exotic, text, written => by
      obtain ⟨value, known, writtenValue⟩ := Option.bind_eq_some_iff.mp written
      rw [plain, known]
      exact writtenValue
  | .array items, text, written => by
      rw [write] at written
      obtain ⟨texts, writtenItems, rfl⟩ := Option.map_eq_some_iff.mp written
      rw [plain, write, writeItems_plain exoticJson items writtenItems]
      rfl
  | .object properties, text, written => by
      rw [write] at written
      obtain ⟨texts, writtenProperties, rfl⟩ := Option.map_eq_some_iff.mp written
      rw [plain, write, writeProperties_plain exoticJson properties writtenProperties]
      rfl

theorem writeItems_plain (exoticJson : ExoticJson exotic) :
    (items : List JsValue) → {texts : List JsString} →
      writeItems (exotic.bind (write none)) items = some texts →
        writeItems none (JsValue.plainItems exotic items) = some texts
  | [], _, written => written
  | item :: rest, texts, written => by
      rw [writeItems] at written
      obtain ⟨text, writtenItem, others⟩ := Option.bind_eq_some_iff.mp written
      obtain ⟨texts, writtenRest, rfl⟩ := Option.map_eq_some_iff.mp others
      have itemText : write none
          (if item.isUndefined then .null else plain exotic item) = some text := by
        split
        · rename_i undefined
          rw [(JsValue.isUndefined_iff item).mp undefined] at writtenItem
          exact writtenItem
        · exact write_plain exoticJson item writtenItem
      rw [JsValue.plainItems, writeItems, itemText, writeItems_plain exoticJson rest writtenRest]
      rfl

theorem writeProperties_plain (exoticJson : ExoticJson exotic) :
    (properties : List (JsString × JsValue)) → {texts : List JsString} →
      writeProperties (exotic.bind (write none)) properties = some texts →
        writeProperties none (JsValue.plainProperties exotic properties) = some texts
  | [], _, written => written
  | property :: rest, texts, written => by
      rw [writeProperties] at written
      rw [JsValue.plainProperties, writeProperties]
      dsimp only
      rw [JsValue.isUndefined_plain exoticJson]
      split at written
      · rename_i undefined
        rw [if_pos undefined]
        exact writeProperties_plain exoticJson rest written
      · rename_i defined
        obtain ⟨text, writtenValue, others⟩ := Option.bind_eq_some_iff.mp written
        obtain ⟨texts, writtenRest, rfl⟩ := Option.map_eq_some_iff.mp others
        rw [if_neg defined, write_plain exoticJson property.2 writtenValue,
          writeProperties_plain exoticJson rest writtenRest]
        rfl

end

/-- A written value parses to its plain reading. -/
theorem parse_of_write
    (exoticJson : ExoticJson exotic) {value : JsValue} (distinct : value.DistinctKeys)
    (defined : value ≠ .undefined) {text : JsString}
    (written : write (exotic.bind (write none)) value = some text) :
    JsonParse.parse text = some (reading exotic value) := by
  obtain ⟨plainText, writtenPlain, parsed⟩ :=
    parse_write none (JsValue.serializable_plain exoticJson distinct defined)
  rw [write_plain exoticJson value written] at writtenPlain
  cases writtenPlain
  exact parsed

end Reading

/-! ## What texts consist of -/

/-- What holds of every token holds of texts made of them. -/
structure TextClosed (Holds : JsString → Prop) : Prop where
  append : ∀ first second, Holds first → Holds second → Holds (first ++ second)
  ascii : ∀ unit : UInt16, 0x20 ≤ unit.toNat → unit.toNat < 127 → Holds [unit]
  quote : ∀ text, Holds (JsonString.quote text)

section Closed

variable
  {Holds : JsString → Prop}
  (closed : TextClosed Holds)

include closed

theorem TextClosed.of_ascii
    {text : JsString} (nonempty : text ≠ [])
    (ascii : ∀ unit ∈ text, 0x20 ≤ unit.toNat ∧ unit.toNat < 127) :
    Holds text := by
  induction text with
  | nil => exact absurd rfl nonempty
  | cons unit rest ih =>
    have first := closed.ascii unit (ascii unit List.mem_cons_self).1
      (ascii unit List.mem_cons_self).2
    cases rest with
    | nil => exact first
    | cons next rest =>
      exact closed.append [unit] (next :: rest) first
        (ih (List.cons_ne_nil _ _)
          fun other isRest => ascii other (List.mem_cons_of_mem _ isRest))

theorem TextClosed.number (value : Binary64) : Holds value.toText := by
  have wellFormed := Binary64.wellFormed_toLiteral value
  obtain ⟨unit, rest, shape, -⟩ := JsonParse.literal_starts wellFormed
  have digitAscii : ∀ digit < 10,
      0x20 ≤ (digitUnit digit).toNat ∧ (digitUnit digit).toNat < 127 := by
    intro digit small
    rw [toNat_digitUnit small]
    omega
  refine closed.of_ascii (by rw [Binary64.toText, shape]; exact List.cons_ne_nil _ _) ?_
  intro unit isUnit
  simp only [Binary64.toText, NumericLiteral.text, NumericLiteral.fractionText, List.mem_append,
    List.mem_map] at isUnit
  obtain isSign | ⟨digit, isDigit, rfl⟩ | isFraction | isExponent := isUnit
  · split at isSign
    · obtain rfl := List.mem_singleton.mp isSign
      decide
    · simp at isSign
  · exact digitAscii digit (wellFormed.wholeSmall digit isDigit)
  · split at isFraction
    · simp at isFraction
    · obtain rfl | isMapped := List.mem_cons.mp isFraction
      · decide
      · obtain ⟨digit, isDigit, rfl⟩ := List.mem_map.mp isMapped
        exact digitAscii digit (wellFormed.fractionSmall digit isDigit)
  · cases power : value.toLiteral.exponent with
    | none => simp [power, NumericLiteral.exponentText] at isExponent
    | some parts =>
      obtain ⟨negative, digits⟩ := parts
      rw [power, NumericLiteral.exponentText] at isExponent
      obtain rfl | isRest := List.mem_cons.mp isExponent
      · decide
      · obtain rfl | isMapped := List.mem_cons.mp isRest
        · split <;> decide
        · obtain ⟨digit, isDigit, rfl⟩ := List.mem_map.mp isMapped
          exact digitAscii digit ((wellFormed.exponentSmall _ _ power).2 digit isDigit)

theorem TextClosed.joinTexts
    {texts : List JsString} (nonempty : texts ≠ []) (each : ∀ text ∈ texts, Holds text) :
    Holds (joinTexts texts) := by
  induction texts with
  | nil => exact absurd rfl nonempty
  | cons text rest ih =>
    cases rest with
    | nil => exact each text List.mem_cons_self
    | cons next rest =>
      rw [JsonParse.joinTexts_cons_cons, ← List.singleton_append]
      exact closed.append _ _ (each text List.mem_cons_self)
        (closed.append _ _ (closed.ascii 0x2C (by decide) (by decide))
          (ih (List.cons_ne_nil _ _)
            fun other isRest => each other (List.mem_cons_of_mem _ isRest)))

theorem TextClosed.wrap
    {texts : List JsString} {opening closing : UInt16}
    (openingAscii : 0x20 ≤ opening.toNat ∧ opening.toNat < 127)
    (closingAscii : 0x20 ≤ closing.toNat ∧ closing.toNat < 127)
    (each : ∀ text ∈ texts, Holds text) :
    Holds (opening :: (JsonParse.joinTexts texts ++ [closing])) := by
  have starts := closed.ascii opening openingAscii.1 openingAscii.2
  have ends := closed.ascii closing closingAscii.1 closingAscii.2
  cases texts with
  | nil => exact closed.append [opening] [closing] starts ends
  | cons text rest =>
    exact closed.append [opening] _ starts
      (closed.append _ _ (closed.joinTexts (List.cons_ne_nil _ _) each) ends)

end Closed

section Written

variable
  {Holds : JsString → Prop}

mutual

/-- A property closed under writing holds of every text written. -/
theorem TextClosed.write (closed : TextClosed Holds) :
    (value : JsValue) → {text : JsString} → write none value = some text → Holds text
  | .undefined, text, written | .null, text, written | .boolean true, text, written
  | .boolean false, text, written | .number (.infinity _), text, written
  | .number .notANumber, text, written => by
      cases written
      exact closed.of_ascii (List.cons_ne_nil _ _) (by decide)
  | .number (.finite value), text, written => by
      cases written
      exact closed.number value
  | .string value, text, written => by
      cases written
      exact closed.quote value
  | .exotic, text, written => by simp [JsonText.write] at written
  | .array items, text, written => by
      rw [JsonText.write] at written
      obtain ⟨texts, writtenItems, rfl⟩ := Option.map_eq_some_iff.mp written
      exact closed.wrap (by decide) (by decide) (closed.writeItems items writtenItems)
  | .object properties, text, written => by
      rw [JsonText.write] at written
      obtain ⟨texts, writtenProperties, rfl⟩ := Option.map_eq_some_iff.mp written
      exact closed.wrap (by decide) (by decide)
        (closed.writeProperties properties writtenProperties)

theorem TextClosed.writeItems (closed : TextClosed Holds) :
    (items : List JsValue) → {texts : List JsString} →
      JsonText.writeItems none items = some texts → ∀ text ∈ texts, Holds text
  | [], texts, written => by
      cases written
      simp
  | item :: rest, texts, written => by
      rw [JsonText.writeItems] at written
      obtain ⟨text, writtenItem, others⟩ := Option.bind_eq_some_iff.mp written
      obtain ⟨texts, writtenRest, rfl⟩ := Option.map_eq_some_iff.mp others
      intro other isText
      obtain rfl | isRest := List.mem_cons.mp isText
      · exact closed.write item writtenItem
      · exact closed.writeItems rest writtenRest other isRest

theorem TextClosed.writeProperties (closed : TextClosed Holds) :
    (properties : List (JsString × JsValue)) → {texts : List JsString} →
      JsonText.writeProperties none properties = some texts → ∀ text ∈ texts, Holds text
  | [], texts, written => by
      cases written
      simp
  | property :: rest, texts, written => by
      rw [JsonText.writeProperties] at written
      split at written
      · exact closed.writeProperties rest written
      · obtain ⟨text, writtenValue, others⟩ := Option.bind_eq_some_iff.mp written
        obtain ⟨texts, writtenRest, rfl⟩ := Option.map_eq_some_iff.mp others
        intro other isText
        obtain rfl | isRest := List.mem_cons.mp isText
        · rw [memberText, ← List.singleton_append]
          exact closed.append _ _ (closed.quote property.1)
            (closed.append _ _ (closed.ascii 0x3A (by decide) (by decide))
              (closed.write property.2 writtenValue))
        · exact closed.writeProperties rest writtenRest other isRest

end

end Written

end JsonText
end Relavium.Library
