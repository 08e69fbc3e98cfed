import Relavium.Library.JsonRoundTrip

/-!
# Writing JSON text

`JSON.stringify` without an indent.  The members of an object that are undefined
are left out and a zero loses its sign; the rest of a value is read back from its
text.
-/

namespace Relavium.Library

namespace JsValue

/-- A value of JSON shape; members of its objects may be undefined. -/
inductive Serializable : JsValue → Prop
  | null : Serializable .null
  | boolean (value : Bool) : Serializable (.boolean value)
  | number (value : Binary64) : Serializable (.number (.finite value))
  | string (text : JsString) : Serializable (.string text)
  | array
      {items : List JsValue}
      (itemsSerializable : ∀ item ∈ items, Serializable item) :
      Serializable (.array items)
  | object
      {properties : List (JsString × JsValue)}
      (distinct : (properties.map Prod.fst).Nodup)
      (valuesSerializable :
        ∀ property ∈ properties, property.2 ≠ .undefined →
          Serializable property.2) :
      Serializable (.object properties)

/-- Whether a value is `undefined`. -/
def isUndefined : JsValue → Bool
  | .undefined => true
  | _ => false

theorem isUndefined_iff (value : JsValue) :
    value.isUndefined = true ↔ value = .undefined := by
  cases value <;> simp [isUndefined]

mutual

/-- A value without its undefined members and without the signs of its zeros. -/
def kept : JsValue → JsValue
  | .number (.finite value) =>
    .number (.finite (if value.mantissa = 0 then Binary64.zero else value))
  | .array items => .array (keptItems items)
  | .object properties => .object (keptProperties properties)
  | .undefined => .undefined
  | .null => .null
  | .boolean value => .boolean value
  | .number (.infinity negative) => .number (.infinity negative)
  | .number .notANumber => .number .notANumber
  | .string text => .string text
  | .exotic => .exotic

def keptItems : List JsValue → List JsValue
  | [] => []
  | item :: rest => item.kept :: keptItems rest

def keptProperties : List (JsString × JsValue) → List (JsString × JsValue)
  | [] => []
  | property :: rest =>
    if property.2.isUndefined then keptProperties rest
    else (property.1, property.2.kept) :: keptProperties rest

end

/-- Keep a property without what JSON leaves out of its value. -/
def keptProperty (property : JsString × JsValue) : JsString × JsValue :=
  (property.1, property.2.kept)

theorem keptItems_eq_map (items : List JsValue) :
    keptItems items = items.map kept := by
  induction items with
  | nil => rfl
  | cons item rest ih =>
    rw [keptItems, ih, List.map_cons]

theorem keptProperties_eq_map (properties : List (JsString × JsValue)) :
    keptProperties properties =
      (properties.filter fun property => !property.2.isUndefined).map
        keptProperty := by
  induction properties with
  | nil => rfl
  | cons property rest ih =>
    rw [keptProperties]
    cases undefined : property.2.isUndefined with
    | true => simpa [undefined] using ih
    | false => simp [undefined, ih, keptProperty]

theorem isUndefined_kept (value : JsValue) :
    value.kept.isUndefined = value.isUndefined := by
  cases value with
  | number value => cases value <;> rfl
  | _ => rfl

mutual

/-- Leaving out twice leaves out no more. -/
theorem kept_kept : (value : JsValue) → value.kept.kept = value.kept
  | .undefined | .null | .boolean _ | .string _ | .exotic
  | .number (.infinity _) | .number .notANumber => rfl
  | .number (.finite value) => by
      rw [kept]
      split
      · rfl
      · next nonzero => rw [kept, if_neg nonzero]
  | .array items => by rw [kept, kept, keptItems_keptItems items]
  | .object properties => by
      rw [kept, kept, keptProperties_keptProperties properties]

theorem keptItems_keptItems :
    (items : List JsValue) → keptItems (keptItems items) = keptItems items
  | [] => rfl
  | item :: rest => by
      rw [keptItems, keptItems, kept_kept item, keptItems_keptItems rest]

theorem keptProperties_keptProperties :
    (properties : List (JsString × JsValue)) →
      keptProperties (keptProperties properties) = keptProperties properties
  | [] => rfl
  | property :: rest => by
      rw [keptProperties]
      split
      · exact keptProperties_keptProperties rest
      · next defined =>
        rw [keptProperties, isUndefined_kept, if_neg defined,
          kept_kept property.2, keptProperties_keptProperties rest]

end

end JsValue

namespace JsonText

open JsonParse (joinTexts memberText)

section Write

-- what an object of another class is written as, if it can be
variable (exoticText : Option JsString)

mutual

/-- The text of a value; `undefined` is written as in an array. -/
def write : JsValue → Option JsString
  | .undefined | .null => some [0x6E, 0x75, 0x6C, 0x6C]
  | .boolean true => some [0x74, 0x72, 0x75, 0x65]
  | .boolean false => some [0x66, 0x61, 0x6C, 0x73, 0x65]
  | .number (.finite value) => some value.toText
  | .number _ => some [0x6E, 0x75, 0x6C, 0x6C]
  | .string text => some (JsonString.quote text)
  | .array items =>
    (writeItems items).map fun texts => 0x5B :: (joinTexts texts ++ [0x5D])
  | .object properties =>
    (writeProperties properties).map fun texts =>
      0x7B :: (joinTexts texts ++ [0x7D])
  | .exotic => exoticText

def writeItems : List JsValue → Option (List JsString)
  | [] => some []
  | item :: rest =>
    (write item).bind fun text => (writeItems rest).map (text :: ·)

def writeProperties : List (JsString × JsValue) → Option (List JsString)
  | [] => some []
  | property :: rest =>
    if property.2.isUndefined then writeProperties rest
    else
      (write property.2).bind fun text =>
        (writeProperties rest).map (memberText (property.1, text) :: ·)

end

theorem reads_finite (value : Binary64) :
    JsonParse.Reads value.toText (JsValue.number (.finite value)).kept := by
  rw [JsValue.kept]
  by_cases zero : value.mantissa = 0
  · have sameText : value.toText = Binary64.zero.toText := by
      unfold Binary64.toText Binary64.toLiteral
      rw [if_pos zero]
      rfl
    rw [if_pos zero, sameText]
    exact JsonParse.reads_number (by decide)
  · rw [if_neg zero]
    exact JsonParse.reads_number fun negativeZero => zero negativeZero.2

theorem writeItems_reads {items : List JsValue}
    (each : ∀ item ∈ items, ∃ text,
      write exoticText item = some text ∧ JsonParse.Reads text item.kept) :
    ∃ texts,
      writeItems exoticText items = some texts ∧
        List.Forall₂ JsonParse.Reads texts (items.map JsValue.kept) := by
  induction items with
  | nil => exact ⟨[], rfl, .nil⟩
  | cons item rest ih =>
    obtain ⟨text, written, reads⟩ := each item List.mem_cons_self
    obtain ⟨texts, others, othersRead⟩ := ih
      fun item member => each item (List.mem_cons_of_mem _ member)
    refine ⟨text :: texts, ?_, .cons reads othersRead⟩
    rw [writeItems, written, others]
    rfl

theorem writeProperties_reads {properties : List (JsString × JsValue)}
    (each : ∀ property ∈ properties, property.2 ≠ .undefined → ∃ text,
      write exoticText property.2 = some text ∧
        JsonParse.Reads text property.2.kept) :
    ∃ members,
      writeProperties exoticText properties = some (members.map memberText) ∧
        List.Forall₂ JsonParse.MemberReads members
          (JsValue.keptProperties properties) := by
  induction properties with
  | nil => exact ⟨[], rfl, .nil⟩
  | cons property rest ih =>
    obtain ⟨members, others, othersRead⟩ := ih
      fun property member => each property (List.mem_cons_of_mem _ member)
    cases undefined : property.2.isUndefined with
    | true =>
      refine ⟨members, ?_, ?_⟩
      · rw [writeProperties, undefined]
        exact others
      · rw [JsValue.keptProperties, undefined]
        exact othersRead
    | false =>
      have defined : property.2 ≠ .undefined := fun same => by
        rw [(JsValue.isUndefined_iff _).mpr same] at undefined
        cases undefined
      obtain ⟨text, written, reads⟩ :=
        each property List.mem_cons_self defined
      refine ⟨(property.1, text) :: members, ?_, ?_⟩
      · rw [writeProperties, undefined, written, others]
        rfl
      · rw [JsValue.keptProperties, undefined]
        exact .cons ⟨rfl, reads⟩ othersRead

theorem nodup_keptProperties
    {properties : List (JsString × JsValue)} (distinct : (properties.map Prod.fst).Nodup) :
    ((JsValue.keptProperties properties).map Prod.fst).Nodup := by
  rw [JsValue.keptProperties_eq_map, List.map_map]
  exact distinct.sublist (List.filter_sublist.map Prod.fst)

/-- A value of JSON shape is written, and its text reads as what JSON keeps of
it. -/
theorem write_reads {value : JsValue} (serializable : value.Serializable) :
    ∃ text,
      write exoticText value = some text ∧ JsonParse.Reads text value.kept := by
  induction serializable with
  | null =>
    refine ⟨_, rfl, JsonParse.reads_keyword ?_⟩
    simp [JsonParse.keywords, JsValue.kept]
  | boolean value =>
    cases value with
    | true | false =>
      refine ⟨_, rfl, JsonParse.reads_keyword ?_⟩
      simp [JsonParse.keywords, JsValue.kept]
  | number value => exact ⟨_, rfl, reads_finite value⟩
  | string text => exact ⟨_, rfl, JsonParse.reads_quote text⟩
  | array _ ih =>
    obtain ⟨texts, written, reads⟩ :=
      writeItems_reads exoticText ih
    refine ⟨_, by rw [write, written]; rfl, ?_⟩
    rw [JsValue.kept, JsValue.keptItems_eq_map]
    exact JsonParse.reads_array reads
  | object distinct _ ih =>
    obtain ⟨members, written, reads⟩ :=
      writeProperties_reads exoticText ih
    refine ⟨_, by rw [write, written]; rfl, ?_⟩
    rw [JsValue.kept]
    exact JsonParse.reads_object reads (nodup_keptProperties distinct)

/-- A serializable value is written and parses to what is kept. -/
theorem parse_write {value : JsValue} (serializable : value.Serializable) :
    ∃ text,
      write exoticText value = some text ∧
        JsonParse.parse text = some value.kept := by
  obtain ⟨text, written, reads⟩ := write_reads exoticText serializable
  exact ⟨text, written, JsonParse.parse_of_reads reads⟩

end Write

end JsonText
end Relavium.Library
