import Relavium.Library.JsonReading

/-!
# Schemas of objects

A schema takes a value or refuses it, and gives what it takes the value for.  An
object schema reads its fields one by one and builds a new object of them, in its own
order and without members it does not know.  A schema is stable when it commutes with
the JSON reading of values.
-/

namespace Relavium.Library

open JsValue (plain reading ExoticJson)

/-- What a value is taken for. -/
abbrev Schema :=
  JsValue → Option JsValue

/-- The value of a property, `undefined` when there is none. -/
def propertyOf (properties : List (JsString × JsValue))
    (key : JsString) : JsValue :=
  (OrderedMap.lookupEntry key properties).getD .undefined

/-- The value of a property of any value. -/
def JsValue.field (key : JsString) : JsValue → JsValue
  | .object properties => propertyOf properties key
  | _ => .undefined

namespace Schema

/-- A schema that takes the values of a test as they are. -/
def passing (test : JsValue → Bool) : Schema :=
  fun value => if test value then some value else none

/-- `z.string()` with a further test. -/
def string (test : JsString → Bool) : Schema :=
  passing fun value =>
    match value with
    | .string text => test text
    | _ => false

theorem string_eq_some
    {test : JsString → Bool} {value parsed : JsValue} (taken : string test value = some parsed) :
    ∃ text, value = .string text ∧ parsed = .string text := by
  unfold string passing at taken
  split at taken
  · rename_i passed
    cases taken
    cases value with
    | string text => exact ⟨text, rfl, rfl⟩
    | _ => simp at passed
  · simp at taken

/-- `z.boolean()`. -/
def boolean : Schema :=
  passing fun value =>
    match value with
    | .boolean _ => true
    | _ => false

/-- The natural number that a number is. -/
def naturalOf (value : Binary64) : Option Nat :=
  if value.mantissa = 0 then some 0
  else if value.negative then none
  else if 0 ≤ value.exponent then some (value.mantissa * 2 ^ value.exponent.toNat)
  else if value.mantissa % 2 ^ (-value.exponent).toNat = 0 then
    some (value.mantissa / 2 ^ (-value.exponent).toNat)
  else none

/-- `z.number().int().nonnegative()` with a further test. -/
def natural (test : Nat → Bool) : Schema :=
  passing fun value =>
    match value with
    | .number (.finite value) => (naturalOf value).any test
    | _ => false

/-- `schema.optional()`. -/
def optional (schema : Schema) : Schema :=
  fun value => if value.isUndefined then some .undefined else schema value

/-- `z.record(z.string(), z.unknown())`, which builds the object anew without the key
`__proto__`.  An object of another class never comes back as it was. -/
def record (protoKey : JsString) : Schema
  | .object properties =>
    some (.object (properties.filter fun property => decide (property.1 ≠ protoKey)))
  | _ => none

/-- The fields of an object, each read by its schema; one that is neither there nor
given a value is left out. -/
def parseFields (properties : List (JsString × JsValue)) :
    List (JsString × Schema) → Option (List (JsString × JsValue))
  | [] => some []
  | (key, schema) :: rest =>
    (schema (propertyOf properties key)).bind fun value =>
      (parseFields properties rest).map fun others =>
        if value.isUndefined && !(properties.map Prod.fst).contains key then others
        else (key, value) :: others

/-- `z.object(fields)`, and with `strict` its `.strict()`. -/
def object (strict : Bool)
    (fields : List (JsString × Schema)) : Schema
  | .object properties =>
    if strict && !properties.all fun property =>
        (fields.map Prod.fst).contains property.1 then
      none
    else (parseFields properties fields).map .object
  | _ => none

end Schema

/-! ## The reading of an object -/

section Reading

variable {exotic : Option JsValue}

/-- A member as it is read back. -/
def readProperty (exotic : Option JsValue)
    (property : JsString × JsValue) : JsString × JsValue :=
  (property.1, reading exotic property.2)

theorem isUndefined_reading (exoticJson : ExoticJson exotic) (value : JsValue) :
    (reading exotic value).isUndefined = value.isUndefined := by
  rw [reading, JsValue.isUndefined_kept, JsValue.isUndefined_plain exoticJson]

@[simp] theorem reading_undefined : reading exotic .undefined = .undefined := rfl

@[simp] theorem reading_string (text : JsString) :
    reading exotic (.string text) = .string text := rfl

/-- An object is read back member by member, without its undefined members. -/
theorem reading_object (exoticJson : ExoticJson exotic) (properties : List (JsString × JsValue)) :
    reading exotic (.object properties) =
      .object ((properties.filter fun property => !property.2.isUndefined).map
        (readProperty exotic)) := by
  rw [reading, plain, JsValue.kept, JsValue.keptProperties_eq_map,
    JsValue.plainProperties_eq_map, List.filter_map, List.map_map]
  have sameFilter : (fun property : JsString × JsValue => !property.2.isUndefined) ∘
      (fun property => (property.1, plain exotic property.2)) =
        fun property : JsString × JsValue => !property.2.isUndefined := by
    funext property
    simp [JsValue.isUndefined_plain exoticJson]
  rw [sameFilter]
  rfl

/-- A member of an object that is read back. -/
theorem propertyOf_reading
    {properties : List (JsString × JsValue)} (distinct : (properties.map Prod.fst).Nodup)
    (key : JsString) :
    propertyOf ((properties.filter fun property => !property.2.isUndefined).map
        (readProperty exotic)) key =
      reading exotic (propertyOf properties key) := by
  induction properties with
  | nil => rfl
  | cons property rest ih =>
    rw [List.map_cons, List.nodup_cons] at distinct
    have later := ih distinct.2
    unfold propertyOf at later ⊢
    by_cases same : property.1 = key
    · have absent : OrderedMap.lookupEntry key rest = none :=
        OrderedMap.lookupEntry_of_not_mem (by rw [← same]; exact distinct.1)
      cases undefined : property.2.isUndefined with
      | true =>
        rw [absent] at later
        rw [List.filter_cons_of_neg (by simp [undefined]), later,
          OrderedMap.lookupEntry, if_pos same, Option.getD_some,
          (JsValue.isUndefined_iff _).mp undefined]
        rfl
      | false =>
        have keySame : (readProperty exotic property).1 = key := same
        rw [List.filter_cons_of_pos (by simp [undefined]), List.map_cons,
          OrderedMap.lookupEntry, if_pos keySame, OrderedMap.lookupEntry, if_pos same]
        rfl
    · rw [OrderedMap.lookupEntry, if_neg same]
      cases undefined : property.2.isUndefined with
      | true =>
        rw [List.filter_cons_of_neg (by simp [undefined])]
        exact later
      | false =>
        have keyDiffers : (readProperty exotic property).1 ≠ key := same
        rw [List.filter_cons_of_pos (by simp [undefined]), List.map_cons,
          OrderedMap.lookupEntry, if_neg keyDiffers]
        exact later

end Reading

/-! ## Stability -/

namespace Schema

section Stability

variable {exotic : Option JsValue}

/-- The schema gives `undefined` for `undefined` only, and takes the reading of a value
for the reading of what it takes the value for. -/
structure Stable (exotic : Option JsValue)
    (schema : Schema) : Prop where
  undefined : ∀ {value parsed}, schema value = some parsed →
    (parsed = .undefined ↔ value = .undefined)
  commutes : ∀ {value parsed}, value.DistinctKeys → schema value = some parsed →
    schema (reading exotic value) = some (reading exotic parsed)

theorem stable_passing
    {test : JsValue → Bool}
    (passes : ∀ value, test value = true → test (reading exotic value) = true) :
    Stable exotic (passing test) where
  undefined taken := by
    unfold passing at taken
    split at taken
    · cases taken
      rfl
    · simp at taken
  commutes {value _} _ taken := by
    unfold passing at taken ⊢
    split at taken
    · rename_i passed
      cases taken
      rw [if_pos (passes value passed)]
    · simp at taken

theorem stable_string (test : JsString → Bool) : Stable exotic (string test) := by
  refine stable_passing fun value passed => ?_
  cases value with
  | string text => exact passed
  | _ => simp at passed

theorem stable_boolean : Stable exotic boolean := by
  refine stable_passing fun value passed => ?_
  cases value with
  | boolean value => rfl
  | _ => simp at passed

theorem stable_natural (test : Nat → Bool) : Stable exotic (natural test) := by
  refine stable_passing fun value passed => ?_
  cases value with
  | number value =>
    cases value with
    | finite value =>
      rw [reading, plain, JsValue.kept]
      dsimp only at passed ⊢
      split
      · rename_i zero
        have isZero : naturalOf value = some 0 := if_pos zero
        rw [isZero] at passed
        exact passed
      · exact passed
    | _ => simp at passed
  | _ => simp at passed

theorem stable_optional
    {schema : Schema} (stable : Stable exotic schema) (exoticJson : ExoticJson exotic) :
    Stable exotic (optional schema) where
  undefined {value parsed} taken := by
    unfold optional at taken
    split at taken
    · rename_i isUndefined
      cases taken
      exact ⟨fun _ => (JsValue.isUndefined_iff value).mp isUndefined, fun _ => rfl⟩
    · exact stable.undefined taken
  commutes {value parsed} distinct taken := by
    unfold optional at taken ⊢
    rw [isUndefined_reading exoticJson]
    split at taken
    · rename_i isUndefined
      cases taken
      rw [if_pos isUndefined]
      rfl
    · rename_i defined
      rw [if_neg defined]
      exact stable.commutes distinct taken

theorem stable_record (exoticJson : ExoticJson exotic) (protoKey : JsString) :
    Stable exotic (record protoKey) where
  undefined {value parsed} taken := by
    cases value with
    | object properties =>
      cases taken
      simp
    | _ => simp [record] at taken
  commutes {value parsed} _ taken := by
    cases value with
    | object properties =>
      cases taken
      rw [reading_object exoticJson, reading_object exoticJson, record, List.filter_map,
        List.filter_filter, List.filter_filter]
      congr 4
      funext property
      exact Bool.and_comm _ _
    | _ => simp [record] at taken

/-! ### Objects -/

variable
  {fields : List (JsString × Schema)}
  {properties parsed : List (JsString × JsValue)}

/-- The keys of what was read are keys of the schema, in their order. -/
theorem keys_parseFields (taken : parseFields properties fields = some parsed) :
    (parsed.map Prod.fst).Sublist (fields.map Prod.fst) := by
  induction fields generalizing parsed with
  | nil =>
    cases taken
    exact List.Sublist.refl _
  | cons field rest ih =>
    obtain ⟨key, schema⟩ := field
    obtain ⟨value, _, rests⟩ := Option.bind_eq_some_iff.mp taken
    obtain ⟨others, takenRest, rfl⟩ := Option.map_eq_some_iff.mp rests
    have later := ih takenRest
    split
    · exact later.cons _
    · exact later.cons_cons _

/-- Every field of the schema takes the member of its key. -/
theorem field_of_parseFields
    (distinctFields : (fields.map Prod.fst).Nodup)
    (taken : parseFields properties fields = some parsed) {field : JsString × Schema}
    (isField : field ∈ fields) :
    field.2 (propertyOf properties field.1) = some (propertyOf parsed field.1) := by
  induction fields generalizing parsed with
  | nil => simp at isField
  | cons first rest ih =>
    obtain ⟨key, schema⟩ := first
    obtain ⟨value, takenField, rests⟩ := Option.bind_eq_some_iff.mp taken
    obtain ⟨others, takenRest, rfl⟩ := Option.map_eq_some_iff.mp rests
    rw [List.map_cons, List.nodup_cons] at distinctFields
    obtain rfl | isRest := List.mem_cons.mp isField
    · have absent : key ∉ others.map Prod.fst := fun isKey =>
        distinctFields.1 ((keys_parseFields takenRest).subset isKey)
      dsimp only at takenField ⊢
      rw [takenField]
      split
      · rename_i leftOut
        rw [Bool.and_eq_true] at leftOut
        rw [propertyOf, OrderedMap.lookupEntry_of_not_mem absent, Option.getD_none,
          (JsValue.isUndefined_iff value).mp leftOut.1]
      · simp [propertyOf, OrderedMap.lookupEntry]
    · have differs : key ≠ field.1 := fun same =>
        distinctFields.1 (List.mem_map.mpr ⟨field, isRest, same.symm⟩)
      rw [ih distinctFields.2 takenRest isRest]
      split
      · rfl
      · simp [propertyOf, OrderedMap.lookupEntry, differs]

theorem distinctKeys_propertyOf
    {properties : List (JsString × JsValue)}
    (valuesDistinct : ∀ property ∈ properties, property.2.DistinctKeys) (key : JsString) :
    (propertyOf properties key).DistinctKeys := by
  induction properties with
  | nil => exact .undefined
  | cons property rest ih =>
    unfold propertyOf at ih ⊢
    rw [OrderedMap.lookupEntry]
    split
    · exact valuesDistinct property List.mem_cons_self
    · exact ih fun other isRest =>
        valuesDistinct other (List.mem_cons_of_mem _ isRest)

theorem mem_keys_reading
    {properties : List (JsString × JsValue)} (distinct : (properties.map Prod.fst).Nodup)
    {key : JsString}
    (isKey : key ∈ ((properties.filter fun property => !property.2.isUndefined).map
      (readProperty exotic)).map Prod.fst) :
    propertyOf properties key ≠ .undefined := by
  simp only [List.map_map, List.mem_map, List.mem_filter] at isKey
  obtain ⟨property, ⟨isProperty, defined⟩, rfl⟩ := isKey
  change propertyOf properties property.1 ≠ .undefined
  have found : propertyOf properties property.1 = property.2 := by
    rw [propertyOf, (OrderedMap.lookupEntry_eq_some_iff distinct _ _).mpr isProperty]
    rfl
  rw [found]
  intro undefined
  rw [undefined] at defined
  exact absurd defined (by decide)

/-- Reading a value back keeps what its fields parse to. -/
theorem parseFields_reading
    (exoticJson : ExoticJson exotic) (distinct : (properties.map Prod.fst).Nodup)
    (valuesDistinct : ∀ property ∈ properties, property.2.DistinctKeys)
    (stable : ∀ field ∈ fields, Stable exotic field.2)
    (taken : parseFields properties fields = some parsed) :
    parseFields ((properties.filter fun property => !property.2.isUndefined).map
        (readProperty exotic)) fields =
      some ((parsed.filter fun property => !property.2.isUndefined).map
        (readProperty exotic)) := by
  induction fields generalizing parsed with
  | nil =>
    cases taken
    rfl
  | cons field rest ih =>
    obtain ⟨key, schema⟩ := field
    obtain ⟨value, takenField, rests⟩ := Option.bind_eq_some_iff.mp taken
    obtain ⟨others, takenRest, rfl⟩ := Option.map_eq_some_iff.mp rests
    have fieldStable : Stable exotic schema := stable (key, schema) List.mem_cons_self
    have later := ih (fun other isRest => stable other (List.mem_cons_of_mem _ isRest)) takenRest
    have readBack := fieldStable.commutes (distinctKeys_propertyOf valuesDistinct key) takenField
    rw [parseFields, propertyOf_reading distinct, readBack, later]
    simp only [Option.bind_some, Option.map_some, Option.some.injEq,
      isUndefined_reading exoticJson]
    cases undefined : value.isUndefined with
    | true =>
      have absent : key ∉ ((properties.filter fun property =>
          !property.2.isUndefined).map (readProperty exotic)).map Prod.fst := fun isKey =>
        mem_keys_reading distinct isKey ((fieldStable.undefined takenField).mp
          ((JsValue.isUndefined_iff value).mp undefined))
      rw [if_pos (by simpa using absent)]
      split
      · rfl
      · rw [List.filter_cons_of_neg (by simp [undefined])]
    | false =>
      simp only [Bool.false_and, Bool.false_eq_true, if_false]
      rw [List.filter_cons_of_pos (by simp [undefined]), List.map_cons]
      rfl

/-- An object schema is stable when its fields are. -/
theorem stable_object
    (exoticJson : ExoticJson exotic) (strict : Bool)
    (stable : ∀ field ∈ fields, Stable exotic field.2) :
    Stable exotic (object strict fields) where
  undefined {value parsed} taken := by
    cases value with
    | object properties =>
      rw [object] at taken
      split at taken
      · simp at taken
      · obtain ⟨parsed, -, rfl⟩ := Option.map_eq_some_iff.mp taken
        simp
    | _ => simp [object] at taken
  commutes {value parsed} distinct taken := by
    cases distinct with
    | @object properties keys valuesDistinct =>
      rw [object] at taken
      split at taken
      · simp at taken
      · rename_i allowed
        obtain ⟨parsed, takenFields, rfl⟩ := Option.map_eq_some_iff.mp taken
        have readBack := parseFields_reading exoticJson keys valuesDistinct stable takenFields
        rw [reading_object exoticJson, reading_object exoticJson, object, readBack, if_neg]
        · rfl
        · intro refused
          rw [Bool.and_eq_true, Bool.not_eq_true', List.all_eq_false] at refused
          obtain ⟨isStrict, property, isProperty, unknown⟩ := refused
          obtain ⟨given, isGiven, rfl⟩ := List.mem_map.mp isProperty
          refine allowed ?_
          rw [Bool.and_eq_true, Bool.not_eq_true', List.all_eq_false]
          exact ⟨isStrict, given, (List.mem_filter.mp isGiven).1, unknown⟩
    | _ => simp [object] at taken

end Stability

end Schema

end Relavium.Library
