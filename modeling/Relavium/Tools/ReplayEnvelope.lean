import Relavium.Library.JsonStringify
import Relavium.Library.JsText

/-!
# The retained outcome of an effect

Model of `toStoredEnvelope` and `asReplayEnvelope` of
`packages/core/src/tools/registry.ts`.  A result that is `undefined` is marked as
absent, since JSON would drop it.
-/

namespace Relavium.Tools

open Library

/-- `ReplayEnvelope`. -/
structure ReplayEnvelope where
  value : JsValue
  truncated : Bool
  summary : JsString
  /-- The output mapping's projection, where one is recorded. -/
  mapped : Option JsValue
  hadMapping : Bool

/-- The number one. -/
def numberOne : Binary64 where
  negative := false
  mantissa := 2 ^ 52
  exponent := -52
  mantissaBound := by decide
  exponentLe := by decide
  leExponent := by decide
  normalized := Or.inl (by decide)

/-- A member of a stored envelope that is left out when it is undefined. -/
def definedMember (key : String) (value : JsValue) : List (JsString × JsValue) :=
  if value.isUndefined then [] else [(jsText key, value)]

/-- `toStoredEnvelope`. -/
def toStoredEnvelope (envelope : ReplayEnvelope) : JsValue :=
  .object
    ([(jsText "v", .number (.finite numberOne)),
        (jsText "hasValue", .boolean (!envelope.value.isUndefined))] ++
      definedMember "value" envelope.value ++
      [(jsText "truncated", .boolean envelope.truncated),
        (jsText "summary", .string envelope.summary)] ++
      definedMember "mapped" (envelope.mapped.getD .undefined) ++
      [(jsText "hadMapping", .boolean envelope.hadMapping)])

/-- A member of a stored object, if it is there. -/
def storedMember (key : String) : JsValue → Option JsValue
  | .object properties => OrderedMap.lookupEntry (jsText key) properties
  | _ => none

/-- An envelope with nothing but a value. -/
def bareEnvelope (value : JsValue) : ReplayEnvelope where
  value
  truncated := false
  summary := []
  mapped := none
  hadMapping := false

/-- The envelope of a versioned row; one that cannot be read re-delivers nothing. -/
def versionedEnvelope (version stored : JsValue) : ReplayEnvelope :=
  match storedMember "hasValue" stored, storedMember "truncated" stored,
      storedMember "summary" stored, storedMember "hadMapping" stored with
  | some (.boolean hasValue), some (.boolean truncated), some (.string summary),
      some (.boolean hadMapping) =>
      match version with
      | .number (.finite version) =>
        if version = numberOne then
          { value :=
              if hasValue then (storedMember "value" stored).getD .undefined
              else .undefined
            truncated
            summary
            mapped := storedMember "mapped" stored
            hadMapping }
        else bareEnvelope .undefined
      | _ => bareEnvelope .undefined
  | _, _, _, _ => bareEnvelope .undefined

/-- `asReplayEnvelope`, for a versioned row, an older envelope and a bare value. -/
def asReplayEnvelope (stored : JsValue) : ReplayEnvelope :=
  match storedMember "v" stored with
  | some version => versionedEnvelope version stored
  | none =>
    match storedMember "value" stored, storedMember "truncated" stored,
        storedMember "summary" stored with
    | some value, some (.boolean truncated), some (.string summary) =>
      { value
        truncated
        summary
        mapped := storedMember "mapped" stored
        hadMapping :=
          match storedMember "hadMapping" stored with
          | some (.boolean hadMapping) => hadMapping
          | _ => (storedMember "mapped" stored).isSome }
    | _, _, _ => bareEnvelope stored

/-! ## Storing and reading back -/

section RoundTrip

variable {envelope : ReplayEnvelope}

/-- What JSON keeps of an envelope. -/
def ReplayEnvelope.kept (envelope : ReplayEnvelope) : ReplayEnvelope :=
  { envelope with
    value := envelope.value.kept
    mapped := envelope.mapped.map JsValue.kept }

/-- The values of an envelope are of JSON shape, or undefined; a recorded projection
is never undefined. -/
structure ReplayEnvelope.Storable (envelope : ReplayEnvelope) : Prop where
  value : envelope.value ≠ .undefined → envelope.value.Serializable
  mapped : ∀ mapped, envelope.mapped = some mapped → mapped.Serializable

theorem definedMember_of_defined {value : JsValue} (defined : value ≠ .undefined) (key : String) :
    definedMember key value = [(jsText key, value)] := by
  unfold definedMember
  rw [if_neg fun undefined => defined ((JsValue.isUndefined_iff value).mp undefined)]

theorem keptProperties_append (first second : List (JsString × JsValue)) :
    JsValue.keptProperties (first ++ second) =
      JsValue.keptProperties first ++ JsValue.keptProperties second := by
  rw [JsValue.keptProperties_eq_map, JsValue.keptProperties_eq_map,
    JsValue.keptProperties_eq_map, List.filter_append, List.map_append]

theorem keptProperties_definedMember (key : String) (value : JsValue) :
    JsValue.keptProperties (definedMember key value) =
      definedMember key value.kept := by
  unfold definedMember
  rw [JsValue.isUndefined_kept]
  cases undefined : value.isUndefined with
  | true => rfl
  | false => simp [JsValue.keptProperties, undefined]

/-- Storing keeps of an envelope what JSON keeps of its values. -/
theorem kept_toStoredEnvelope (envelope : ReplayEnvelope) :
    (toStoredEnvelope envelope).kept = toStoredEnvelope envelope.kept := by
  have mapped : (envelope.kept.mapped.getD .undefined) =
      (envelope.mapped.getD .undefined).kept := by
    obtain ⟨_, _, _, mapped, _⟩ := envelope
    cases mapped with
    | none | some mapped => rfl
  unfold toStoredEnvelope
  rw [JsValue.kept, keptProperties_append, keptProperties_append,
    keptProperties_append, keptProperties_append, keptProperties_definedMember,
    keptProperties_definedMember, mapped]
  have same : envelope.kept.value.isUndefined = envelope.value.isUndefined :=
    JsValue.isUndefined_kept envelope.value
  rw [same]
  rfl

theorem asReplayEnvelope_toStoredEnvelope (defined : envelope.mapped ≠ some .undefined) :
    asReplayEnvelope (toStoredEnvelope envelope) = envelope := by
  obtain ⟨value, truncated, summary, mapped, hadMapping⟩ := envelope
  have absent : definedMember "mapped" .undefined = [] := rfl
  cases undefined : value.isUndefined with
  | true =>
    obtain rfl := (JsValue.isUndefined_iff value).mp undefined
    cases mapped with
    | none => rfl
    | some mapped =>
      have present := definedMember_of_defined (fun same => defined (congrArg some same)) "mapped"
      unfold toStoredEnvelope
      dsimp only [Option.getD_some]
      rw [present]
      rfl
  | false =>
    have given : value ≠ .undefined := fun same => by
      rw [same] at undefined
      cases undefined
    unfold toStoredEnvelope
    dsimp only
    rw [definedMember_of_defined given, undefined]
    cases mapped with
    | none => rfl
    | some mapped =>
      have present := definedMember_of_defined (fun same => defined (congrArg some same)) "mapped"
      dsimp only [Option.getD_some]
      rw [present]
      rfl

/-- An envelope that is written as JSON text and parsed is what JSON keeps of it. -/
theorem asReplayEnvelope_kept (storable : envelope.Storable) :
    asReplayEnvelope (toStoredEnvelope envelope).kept = envelope.kept := by
  rw [kept_toStoredEnvelope]
  refine asReplayEnvelope_toStoredEnvelope fun same => ?_
  obtain ⟨mapped, found, kept⟩ := Option.map_eq_some_iff.mp same
  have undefined := JsValue.isUndefined_kept mapped
  rw [kept] at undefined
  have serializable := storable.mapped mapped found
  rw [(JsValue.isUndefined_iff mapped).mp undefined.symm] at serializable
  cases serializable

theorem keys_definedMember_sublist (key : String) (value : JsValue) :
    ((definedMember key value).map Prod.fst).Sublist [jsText key] := by
  unfold definedMember
  split
  · exact List.nil_sublist _
  · exact List.Sublist.refl _

theorem mem_definedMember
    {key : String} {value : JsValue} {property : JsString × JsValue}
    (member : property ∈ definedMember key value) :
    property.2 = value := by
  unfold definedMember at member
  split at member
  · exact absurd member List.not_mem_nil
  · rw [List.mem_singleton.mp member]

/-- A storable envelope is written as JSON text. -/
theorem ReplayEnvelope.Storable.serializable (storable : envelope.Storable) :
    (toStoredEnvelope envelope).Serializable := by
  have distinct : (["v", "hasValue", "value", "truncated", "summary", "mapped",
      "hadMapping"].map jsText).Nodup := by
    decide
  refine .object (distinct.sublist ?_) fun property member defined => ?_
  · simp only [List.map_append]
    exact (((List.Sublist.refl [jsText "v", jsText "hasValue"]).append
      (keys_definedMember_sublist "value" _)).append
        (List.Sublist.refl [jsText "truncated", jsText "summary"])).append
          (keys_definedMember_sublist "mapped" _) |>.append
            (List.Sublist.refl [jsText "hadMapping"])
  · simp only [List.mem_append, List.mem_cons, List.not_mem_nil, or_false] at member
    obtain ((((rfl | rfl) | value) | (rfl | rfl)) | mapped) | rfl := member
    · exact .number numberOne
    · exact .boolean _
    · have same := mem_definedMember value
      exact same ▸ storable.value (same ▸ defined)
    · exact .boolean _
    · exact .string _
    · have same := mem_definedMember mapped
      cases found : envelope.mapped with
      | none =>
        rw [found] at same
        exact absurd same defined
      | some mapped =>
        rw [found] at same
        exact same ▸ storable.mapped mapped found
    · exact .boolean _

end RoundTrip

end Relavium.Tools
