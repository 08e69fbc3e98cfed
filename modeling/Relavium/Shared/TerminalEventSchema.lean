import Relavium.Library.JsText
import Relavium.Library.ObjectSchema

/-!
# The schema of terminal events

The part of `RunEventSchema` of `packages/shared/src/run-event.ts` that takes the
three events a run ends with.  A run event is discriminated on its `type`, read field
by field, and has to carry exactly one correlation key.
-/

namespace Relavium.Shared

open Library
open JsValue (reading ExoticJson)

/-- What of the schema of run events lies outside this model: the pattern of
`z.string().datetime`, and the members of the union that end no run, with their
refinements. -/
structure RunEventUnion where
  isDatetime : JsString → Bool
  otherEvents : Schema

/-- `nonEmptyString`. -/
def nonEmptyString : Schema :=
  .string fun text => !text.isEmpty

/-- `nonNegativeInt`. -/
def nonNegativeInt : Schema :=
  .natural fun _ => true

/-- `Number.MAX_SAFE_INTEGER`. -/
def maxSafeInteger : Nat := 9007199254740991

/-- `safeCount` of usage coverage, and the bound of `cumulativeUnpricedCalls`. -/
def safeCount : Schema :=
  .natural fun value => decide (value ≤ maxSafeInteger)

/-- `z.literal`. -/
def literal (text : JsString) : Schema :=
  .string fun given => decide (given = text)

/-- `z.record(z.string(), z.unknown())`. -/
def unknownRecord : Schema :=
  .record (jsText "__proto__")

/-- `UsageCoverageSchema`. -/
def usageCoverageSchema : Schema :=
  .object true
    [(jsText "unverified", .boolean), (jsText "pendingInvocations", safeCount),
      (jsText "unknownCalls", safeCount)]

/-- `ERROR_CODES`. -/
def errorCodes : List JsString :=
  [jsText "validation", jsText "context_overflow", jsText "content_filter",
    jsText "provider_auth", jsText "provider_rate_limit", jsText "provider_unavailable",
    jsText "tool_denied", jsText "tool_failed", jsText "tool_unavailable",
    jsText "budget_exceeded", jsText "effect_needs_attention", jsText "run_timeout",
    jsText "turn_limit", jsText "cancelled", jsText "sandbox_error", jsText "internal"]

/-- `ErrorCodeSchema`. -/
def errorCodeSchema : Schema :=
  .string fun text => decide (text ∈ errorCodes)

section Events

variable (union : RunEventUnion)

/-- `timestampSeq`. -/
def timestampSeq : List (JsString × Schema) :=
  [(jsText "cumulativeCostMicrocents", .optional nonNegativeInt),
    (jsText "cumulativeUnpricedCalls", .optional safeCount),
    (jsText "usageCoverage", .optional usageCoverageSchema),
    (jsText "timestamp", .string union.isDatetime),
    (jsText "sequenceNumber", nonNegativeInt)]

/-- `type` with `runBase`. -/
def runBase (type : JsString) : List (JsString × Schema) :=
  (jsText "type", literal type) :: (jsText "runId", nonEmptyString) :: timestampSeq union

/-- The fields of `RunCompletedEventSchema`. -/
def runCompletedFields : List (JsString × Schema) :=
  runBase union (jsText "run:completed") ++
    [(jsText "outputs", unknownRecord),
      (jsText "totalTokensUsed",
        .object false [(jsText "input", nonNegativeInt), (jsText "output", nonNegativeInt)]),
      (jsText "totalCostMicrocents", nonNegativeInt),
      (jsText "durationMs", nonNegativeInt)]

/-- The fields of `RunFailedEventSchema`.  Its own `cumulativeCostMicrocents` is the one
that `timestampSeq` has. -/
def runFailedFields : List (JsString × Schema) :=
  runBase union (jsText "run:failed") ++
    [(jsText "error",
        .object false
          [(jsText "code", errorCodeSchema), (jsText "message", .string fun _ => true),
            (jsText "retryable", .boolean),
            (jsText "correlationId", .optional nonEmptyString),
            (jsText "nodeId", .optional nonEmptyString)]),
      (jsText "partialOutputs", unknownRecord)]

/-- The fields of `RunCancelledEventSchema`. -/
def runCancelledFields : List (JsString × Schema) :=
  runBase union (jsText "run:cancelled")

/-- The fields of the event that ends a run, by its type. -/
def terminalFields (type : JsString) : Option (List (JsString × Schema)) :=
  if type = jsText "run:completed" then some (runCompletedFields union)
  else if type = jsText "run:failed" then some (runFailedFields union)
  else if type = jsText "run:cancelled" then some (runCancelledFields union)
  else none

/-- `refineCorrelationKey`. -/
def correlates (event : JsValue) : Bool :=
  !(event.field (jsText "runId")).isUndefined != !(event.field (jsText "sessionId")).isUndefined

/-- `RunEventSchema.parse`. -/
def runEventSchema : Schema := fun value =>
  match value.field (jsText "type") with
  | .string type =>
    match terminalFields union type with
    | some fields =>
      (Schema.object false fields value).bind fun event =>
        if correlates event then some event else none
    | none => union.otherEvents value
  | _ => union.otherEvents value

/-- The `runId` of an event that has one. -/
def runIdOf (event : JsValue) : Option JsString :=
  match event.field (jsText "runId") with
  | .string runId => some runId
  | _ => none

end Events

/-! ## Stability -/

section Stability

variable
  (union : RunEventUnion)
  {exotic : Option JsValue}
  (exoticJson : ExoticJson exotic)

include exoticJson

theorem stable_runBase (type : JsString) :
    ∀ field ∈ runBase union type, Schema.Stable exotic field.2 := by
  have coverage : Schema.Stable exotic usageCoverageSchema := by
    refine Schema.stable_object exoticJson true ?_
    simp only [List.forall_mem_cons, List.not_mem_nil, false_implies, implies_true, and_true]
    exact ⟨Schema.stable_boolean, Schema.stable_natural _, Schema.stable_natural _⟩
  simp only [runBase, timestampSeq, List.forall_mem_cons, List.not_mem_nil, false_implies,
    implies_true, and_true]
  exact ⟨Schema.stable_string _, Schema.stable_string _,
    Schema.stable_optional (Schema.stable_natural _) exoticJson,
    Schema.stable_optional (Schema.stable_natural _) exoticJson,
    Schema.stable_optional coverage exoticJson,
    Schema.stable_string _, Schema.stable_natural _⟩

theorem stable_runCompletedFields :
    ∀ field ∈ runCompletedFields union, Schema.Stable exotic field.2 := by
  have tokens : Schema.Stable exotic (.object false
      [(jsText "input", nonNegativeInt), (jsText "output", nonNegativeInt)]) := by
    refine Schema.stable_object exoticJson false ?_
    simp only [List.forall_mem_cons, List.not_mem_nil, false_implies, implies_true, and_true]
    exact ⟨Schema.stable_natural _, Schema.stable_natural _⟩
  refine List.forall_mem_append.mpr ⟨stable_runBase union exoticJson _, ?_⟩
  simp only [List.forall_mem_cons, List.not_mem_nil, false_implies, implies_true, and_true]
  exact ⟨Schema.stable_record exoticJson _, tokens, Schema.stable_natural _,
    Schema.stable_natural _⟩

theorem stable_runFailedFields :
    ∀ field ∈ runFailedFields union, Schema.Stable exotic field.2 := by
  have error : Schema.Stable exotic (.object false
      [(jsText "code", errorCodeSchema), (jsText "message", .string fun _ => true),
        (jsText "retryable", .boolean),
        (jsText "correlationId", .optional nonEmptyString),
        (jsText "nodeId", .optional nonEmptyString)]) := by
    refine Schema.stable_object exoticJson false ?_
    simp only [List.forall_mem_cons, List.not_mem_nil, false_implies, implies_true, and_true]
    exact ⟨Schema.stable_string _, Schema.stable_string _, Schema.stable_boolean,
      Schema.stable_optional (Schema.stable_string _) exoticJson,
      Schema.stable_optional (Schema.stable_string _) exoticJson⟩
  refine List.forall_mem_append.mpr ⟨stable_runBase union exoticJson _, ?_⟩
  simp only [List.forall_mem_cons, List.not_mem_nil, false_implies, implies_true, and_true]
  exact ⟨error, Schema.stable_record exoticJson _⟩

/-- Every event that ends a run has a stable schema. -/
theorem stable_terminalFields
    {type : JsString} {fields : List (JsString × Schema)}
    (isTerminal : terminalFields union type = some fields) :
    Schema.Stable exotic (.object false fields) := by
  refine Schema.stable_object exoticJson false ?_
  unfold terminalFields at isTerminal
  split_ifs at isTerminal <;> cases isTerminal
  · exact stable_runCompletedFields union exoticJson
  · exact stable_runFailedFields union exoticJson
  · exact stable_runBase union exoticJson _

theorem field_reading
    {properties : List (JsString × JsValue)} (distinct : (properties.map Prod.fst).Nodup)
    (key : JsString) :
    (reading exotic (.object properties)).field key =
      reading exotic ((JsValue.object properties).field key) := by
  rw [reading_object exoticJson]
  exact propertyOf_reading distinct key

end Stability

/-! ## Terminal events -/

/-- The names of the fields of the events that end a run. -/
inductive TerminalKeys : List JsString → Prop
  | completed : TerminalKeys
      [jsText "type", jsText "runId", jsText "cumulativeCostMicrocents",
        jsText "cumulativeUnpricedCalls", jsText "usageCoverage", jsText "timestamp",
        jsText "sequenceNumber", jsText "outputs", jsText "totalTokensUsed",
        jsText "totalCostMicrocents", jsText "durationMs"]
  | failed : TerminalKeys
      [jsText "type", jsText "runId", jsText "cumulativeCostMicrocents",
        jsText "cumulativeUnpricedCalls", jsText "usageCoverage", jsText "timestamp",
        jsText "sequenceNumber", jsText "error", jsText "partialOutputs"]
  | cancelled : TerminalKeys
      [jsText "type", jsText "runId", jsText "cumulativeCostMicrocents",
        jsText "cumulativeUnpricedCalls", jsText "usageCoverage", jsText "timestamp",
        jsText "sequenceNumber"]

theorem terminalKeys_of_terminalFields
    {union : RunEventUnion} {type : JsString} {fields : List (JsString × Schema)}
    (isTerminal : terminalFields union type = some fields) :
    TerminalKeys (fields.map Prod.fst) := by
  unfold terminalFields at isTerminal
  split_ifs at isTerminal <;> cases isTerminal
  · exact .completed
  · exact .failed
  · exact .cancelled

/-- No event has two fields of one name. -/
theorem TerminalKeys.nodup {keys : List JsString} (terminal : TerminalKeys keys) :
    keys.Nodup := by
  cases terminal <;> decide

/-- The schema takes the event for another, and it ends a run. -/
structure IsTerminal (union : RunEventUnion)
    (event parsed : JsValue) : Prop where
  ends : ∃ type fields, event.field (jsText "type") = .string type ∧
    terminalFields union type = some fields
  valid : runEventSchema union event = some parsed
  distinct : event.DistinctKeys

section Terminal

variable
  {union : RunEventUnion}
  {event parsed : JsValue}

/-- What the schema of a terminal event took. -/
structure TakenFields
    (union : RunEventUnion) (event parsed : JsValue) (fields : List (JsString × Schema))
    (properties taken : List (JsString × JsValue)) : Prop where
  hasFields : ∃ type, event.field (jsText "type") = .string type ∧
    terminalFields union type = some fields
  isObject : event = .object properties
  isParsed : parsed = .object taken
  takenFields : Schema.parseFields properties fields = some taken
  isCorrelated : correlates parsed = true
  distinct : (properties.map Prod.fst).Nodup
  distinctFields : (fields.map Prod.fst).Nodup
  distinctTaken : (taken.map Prod.fst).Nodup

theorem IsTerminal.taken (isTerminal : IsTerminal union event parsed) :
    ∃ fields properties taken, TakenFields union event parsed fields properties taken := by
  obtain ⟨type, fields, isType, hasFields⟩ := isTerminal.ends
  have valid := isTerminal.valid
  have distinct := isTerminal.distinct
  unfold runEventSchema at valid
  simp only [isType, hasFields] at valid
  obtain ⟨taken, takenObject, correlated⟩ := Option.bind_eq_some_iff.mp valid
  split at correlated
  · rename_i isCorrelated
    cases correlated
    cases distinct with
    | @object properties keys _ =>
      obtain ⟨taken, takenFields, rfl⟩ := Option.map_eq_some_iff.mp takenObject
      have distinctFields := (terminalKeys_of_terminalFields hasFields).nodup
      exact ⟨fields, properties, taken, ⟨type, isType, hasFields⟩, rfl, rfl, takenFields,
        isCorrelated, keys, distinctFields,
        distinctFields.sublist (Schema.keys_parseFields takenFields)⟩
    | _ => simp [Schema.object] at takenObject
  · simp at correlated

/-- A terminal event belongs to a run, and the schema takes it for an event of that run. -/
theorem IsTerminal.exists_runId (isTerminal : IsTerminal union event parsed) :
    ∃ runId, runIdOf event = some runId ∧ runIdOf parsed = some runId := by
  obtain ⟨fields, properties, taken, isTaken⟩ := isTerminal.taken
  obtain ⟨type, -, hasFields⟩ := isTaken.hasFields
  have isField : (jsText "runId", nonEmptyString) ∈ fields := by
    unfold terminalFields at hasFields
    split_ifs at hasFields <;> obtain rfl := Option.some.inj hasFields <;>
      simp [runCompletedFields, runFailedFields, runCancelledFields, runBase]
  have takenRun : nonEmptyString (propertyOf properties (jsText "runId")) =
      some (propertyOf taken (jsText "runId")) :=
    Schema.field_of_parseFields isTaken.distinctFields isTaken.takenFields isField
  obtain ⟨runId, given, parsedRun⟩ := Schema.string_eq_some takenRun
  unfold runIdOf
  rw [isTaken.isObject, isTaken.isParsed, JsValue.field, JsValue.field, given, parsedRun]
  exact ⟨runId, rfl, rfl⟩

section Reading

variable
  {exotic : Option JsValue}
  (exoticJson : ExoticJson exotic)

include exoticJson

theorem IsTerminal.runIdOf_reading
    (isTerminal : IsTerminal union event parsed) {runId : JsString}
    (belongs : runIdOf event = some runId) :
    runIdOf (reading exotic parsed) = some runId := by
  obtain ⟨fields, properties, taken, isTaken⟩ := isTerminal.taken
  obtain ⟨given, givenRun, parsedRun⟩ := isTerminal.exists_runId
  cases belongs.symm.trans givenRun
  unfold runIdOf at parsedRun ⊢
  rw [isTaken.isParsed] at parsedRun ⊢
  rw [field_reading exoticJson isTaken.distinctTaken]
  cases run : (JsValue.object taken).field (jsText "runId") with
  | string given =>
    rw [run] at parsedRun
    exact parsedRun
  | _ => simp [run] at parsedRun

theorem IsTerminal.runEventSchema_reading (isTerminal : IsTerminal union event parsed) :
    runEventSchema union (reading exotic event) = some (reading exotic parsed) := by
  obtain ⟨fields, properties, taken, isTaken⟩ := isTerminal.taken
  obtain ⟨type, isType, hasFields⟩ := isTaken.hasFields
  have takenObject : Schema.object false fields event = some parsed := by
    rw [isTaken.isObject, isTaken.isParsed, Schema.object, isTaken.takenFields]
    rfl
  have takenBack := (stable_terminalFields union exoticJson hasFields).commutes
    isTerminal.distinct takenObject
  have correlated := isTaken.isCorrelated
  unfold runEventSchema
  rw [isTaken.isObject] at isType takenBack ⊢
  rw [field_reading exoticJson isTaken.distinct, isType, reading_string]
  simp only [hasFields, takenBack, Option.bind_some]
  rw [if_pos]
  unfold correlates at correlated ⊢
  rw [isTaken.isParsed] at correlated ⊢
  rw [field_reading exoticJson isTaken.distinctTaken,
    field_reading exoticJson isTaken.distinctTaken,
    isUndefined_reading exoticJson, isUndefined_reading exoticJson]
  exact correlated

end Reading

end Terminal

end Relavium.Shared
