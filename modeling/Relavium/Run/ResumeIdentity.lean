import Relavium.Shared.Constants
import Relavium.Run.DeepEqual
import Relavium.Run.InputAdmission

/-!
# Resume identity

Model of `verifyResumeIdentity` of `packages/core/src/engine/resume-identity.ts`,
and of `maskInputs` of `packages/core/src/engine/engine.ts`.
-/

namespace Relavium.Run

open Library Shared

/-- `ResumeIdentityCode`, as far as the supplied inputs and mode go. -/
inductive ResumeIdentityCode
  | inputMismatch
  | executionModeMismatch
  | secretInputMissing
  | secretInputUnexpected

structure ResumeIdentityRefusal where
  code : ResumeIdentityCode
  message : JsString

/-- What a run continues with. -/
structure ResumeIdentity where
  inputs : InputMap
  executionMode : ExecutionMode

/-- How the source's checks answer about references. -/
structure Objects where
  /-- Whether `MaskedSecretSchema` accepts the object. -/
  masked : Nat → Bool
  /-- `deepStructuralEquals`, where one of the values is a reference. -/
  equal : (left right : Unknown) → Bool

def named (name suffix : JsString) : JsString :=
  if isReferenceableInputName name then jsText "input `" ++ name ++ jsText "`: " ++ suffix
  else jsText "an input: " ++ suffix

/-- `MaskedSecretSchema` on the properties of a plain object. -/
def maskedProperties (properties : List (JsString × JsValue)) : Bool :=
  (properties.all fun property =>
      property.1 = jsText "secret" || property.1 = jsText "ref") &&
    (match properties.lookup (jsText "secret") with
      | some (.boolean secret) => secret
      | _ => false) &&
    match properties.lookup (jsText "ref") with
    | some (.string ref) => decide (ref ≠ [])
    | _ => false

def isMaskedSecret (objects : Objects) : Unknown → Bool
  | .tree (.object properties) => maskedProperties properties
  | .tree _ => false
  | .reference object => objects.masked object

/-- `deepStructuralEquals`. -/
def Objects.deepStructuralEquals (objects : Objects) : (left right : Unknown) → Bool :=
  unknownsEqual objects.equal

/-- A supplied value. -/
def readSupplied (raw : CallerMap) (key : JsString) : Except ResumeIdentityRefusal Unknown :=
  match raw.get key with
  | some value => .ok value
  | none =>
    .error {
      code := .inputMismatch
      message := named key (jsText "reading the supplied value threw") }

def snapshotSupplied : Option CallerMap → Except ResumeIdentityRefusal InputMap
  | none => .ok .empty
  | some raw =>
    match raw.keys with
    | none =>
      .error {
        code := .inputMismatch
        message := jsText "the supplied inputs could not be enumerated" }
    | some keys => OrderedMap.fill id (readSupplied raw) keys .empty

/-- The text of an execution mode. -/
def executionModeText : ExecutionMode → String
  | .local' => "local"
  | .cloud => "cloud"
  | .managed => "managed"

def executionModeRefusal (supplied : Option ExecutionMode)
    (recorded : ExecutionMode) : Option ResumeIdentityRefusal :=
  match supplied with
  | none => none
  | some mode =>
    if mode = recorded then none
    else some {
      code := .executionModeMismatch
      message := jsText ("this run started in `" ++ executionModeText recorded ++
        "` mode; the resume supplied `" ++ executionModeText mode ++ "`") }

/-- The names of the inputs declared secret. -/
def secretNames (workflow : WorkflowSpec) : List JsString :=
  (workflow.inputs.filter fun input => input.type = .secret).map WorkflowInput.name

def resuppliedSecret (objects : Objects) (key : JsString)
    (supplied : InputMap) : Except ResumeIdentityRefusal Unknown :=
  let resupplied := (supplied.get key).getD Unknown.undefined
  if resupplied.isUndefined || isMaskedSecret objects resupplied then
    .error {
      code := .secretInputMissing
      message := named key (jsText "this run needs its `secret` value re-supplied to resume") }
  else .ok resupplied

/-- What a recorded key contributes. -/
def reconcileEntry (objects : Objects) (supplied : InputMap) (secrets : List JsString)
    (entry : JsString × Unknown) : Except ResumeIdentityRefusal Unknown :=
  let isSlot := isMaskedSecret objects entry.2
  if secrets.contains entry.1 ≠ isSlot then
    .error {
      code := .inputMismatch
      message := named entry.1 (jsText
        (if isSlot then
          "the run recorded this as a secret, but the supplied workflow no longer declares it one"
        else
          "the supplied workflow declares this a secret, but the run recorded a value for it")) }
  else if isSlot then resuppliedSecret objects entry.1 supplied
  else if (supplied.get entry.1).any fun value =>
      !objects.deepStructuralEquals value entry.2 then
    .error {
      code := .inputMismatch
      message := named entry.1
        (jsText "the supplied value is not the one this run was admitted with") }
  else .ok entry.2

def reconcileRecorded (objects : Objects) (recordedInputs supplied : InputMap)
    (secrets : List JsString) : Except ResumeIdentityRefusal InputMap :=
  OrderedMap.fill Prod.fst (reconcileEntry objects supplied secrets) recordedInputs.entries .empty

def unexpectedSuppliedRefusal (supplied recordedInputs : InputMap)
    (secrets : List JsString) : Option ResumeIdentityRefusal := do
  let entry ← supplied.entries.find? fun entry =>
    !(recordedInputs.has entry.1 || entry.2.isUndefined)
  if secrets.contains entry.1 then
    return {
      code := .secretInputUnexpected
      message := named entry.1 (jsText "this run holds no `secret` slot by this name") }
  return {
    code := .inputMismatch
    message := named entry.1 (jsText "this run was not admitted with this input") }

def inputMismatchMessage : Option InputAdmissionIssue → JsString
  | none => jsText "the recorded inputs do not satisfy the supplied workflow"
  | some first =>
    match first.name with
    | none =>
      jsText "the recorded inputs do not satisfy the supplied workflow: " ++ first.message
    | some name => named name first.message

/-- Go on unless there is a refusal. -/
def refuse : Option ResumeIdentityRefusal → Except ResumeIdentityRefusal Unit
  | none => .ok ()
  | some refusal => .error refusal

def verifyResumeIdentity
    (test : RegExpTest) (objects : Objects) (workflow : WorkflowSpec) (recordedInputs : InputMap)
    (recordedExecutionMode : ExecutionMode) (suppliedInputs : Option CallerMap)
    (suppliedExecutionMode : Option ExecutionMode) :
    Except ResumeIdentityRefusal ResumeIdentity := do
  let supplied ← snapshotSupplied suppliedInputs
  refuse (executionModeRefusal suppliedExecutionMode recordedExecutionMode)
  let effective ← reconcileRecorded objects recordedInputs supplied (secretNames workflow)
  refuse (unexpectedSuppliedRefusal supplied recordedInputs (secretNames workflow))
  match resolveAndValidateWorkflowInputs test workflow (some (.ofMap effective)) .verify with
  | .ok inputs => return { inputs, executionMode := recordedExecutionMode }
  | .error issues =>
    throw { code := .inputMismatch, message := inputMismatchMessage issues.head? }

/-! ## The record of an admission -/

/-- The masked placeholder of an input. -/
def maskedSecret (key : JsString) : JsValue :=
  .object [(jsText "secret", .boolean true), (jsText "ref", .string (jsText "inputs." ++ key))]

def maskInputs (inputs : InputMap) (secrets : List JsString) : InputMap :=
  inputs.mapValues fun key value =>
    if secrets.contains key then .tree (maskedSecret key) else value

/-- The trees of a map, if it holds no reference. -/
def treesOf (inputs : InputMap) : Option (List (JsString × JsValue)) :=
  inputs.entries.mapM fun entry =>
    match entry.2 with
    | .tree value => some (entry.1, value)
    | .reference _ => none

/-- A map after `JSON.parse(JSON.stringify(…))`. -/
def roundTrip (inputs : InputMap) : Option InputMap := do
  let properties ← treesOf inputs
  let text ← JsonText.write none (.object properties)
  match ← JsonParse.parse text with
  | .object read =>
    return read.foldl (fun map property => map.set property.1 (.tree property.2)) .empty
  | _ => none

end Relavium.Run
