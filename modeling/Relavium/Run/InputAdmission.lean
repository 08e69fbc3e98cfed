import Relavium.Library.OrderedMap
import Relavium.Shared.InputContract

/-!
# Input admission

Model of `packages/core/src/engine/input-admission.ts`.  A caller's map is an
object of the caller's: listing its keys and reading them may throw.
-/

namespace Relavium.Run

open Library Shared

/-- A map the engine has built. -/
abbrev InputMap := OrderedMap JsString Unknown

/-- A map of the caller's, as its answers to the questions that are asked of it. -/
structure CallerMap where
  /-- `Object.keys`, unless it throws. -/
  keys : Option (List JsString)
  /-- `Object.hasOwn`, unless it throws. -/
  hasOwn : JsString → Option Bool
  /-- The property read, unless that throws. -/
  get : JsString → Option Unknown

/-- A map without accessors. -/
def CallerMap.ofMap (map : InputMap) : CallerMap where
  keys := some map.keys
  hasOwn key := some (map.has key)
  get key := some ((map.get key).getD Unknown.undefined)

structure InputAdmissionIssue where
  name : Option JsString
  message : JsString

inductive InputAdmissionMode
  | admission
  | verify

/-- `AdmissionOutcome`. -/
inductive AdmissionOutcome
  | value (value : Unknown)
  | issue (message : JsString)
  | omitted

/-- `MAX_UNKNOWN_KEY_ISSUES`. -/
def maxUnknownKeyIssues : Nat := 8

def unknownKeyIssues (declared : List WorkflowInput)
    (supplied : CallerMap) : List InputAdmissionIssue :=
  match supplied.keys with
  | none =>
    [{ name := none, message := jsText "the supplied inputs could not be enumerated" }]
  | some suppliedKeys =>
    let unknown := suppliedKeys.filter fun key =>
      !(declared.map WorkflowInput.name).contains key
    let message := jsText "unknown input — the workflow declares no input by this name"
    let issues := (unknown.take maxUnknownKeyIssues).map fun key =>
      if isReferenceableInputName key then { name := some key, message }
      else { name := none, message }
    if maxUnknownKeyIssues < unknown.length then
      issues ++ [{
        name := none
        message := jsText ("and " ++ toString (unknown.length - maxUnknownKeyIssues) ++
          " further unknown inputs") }]
    else issues

def absentOutcome (input : WorkflowInput) : InputAdmissionMode → AdmissionOutcome
  | .verify => .omitted
  | .admission =>
    match input.default with
    | some value => .value (.tree value)
    | none =>
      if input.required = some true then .issue (jsText "missing required input")
      else .omitted

/-- What is read of the caller's map, unless that throws. -/
def CallerMap.provided (supplied : CallerMap) (name : JsString) : Option Unknown := do
  if ← supplied.hasOwn name then supplied.get name else some Unknown.undefined

def admitOne (test : RegExpTest) (input : WorkflowInput) (supplied : CallerMap)
    (mode : InputAdmissionMode) : AdmissionOutcome :=
  match supplied.provided input.name with
  | none => .issue (jsText "reading the supplied value threw")
  | some provided =>
    if provided.isUndefined then absentOutcome input mode
    else
      let reason :=
        match mode with
        | .verify => violatesDeclaredType provided input.type
        | .admission => violatesInputContract test provided input.type input.validation
      match reason with
      | none => .value provided
      | some message => .issue message

/-- One turn of the walk over the declared inputs. -/
def resolveStep
    (test : RegExpTest) (supplied : CallerMap) (mode : InputAdmissionMode)
    (reached : InputMap × List InputAdmissionIssue)
    (input : WorkflowInput) : InputMap × List InputAdmissionIssue :=
  match admitOne test input supplied mode with
  | .value value => (reached.1.set input.name value, reached.2)
  | .issue message => (reached.1, reached.2 ++ [{ name := some input.name, message }])
  | .omitted => reached

def resolveAndValidateWorkflowInputs
    (test : RegExpTest) (workflow : WorkflowSpec) (raw : Option CallerMap)
    (mode : InputAdmissionMode) : Except (List InputAdmissionIssue) InputMap :=
  let supplied := raw.getD (.ofMap .empty)
  let walked := workflow.inputs.foldl (resolveStep test supplied mode)
    (.empty, unknownKeyIssues workflow.inputs supplied)
  if 0 < walked.2.length then .error walked.2 else .ok walked.1

/-! ## What is admitted -/

/-- What the walk stores for a declared input. -/
def admittedEntry (test : RegExpTest) (supplied : CallerMap) (mode : InputAdmissionMode)
    (input : WorkflowInput) : Option (JsString × Unknown) :=
  match admitOne test input supplied mode with
  | .value value => some (input.name, value)
  | _ => none

/-- What the walk reports of a declared input. -/
def admissionIssue (test : RegExpTest) (supplied : CallerMap) (mode : InputAdmissionMode)
    (input : WorkflowInput) : Option InputAdmissionIssue :=
  match admitOne test input supplied mode with
  | .issue message => some { name := some input.name, message }
  | _ => none

section Walk

variable
  {test : RegExpTest}
  {supplied : CallerMap}
  {mode : InputAdmissionMode}

theorem foldl_resolveStep
    (inputs : List WorkflowInput) (map : InputMap) (issues : List InputAdmissionIssue) :
    inputs.foldl (resolveStep test supplied mode) (map, issues) =
      ((inputs.filterMap (admittedEntry test supplied mode)).foldl
          (fun map entry => map.set entry.1 entry.2) map,
        issues ++ inputs.filterMap (admissionIssue test supplied mode)) := by
  induction inputs generalizing map issues with
  | nil => simp
  | cons input rest ih =>
    rw [List.foldl_cons, List.filterMap_cons, List.filterMap_cons]
    unfold resolveStep admittedEntry admissionIssue
    cases admitOne test input supplied mode with
    | value value => exact ih _ _
    | issue message =>
      refine (ih _ _).trans ?_
      rw [List.append_assoc]
      rfl
    | omitted => exact ih _ _

theorem name_of_admittedEntry
    {input : WorkflowInput} {entry : JsString × Unknown}
    (admitted : admittedEntry test supplied mode input = some entry) :
    entry.1 = input.name := by
  unfold admittedEntry at admitted
  split at admitted
  · cases admitted
    rfl
  · cases admitted

theorem nodup_admitted
    {inputs : List WorkflowInput} (distinct : (inputs.map WorkflowInput.name).Nodup) :
    ((inputs.filterMap (admittedEntry test supplied mode)).map Prod.fst).Nodup := by
  refine distinct.sublist ?_
  induction inputs with
  | nil => exact .slnil
  | cons input rest ih =>
    have shorter := ih (List.nodup_cons.mp distinct).2
    rw [List.filterMap_cons]
    cases admitted : admittedEntry test supplied mode input with
    | none => exact shorter.cons _
    | some entry =>
      rw [List.map_cons, List.map_cons, name_of_admittedEntry admitted]
      exact shorter.cons_cons _

/-- A walk succeeds when nothing is reported, and its map holds what is stored for
the declared inputs. -/
theorem resolve_eq_ok_iff
    {workflow : WorkflowSpec} {admitted : InputMap}
    (distinct : (workflow.inputs.map WorkflowInput.name).Nodup) :
    resolveAndValidateWorkflowInputs test workflow (some supplied) mode = .ok admitted ↔
      unknownKeyIssues workflow.inputs supplied = [] ∧
        (∀ input ∈ workflow.inputs, admissionIssue test supplied mode input = none) ∧
        admitted.entries =
          workflow.inputs.filterMap (admittedEntry test supplied mode) := by
  unfold resolveAndValidateWorkflowInputs
  simp only [Option.getD_some, foldl_resolveStep, List.length_pos_iff]
  have entries : ((workflow.inputs.filterMap (admittedEntry test supplied mode)).foldl
      (fun map entry => map.set entry.1 entry.2) (.empty : InputMap)).entries =
      workflow.inputs.filterMap (admittedEntry test supplied mode) :=
    OrderedMap.entries_foldl_set_empty (nodup_admitted distinct)
  rw [← List.filterMap_eq_nil_iff, ← and_assoc, ← List.append_eq_nil_iff]
  split
  · next reported => simp [reported]
  · rename_i silent
    rw [not_not] at silent
    simp only [silent, true_and, Except.ok.injEq]
    constructor
    · rintro rfl
      exact entries
    · intro same
      exact OrderedMap.eq_of_entries (entries.trans same.symm)

/-- What a walk has stored under a name is what the input of that name gives. -/
theorem get_resolved_iff {workflow : WorkflowSpec} {admitted : InputMap}
    (entries : admitted.entries = workflow.inputs.filterMap (admittedEntry test supplied mode))
    (name : JsString)
    (value : Unknown) :
    admitted.get name = some value ↔
      ∃ input ∈ workflow.inputs, input.name = name ∧
        admitOne test input supplied mode = .value value := by
  rw [← OrderedMap.mem_entries_iff, entries, List.mem_filterMap]
  refine exists_congr fun input => and_congr_right fun _ => ?_
  unfold admittedEntry
  cases admitOne test input supplied mode with
  | value given => simp [and_comm]
  | issue message | omitted => simp

end Walk

end Relavium.Run
