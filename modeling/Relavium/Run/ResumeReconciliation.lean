import Relavium.Run.ResumeIdentity

/-!
# What a verified resume has found

The parts of a verification, each by what its success says, and from them what
holds of every map that a resume goes on with.
-/

namespace Relavium.Run

open Library Shared

section Reconciliation

variable
  {test : RegExpTest}
  {objects : Objects}
  {workflow : WorkflowSpec}

variable
  {key : JsString}
  {supplied : InputMap}
  {value : Unknown}

theorem get_snapshot
    {raw : Option CallerMap} (snapshot : snapshotSupplied raw = .ok supplied)
    (found : supplied.get key = some value) :
    ∃ caller keys, raw = some caller ∧ caller.keys = some keys ∧ key ∈ keys ∧
      caller.get key = some value := by
  cases raw with
  | none =>
    obtain rfl : OrderedMap.empty = supplied := by
      simpa [snapshotSupplied] using snapshot
    cases found
  | some caller =>
    cases listed : caller.keys with
    | none => simp [snapshotSupplied, listed] at snapshot
    | some keys =>
      simp only [snapshotSupplied, listed] at snapshot
      obtain ⟨item, member, rfl, read⟩ | before :=
        OrderedMap.origin_of_fill snapshot found
      · refine ⟨caller, keys, rfl, listed, member, ?_⟩
        unfold readSupplied at read
        split at read
        · next given there => exact there.trans (congrArg some (Except.ok.inj read))
        · cases read
      · cases before

theorem resuppliedSecret_eq_ok_iff {value : Unknown} :
    resuppliedSecret objects key supplied = .ok value ↔
      supplied.get key = some value ∧ value.isUndefined = false ∧
        isMaskedSecret objects value = false := by
  unfold resuppliedSecret
  cases found : supplied.get key with
  | none =>
    have undefined : Unknown.undefined.isUndefined = true := rfl
    simp [undefined]
  | some given =>
    simp only [Option.getD_some, Option.some.injEq]
    by_cases refused : (given.isUndefined || isMaskedSecret objects given) = true
    · rw [if_pos refused]
      constructor
      · intro absurdity
        cases absurdity
      · rintro ⟨rfl, defined, plain⟩
        rw [defined, plain] at refused
        cases refused
    · rw [if_neg refused]
      have both : given.isUndefined = false ∧ isMaskedSecret objects given = false := by
        simpa using refused
      constructor
      · intro same
        cases same
        exact ⟨rfl, both⟩
      · rintro ⟨rfl, -⟩
        rfl

variable
  {secrets : List JsString}

/-- A masked slot is filled by the caller, anything else stays as it was recorded. -/
theorem reconcileEntry_eq_ok_iff {recorded value : Unknown} :
    reconcileEntry objects supplied secrets (key, recorded) = .ok value ↔
      secrets.contains key = isMaskedSecret objects recorded ∧
        if isMaskedSecret objects recorded = true then
          resuppliedSecret objects key supplied = .ok value
        else
          value = recorded ∧ ∀ given, supplied.get key = some given →
            objects.deepStructuralEquals given recorded = true := by
  unfold reconcileEntry
  dsimp only
  by_cases agree : secrets.contains key = isMaskedSecret objects recorded
  · rw [if_neg (not_not.mpr agree), and_iff_right agree]
    by_cases slot : isMaskedSecret objects recorded = true
    · rw [if_pos slot, if_pos slot]
    · rw [if_neg slot, if_neg slot]
      cases found : supplied.get key with
      | none =>
        rw [Option.any_none, if_neg Bool.false_ne_true, Except.ok.injEq, eq_comm]
        simp
      | some given =>
        rw [Option.any_some]
        cases equal : objects.deepStructuralEquals given recorded with
        | true =>
          rw [Bool.not_true, if_neg Bool.false_ne_true, Except.ok.injEq, eq_comm]
          simp [equal]
        | false =>
          rw [Bool.not_false, if_pos rfl]
          simp [equal]
  · rw [if_pos agree]
    exact iff_of_false (fun same => by cases same) fun both => agree both.1

/-- The parts of a successful verification. -/
theorem verifyResumeIdentity_eq_ok_iff
    {recordedInputs : InputMap} {recordedExecutionMode : ExecutionMode}
    {suppliedInputs : Option CallerMap} {suppliedExecutionMode : Option ExecutionMode}
    {identity : ResumeIdentity} :
    verifyResumeIdentity test objects workflow recordedInputs recordedExecutionMode
        suppliedInputs suppliedExecutionMode = .ok identity ↔
      ∃ supplied effective,
        snapshotSupplied suppliedInputs = .ok supplied ∧
        executionModeRefusal suppliedExecutionMode recordedExecutionMode = none ∧
        reconcileRecorded objects recordedInputs supplied (secretNames workflow) =
          .ok effective ∧
        unexpectedSuppliedRefusal supplied recordedInputs (secretNames workflow) = none ∧
        resolveAndValidateWorkflowInputs test workflow (some (.ofMap effective)) .verify =
          .ok identity.inputs ∧
        identity.executionMode = recordedExecutionMode := by
  have refuse_ok : ∀ refusal : Option ResumeIdentityRefusal,
      (∃ done, refuse refusal = .ok done) ↔ refusal = none := by
    intro refusal
    cases refusal <;> simp [refuse]
  unfold verifyResumeIdentity
  simp only [bind_eq_ok]
  constructor
  · rintro ⟨supplied, snapshot, done, mode, effective, reconciled, again, expected, last⟩
    refine ⟨supplied, effective, snapshot, (refuse_ok _).mp ⟨done, mode⟩, reconciled,
      (refuse_ok _).mp ⟨again, expected⟩, ?_⟩
    cases resolved : resolveAndValidateWorkflowInputs test workflow
        (some (.ofMap effective)) .verify with
    | ok inputs =>
      rw [resolved] at last
      obtain rfl := pure_eq_ok.mp last
      exact ⟨rfl, rfl⟩
    | error issues =>
      rw [resolved] at last
      cases last
  · rintro ⟨supplied, effective, snapshot, mode, reconciled, expected, resolved, rfl⟩
    obtain ⟨done, moded⟩ := (refuse_ok _).mpr mode
    obtain ⟨again, expects⟩ := (refuse_ok _).mpr expected
    refine ⟨supplied, snapshot, done, moded, effective, reconciled, again, expects, ?_⟩
    rw [resolved]
    rfl

theorem unknownKeyIssues_eq_nil_iff {declared : List WorkflowInput} {map : InputMap} :
    unknownKeyIssues declared (.ofMap map) = [] ↔
      ∀ key, map.has key = true → ∃ input ∈ declared, input.name = key := by
  have listed : ∀ key, key ∈ map.keys ↔ map.has key = true := by
    intro key
    rw [OrderedMap.has_iff, OrderedMap.keys, List.mem_map]
    constructor
    · rintro ⟨⟨other, value⟩, member, rfl⟩
      exact ⟨value, (OrderedMap.mem_entries_iff map other value).mp member⟩
    · rintro ⟨value, found⟩
      exact ⟨(key, value), (OrderedMap.mem_entries_iff map key value).mpr found, rfl⟩
  have silent : unknownKeyIssues declared (.ofMap map) = [] ↔
      map.keys.filter (fun key => !(declared.map WorkflowInput.name).contains key) = [] := by
    unfold unknownKeyIssues CallerMap.ofMap
    dsimp only
    generalize map.keys.filter (fun key =>
      !(declared.map WorkflowInput.name).contains key) = unknown
    cases unknown with
    | nil => exact iff_of_true rfl rfl
    | cons key rest =>
      refine iff_of_false (fun none => ?_) (List.cons_ne_nil key rest)
      rw [maxUnknownKeyIssues, List.take_succ_cons, List.map_cons] at none
      split at none
      · cases none
      · cases none
  rw [silent, List.filter_eq_nil_iff]
  refine forall_congr' fun key => ?_
  rw [listed]
  simp

/-- What is read of a map without accessors. -/
theorem provided_ofMap (map : InputMap) (name : JsString) :
    (CallerMap.ofMap map).provided name =
      some ((map.get name).getD Unknown.undefined) := by
  unfold CallerMap.provided CallerMap.ofMap
  dsimp only
  cases found : map.get name with
  | none | some value => simp [OrderedMap.has, found]

/-- In `verify` mode a value of its declared type is stored, and an absent one is
not. -/
theorem admitOne_verify {input : WorkflowInput} {map : InputMap} {value : Unknown} :
    admitOne test input (.ofMap map) .verify = .value value ↔
      map.get input.name = some value ∧ value.isUndefined = false ∧
        matchesDeclaredType value input.type = true := by
  unfold admitOne
  rw [provided_ofMap]
  cases found : map.get input.name with
  | none =>
    have undefined : Unknown.undefined.isUndefined = true := rfl
    simp [undefined, absentOutcome]
  | some given =>
    simp only [Option.getD_some, Option.some.injEq]
    cases undefined : given.isUndefined with
    | true =>
      rw [if_pos rfl]
      refine iff_of_false (fun same => by cases same) ?_
      rintro ⟨rfl, defined, -⟩
      rw [undefined] at defined
      cases defined
    | false =>
      rw [if_neg Bool.false_ne_true]
      cases violated : violatesDeclaredType given input.type with
      | none =>
        have matching := (violatesDeclaredType_eq_none_iff _ _).mp violated
        constructor
        · intro same
          cases same
          exact ⟨rfl, undefined, matching⟩
        · rintro ⟨rfl, -⟩
          rfl
      | some message =>
        refine iff_of_false (fun same => by cases same) ?_
        rintro ⟨rfl, -, matching⟩
        rw [(violatesDeclaredType_eq_none_iff _ _).mpr matching] at violated
        cases violated

/-- What holds of the map a resume continues with. -/
structure ContinuesRecord
    (objects : Objects) (workflow : WorkflowSpec) (recorded : InputMap)
    (supplied : Option CallerMap)
    (inputs : InputMap) : Prop where
  /-- It has the keys of the record that are declared; an own `undefined` is an
  omission. -/
  keys : ∀ key, inputs.has key = true ↔
    (∃ input ∈ workflow.inputs, input.name = key) ∧
      ∃ value, recorded.get key = some value ∧ value.isUndefined = false
  /-- The masked slots are those declared secret. -/
  agrees : ∀ key value, recorded.get key = some value →
    (secretNames workflow).contains key = isMaskedSecret objects value
  /-- Every other value is the recorded one. -/
  values : ∀ key value, recorded.get key = some value →
    isMaskedSecret objects value = false → value.isUndefined = false →
    inputs.get key = some value
  /-- Every masked slot holds what the caller has supplied, and that is not a
  placeholder. -/
  slots : ∀ key value, recorded.get key = some value →
    isMaskedSecret objects value = true →
    ∃ caller supply, supplied = some caller ∧ caller.get key = some supply ∧
      supply.isUndefined = false ∧ isMaskedSecret objects supply = false ∧
      inputs.get key = some supply

theorem reconciled_of_recorded
    {recorded supplied effective : InputMap}
    (reconciled : reconcileRecorded objects recorded supplied secrets = .ok effective)
    (found : recorded.get key = some value) :
    ∃ given, reconcileEntry objects supplied secrets (key, value) = .ok given ∧
      effective.get key = some given := by
  have member := (OrderedMap.mem_entries_iff recorded key value).mpr found
  obtain ⟨given, computed⟩ := OrderedMap.computed_of_fill reconciled member
  refine ⟨given, computed, OrderedMap.get_of_fill reconciled member computed ?_⟩
  intro other listed sameKey
  have there := (OrderedMap.mem_entries_iff recorded other.1 other.2).mp listed
  rw [show other.1 = key from sameKey] at there
  have sameValue : other.2 = value := Option.some.inj (there.symm.trans found)
  rw [show other = (key, value) from Prod.ext sameKey sameValue]

theorem recorded_of_reconciled
    {recorded supplied effective : InputMap}
    (reconciled : reconcileRecorded objects recorded supplied secrets = .ok effective)
    {given : Unknown} (found : effective.get key = some given) :
    ∃ value, recorded.get key = some value := by
  obtain ⟨⟨other, value⟩, member, rfl, -⟩ | before :=
    OrderedMap.origin_of_fill reconciled found
  · exact ⟨value, (OrderedMap.mem_entries_iff recorded other value).mp member⟩
  · cases before

theorem masked_defined (masked : isMaskedSecret objects value = true) :
    value.isUndefined = false := by
  cases value with
  | reference object => rfl
  | tree tree =>
    cases tree with
    | object properties => rfl
    | _ => cases masked

/-- A verified resume continues with the record, its masked slots filled by the
caller. -/
theorem continuesRecord_of_verified
    {recordedInputs : InputMap} {recordedExecutionMode : ExecutionMode}
    {suppliedInputs : Option CallerMap} {suppliedExecutionMode : Option ExecutionMode}
    {identity : ResumeIdentity} (distinct : (workflow.inputs.map WorkflowInput.name).Nodup)
    (verified : verifyResumeIdentity test objects workflow recordedInputs
      recordedExecutionMode suppliedInputs suppliedExecutionMode = .ok identity) :
    ContinuesRecord objects workflow recordedInputs suppliedInputs identity.inputs := by
  obtain ⟨supplied, effective, snapshot, -, reconciled, -, resolved, -⟩ :=
    verifyResumeIdentity_eq_ok_iff.mp verified
  obtain ⟨known, silent, entries⟩ := (resolve_eq_ok_iff distinct).mp resolved
  have declared := unknownKeyIssues_eq_nil_iff.mp known
  -- What is effective and defined is of its declared type, or the walk had reported it.
  have stored : ∀ {key given}, effective.get key = some given →
      given.isUndefined = false → identity.inputs.get key = some given := by
    intro key given found defined
    obtain ⟨input, member, rfl⟩ :=
      declared key ((OrderedMap.has_iff _ _).mpr ⟨given, found⟩)
    refine (get_resolved_iff entries input.name given).mpr ⟨input, member, rfl, ?_⟩
    refine admitOne_verify.mpr ⟨found, defined, ?_⟩
    by_contra mismatched
    have reported := silent input member
    unfold admissionIssue admitOne at reported
    rw [provided_ofMap, found, Option.getD_some] at reported
    simp [defined, violatesDeclaredType, mismatched] at reported
  have slot : ∀ {key value}, recordedInputs.get key = some value →
      isMaskedSecret objects value = true →
      ∃ given, supplied.get key = some given ∧ given.isUndefined = false ∧
        isMaskedSecret objects given = false ∧ effective.get key = some given := by
    intro key value found masked
    obtain ⟨given, computed, there⟩ := reconciled_of_recorded reconciled found
    obtain ⟨-, filled⟩ := reconcileEntry_eq_ok_iff.mp computed
    rw [if_pos masked, resuppliedSecret_eq_ok_iff] at filled
    exact ⟨given, filled.1, filled.2.1, filled.2.2, there⟩
  have plain : ∀ {key value}, recordedInputs.get key = some value →
      isMaskedSecret objects value = false → effective.get key = some value := by
    intro key value found unmasked
    obtain ⟨given, computed, there⟩ := reconciled_of_recorded reconciled found
    obtain ⟨-, kept⟩ := reconcileEntry_eq_ok_iff.mp computed
    rw [if_neg (by simp [unmasked])] at kept
    rw [there, kept.1]
  refine ⟨fun key => ⟨?_, ?_⟩, ?_, ?_, ?_⟩
  · intro present
    obtain ⟨given, found⟩ := (OrderedMap.has_iff _ _).mp present
    obtain ⟨input, member, rfl, admitted⟩ := (get_resolved_iff entries key given).mp found
    obtain ⟨effectively, defined, -⟩ := admitOne_verify.mp admitted
    obtain ⟨value, there⟩ := recorded_of_reconciled reconciled effectively
    refine ⟨⟨input, member, rfl⟩, value, there, ?_⟩
    cases masked : isMaskedSecret objects value with
    | true => exact masked_defined masked
    | false =>
      cases effectively.symm.trans (plain there masked)
      exact defined
  · rintro ⟨-, value, found, defined⟩
    refine (OrderedMap.has_iff _ _).mpr ?_
    cases masked : isMaskedSecret objects value with
    | true =>
      obtain ⟨given, -, isDefined, -, effectively⟩ := slot found masked
      exact ⟨given, stored effectively isDefined⟩
    | false => exact ⟨value, stored (plain found masked) defined⟩
  · intro key value found
    obtain ⟨given, computed, -⟩ := reconciled_of_recorded reconciled found
    exact (reconcileEntry_eq_ok_iff.mp computed).1
  · intro key value found masked defined
    exact stored (plain found masked) defined
  · intro key value found masked
    obtain ⟨given, supplies, defined, unmasked, effectively⟩ := slot found masked
    obtain ⟨caller, keys, isCaller, -, -, read⟩ := get_snapshot snapshot supplies
    exact ⟨caller, given, isCaller, read, defined, unmasked, stored effectively defined⟩

end Reconciliation

end Relavium.Run
