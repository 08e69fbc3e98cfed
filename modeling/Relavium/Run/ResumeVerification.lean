import Relavium.Run.ResumeReconciliation

/-!
# What was admitted can be resumed

The record of an admission is its map with the secrets masked, as JSON keeps it.
JSON keeps every admitted value but the negative zero.
-/

namespace Relavium.Run

open Library Shared

/-! ## The round trip -/

/-- A value as JSON keeps it. -/
def keptUnknown : Unknown → Unknown
  | .tree value => .tree value.kept
  | .reference object => .reference object

/-- A value that has a JSON text. -/
def HasText : Unknown → Prop
  | .tree value => value.Serializable
  | .reference _ => False

/-- The tree of a value. -/
def treeOf : Unknown → JsValue
  | .tree value => value
  | .reference _ => .exotic

theorem treesOf_eq {inputs : InputMap} (text : ∀ entry ∈ inputs.entries, HasText entry.2) :
    treesOf inputs = some (inputs.entries.map fun entry => (entry.1, treeOf entry.2)) := by
  unfold treesOf
  generalize inputs.entries = entries at text ⊢
  induction entries with
  | nil => rfl
  | cons entry rest ih =>
    have others := ih fun other member =>
      text other (List.mem_cons_of_mem entry member)
    have first := text entry List.mem_cons_self
    rw [List.mapM_cons, others]
    obtain ⟨key, value⟩ := entry
    cases value with
    | tree value => rfl
    | reference object => cases first

theorem HasText.serializable {value : Unknown} (text : HasText value) :
    (treeOf value).Serializable := by
  cases value with
  | tree value => exact text
  | reference object => cases text

theorem HasText.kept {value : Unknown} (text : HasText value) :
    Unknown.tree (treeOf value).kept = keptUnknown value := by
  cases value with
  | tree value => rfl
  | reference object => cases text

/-- JSON leaves out no property that has a text. -/
theorem keptProperties_eq
    {properties : List (JsString × JsValue)}
    (serializable : ∀ property ∈ properties, property.2.Serializable) :
    JsValue.keptProperties properties = properties.map JsValue.keptProperty := by
  rw [JsValue.keptProperties_eq_map, List.filter_eq_self.mpr]
  intro property member
  have defined := serializable property member
  cases undefined : property.2.isUndefined with
  | false => rfl
  | true =>
    rw [(JsValue.isUndefined_iff _).mp undefined] at defined
    cases defined

/-- JSON reads a map back as what it keeps of it. -/
theorem roundTrip_eq {inputs : InputMap} (text : ∀ entry ∈ inputs.entries, HasText entry.2) :
    roundTrip inputs = some (inputs.mapValues fun _ value => keptUnknown value) := by
  have each : ∀ property ∈ inputs.entries.map fun entry => (entry.1, treeOf entry.2),
      property.2.Serializable := by
    intro property member
    obtain ⟨entry, listed, rfl⟩ := List.mem_map.mp member
    exact (text entry listed).serializable
  have serializable := JsValue.Serializable.object
    (by simpa [Function.comp_def] using inputs.nodupKeys) fun property member _ =>
      each property member
  obtain ⟨written, writes, parses⟩ := JsonText.parse_write none serializable
  unfold roundTrip
  rw [treesOf_eq text, Option.bind_eq_bind, Option.bind_some, writes, Option.bind_eq_bind,
    Option.bind_some, parses, Option.bind_eq_bind, Option.bind_some, JsValue.kept,
    keptProperties_eq each]
  have read : (inputs.entries.map fun entry => (entry.1, treeOf entry.2)).map
      JsValue.keptProperty =
      inputs.entries.map fun entry => (entry.1, (treeOf entry.2).kept) := by
    rw [List.map_map]
    rfl
  have entries : ((inputs.entries.map fun entry => (entry.1, (treeOf entry.2).kept)).map
      fun property => (property.1, Unknown.tree property.2)) =
      (inputs.mapValues fun _ value => keptUnknown value).entries := by
    rw [List.map_map]
    refine List.map_congr_left fun entry member => ?_
    exact Prod.ext rfl (text entry member).kept
  have stored := OrderedMap.entries_foldl_set_empty
    (inputs.mapValues fun _ value => keptUnknown value).nodupKeys
  refine congrArg some (OrderedMap.eq_of_entries ?_)
  rw [read]
  refine Eq.trans ?_ stored
  rw [← entries]
  simp only [List.foldl_map]

/-! ## Admitted values -/

/-- The negative zero. -/
def isNegativeZero : Unknown → Bool
  | .tree (.number (.finite value)) => value.negative && value.mantissa == 0
  | _ => false

/-- A value that a declared type admits. -/
inductive Scalar : Unknown → InputType → Prop
  | number (value : Binary64) : Scalar (.tree (.number (.finite value))) .number
  | boolean (value : Bool) : Scalar (.tree (.boolean value)) .boolean
  | string (value : JsString) (type : InputType) :
      matchesDeclaredType (.tree (.string value)) type = true →
      Scalar (.tree (.string value)) type

theorem scalar_of_matches
    {value : Unknown} {type : InputType} (matching : matchesDeclaredType value type = true) :
    Scalar value type := by
  unfold matchesDeclaredType at matching
  split at matching
  · exact .number _
  · exact .boolean _
  · exact .string _ _ rfl
  · exact .string _ _ rfl
  · exact .string _ _ rfl
  · exact .string _ _ rfl
  · cases matching

namespace Scalar

variable
  {value : Unknown}
  {type : InputType}
  (scalar : Scalar value type)

include scalar

theorem hasText : HasText value := by
  cases scalar with
  | number value => exact .number value
  | boolean value => exact .boolean value
  | string value type matching => exact .string value

theorem defined : value.isUndefined = false := by
  cases scalar <;> rfl

theorem not_masked (objects : Objects) : isMaskedSecret objects value = false := by
  cases scalar <;> rfl

theorem matchesType : matchesDeclaredType value type = true := by
  cases scalar with
  | number value | boolean value => rfl
  | string value type matching => exact matching

theorem defined_kept : (keptUnknown value).isUndefined = false := by
  cases scalar <;> rfl

theorem kept_eq_iff : keptUnknown value = value ↔ isNegativeZero value = false := by
  cases scalar with
  | boolean value | string value type matching => exact iff_of_true rfl rfl
  | number value =>
    simp only [keptUnknown, JsValue.kept, Unknown.tree.injEq, JsValue.number.injEq,
      JsNumber.finite.injEq, isNegativeZero]
    by_cases vanishes : value.mantissa = 0
    · have least := Binary64.exponent_of_mantissa_zero vanishes
      obtain ⟨negative, mantissa, exponent, _, _, _, _⟩ := value
      dsimp only at vanishes least
      subst vanishes least
      cases negative with
      | false | true => simp [Binary64.zero]
    · simp [vanishes]

/-- A value is equal to itself after the round trip when that keeps it. -/
theorem equal_kept (objects : Objects) (nonzero : isNegativeZero value = false) :
    objects.deepStructuralEquals value (keptUnknown value) = true := by
  rw [scalar.kept_eq_iff.mpr nonzero]
  cases scalar with
  | number value | boolean value =>
    simp [Objects.deepStructuralEquals, unknownsEqual, treesEqualWithin]
  | string value type matching =>
    simp [Objects.deepStructuralEquals, unknownsEqual, treesEqualWithin]

end Scalar

/-! ## The record -/

theorem kept_maskedSecret (key : JsString) :
    (maskedSecret key).kept = maskedSecret key :=
  rfl

theorem isMaskedSecret_maskedSecret (objects : Objects) (key : JsString) :
    isMaskedSecret objects (.tree (maskedSecret key)) = true := by
  have different : (jsText "ref" == jsText "secret") = false := by decide
  have nonempty : jsText "inputs." ++ key ≠ [] := by
    intro empty
    have parts := List.append_eq_nil_iff.mp empty
    exact absurd parts.1 (by decide)
  simp [isMaskedSecret, maskedSecret, maskedProperties, List.lookup_cons, different, nonempty]

theorem serializable_maskedSecret (key : JsString) :
    (maskedSecret key).Serializable := by
  have distinct : [jsText "secret", jsText "ref"].Nodup := by decide
  refine .object distinct fun property member _ => ?_
  obtain rfl | later := List.mem_cons.mp member
  · exact .boolean true
  · obtain rfl := List.mem_singleton.mp later
    exact .string _

/-- The admission's record. -/
def recordOf (admitted : InputMap) (secrets : List JsString) : InputMap :=
  (maskInputs admitted secrets).mapValues fun _ value => keptUnknown value

theorem get_recordOf (admitted : InputMap) (secrets : List JsString) (key : JsString) :
    (recordOf admitted secrets).get key =
      (admitted.get key).map fun value =>
        if secrets.contains key then .tree (maskedSecret key) else keptUnknown value := by
  unfold recordOf maskInputs
  rw [OrderedMap.get_mapValues, OrderedMap.get_mapValues, Option.map_map]
  refine congrArg (Option.map · (admitted.get key)) (funext fun value => ?_)
  dsimp only [Function.comp_apply]
  split
  · exact congrArg Unknown.tree (kept_maskedSecret key)
  · rfl

theorem roundTrip_maskInputs
    {admitted : InputMap} {secrets : List JsString}
    (text : ∀ entry ∈ admitted.entries, HasText entry.2) :
    roundTrip (maskInputs admitted secrets) = some (recordOf admitted secrets) := by
  refine roundTrip_eq fun entry member => ?_
  obtain ⟨given, listed, rfl⟩ := List.mem_map.mp member
  dsimp only
  split
  · exact serializable_maskedSecret given.1
  · exact text given listed

/-! ## What was admitted -/

section Admitted

variable
  {test : RegExpTest}
  {workflow : WorkflowSpec}
  {raw admitted : InputMap}

variable {input : WorkflowInput} {value : Unknown} {key : JsString}

theorem origin_of_admitted
    (parsed : input.Parsed test)
    (gives : admitOne test input (.ofMap raw) .admission = .value value) :
    Scalar value input.type ∧
      (raw.get input.name = some value ∨
        ∃ tree, input.default = some tree ∧ value = .tree tree) := by
  have fromDefault : absentOutcome input .admission = .value value →
      ∃ tree, input.default = some tree ∧ value = .tree tree := by
    intro absent
    unfold absentOutcome at absent
    dsimp only at absent
    cases default : input.default with
    | some tree =>
      rw [default] at absent
      exact ⟨tree, rfl, (AdmissionOutcome.value.inj absent).symm⟩
    | none =>
      rw [default] at absent
      dsimp only at absent
      split at absent
      · cases absent
      · cases absent
  have default : absentOutcome input .admission = .value value → Scalar value input.type ∧
      (raw.get input.name = some value ∨
        ∃ tree, input.default = some tree ∧ value = .tree tree) := by
    intro absent
    obtain ⟨tree, isDefault, rfl⟩ := fromDefault absent
    exact ⟨scalar_of_matches (matches_of_contract (parsed.defaultInContract tree isDefault)),
      .inr ⟨tree, isDefault, rfl⟩⟩
  unfold admitOne at gives
  rw [provided_ofMap] at gives
  cases found : raw.get input.name with
  | none =>
    rw [found] at gives
    rw [← found]
    exact default gives
  | some given =>
    rw [found] at gives
    dsimp only [Option.getD_some] at gives
    split at gives
    · rw [← found]
      exact default gives
    · cases violated : violatesInputContract test given input.type input.validation with
      | none =>
        rw [violated] at gives
        obtain rfl := AdmissionOutcome.value.inj gives
        exact ⟨scalar_of_matches (matches_of_contract violated), .inl rfl⟩
      | some message =>
        rw [violated] at gives
        cases gives

theorem scalar_of_get
    (parsed : ∀ input ∈ workflow.inputs, input.Parsed test)
    (entries : admitted.entries =
      workflow.inputs.filterMap (admittedEntry test (.ofMap raw) .admission))
    (found : admitted.get key = some value) :
    ∃ input ∈ workflow.inputs, input.name = key ∧ Scalar value input.type ∧
      (raw.get key = some value ∨
        ∃ tree, input.default = some tree ∧ value = .tree tree) := by
  obtain ⟨input, member, rfl, gives⟩ := (get_resolved_iff entries key value).mp found
  exact ⟨input, member, rfl, origin_of_admitted (parsed input member) gives⟩

theorem admitOne_supplied
    (found : raw.get input.name = some value) (defined : value.isUndefined = false) :
    admitOne test input (.ofMap raw) .admission =
      match violatesInputContract test value input.type input.validation with
      | none => .value value
      | some message => .issue message := by
  unfold admitOne
  rw [provided_ofMap, found]
  dsimp only [Option.getD_some]
  refine (if_neg (by simp [defined])).trans ?_
  cases violatesInputContract test value input.type input.validation <;> rfl

theorem get_of_raw
    (defined : ∀ key value, raw.get key = some value → value.isUndefined = false)
    (known : unknownKeyIssues workflow.inputs (.ofMap raw) = [])
    (silent : ∀ input ∈ workflow.inputs,
      admissionIssue test (.ofMap raw) .admission input = none)
    (entries : admitted.entries =
      workflow.inputs.filterMap (admittedEntry test (.ofMap raw) .admission))
    (found : raw.get key = some value) :
    admitted.get key = some value := by
  obtain ⟨input, member, rfl⟩ := unknownKeyIssues_eq_nil_iff.mp known key
    ((OrderedMap.has_iff _ _).mpr ⟨value, found⟩)
  refine (get_resolved_iff entries input.name value).mpr ⟨input, member, rfl, ?_⟩
  have reported := silent input member
  unfold admissionIssue at reported
  rw [admitOne_supplied found (defined _ _ found)] at reported ⊢
  cases violated : violatesInputContract test value input.type input.validation with
  | none => rfl
  | some message =>
    rw [violated] at reported
    cases reported

theorem type_eq_secret
    (distinct : (workflow.inputs.map WorkflowInput.name).Nodup) (member : input ∈ workflow.inputs)
    (secret : (secretNames workflow).contains input.name = true) :
    input.type = .secret := by
  rw [List.contains_iff_mem, secretNames, List.mem_map] at secret
  obtain ⟨other, listed, sameName⟩ := secret
  obtain ⟨otherMember, otherSecret⟩ := List.mem_filter.mp listed
  obtain rfl := List.inj_on_of_nodup_map distinct otherMember member sameName
  exact of_decide_eq_true otherSecret

theorem raw_of_secret
    (parsed : ∀ input ∈ workflow.inputs, input.Parsed test)
    (distinct : (workflow.inputs.map WorkflowInput.name).Nodup)
    (entries : admitted.entries =
      workflow.inputs.filterMap (admittedEntry test (.ofMap raw) .admission))
    (secret : (secretNames workflow).contains key = true) (found : admitted.get key = some value) :
    raw.get key = some value := by
  obtain ⟨input, member, rfl, -, supplied | ⟨tree, isDefault, -⟩⟩ :=
    scalar_of_get parsed entries found
  · exact supplied
  · have isSecret := type_eq_secret distinct member secret
    rw [(parsed input member).secretWithoutDefault isSecret] at isDefault
    cases isDefault

theorem snapshot_ofMap (map : InputMap) :
    ∃ snapshot, snapshotSupplied (some (.ofMap map)) = .ok snapshot ∧
      ∀ key, snapshot.get key = map.get key := by
  have reads : ∀ key, readSupplied (.ofMap map) key =
      .ok ((map.get key).getD Unknown.undefined) := fun _ => rfl
  obtain ⟨snapshot, filled⟩ :
      ∃ snapshot, snapshotSupplied (some (.ofMap map)) = .ok snapshot :=
    OrderedMap.fill_of_forall (fun key _ => ⟨_, reads key⟩) _
  refine ⟨snapshot, filled, fun key => ?_⟩
  cases found : map.get key with
  | some value =>
    have member : key ∈ map.keys :=
      List.mem_map.mpr ⟨(key, value), (map.mem_entries_iff key value).mpr found, rfl⟩
    have stored := OrderedMap.get_of_fill filled member (reads key)
      fun other _ same => by rw [show other = key from same]
    rw [found] at stored
    exact stored
  | none =>
    cases stored : snapshot.get key with
    | none => rfl
    | some value =>
      obtain ⟨caller, keys, isCaller, listed, member, -⟩ := get_snapshot filled stored
      cases isCaller
      cases listed
      obtain ⟨⟨other, given⟩, there, rfl⟩ := List.mem_map.mp member
      rw [(map.mem_entries_iff other given).mp there] at found
      cases found

theorem get_iff_admitOne
    (distinct : (workflow.inputs.map WorkflowInput.name).Nodup)
    (entries : admitted.entries =
      workflow.inputs.filterMap (admittedEntry test (.ofMap raw) .admission))
    (member : input ∈ workflow.inputs) (value : Unknown) :
    admitted.get input.name = some value ↔
      admitOne test input (.ofMap raw) .admission = .value value := by
  rw [get_resolved_iff entries]
  constructor
  · rintro ⟨other, otherMember, sameName, gives⟩
    obtain rfl := List.inj_on_of_nodup_map distinct otherMember member sameName
    exact gives
  · intro gives
    exact ⟨input, member, rfl, gives⟩

/-- What an input is given: the caller's value, or else its default. -/
def givenValue (raw : InputMap) (input : WorkflowInput) : Option Unknown :=
  (raw.get input.name).or (input.default.map Unknown.tree)

theorem get_eq_givenValue
    (defined : ∀ key value, raw.get key = some value → value.isUndefined = false)
    (distinct : (workflow.inputs.map WorkflowInput.name).Nodup)
    (known : unknownKeyIssues workflow.inputs (.ofMap raw) = [])
    (silent : ∀ input ∈ workflow.inputs,
      admissionIssue test (.ofMap raw) .admission input = none)
    (entries : admitted.entries =
      workflow.inputs.filterMap (admittedEntry test (.ofMap raw) .admission))
    (member : input ∈ workflow.inputs) :
    admitted.get input.name = givenValue raw input := by
  unfold givenValue
  cases found : raw.get input.name with
  | some value =>
    rw [Option.some_or]
    exact get_of_raw defined known silent entries found
  | none =>
    have outcome : admitOne test input (.ofMap raw) .admission = absentOutcome input .admission := by
      unfold admitOne
      rw [provided_ofMap, found]
      rfl
    rw [Option.none_or]
    cases default : input.default with
    | some tree =>
      refine (get_iff_admitOne distinct entries member (.tree tree)).mpr ?_
      rw [outcome, absentOutcome, default]
    | none =>
      cases stored : admitted.get input.name with
      | none => rfl
      | some value =>
        have gives := (get_iff_admitOne distinct entries member value).mp stored
        rw [outcome, absentOutcome, default] at gives
        dsimp only at gives
        split at gives
        · cases gives
        · cases gives

/-- A map that agrees with the admission and holds its secrets. -/
structure Supplies (workflow : WorkflowSpec)
    (admitted supplied : InputMap) : Prop where
  agrees : ∀ key value, supplied.get key = some value → admitted.get key = some value
  secrets : ∀ key value, (secretNames workflow).contains key = true →
    admitted.get key = some value → supplied.get key = some value

/-- The contract that an admitted map has passed, and what JSON has to keep. -/
structure Resumable (workflow : WorkflowSpec)
    (admitted : InputMap) : Prop where
  scalar : ∀ key value, admitted.get key = some value →
    ∃ input ∈ workflow.inputs, input.name = key ∧ Scalar value input.type
  kept : ∀ key value, admitted.get key = some value → isNegativeZero value = false

variable {objects : Objects} {snapshot effective : InputMap}

theorem reconcileEntry_recordOf
    (resumable : Resumable workflow admitted) (supplies : Supplies workflow admitted snapshot)
    {key : JsString} {recorded value : Unknown} (found : admitted.get key = some value)
    (there : (recordOf admitted (secretNames workflow)).get key = some recorded) :
    reconcileEntry objects snapshot (secretNames workflow) (key, recorded) =
      .ok value := by
  obtain ⟨input, -, -, isScalar⟩ := resumable.scalar key value found
  rw [get_recordOf, found, Option.map_some, Option.some.injEq] at there
  refine reconcileEntry_eq_ok_iff.mpr ?_
  by_cases secret : (secretNames workflow).contains key = true
  · rw [if_pos secret] at there
    subst there
    rw [secret, isMaskedSecret_maskedSecret, if_pos rfl, resuppliedSecret_eq_ok_iff]
    exact ⟨rfl, supplies.secrets key value secret found, isScalar.defined,
      isScalar.not_masked objects⟩
  · have nonzero := resumable.kept key value found
    rw [if_neg secret, isScalar.kept_eq_iff.mpr nonzero] at there
    subst there
    rw [isScalar.not_masked objects, if_neg Bool.false_ne_true]
    refine ⟨by simpa using secret, rfl, fun given isSupplied => ?_⟩
    cases (supplies.agrees key given isSupplied).symm.trans found
    have equal := isScalar.equal_kept objects nonzero
    rwa [isScalar.kept_eq_iff.mpr nonzero] at equal

theorem recorded_iff (admitted : InputMap) (secrets : List JsString) (key : JsString) :
    (∃ recorded, (recordOf admitted secrets).get key = some recorded) ↔
      ∃ value, admitted.get key = some value := by
  rw [get_recordOf]
  cases admitted.get key with
  | none | some value => simp

theorem reconcileRecorded_recordOf
    (objects : Objects) (resumable : Resumable workflow admitted)
    (supplies : Supplies workflow admitted snapshot) :
    ∃ effective, reconcileRecorded objects (recordOf admitted (secretNames workflow))
        snapshot (secretNames workflow) = .ok effective ∧
      ∀ key, effective.get key = admitted.get key := by
  have computes : ∀ entry ∈ (recordOf admitted (secretNames workflow)).entries,
      ∃ value, reconcileEntry objects snapshot (secretNames workflow) entry = .ok value := by
    intro entry member
    have there := (OrderedMap.mem_entries_iff _ entry.1 entry.2).mp member
    obtain ⟨value, found⟩ := (recorded_iff _ _ entry.1).mp ⟨entry.2, there⟩
    exact ⟨value, reconcileEntry_recordOf resumable supplies found there⟩
  obtain ⟨effective, reconciled⟩ : ∃ effective, reconcileRecorded objects
      (recordOf admitted (secretNames workflow)) snapshot (secretNames workflow) =
        .ok effective :=
    OrderedMap.fill_of_forall computes _
  refine ⟨effective, reconciled, fun key => ?_⟩
  cases found : admitted.get key with
  | some value =>
    obtain ⟨recorded, there⟩ := (recorded_iff _ (secretNames workflow) key).mpr ⟨value, found⟩
    obtain ⟨given, computed, stored⟩ := reconciled_of_recorded reconciled there
    rw [reconcileEntry_recordOf resumable supplies found there] at computed
    rw [stored, ← Except.ok.inj computed]
  | none =>
    cases stored : effective.get key with
    | none => rfl
    | some given =>
      obtain ⟨value, there⟩ :=
        (recorded_iff _ _ key).mp (recorded_of_reconciled reconciled stored)
      rw [found] at there
      cases there

theorem unexpectedSuppliedRefusal_recordOf (supplies : Supplies workflow admitted snapshot) :
    unexpectedSuppliedRefusal snapshot (recordOf admitted (secretNames workflow))
      (secretNames workflow) = none := by
  have nowhere : snapshot.entries.find? (fun entry =>
      !((recordOf admitted (secretNames workflow)).has entry.1 ||
        entry.2.isUndefined)) = none := by
    refine List.find?_eq_none.mpr fun entry member => ?_
    have there := (OrderedMap.mem_entries_iff _ entry.1 entry.2).mp member
    have present := (OrderedMap.has_iff _ _).mpr
      ((recorded_iff _ (secretNames workflow) entry.1).mpr
        ⟨entry.2, supplies.agrees entry.1 entry.2 there⟩)
    simp [present]
  unfold unexpectedSuppliedRefusal
  rw [nowhere]
  rfl

/-- In `verify` mode the walk over what was admitted stores it again. -/
theorem admitOne_effective
    (distinct : (workflow.inputs.map WorkflowInput.name).Nodup)
    (resumable : Resumable workflow admitted)
    (effectively : ∀ key, effective.get key = admitted.get key) {input : WorkflowInput}
    (member : input ∈ workflow.inputs) :
    admitOne test input (.ofMap effective) .verify =
      match admitted.get input.name with
      | some value => .value value
      | none => .omitted := by
  cases found : admitted.get input.name with
  | some value =>
    obtain ⟨other, otherMember, sameName, isScalar⟩ := resumable.scalar _ value found
    obtain rfl := List.inj_on_of_nodup_map distinct otherMember member sameName
    refine admitOne_verify.mpr ⟨by rw [effectively, found], isScalar.defined, ?_⟩
    exact isScalar.matchesType
  | none =>
    unfold admitOne
    rw [provided_ofMap, effectively, found]
    rfl

/-- The walk of the verification gives the admitted map. -/
theorem resolve_effective
    (distinct : (workflow.inputs.map WorkflowInput.name).Nodup)
    (resumable : Resumable workflow admitted)
    (entries : admitted.entries =
      workflow.inputs.filterMap (admittedEntry test (.ofMap raw) .admission))
    (effectively : ∀ key, effective.get key = admitted.get key) :
    resolveAndValidateWorkflowInputs test workflow (some (.ofMap effective)) .verify =
      .ok admitted := by
  refine (resolve_eq_ok_iff distinct).mpr ⟨?_, fun input member => ?_, ?_⟩
  · refine unknownKeyIssues_eq_nil_iff.mpr fun key present => ?_
    obtain ⟨value, found⟩ := (OrderedMap.has_iff _ _).mp present
    rw [effectively] at found
    obtain ⟨input, member, name, -⟩ := resumable.scalar key value found
    exact ⟨input, member, name⟩
  · unfold admissionIssue
    rw [admitOne_effective distinct resumable effectively member]
    cases admitted.get input.name <;> rfl
  · rw [entries]
    refine List.filterMap_congr fun input member => ?_
    unfold admittedEntry
    rw [admitOne_effective distinct resumable effectively member]
    cases found : admitted.get input.name with
    | some value => rw [(get_iff_admitOne distinct entries member value).mp found]
    | none =>
      cases gives : admitOne test input (.ofMap raw) .admission with
      | value value =>
        rw [(get_iff_admitOne distinct entries member value).mpr gives] at found
        cases found
      | issue message | omitted => rfl

/-- A map that agrees with the admission and holds its secrets resumes it, when JSON
keeps what was admitted. -/
theorem verified_of_supplies
    (objects : Objects) {supplied : InputMap} {mode : ExecutionMode}
    {suppliedMode : Option ExecutionMode}
    (distinct : (workflow.inputs.map WorkflowInput.name).Nodup)
    (resumable : Resumable workflow admitted)
    (entries : admitted.entries =
      workflow.inputs.filterMap (admittedEntry test (.ofMap raw) .admission))
    (supplies : Supplies workflow admitted supplied)
    (moded : executionModeRefusal suppliedMode mode = none) :
    verifyResumeIdentity test objects workflow
        (recordOf admitted (secretNames workflow)) mode (some (.ofMap supplied))
        suppliedMode =
      .ok { inputs := admitted, executionMode := mode } := by
  obtain ⟨snapshot, snapshots, sameGet⟩ := snapshot_ofMap supplied
  have snapshotSupplies : Supplies workflow admitted snapshot := by
    refine ⟨?_, ?_⟩
    · intro key value found
      exact supplies.agrees key value (sameGet key ▸ found)
    · intro key value secret found
      rw [sameGet]
      exact supplies.secrets key value secret found
  obtain ⟨effective, reconciled, effectively⟩ :=
    reconcileRecorded_recordOf objects resumable snapshotSupplies
  exact verifyResumeIdentity_eq_ok_iff.mpr
    ⟨snapshot, effective, snapshots, moded, reconciled,
      unexpectedSuppliedRefusal_recordOf snapshotSupplies,
      resolve_effective distinct resumable entries effectively, rfl⟩

theorem nonzero_of_continues
    {supplied : Option CallerMap} (distinct : (workflow.inputs.map WorkflowInput.name).Nodup)
    (scalar : ∀ key value, admitted.get key = some value →
      ∃ input ∈ workflow.inputs, input.name = key ∧ Scalar value input.type)
    (continues : ContinuesRecord objects workflow
      (recordOf admitted (secretNames workflow)) supplied admitted)
    {key : JsString}
    {value : Unknown}
    (found : admitted.get key = some value) :
    isNegativeZero value = false := by
  obtain ⟨input, member, rfl, isScalar⟩ := scalar key value found
  have recorded := get_recordOf admitted (secretNames workflow) input.name
  rw [found, Option.map_some] at recorded
  by_cases secret : (secretNames workflow).contains input.name = true
  · have isSecret := type_eq_secret distinct member secret
    rw [isSecret] at isScalar
    cases isScalar
    rfl
  · rw [if_neg secret] at recorded
    have unmasked : isMaskedSecret objects (keptUnknown value) = false := by
      rw [← continues.agrees _ _ recorded]
      simpa using secret
    have same := continues.values _ _ recorded unmasked isScalar.defined_kept
    exact isScalar.kept_eq_iff.mp (Option.some.inj (same.symm.trans found))

/-- The admitted values of the inputs declared secret. -/
def secretsOf (workflow : WorkflowSpec) (admitted : InputMap) : InputMap :=
  admitted.filter fun key _ => (secretNames workflow).contains key

theorem supplies_secretsOf (workflow : WorkflowSpec) (admitted : InputMap) :
    Supplies workflow admitted (secretsOf workflow admitted) := by
  refine ⟨fun key value found => ?_, fun key value secret found => ?_⟩
  · rw [secretsOf, OrderedMap.get_filter, Option.filter_eq_some_iff] at found
    exact found.1
  · rw [secretsOf, OrderedMap.get_filter, Option.filter_eq_some_iff]
    exact ⟨found, secret⟩

end Admitted

/-- A resume verifies what an admission has recorded exactly when no input was given
the negative zero, and it continues with the record. -/
theorem resume_identity
    (test : RegExpTest) (objects : Objects) {workflow : WorkflowSpec}
    (distinct : (workflow.inputs.map WorkflowInput.name).Nodup)
    (parsed : ∀ input ∈ workflow.inputs, input.Parsed test) :
    (∀ raw admitted mode suppliedMode,
      (∀ key value, raw.get key = some value → value.isUndefined = false) →
      resolveAndValidateWorkflowInputs test workflow (some (.ofMap raw)) .admission =
        .ok admitted →
      suppliedMode = none ∨ suppliedMode = some mode →
      ∃ record, roundTrip (maskInputs admitted (secretNames workflow)) = some record ∧
        ((verifyResumeIdentity test objects workflow record mode (some (.ofMap raw))
              suppliedMode = .ok { inputs := admitted, executionMode := mode } ∧
            verifyResumeIdentity test objects workflow record mode
              (some (.ofMap (secretsOf workflow admitted))) suppliedMode =
                .ok { inputs := admitted, executionMode := mode }) ↔
          ∀ input ∈ workflow.inputs, ∀ value, givenValue raw input = some value →
            isNegativeZero value = false)) ∧
    ∀ recorded mode supplied suppliedMode identity,
      verifyResumeIdentity test objects workflow recorded mode supplied suppliedMode =
        .ok identity →
      identity.executionMode = mode ∧
        ContinuesRecord objects workflow recorded supplied identity.inputs := by
  refine ⟨fun raw admitted mode suppliedMode defined admits modes => ?_, ?_⟩
  · obtain ⟨known, silent, entries⟩ := (resolve_eq_ok_iff distinct).mp admits
    have scalar : ∀ key value, admitted.get key = some value →
        ∃ input ∈ workflow.inputs, input.name = key ∧ Scalar value input.type := by
      intro key value found
      obtain ⟨input, member, name, isScalar, -⟩ := scalar_of_get parsed entries found
      exact ⟨input, member, name, isScalar⟩
    have given := fun input (member : input ∈ workflow.inputs) =>
      get_eq_givenValue defined distinct known silent entries member
    have moded : executionModeRefusal suppliedMode mode = none := by
      obtain rfl | rfl := modes
      · rfl
      · simp [executionModeRefusal]
    have text : ∀ entry ∈ admitted.entries, HasText entry.2 := by
      intro entry member
      obtain ⟨input, -, -, isScalar⟩ :=
        scalar entry.1 entry.2 ((admitted.mem_entries_iff _ _).mp member)
      exact isScalar.hasText
    refine ⟨_, roundTrip_maskInputs text, ?_, ?_⟩
    · rintro ⟨-, verified⟩ input member value isGiven
      exact nonzero_of_continues distinct scalar (continuesRecord_of_verified distinct verified)
        ((given input member).trans isGiven)
    · intro nonzero
      have resumable : Resumable workflow admitted := by
        refine ⟨scalar, fun key value found => ?_⟩
        obtain ⟨input, member, rfl, -⟩ := scalar key value found
        exact nonzero input member value ((given input member).symm.trans found)
      refine ⟨verified_of_supplies objects distinct resumable entries ?_ moded,
        verified_of_supplies objects distinct resumable entries
          (supplies_secretsOf workflow admitted) moded⟩
      exact ⟨fun key value found => get_of_raw defined known silent entries found,
        fun key value secret found => raw_of_secret parsed distinct entries secret found⟩
  · intro recorded mode supplied suppliedMode identity verified
    obtain ⟨-, -, -, -, -, -, -, sameMode⟩ := verifyResumeIdentity_eq_ok_iff.mp verified
    exact ⟨sameMode, continuesRecord_of_verified distinct verified⟩

/-- A count and a token. -/
def countedWorkflow : WorkflowSpec where
  id := jsText "w"
  inputs := [
    { name := jsText "count", type := .number, default := none },
    { name := jsText "token", type := .secret, default := none }]
  context := []
  agents := []
  nodes := []
  edges := []
  maxParallel := none
  distinctIds := List.nodup_nil

/-- Inputs of it. -/
def countedInputs (count : Binary64) : InputMap :=
  (OrderedMap.empty.set (jsText "count") (.tree (.number (.finite count)))).set
    (jsText "token") (.tree (.string (jsText "k")))

/-- No object is a masked secret or equal to another one. -/
def noObjects : Objects where
  masked _ := false
  equal _ _ := false

theorem countedInputs_defined
    (count : Binary64) (key : JsString) (value : Unknown)
    (found : (countedInputs count).get key = some value) :
    value.isUndefined = false := by
  have member : (key, value) ∈ [(jsText "count", Unknown.tree (.number (.finite count))),
      (jsText "token", Unknown.tree (.string (jsText "k")))] :=
    (OrderedMap.mem_entries_iff _ key value).mpr found
  obtain same | later := List.mem_cons.mp member
  · cases same
    rfl
  · cases List.mem_singleton.mp later
    rfl

theorem countedWorkflow_parsed :
    ∀ input ∈ countedWorkflow.inputs, input.Parsed fun _ _ => true := by
  intro input member
  have noDefault : input.default = none := by
    obtain rfl | rfl : _ ∨ _ := by simpa [countedWorkflow] using member
    · rfl
    · rfl
  exact ⟨fun _ => noDefault, fun value isDefault => by rw [noDefault] at isDefault; cases isDefault⟩

theorem resume_identity_counted :
    ∃ record, roundTrip (maskInputs (countedInputs .zero) (secretNames countedWorkflow)) =
        some record ∧
      verifyResumeIdentity (fun _ _ => true) noObjects countedWorkflow record .cloud
        (some (.ofMap (countedInputs .zero))) none =
          .ok { inputs := countedInputs .zero, executionMode := .cloud } := by
  have distinct : (countedWorkflow.inputs.map WorkflowInput.name).Nodup := by decide
  obtain ⟨record, recorded, resumes⟩ :=
    (resume_identity (fun _ _ => true) noObjects distinct countedWorkflow_parsed).1
      (countedInputs .zero) (countedInputs .zero) .cloud none
      (countedInputs_defined .zero) rfl (.inl rfl)
  refine ⟨record, recorded, (resumes.mpr ?_).1⟩
  intro input member value isGiven
  obtain rfl | rfl : _ ∨ _ := by simpa [countedWorkflow] using member
  · cases isGiven
    rfl
  · cases isGiven
    rfl

/-- `-0`. -/
def negativeZero : Binary64 :=
  { Binary64.zero with negative := true }

/-- A run that was admitted with the negative zero is not resumed by the map that
started it. -/
theorem negative_zero_not_resumed :
    resolveAndValidateWorkflowInputs (fun _ _ => true) countedWorkflow
        (some (.ofMap (countedInputs negativeZero))) .admission =
      .ok (countedInputs negativeZero) ∧
    ∃ record,
      roundTrip (maskInputs (countedInputs negativeZero) (secretNames countedWorkflow)) =
        some record ∧
      verifyResumeIdentity (fun _ _ => true) noObjects countedWorkflow record .cloud
        (some (.ofMap (countedInputs negativeZero))) none =
          .error {
            code := .inputMismatch
            message := named (jsText "count")
              (jsText "the supplied value is not the one this run was admitted with") } := by
  refine ⟨rfl, _, roundTrip_maskInputs fun entry member => ?_, rfl⟩
  obtain same | later := List.mem_cons.mp member
  · cases same
    exact .number negativeZero
  · cases List.mem_singleton.mp later
    exact .string _

end Relavium.Run
