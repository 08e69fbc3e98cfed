import Relavium.Tools.EffectOnce

/-!
# Re-delivery of a committed effect

A dispatch that finds its own committed row does not call the tool again: it
restores what the row records.  That is the outcome of the first dispatch, except
that a result without an output mapping is only recorded as the model saw it.
-/

namespace Relavium.Tools

open Library
open Store

/-! ## What is recorded -/

/-- A result of JSON shape, or none at all. -/
def JsonResult (value : JsValue) : Prop :=
  value = .undefined ∨ value.Serializable

variable
  {value : JsValue}

theorem jsonResult_readSegments (segments : List JsString) (json : JsonResult value) :
    JsonResult (readSegments segments value) := by
  induction segments generalizing value with
  | nil => exact json
  | cons segment rest ih =>
    cases value with
    | object properties =>
      rw [readSegments]
      cases found : OrderedMap.lookupEntry segment properties with
      | none => exact Or.inl rfl
      | some member =>
        refine ih ?_
        cases json.resolve_left (by simp) with
        | object distinct valuesSerializable =>
          have inside := (OrderedMap.lookupEntry_eq_some_iff distinct segment member).mp found
          by_cases undefined : member = .undefined
          · exact Or.inl undefined
          · exact Or.inr (valuesSerializable _ inside undefined)
    | _ => exact Or.inl rfl

theorem jsonResult_readPath (json : JsonResult value) (path : JsString) :
    JsonResult (readPath value path) := by
  unfold readPath
  split
  · exact json
  · exact jsonResult_readSegments _ json

theorem serializable_mappedOutput
    (json : JsonResult value) (mapping : OrderedMap JsString JsString) :
    (mappedOutput value mapping).Serializable := by
  unfold mappedOutput
  refine .object ?_ fun property member defined => ?_
  · rw [List.map_map]
    exact mapping.nodupKeys.sublist (List.filter_sublist.map Prod.fst)
  · obtain ⟨entry, _, rfl⟩ := List.mem_map.mp member
    exact (jsonResult_readPath json entry.2).resolve_left defined

/-! ## The outcome of the first dispatch -/

section Provenance

variable
  {exoticText : Option JsString}
  {rendering : ResultRendering}
  {calls : DispatchId → DispatchCall}

/-- The outcome that mapping and bounding make of a result. -/
def BoundedOutcome
    (rendering : ResultRendering) (call : DispatchCall) (value : JsValue) (spill : SpillAnswer)
    (outcome : ToolDispatchOutcome) : Prop :=
  ∃ bounded,
    rendering.boundForModel value call.limits spill false = some bounded ∧
      outcome =
        { output := applyOutputMapping value call.outputMapping
          result := bounded.value
          truncated := bounded.truncated
          outputSummary := bounded.summary }

/-- An outcome was made of the result that the tool returned. -/
def Produced
    (rendering : ResultRendering) (calls : DispatchId → DispatchCall) (history : List EffectEvent)
    (id : DispatchId)
    (outcome : ToolDispatchOutcome) : Prop :=
  ∃ value spill,
    .dispatch id (.answer (.returned value false)) ∈ history ∧
      .dispatch id (.bound spill) ∈ history ∧
      BoundedOutcome rendering (calls id) value spill outcome

/-- The row of a dispatch records its outcome. -/
def Recorded
    (exoticText : Option JsString) (calls : DispatchId → DispatchCall) (journal : EffectJournal)
    (id : DispatchId)
    (outcome : ToolDispatchOutcome) : Prop :=
  ∃ row,
    journal.get (calls id).identity = some row ∧
      row.state ≠ .prepared ∧
      row.argsDigest = (calls id).argsDigest ∧
      ∀ text,
        (calls id).identity.ofSession = false →
          JsonText.write exoticText
              (toStoredEnvelope (recordedEnvelope (calls id) outcome)) = some text →
            row.resultJson = some text

/-- The phase carries a result, an outcome or something to replay. -/
def carriesOutcome (phase : DispatchPhase) : Bool :=
  match phase with
  | .answered _ | .settling _ | .returned _ | .replaying _ => true
  | _ => false

/-- How a dispatch comes to have a result, an outcome or something to replay. -/
structure OutcomeMove
    (rendering : ResultRendering) (call : DispatchCall) (state : DispatchState)
    (event : DispatchEvent)
    (next : DispatchState) : Prop where
  answered :
    ∀ output, next.phase = .answered output →
      state.phase = .answered output ∨ event = .answer (.returned output false)
  settling :
    ∀ outcome, next.phase = .settling outcome →
      state.phase = .settling outcome ∨
        ∃ output spill,
          state.phase = .answered output ∧
            event = .bound spill ∧
            BoundedOutcome rendering call output spill outcome
  returned :
    ∀ outcome, next.phase = .returned outcome →
      state.phase = .returned outcome ∨
        (∃ fault, event = .settle fault ∧ state.phase = .settling outcome) ∨
        ∃ envelope, event = .redeliver ∧ state.phase = .replaying envelope
  replaying :
    ∀ envelope, next.phase = .replaying envelope →
      state.phase = .replaying envelope ∨
        state.phase = .approved ∧ event ≠ .start none

section OutcomeMoves

variable
  {call : DispatchCall}
  {journal later : EffectJournal}
  {state next : DispatchState}
  {event : DispatchEvent}

theorem OutcomeMove.of_not_carrying (plain : carriesOutcome next.phase = false) :
    OutcomeMove rendering call state event next := by
  constructor
  · intro output phase
    rw [phase] at plain
    cases plain
  · intro outcome phase
    rw [phase] at plain
    cases plain
  · intro outcome phase
    rw [phase] at plain
    cases plain
  · intro envelope phase
    rw [phase] at plain
    cases plain

theorem applyPrepare_outcome
    (rowId : String) (fault : WriteFault) (approved : state.phase = .approved) :
    OutcomeMove rendering call state (.prepare rowId fault)
      (applyPrepare call rowId fault journal state).2 := by
  unfold applyPrepare
  split
  · exact .of_not_carrying rfl
  split
  · exact .of_not_carrying rfl
  split
  split
  · exact .of_not_carrying rfl
  split
  · exact .of_not_carrying rfl
  · refine ⟨fun _ phase => ?_, fun _ phase => ?_, fun _ phase => ?_,
      fun _ _ => Or.inr ⟨approved, by simp⟩⟩
    · cases phase
    · cases phase
    · cases phase
  · exact .of_not_carrying rfl
  · exact .of_not_carrying rfl

theorem afterAnswer_outcome (answer : TargetAnswer) :
    OutcomeMove rendering call state (.answer answer)
      { state with phase := afterAnswer answer } := by
  cases answer with
  | returned value media =>
    cases media with
    | true => exact .of_not_carrying rfl
    | false =>
      refine ⟨fun output phase => Or.inr ?_, fun _ phase => ?_,
        fun _ phase => ?_, fun _ phase => ?_⟩
      · obtain rfl := DispatchPhase.answered.inj phase
        rfl
      · cases phase
      · cases phase
      · cases phase
  | threw thrown =>
    refine .of_not_carrying ?_
    unfold afterAnswer
    dsimp only
    split
    · rfl
    · rfl

theorem applyBound_outcome
    {output : JsValue} (spill : SpillAnswer) (answered : state.phase = .answered output) :
    OutcomeMove rendering call state (.bound spill)
      (applyBound rendering call output spill state) := by
  unfold applyBound
  split
  · exact .of_not_carrying rfl
  next running =>
    have unaborted : state.aborted = false := Bool.eq_false_iff.mpr running
    rw [unaborted]
    split
    · next bounded bounds =>
      refine ⟨fun _ phase => ?_, fun outcome phase => Or.inr ?_, fun _ phase => ?_,
        fun _ phase => ?_⟩
      · cases phase
      · obtain rfl := DispatchPhase.settling.inj phase
        exact ⟨output, spill, answered, rfl, bounded, bounds, rfl⟩
      · cases phase
      · cases phase
    · exact .of_not_carrying rfl

theorem applySettle_outcome
    {outcome : ToolDispatchOutcome} (fault : WriteFault)
    (settling : state.phase = .settling outcome) :
    OutcomeMove rendering call state (.settle fault)
      (applySettle exoticText call outcome fault journal state).2 := by
  unfold applySettle
  split
  · exact .of_not_carrying rfl
  split
  · exact .of_not_carrying rfl
  split
  · exact .of_not_carrying rfl
  · unfold DispatchState.unlessAborted
    dsimp only
    split
    · exact .of_not_carrying rfl
    · refine ⟨fun _ phase => ?_, fun _ phase => ?_, fun other phase => ?_, fun _ phase => ?_⟩
      · cases phase
      · cases phase
      · obtain rfl := DispatchPhase.returned.inj phase
        exact Or.inr (Or.inl ⟨fault, rfl, settling⟩)
      · cases phase

theorem applyDispatch_outcome
    (taken : applyDispatch exoticText rendering call journal state event = some (later, next)) :
    OutcomeMove rendering call state event next := by
  unfold applyDispatch at taken
  split at taken
  · cases taken
    exact ⟨fun _ => Or.inl, fun _ => Or.inl, fun _ => Or.inl, fun _ => Or.inl⟩
  · split at taken
    · cases taken
      exact .of_not_carrying rfl
    · cases taken
  · cases taken
    split
    · exact .of_not_carrying rfl
    split
    · exact .of_not_carrying rfl
    · exact .of_not_carrying rfl
  · next rowId fault phase =>
    obtain ⟨rfl, rfl⟩ := Prod.mk.inj (Option.some.inj taken)
    exact applyPrepare_outcome rowId fault phase
  · next refused _ =>
    cases taken
    cases refused with
    | none | some thrown => exact .of_not_carrying rfl
  · next envelope phase =>
    cases taken
    unfold applyRedeliver
    split
    · exact .of_not_carrying rfl
    split
    · exact .of_not_carrying rfl
    · refine ⟨fun _ phase => ?_, fun _ phase => ?_, fun _ _ => ?_, fun _ phase => ?_⟩
      · cases phase
      · cases phase
      · exact Or.inr (Or.inr ⟨envelope, rfl, phase⟩)
      · cases phase
  · next answer _ =>
    cases taken
    exact afterAnswer_outcome answer
  · cases taken
    exact .of_not_carrying rfl
  · cases taken
    exact .of_not_carrying rfl
  · next output spill phase =>
    cases taken
    exact applyBound_outcome spill phase
  · next outcome fault phase =>
    obtain ⟨rfl, rfl⟩ := Prod.mk.inj (Option.some.inj taken)
    exact applySettle_outcome fault phase
  · cases taken

end OutcomeMoves

/-- What holds of every dispatch about what it returned and what it recorded. -/
structure ReplayInvariant
    (exoticText : Option JsString) (rendering : ResultRendering)
    (calls : DispatchId → DispatchCall) (history : List EffectEvent)
    (world : EffectWorld) : Prop where
  claimed :
    ∀ id, (world.dispatches id).phase.holdsClaim = true →
      ∃ row,
        world.journal.get (calls id).identity = some row ∧
          row.argsDigest = (calls id).argsDigest
  answered :
    ∀ id output, (world.dispatches id).phase = .answered output →
      .dispatch id (.answer (.returned output false)) ∈ history
  settling :
    ∀ id outcome, (world.dispatches id).phase = .settling outcome →
      Produced rendering calls history id outcome
  returned :
    ∀ id outcome, (world.dispatches id).phase = .returned outcome →
      Produced rendering calls history id outcome ∧
          Recorded exoticText calls world.journal id outcome ∨
        ¬Started history id
  replaying :
    ∀ id envelope, (world.dispatches id).phase = .replaying envelope →
      ¬Started history id

theorem replayInvariant_start (journal : EffectJournal) :
    ReplayInvariant exoticText rendering calls [] (.start journal) where
  claimed _ held := by cases held
  answered _ _ answered := by cases answered
  settling _ _ settling := by cases settling
  returned _ _ returned := by cases returned
  replaying _ _ replaying := by cases replaying

section Steps

variable
  {history : List EffectEvent}
  {world later : EffectWorld}
  {taken : EffectEvent}

variable
  {id : DispatchId}
  {outcome : ToolDispatchOutcome}

theorem Produced.snoc
    (produced : Produced rendering calls history id outcome) (taken : EffectEvent) :
    Produced rendering calls (history ++ [taken]) id outcome := by
  obtain ⟨value, spill, answer, bound, made⟩ := produced
  exact ⟨value, spill, List.mem_append_left _ answer, List.mem_append_left _ bound, made⟩

theorem Recorded.keep
    {journal next : EffectJournal} (recorded : Recorded exoticText calls journal id outcome)
    (keeps : KeepsSettled journal next) :
    Recorded exoticText calls next id outcome := by
  obtain ⟨row, found, past, digest, text⟩ := recorded
  obtain ⟨kept, foundLater, retained⟩ := keeps _ row found past
  obtain rfl | rfl := retained
  · exact ⟨kept, foundLater, past, digest, text⟩
  · exact ⟨_, foundLater, by simp, digest, text⟩

theorem ReplayInvariant.claimed_step
    (invariant : ReplayInvariant exoticText rendering calls history world)
    (effects : EffectInvariant calls history world)
    (step : EffectStep exoticText rendering calls world taken later) (id : DispatchId)
    (held : (later.dispatches id).phase.holdsClaim = true) :
    ∃ row,
      later.journal.get (calls id).identity = some row ∧
        row.argsDigest = (calls id).argsDigest := by
  unfold EffectStep EffectWorld.apply at step
  cases taken with
  | flag identity =>
    cases step
    obtain ⟨row, found, digest⟩ := invariant.claimed id held
    obtain ⟨kept, foundLater, retained⟩ :=
      @get_flagForAttention _ identity _ _ found
    obtain rfl | rfl := retained
    · exact ⟨kept, foundLater, digest⟩
    · exact ⟨_, foundLater, digest⟩
  | dispatch mover event =>
    obtain ⟨⟨journal, next⟩, moved, rfl⟩ := Option.map_eq_some_iff.mp step
    dsimp only at held ⊢
    cases applyDispatch_move moved with
    | start _ claimed _ =>
      refine invariant.claimed id (claims_of_moved (fun _ => ?_) id held)
      rw [claimed]
      rfl
    | unavailable _ dispatching _ =>
      refine invariant.claimed id (claims_of_moved (fun _ => ?_) id held)
      rw [dispatching]
      rfl
    | quiet _ keepsClaim =>
      exact invariant.claimed id (claims_of_moved keepsClaim id held)
    | claim rowId _ absent =>
      obtain ⟨rfl, now⟩ | ⟨_, now⟩ := moved_cases world.dispatches mover next id
      · rw [OrderedMap.get_set_self]
        exact ⟨_, rfl, rfl⟩
      · rw [now] at held
        obtain ⟨row, found, digest⟩ := invariant.claimed id held
        refine ⟨row, ?_, digest⟩
        rw [OrderedMap.get_set_of_ne, found]
        intro same
        rw [same, absent] at found
        cases found
    | release _ releasing isOver =>
      obtain ⟨rfl, now⟩ | ⟨different, now⟩ :=
        moved_cases world.dispatches mover next id
      · rw [now, holdsClaim_of_over isOver] at held
        cases held
      · rw [now] at held
        rw [get_discard_of_ne fun same => different
          (effects.alone mover id (by rw [releasing]; rfl) held same)]
        exact invariant.claimed id held
    | settle _ _ _ holds isOver =>
      obtain ⟨rfl, now⟩ | ⟨different, now⟩ :=
        moved_cases world.dispatches mover next id
      · rw [now, holdsClaim_of_over isOver] at held
        cases held
      · rw [now] at held
        rw [get_settle_of_ne fun same => different (effects.alone mover id holds held same)]
        exact invariant.claimed id held

variable
  {mover : DispatchId}
  {event : DispatchEvent}

theorem not_started_step
    (step : EffectStep exoticText rendering calls world (.dispatch mover event) later)
    (unclaimed : (world.dispatches id).phase ≠ .claimed) (notStarted : ¬Started history id) :
    ¬Started (history ++ [.dispatch mover event]) id := by
  intro started
  obtain earlier | ⟨rfl, rfl⟩ := (started_snoc_iff id).mp started
  · exact notStarted earlier
  · exact unclaimed (claimed_of_start step)

/-- The phase that a move of a dispatch starts from and the one it leads to. -/
theorem outcomeMove_of_step
    (step : EffectStep exoticText rendering calls world (.dispatch mover event) later) :
    OutcomeMove rendering (calls mover) (world.dispatches mover) event
        (later.dispatches mover) ∧
      ∀ other, other ≠ mover → later.dispatches other = world.dispatches other := by
  unfold EffectStep EffectWorld.apply at step
  obtain ⟨⟨journal, next⟩, moved, rfl⟩ := Option.map_eq_some_iff.mp step
  dsimp only
  rw [Function.update_self]
  exact ⟨applyDispatch_outcome moved, fun other different =>
    Function.update_of_ne different _ _⟩

theorem ReplayInvariant.returned_keep
    (invariant : ReplayInvariant exoticText rendering calls history world)
    (step : EffectStep exoticText rendering calls world taken later)
    (returned : (world.dispatches id).phase = .returned outcome) :
    Produced rendering calls (history ++ [taken]) id outcome ∧
        Recorded exoticText calls later.journal id outcome ∨
      ¬Started (history ++ [taken]) id := by
  obtain ⟨produced, recorded⟩ | notStarted := invariant.returned id outcome returned
  · exact Or.inl ⟨produced.snoc taken, recorded.keep (effectStep_keepsSettled step)⟩
  · refine Or.inr ?_
    cases taken with
    | flag identity => simpa [Started] using notStarted
    | dispatch mover event =>
      exact not_started_step step (by rw [returned]; simp) notStarted

theorem ReplayInvariant.returned_settle
    (invariant : ReplayInvariant exoticText rendering calls history world) {fault : WriteFault}
    (step : EffectStep exoticText rendering calls world (.dispatch mover (.settle fault)) later)
    {outcome : ToolDispatchOutcome}
    (settling : (world.dispatches mover).phase = .settling outcome)
    (returned : (later.dispatches mover).phase = .returned outcome) :
    Recorded exoticText calls later.journal mover outcome := by
  obtain ⟨row, update, found, _, written, sameJournal⟩ :=
    settled_of_returned step returned
  obtain ⟨claimedRow, claimedFound, digest⟩ :=
    invariant.claimed mover (by rw [settling]; rfl)
  cases found.symm.trans claimedFound
  rw [sameJournal]
  refine ⟨_, OrderedMap.get_set_self _ _ _, by simp, digest, fun text run text' => ?_⟩
  unfold resultUpdate at written
  rw [run, if_neg (by simp)] at written
  dsimp only at written
  rw [text', Option.map_some] at written
  rw [← Option.some.inj written]

/-- An operator's step moves no dispatch. -/
theorem replayInvariant_flag
    (invariant : ReplayInvariant exoticText rendering calls history world)
    (effects : EffectInvariant calls history world) {identity : EffectIdentity}
    (step : EffectStep exoticText rendering calls world (.flag identity) later) :
    ReplayInvariant exoticText rendering calls (history ++ [.flag identity]) later := by
  have same : later.dispatches = world.dispatches := by
    unfold EffectStep EffectWorld.apply at step
    cases step
    rfl
  refine ⟨invariant.claimed_step effects step, fun id output phase => ?_,
    fun id outcome phase => ?_, fun id outcome phase => ?_,
    fun id envelope phase => ?_⟩
  · rw [same] at phase
    exact List.mem_append_left _ (invariant.answered id output phase)
  · rw [same] at phase
    exact (invariant.settling id outcome phase).snoc _
  · rw [same] at phase
    exact invariant.returned_keep step phase
  · rw [same] at phase
    simpa [Started] using invariant.replaying id envelope phase

theorem replayInvariant_dispatch
    (invariant : ReplayInvariant exoticText rendering calls history world)
    (effects : EffectInvariant calls history world)
    (step : EffectStep exoticText rendering calls world (.dispatch mover event) later) :
    ReplayInvariant exoticText rendering calls (history ++ [.dispatch mover event])
      later := by
  obtain ⟨move, others⟩ := outcomeMove_of_step step
  have atEnd : .dispatch mover event ∈ history ++ [.dispatch mover event] :=
    List.mem_append_right _ List.mem_cons_self
  refine ⟨invariant.claimed_step effects step, fun id output phase => ?_,
    fun id outcome phase => ?_, fun id outcome phase => ?_,
    fun id envelope phase => ?_⟩
  · by_cases moved : id = mover
    · subst moved
      obtain before | rfl := move.answered output phase
      · exact List.mem_append_left _ (invariant.answered id output before)
      · exact atEnd
    · rw [others id moved] at phase
      exact List.mem_append_left _ (invariant.answered id output phase)
  · by_cases moved : id = mover
    · subst moved
      obtain before | ⟨output, spill, answered, rfl, made⟩ :=
        move.settling outcome phase
      · exact (invariant.settling id outcome before).snoc _
      · exact ⟨output, spill,
          List.mem_append_left _ (invariant.answered id output answered), atEnd, made⟩
    · rw [others id moved] at phase
      exact (invariant.settling id outcome phase).snoc _
  · by_cases moved : id = mover
    · subst moved
      obtain before | ⟨fault, rfl, settling⟩ | ⟨envelope, rfl, replaying⟩ :=
        move.returned outcome phase
      · exact invariant.returned_keep step before
      · exact Or.inl ⟨(invariant.settling id outcome settling).snoc _,
          invariant.returned_settle step settling phase⟩
      · exact Or.inr (not_started_step step (by rw [replaying]; simp)
          (invariant.replaying id envelope replaying))
    · rw [others id moved] at phase
      exact invariant.returned_keep step phase
  · by_cases moved : id = mover
    · subst moved
      obtain before | ⟨approved, _⟩ := move.replaying envelope phase
      · exact not_started_step step (by rw [before]; simp)
          (invariant.replaying id envelope before)
      · exact not_started_step step (by rw [approved]; simp)
          (effects.beforeCall id (by rw [approved]; rfl)).1
    · rw [others id moved] at phase
      exact not_started_step step (by rw [phase]; simp)
        (invariant.replaying id envelope phase)

theorem replayInvariant_run {journal : EffectJournal}
    (run : Run (EffectStep exoticText rendering calls) (.start journal) history world) :
    EffectInvariant calls history world ∧
      ReplayInvariant exoticText rendering calls history world := by
  refine run.invariant (fun history world => EffectInvariant calls history world ∧
    ReplayInvariant exoticText rendering calls history world)
    ⟨effectInvariant_start calls journal, replayInvariant_start journal⟩ ?_
  intro _ _ taken _ _ invariants step
  refine ⟨effectInvariant_step invariants.1 step, ?_⟩
  cases taken with
  | flag identity => exact replayInvariant_flag invariants.2 invariants.1 step
  | dispatch mover event =>
    exact replayInvariant_dispatch invariants.2 invariants.1 step

end Steps

end Provenance

/-! ## The second dispatch -/

/-- The replayed outcome is the original one, leaving aside members that are
undefined and the signs of zeros. -/
structure Redelivers (original replayed : ToolDispatchOutcome) : Prop where
  output : replayed.output.kept = original.output.kept
  result : replayed.result.kept = original.result.kept
  truncated : replayed.truncated = original.truncated
  outputSummary : replayed.outputSummary = original.outputSummary

section Redelivery

variable
  {exoticText : Option JsString}
  {rendering : ResultRendering}
  {call : DispatchCall}
  {value : JsValue}
  {spill : SpillAnswer}
  {outcome : ToolDispatchOutcome}

/-- What the model sees of a result, and what becomes of it without a mapping. -/
theorem BoundedOutcome.result_cases (made : BoundedOutcome rendering call value spill outcome) :
    outcome.output = applyOutputMapping value call.outputMapping ∧
      ((rendering.withinLimits value call.limits = true ∧ outcome.result = value) ∨
        rendering.withinLimits value call.limits = false ∧
          outcome.result =
            .string (rendering.truncatedText value call.limits spill)) := by
  obtain ⟨bounded, bounds, rfl⟩ := made
  refine ⟨rfl, ?_⟩
  unfold ResultRendering.boundForModel at bounds
  split at bounds
  · next within =>
    cases bounds
    exact Or.inl ⟨within, rfl⟩
  split at bounds
  · cases bounds
  · next isOver _ =>
    cases bounds
    exact Or.inr ⟨Bool.eq_false_iff.mpr isOver, rfl⟩

theorem BoundedOutcome.storable
    (made : BoundedOutcome rendering call value spill outcome) (json : JsonResult value) :
    (recordedEnvelope call outcome).Storable := by
  obtain ⟨output, result⟩ := made.result_cases
  constructor
  · intro defined
    have shown : (recordedEnvelope call outcome).value = outcome.result := rfl
    rw [shown] at defined ⊢
    obtain ⟨_, same⟩ | ⟨_, text⟩ := result
    · rw [same] at defined ⊢
      exact json.resolve_left defined
    · rw [text]
      exact .string _
  · intro mapped recorded
    cases mapping : call.outputMapping with
    | none => simp [recordedEnvelope, mapping] at recorded
    | some mapping' =>
      have same : outcome.output = mapped := by
        simpa [recordedEnvelope, mapping] using recorded
      rw [← same, output, mapping]
      exact serializable_mappedOutput json mapping'

theorem kept_eq_string_iff (value : JsValue) (text : JsString) :
    value.kept = .string text ↔ value = .string text := by
  cases value with
  | number number => cases number <;> simp [JsValue.kept]
  | _ => simp [JsValue.kept]

/-- A replay is faithful when the node maps its output, or the model saw the whole
result. -/
theorem BoundedOutcome.redelivers_iff (made : BoundedOutcome rendering call value spill outcome) :
    Redelivers outcome (replayedOutcome (recordedEnvelope call outcome).kept) ↔
      call.outputMapping.isSome = true ∨
        rendering.withinLimits value call.limits = true ∨
        value = .string (rendering.truncatedText value call.limits spill) := by
  obtain ⟨output, result⟩ := made.result_cases
  have rest : ∀ same : (replayedOutcome
      (recordedEnvelope call outcome).kept).output.kept = outcome.output.kept,
      Redelivers outcome (replayedOutcome (recordedEnvelope call outcome).kept) :=
    fun same => ⟨same, JsValue.kept_kept _, rfl, rfl⟩
  cases mapping : call.outputMapping with
  | some mapping' =>
    refine iff_of_true (rest ?_) (Or.inl rfl)
    have mapped : (replayedOutcome (recordedEnvelope call outcome).kept).output =
        outcome.output.kept := by
      simp [replayedOutcome, recordedEnvelope, ReplayEnvelope.kept, mapping]
    rw [mapped, JsValue.kept_kept]
  | none =>
    have unmapped : (replayedOutcome (recordedEnvelope call outcome).kept).output =
        outcome.result.kept := by
      simp [replayedOutcome, recordedEnvelope, ReplayEnvelope.kept, mapping]
    rw [mapping] at output
    have whole : outcome.output = value := output
    obtain ⟨within, same⟩ | ⟨isOver, text⟩ := result
    · refine iff_of_true (rest ?_) (Or.inr (Or.inl within))
      rw [unmapped, JsValue.kept_kept, same, whole]
    · constructor
      · intro redelivers
        have sameOutput := redelivers.output
        rw [unmapped, JsValue.kept_kept, text, whole] at sameOutput
        exact Or.inr (Or.inr ((kept_eq_string_iff value _).mp sameOutput.symm))
      · rintro (mapped | within | preview)
        · cases mapped
        · rw [isOver] at within
          cases within
        · refine rest ?_
          rw [unmapped, JsValue.kept_kept, text, whole, ← preview]

variable {calls : DispatchId → DispatchCall}

theorem applyPrepare_replay
    {journal : EffectJournal} {original : DispatchId}
    (recorded : Recorded exoticText calls journal original outcome)
    (storable : (recordedEnvelope (calls original) outcome).Storable)
    (ofRun : (calls original).identity.ofSession = false)
    (committed : (journal.get (calls original).identity).map EffectRow.state = some .committed)
    (sameIdentity : call.identity = (calls original).identity)
    (sameDigest : call.argsDigest = (calls original).argsDigest) (settles : call.unsettled = [])
    (rowId : String) (state : DispatchState) :
    applyPrepare call rowId .none journal state =
      (journal,
        { state with
          phase :=
            .replaying (recordedEnvelope (calls original) outcome).kept }) := by
  obtain ⟨row, found, _, digest, text⟩ := recorded
  obtain ⟨written, writes, parses⟩ :=
    JsonText.parse_write exoticText storable.serializable
  rw [found] at committed
  have replayed : retainedResult call.identity row call.argsDigest =
      some (toStoredEnvelope (recordedEnvelope (calls original) outcome)).kept := by
    unfold retainedResult
    rw [sameIdentity, sameDigest, if_pos ⟨ofRun, Option.some.inj committed, digest⟩,
      text written ofRun writes, Option.bind_some, parses]
  have prepared : journal.prepare call.identity rowId call.tier call.argsDigest =
      (.ok (.replay (toStoredEnvelope (recordedEnvelope (calls original) outcome)).kept),
        journal) := by
    unfold EffectJournal.prepare
    rw [sameIdentity, found, ← sameIdentity]
    dsimp only
    rw [replayed]
  unfold applyPrepare
  rw [if_neg (not_not_intro settles), if_neg (by simp), prepared]
  dsimp only
  rw [if_neg (by simp), asReplayEnvelope_kept storable]

/-- Steps of one dispatch that leave the journal alone, as steps of the world. -/
theorem effectStep_of_applyDispatch
    {world : EffectWorld} {mover : DispatchId} {event : DispatchEvent} {next : DispatchState}
    (moved : applyDispatch exoticText rendering (calls mover) world.journal
      (world.dispatches mover) event = some (world.journal, next)) :
    EffectStep exoticText rendering calls world (.dispatch mover event)
      { world with dispatches := Function.update world.dispatches mover next } := by
  unfold EffectStep EffectWorld.apply
  dsimp only
  rw [moved]
  rfl

/-- A later dispatch of a committed effect does not call the tool again.  It refuses
when the node maps its output now and did not then, or the other way; otherwise it
returns the first outcome exactly when the output was mapped or the model saw the
whole result. -/
theorem effect_replay_redelivers
    {journal : EffectJournal} {history : List EffectEvent} {world : EffectWorld}
    (run : Run (EffectStep exoticText rendering calls) (.start journal) history world)
    {original again : DispatchId} (started : Started history original)
    (completed : (world.dispatches original).phase = .returned outcome)
    (json : ∀ value media,
      .dispatch original (.answer (.returned value media)) ∈ history →
        JsonResult value)
    (ofRun : (calls original).identity.ofSession = false)
    (committed :
      (world.journal.get (calls original).identity).map EffectRow.state = some .committed)
    (sameIdentity : (calls again).identity = (calls original).identity)
    (sameDigest : (calls again).argsDigest = (calls original).argsDigest)
    (settles : (calls again).unsettled = [])
    (approved : (world.dispatches again).phase = .approved)
    (running : (world.dispatches again).aborted = false) (rowId : String) :
    ∃ prepared last,
      EffectStep exoticText rendering calls world
          (.dispatch again (.prepare rowId .none)) prepared ∧
        EffectStep exoticText rendering calls prepared (.dispatch again .redeliver)
          last ∧
        ¬Started (history ++ [.dispatch again (.prepare rowId .none)] ++
          [.dispatch again .redeliver]) again ∧
        ((calls again).outputMapping.isSome ≠
            (calls original).outputMapping.isSome →
          (last.dispatches again).phase = .failed .effectConflict) ∧
        ((calls again).outputMapping = (calls original).outputMapping →
          ∃ value spill replayed,
            .dispatch original (.answer (.returned value false)) ∈ history ∧
              .dispatch original (.bound spill) ∈ history ∧
              (last.dispatches again).phase = .returned replayed ∧
              (Redelivers outcome replayed ↔
                (calls original).outputMapping.isSome = true ∨
                  rendering.withinLimits value (calls original).limits = true ∨
                  value = .string
                    (rendering.truncatedText value (calls original).limits
                      spill))) := by
  obtain ⟨effects, replays⟩ := replayInvariant_run run
  obtain ⟨⟨value, spill, answer, bound, made⟩, recorded⟩ :=
    (replays.returned original outcome completed).resolve_right (absurd started)
  have storable := made.storable (json value false answer)
  have replaying := applyPrepare_replay recorded storable ofRun committed
    sameIdentity sameDigest settles rowId (world.dispatches again)
  set envelope := (recordedEnvelope (calls original) outcome).kept with envelopeIs
  set next : DispatchState :=
    { world.dispatches again with phase := .replaying envelope } with nextIs
  let prepared : EffectWorld :=
    { world with dispatches := Function.update world.dispatches again next }
  have first : EffectStep exoticText rendering calls world
      (.dispatch again (.prepare rowId .none)) prepared := by
    refine effectStep_of_applyDispatch ?_
    unfold applyDispatch
    rw [approved]
    exact congrArg some replaying
  have atReplay : prepared.dispatches again = next := Function.update_self _ _ _
  have second : EffectStep exoticText rendering calls prepared (.dispatch again .redeliver)
      { prepared with
        dispatches := Function.update prepared.dispatches again
          (applyRedeliver (calls again) envelope next) } := by
    refine effectStep_of_applyDispatch ?_
    rw [atReplay]
    rfl
  refine ⟨prepared, _, first, second, ?_, ?_, ?_⟩
  · have fresh := (effects.beforeCall again (by rw [approved]; rfl)).1
    simpa [Started] using fresh
  · intro different
    dsimp only
    rw [Function.update_self]
    unfold applyRedeliver
    rw [if_neg (by simp [nextIs, running]), if_pos]
    · simp [DispatchState.throwing, classifyFailure, nextIs, running]
    · exact different.symm
  · intro sameMapping
    refine ⟨value, spill, replayedOutcome envelope, answer, bound, ?_, made.redelivers_iff⟩
    dsimp only
    rw [Function.update_self]
    unfold applyRedeliver
    rw [if_neg (by simp [nextIs, running]), if_neg]
    rw [sameMapping]
    exact not_not_intro rfl

end Redelivery

section Runs

/-- Dispatches an effect, and confirms a second call under the same identity. -/
def repeatedEvents (value : JsValue) :
    List EffectEvent :=
  [.dispatch 0 (.confirm none), .dispatch 0 (.prepare "a" .none),
    .dispatch 0 (.start none), .dispatch 0 (.answer (.returned value false)),
    .dispatch 0 (.bound .noStore), .dispatch 0 (.settle .none),
    .dispatch 1 (.confirm none)]

theorem effect_replay_redelivers_null :
    ∃ world prepared last outcome,
      Run (EffectStep none nullRendering fun _ => postCall) (.start .empty)
          (repeatedEvents .null) world ∧
        (world.dispatches 0).phase = .returned outcome ∧
        EffectStep none nullRendering (fun _ => postCall) world
            (.dispatch 1 (.prepare "b" .none)) prepared ∧
        EffectStep none nullRendering (fun _ => postCall) prepared
            (.dispatch 1 .redeliver) last ∧
        ∃ replayed,
          (last.dispatches 1).phase = .returned replayed ∧
            Redelivers outcome replayed := by
  have ends :
      ((repeatedEvents .null).foldlM (EffectWorld.apply none nullRendering fun _ => postCall)
        (EffectWorld.start .empty)).map
          (fun (world : EffectWorld) =>
            ((world.dispatches 0).phase, (world.dispatches 1).phase, (world.dispatches 1).aborted,
              (world.journal.get postCall.identity).map EffectRow.state)) =
        some (DispatchPhase.returned ⟨.null, .null, false, jsText "null"⟩,
          DispatchPhase.approved, false, some EffectState.committed) := by
    rfl
  obtain ⟨world, taken, reaches⟩ := Option.map_eq_some_iff.mp ends
  obtain ⟨completed, approved, running, committed⟩ :=
    Prod.mk.inj reaches |>.imp_right fun rest =>
      (Prod.mk.inj rest).imp_right Prod.mk.inj
  have run : Run (EffectStep none nullRendering fun _ => postCall) (.start .empty)
      (repeatedEvents .null) world := .of_foldlM taken
  obtain ⟨prepared, last, first, second, _, _, same⟩ :=
    effect_replay_redelivers run (by simp [Started, repeatedEvents]) completed
      (fun value media answered => by
        have isNull : value = .null ∧ media = false := by
          simpa [repeatedEvents] using answered
        rw [isNull.1]
        exact .inr .null)
      rfl committed rfl rfl rfl approved running "b"
  obtain ⟨value, spill, replayed, answered, _, returned, redelivers⟩ := same rfl
  refine ⟨world, prepared, last, _, run, completed, first, second, replayed, returned,
    redelivers.mpr (.inr (.inl ?_))⟩
  have isNull : value = .null := by
    simpa [repeatedEvents] using answered
  rw [isNull]
  decide

/-- Shows a text as it is, and previews its first seven tenths. -/
def plainRendering : ResultRendering where
  text
    | .string text => text
    | _ => jsText "null"
  omittedBytes _ := 0
  summary
    | .string text => text
    | _ => jsText "null"
  makePreview text limits := text.take (limits.maxBytes * 7 / 10)

/-- A call whose model may see two bytes. -/
def tightCall : DispatchCall :=
  { postCall with limits := ⟨2, 2000⟩ }

/-- The output of a finished dispatch, when it is a text. -/
def outputText : DispatchPhase → Option JsString
  | .returned ⟨.string text, _, _, _⟩ => some text
  | _ => none

theorem returned_of_outputText
    {phase : DispatchPhase} {text : JsString} (spelled : outputText phase = some text) :
    ∃ outcome, phase = .returned outcome ∧ outcome.output = .string text := by
  unfold outputText at spelled
  split at spelled
  · next result truncated summary =>
      cases spelled
      exact ⟨_, rfl, rfl⟩
  · exact absurd spelled nofun

/-- Without a mapping, a result over the bound comes back as its preview. -/
theorem effect_replay_redelivers_clipped :
    ∃ world original replayed,
      Run (EffectStep none plainRendering fun _ => tightCall) (.start .empty)
          (repeatedEvents (.string (jsText "abcd")) ++
            [.dispatch 1 (.prepare "b" .none), .dispatch 1 .redeliver]) world ∧
        (world.dispatches 0).phase = .returned original ∧
        (world.dispatches 1).phase = .returned replayed ∧
        original.output = .string (jsText "abcd") ∧
        ¬Redelivers original replayed := by
  let preview := plainRendering.truncatedText (.string (jsText "abcd")) tightCall.limits .noStore
  have ends :
      ((repeatedEvents (.string (jsText "abcd")) ++
          ([.dispatch 1 (.prepare "b" .none), .dispatch 1 .redeliver] : List EffectEvent)).foldlM
        (EffectWorld.apply none plainRendering fun _ => tightCall)
        (EffectWorld.start .empty)).map
          (fun (world : EffectWorld) =>
            (outputText (world.dispatches 0).phase, outputText (world.dispatches 1).phase)) =
        some (some (jsText "abcd"), some preview) := by
    decide +kernel
  obtain ⟨world, taken, reaches⟩ := Option.map_eq_some_iff.mp ends
  obtain ⟨first, second⟩ := Prod.mk.inj reaches
  obtain ⟨original, completed, full⟩ := returned_of_outputText first
  obtain ⟨replayed, redelivered, clipped⟩ := returned_of_outputText second
  refine ⟨world, original, replayed, .of_foldlM taken, completed, redelivered, full,
    fun same => ?_⟩
  have texts : JsValue.string preview = .string (jsText "abcd") := by
    simpa [full, clipped, JsValue.kept] using same.output
  exact absurd (JsValue.string.inj texts) (by decide)

end Runs

end Relavium.Tools
