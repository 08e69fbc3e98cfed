import Relavium.Store.OutboxFileReading

/-!
# What the outbox lists

After any calls of any processes the outbox holds, for each run, the event of the last
put for it whose text reached the file, unless the text of a tombstone of the run
reached it later.  An event comes back as JSON has it.
-/

namespace Relavium.Store

open Library
open Shared
open JsValue (reading)

variable {host : OutboxHost}

/-- The run that a call is for. -/
def OutboxCall.run (call : OutboxCall host) : Option JsString :=
  match call with
  | .put event => runIdOf event.value
  | .remove runId => some runId

/-- What a call leaves as the entry of its run. -/
def OutboxCall.entry (call : OutboxCall host) : Option JsValue :=
  match call with
  | .put event => some (reading host.exotic event.parsed)
  | .remove _ => none

/-- The event of the last put for a run whose text reached the file, where no tombstone
of the run reached it later. -/
def LastPut (history : List (OutboxAppend host)) (runId : JsString)
    (event : TerminalEvent host) : Prop :=
  ∃ before reach after, history = before ++ ⟨.put event, reach⟩ :: after ∧
    runIdOf event.value = some runId ∧
    OutboxAppend.Complete ⟨.put event, reach⟩ ∧
    ∀ append ∈ after, append.call.run = some runId → ¬append.Complete

/-- A call moves the entry of its own run only. -/
theorem get_effect
    (call : OutboxCall host) (held : OrderedMap JsString JsValue) (runId : JsString) :
    (call.effect held).get runId =
      if call.run = some runId then call.entry else held.get runId := by
  cases call with
  | put event =>
    obtain ⟨given, belongs, -⟩ := event.isTerminal.exists_runId
    simp only [OutboxCall.effect, OutboxCall.run, OutboxCall.entry, belongs, Option.some.injEq]
    rw [OrderedMap.get_set]
    by_cases same : runId = given
    · rw [if_pos same, if_pos same.symm]
    · rw [if_neg same, if_neg (Ne.symm same)]
  | remove given =>
    simp only [OutboxCall.effect, OutboxCall.run, OutboxCall.entry, Option.some.injEq]
    rw [OrderedMap.get_delete]
    by_cases same : runId = given
    · rw [if_pos same, if_pos same.symm]
    · rw [if_neg same, if_neg (Ne.symm same)]

/-- An append whose text reached the file settles the entry of its run. -/
theorem lastPut_snoc_of_effective
    {append : OutboxAppend host} {runId : JsString} (run : append.call.run = some runId)
    (complete : append.Complete) (history : List (OutboxAppend host))
    (event : TerminalEvent host) :
    LastPut (history ++ [append]) runId event ↔ append.call = .put event := by
  constructor
  · rintro ⟨before, reach, after, split, -, -, unanswered⟩
    obtain rfl | ⟨rest, last, rfl⟩ := List.eq_nil_or_concat after
    · obtain ⟨-, isAppend⟩ := List.append_inj' split rfl
      obtain rfl := List.singleton_inj.mp isAppend
      rfl
    · rw [List.concat_eq_append, ← List.cons_append, ← List.append_assoc] at split
      obtain ⟨-, isLast⟩ := List.append_inj' split rfl
      obtain rfl := List.singleton_inj.mp isLast
      exact absurd complete (unanswered append (by simp) run)
  · intro isPut
    obtain ⟨call, reach⟩ := append
    obtain rfl := isPut
    exact ⟨history, reach, [], rfl, run, complete, by simp⟩

/-- An append without effect on a run leaves its last put. -/
theorem lastPut_snoc_of_ineffective
    {append : OutboxAppend host} {runId : JsString}
    (ineffective : append.call.run = some runId → ¬append.Complete)
    (history : List (OutboxAppend host)) (event : TerminalEvent host) :
    LastPut (history ++ [append]) runId event ↔ LastPut history runId event := by
  constructor
  · rintro ⟨before, reach, after, split, belongs, complete, unanswered⟩
    obtain rfl | ⟨rest, last, rfl⟩ := List.eq_nil_or_concat after
    · obtain ⟨-, isAppend⟩ := List.append_inj' split rfl
      obtain rfl := List.singleton_inj.mp isAppend
      exact absurd complete (ineffective belongs)
    · rw [List.concat_eq_append, ← List.cons_append, ← List.append_assoc] at split
      obtain ⟨isHistory, -⟩ := List.append_inj' split rfl
      exact ⟨before, reach, rest, isHistory, belongs, complete, fun other isRest =>
        unanswered other (by simp [isRest])⟩
  · rintro ⟨before, reach, after, rfl, belongs, complete, unanswered⟩
    refine ⟨before, reach, after ++ [append], by simp, belongs, complete, ?_⟩
    intro other isOther
    obtain isAfter | isLast := List.mem_append.mp isOther
    · exact unanswered other isAfter
    · obtain rfl := List.mem_singleton.mp isLast
      exact ineffective

/-- The entry of a run is what JSON makes of the event of its last put. -/
theorem get_readEntries_fileAfter
    (history : List (OutboxAppend host)) (runId : JsString) (value : JsValue) :
    (readEntries host (fileAfter history)).get runId = some value ↔
      ∃ event, LastPut history runId event ∧ value = reading host.exotic event.parsed := by
  induction history using List.reverseRecOn with
  | nil => simp [readEntries, LastPut]
  | append_singleton history append ih =>
    obtain ⟨performed, skipped⟩ := readEntries_perform (fileAfter history) append
    rw [fileAfter_snoc]
    by_cases effective : append.call.run = some runId ∧ append.Complete
    · obtain ⟨run, complete⟩ := effective
      rw [performed complete, get_effect, if_pos run]
      simp only [lastPut_snoc_of_effective run complete]
      cases call : append.call with
      | put event =>
        simp only [OutboxCall.entry, OutboxCall.put.injEq, Option.some.injEq, exists_eq_left']
        exact eq_comm
      | remove removed => simp [OutboxCall.entry]
    · have ineffective : append.call.run = some runId → ¬append.Complete :=
        fun run complete => effective ⟨run, complete⟩
      simp only [lastPut_snoc_of_ineffective ineffective]
      rw [← ih]
      by_cases complete : append.Complete
      · rw [performed complete, get_effect, if_neg fun run => ineffective run complete]
      · rw [skipped complete]

/-- Every entry stands under its own run. -/
theorem runIdOf_entry
    {history : List (OutboxAppend host)} {runId : JsString} {value : JsValue}
    (isEntry : (readEntries host (fileAfter history)).get runId = some value) :
    runIdOf value = some runId := by
  obtain ⟨event, ⟨_, _, _, _, belongs, _, _⟩, rfl⟩ :=
    (get_readEntries_fileAfter history runId value).mp isEntry
  exact event.isTerminal.runIdOf_reading host.exoticJson belongs

/-- What the outbox lists after the calls. -/
structure ListsLastPuts
    (history : List (OutboxAppend host)) : Prop where
  /-- Nothing but the last puts, as JSON has them. -/
  mem_iff : ∀ value, value ∈ listOutbox host (fileAfter history) ↔
    ∃ runId event, LastPut history runId event ∧ value = reading host.exotic event.parsed
  /-- An entry of the run that was put for. -/
  ofRun : ∀ runId event, LastPut history runId event →
    runIdOf (reading host.exotic event.parsed) = some runId
  /-- One entry to a run. -/
  single : ((listOutbox host (fileAfter history)).map runIdOf).Nodup
  /-- The event itself, where it is JSON data as its schema has it. -/
  exact : ∀ event : TerminalEvent host, event.value.IsData → event.parsed = event.value →
    reading host.exotic event.parsed = event.value

/-- After any calls of any processes, with any of the appends cut short, the outbox
lists the events of the last puts. -/
theorem list_returns_last_puts (host : OutboxHost) (history : List (OutboxAppend host)) :
    ListsLastPuts history where
  mem_iff value := by
    rw [listOutbox, OrderedMap.mem_values_iff]
    exact exists_congr fun runId => get_readEntries_fileAfter history runId value
  ofRun runId event := by
    rintro ⟨_, _, _, _, belongs, _, _⟩
    exact event.isTerminal.runIdOf_reading host.exoticJson belongs
  single := by
    have sameRuns : (listOutbox host (fileAfter history)).map runIdOf =
        (readEntries host (fileAfter history)).keys.map some := by
      rw [listOutbox, OrderedMap.values, OrderedMap.keys, List.map_map, List.map_map]
      refine List.map_congr_left fun entry isEntry => ?_
      exact runIdOf_entry ((OrderedMap.mem_entries_iff _ entry.1 entry.2).mp isEntry)
    rw [sameRuns]
    exact (readEntries host (fileAfter history)).nodupKeys.map (Option.some_injective _)
  exact event isData asTaken := by
    rw [asTaken, JsValue.reading_of_isData isData]

/-! ## An event that does not come back as it was -/

/-- An outbox whose other run events and classes do not matter. -/
def plainHost : OutboxHost where
  exotic := none
  exoticJson := nofun
  union := { isDatetime := fun _ => true, otherEvents := fun _ => none }

/-- A run that ended with a number that is not one. -/
def notANumberOutput : JsValue :=
  .object
    [(jsText "type", .string (jsText "run:completed")), (jsText "runId", .string (jsText "r")),
      (jsText "timestamp", .string (jsText "t")),
      (jsText "sequenceNumber", .number (.finite .zero)),
      (jsText "outputs", .object [(jsText "ratio", .number .notANumber)]),
      (jsText "totalTokensUsed", .object
        [(jsText "input", .number (.finite .zero)), (jsText "output", .number (.finite .zero))]),
      (jsText "totalCostMicrocents", .number (.finite .zero)),
      (jsText "durationMs", .number (.finite .zero))]

theorem distinctKeys_notANumberOutput : notANumberOutput.DistinctKeys := by
  refine .object (by decide) ?_
  simp only [List.forall_mem_cons, List.not_mem_nil, false_implies, implies_true, and_true]
  refine ⟨.string _, .string _, .string _, .number _, .object (by simp) ?_,
    .object (by decide) ?_, .number _, .number _⟩
  · simp only [List.forall_mem_cons, List.not_mem_nil, false_implies, implies_true, and_true]
    exact .number _
  · simp only [List.forall_mem_cons, List.not_mem_nil, false_implies, implies_true, and_true]
    exact ⟨.number _, .number _⟩

theorem isSome_notANumberOutput :
    (runEventSchema plainHost.union notANumberOutput).isSome = true := by
  decide

/-- The event as it is put. -/
def notANumberEvent : TerminalEvent plainHost where
  value := notANumberOutput
  parsed := (runEventSchema plainHost.union notANumberOutput).get isSome_notANumberOutput
  isTerminal :=
    { ends := ⟨jsText "run:completed", runCompletedFields plainHost.union, rfl, rfl⟩
      valid := (Option.some_get isSome_notANumberOutput).symm
      distinct := distinctKeys_notANumberOutput }
  notTombstone := by decide

/-- Whether the output is not a number. -/
def ratioIsNotANumber (event : JsValue) : Bool :=
  match (event.field (jsText "outputs")).field (jsText "ratio") with
  | .number .notANumber => true
  | _ => false

/-- The event was put and nothing followed, and it is not what the outbox lists. -/
theorem put_event_not_listed :
    LastPut [⟨.put notANumberEvent, .whole⟩] (jsText "r") notANumberEvent ∧
      notANumberEvent.value ∉
        listOutbox plainHost (fileAfter [⟨.put notANumberEvent, .whole⟩]) := by
  have written : (stringifyJsonLine plainHost notANumberOutput).isSome = true := by
    decide
  obtain ⟨line, isLine⟩ := Option.isSome_iff_exists.mp written
  have isLast : ∀ runId event, LastPut [⟨.put notANumberEvent, .whole⟩] runId event →
      event = notANumberEvent := by
    rintro runId event ⟨before, reach, after, split, -, -, -⟩
    have isPut : (⟨.put event, reach⟩ : OutboxAppend plainHost) ∈
        [⟨.put notANumberEvent, .whole⟩] := by
      rw [split]
      simp
    have same := List.mem_singleton.mp isPut
    simp only [OutboxAppend.mk.injEq, OutboxCall.put.injEq] at same
    exact same.1
  refine ⟨⟨[], .whole, [], rfl, by decide, ⟨line, isLine, .inl rfl⟩, by simp⟩, ?_⟩
  rw [listOutbox, OrderedMap.mem_values_iff]
  rintro ⟨runId, isEntry⟩
  obtain ⟨event, last, same⟩ := (get_readEntries_fileAfter _ runId _).mp isEntry
  obtain rfl := isLast runId event last
  have asked : ratioIsNotANumber notANumberEvent.value =
      ratioIsNotANumber (reading plainHost.exotic notANumberEvent.parsed) :=
    congrArg ratioIsNotANumber same
  exact absurd asked (by decide)

end Relavium.Store
