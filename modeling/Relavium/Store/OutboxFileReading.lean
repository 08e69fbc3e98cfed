import Relavium.Store.OutboxFile

/-!
# What the outbox file holds

Every call leaves the lines before it as they were.  A line whose text reached the
file is read as the event that was put or as the tombstone of its run, and what is
left of a line that was cut short is passed over.  So the entry of a run is the event
of the last put for it whose text reached the file, unless such a tombstone came
later.
-/

namespace Relavium.Store

open Library
open Shared
open JsValue (reading ExoticJson)

variable {host : OutboxHost}

/-! ## One line -/

theorem jsonDisplayUnsafe_beyond (unit : UInt16) (isUnsafe : jsonDisplayUnsafe unit = true) :
    127 ≤ unit.toNat ∧ isSurrogate unit = false := by
  simp only [jsonDisplayUnsafe, Bool.or_eq_true, decide_eq_true_eq] at isUnsafe
  simp only [isSurrogate, decide_eq_false_iff_not]
  omega

/-- The line of an object. -/
structure ObjectLine (host : OutboxHost) (value : JsValue)
    (line : JsString) : Prop where
  sendable : Sendable line
  isObject : JsonParse.ObjectText line
  parses : JsonParse.parse line = some (reading host.exotic value)

variable
  {line : JsString}

/-- A written line is the text of one object. -/
theorem objectLine_of_stringifyJsonLine
    {properties : List (JsString × JsValue)} (distinct : (JsValue.object properties).DistinctKeys)
    (written : stringifyJsonLine host (.object properties) = some line) :
    ObjectLine host (.object properties) line := by
  have defined : (JsValue.object properties).isUndefined = false := rfl
  rw [stringifyJsonLine, defined] at written
  obtain ⟨text, writtenText, rfl⟩ := Option.map_eq_some_iff.mp written
  have parses : JsonParse.parse (JsonParse.escapeUnits jsonDisplayUnsafe text) =
      some (reading host.exotic (.object properties)) :=
    JsonParse.parse_escapeUnits (fun unit isUnsafe => (jsonDisplayUnsafe_beyond unit isUnsafe).1)
      (JsonText.parse_of_write host.exoticJson distinct (by simp) writtenText)
  refine ⟨?_, ⟨⟨_, parses⟩, ?_⟩, parses⟩
  · exact (textClosed_sendable.write _
      (JsonText.write_plain host.exoticJson _ writtenText)).escapeUnits
        fun unit isUnsafe => (jsonDisplayUnsafe_beyond unit isUnsafe).2
  · rw [JsonText.write] at writtenText
    obtain ⟨texts, -, rfl⟩ := Option.map_eq_some_iff.mp writtenText
    refine ⟨JsonParse.escapeUnits jsonDisplayUnsafe (JsonParse.joinTexts texts), ?_⟩
    rw [JsonParse.escapeUnits_cons_of_not_chosen (by decide), JsonParse.escapeUnits_append]
    rfl

variable
  {call : OutboxCall host}

/-- The line of a call is the text of its value. -/
theorem objectLine_of_call (written : call.line = some line) :
    ObjectLine host call.value line := by
  cases call with
  | put event =>
    obtain ⟨fields, properties, taken, isTaken⟩ := event.isTerminal.taken
    have distinct := event.isTerminal.distinct
    unfold OutboxCall.line OutboxCall.value at written
    unfold OutboxCall.value
    dsimp only at written ⊢
    rw [isTaken.isObject] at written distinct ⊢
    exact objectLine_of_stringifyJsonLine distinct written
  | remove runId =>
    refine objectLine_of_stringifyJsonLine ?_ written
    exact .object (by simp) fun property isProperty => by
      obtain rfl := List.mem_singleton.mp isProperty
      exact .string runId

/-- What a call does to the entries, once its text is in the file. -/
def OutboxCall.effect (call : OutboxCall host)
    (held : OrderedMap JsString JsValue) : OrderedMap JsString JsValue :=
  match call with
  | .put event =>
    match runIdOf event.value with
    | some runId => held.set runId (reading host.exotic event.parsed)
    | none => held
  | .remove runId => held.delete runId

/-- A text between braces is not blank. -/
theorem trim_object_ne_nil (isObject : JsonParse.ObjectText line) :
    JsText.trim line ≠ [] := by
  obtain ⟨inner, rfl⟩ := isObject.braces
  have opening : JsText.isWhiteSpace 0x7B = false := by decide
  simp [JsText.trim, opening]

/-- Reading the line of a call has the call's effect. -/
theorem readEntry_line (written : call.line = some line) (held : OrderedMap JsString JsValue) :
    readEntry host held line = call.effect held := by
  have objectLine := objectLine_of_call written
  unfold readEntry
  rw [if_neg (trim_object_ne_nil objectLine.isObject), objectLine.parses]
  cases call with
  | put event =>
    have schema := event.isTerminal.runEventSchema_reading host.exoticJson
    obtain ⟨runId, belongs, -⟩ := event.isTerminal.exists_runId
    have readRun := event.isTerminal.runIdOf_reading host.exoticJson belongs
    simp only [OutboxCall.value, OutboxCall.effect, event.notTombstone, schema, readRun, belongs]
  | remove runId =>
    have isTombstone : reading host.exotic (.object [(tombstoneKey, .string runId)]) =
        .object [(tombstoneKey, .string runId)] :=
      JsValue.reading_of_isData (.object fun property isProperty => by
        obtain rfl := List.mem_singleton.mp isProperty
        exact .string runId)
    have removed : tombstoneRunId (.object [(tombstoneKey, .string runId)]) = some runId := by
      simp [tombstoneRunId, JsValue.field, propertyOf, OrderedMap.lookupEntry]
    simp only [OutboxCall.value, OutboxCall.effect, isTombstone, removed]

/-- A line cut short is skipped. -/
theorem readEntry_cut
    {line part : JsString} (isObject : JsonParse.ObjectText line) (cut : CutShort line part)
    (held : OrderedMap JsString JsValue) :
    readEntry host held part = held := by
  unfold readEntry
  rw [parse_of_cutShort isObject cut]
  split <;> rfl

/-! ## One append -/

/-- The entries of a file are folded from its lines. -/
theorem readEntries_eq (file : Option (List UInt8)) :
    readEntries host file = (linesOf (file.getD [])).foldl (readEntry host) .empty := by
  cases file with
  | none | some bytes => rfl

/-- The JSON text of an append reached the file completely. -/
def OutboxAppend.Complete (append : OutboxAppend host) : Prop :=
  ∃ line, append.call.line = some line ∧
    (append.reach = .whole ∨
      ∃ count, append.reach = .cut count ∧ 1 + (encodeUtf8 line).length ≤ count)

/-- The bytes of a line that were appended, as far as they reached the file. -/
theorem readEntries_lineBytes
    (written : call.line = some line) (before : List UInt8) (count : Nat) :
    readEntries host (some (before ++ (lineBytes line).take count)) =
      if 1 + (encodeUtf8 line).length ≤ count then
        call.effect (readEntries host (some before))
      else readEntries host (some before) := by
  have objectLine := objectLine_of_call written
  rw [readEntries_eq, readEntries_eq]
  simp only [Option.getD_some]
  cases count with
  | zero => simp
  | succ count =>
    rw [lineBytes, List.take_succ_cons, linesOf_append, List.foldl_append]
    generalize (linesOf before).foldl (readEntry host) .empty = held
    by_cases short : count < (encodeUtf8 line).length
    · obtain ⟨part, isPart, cut⟩ := linesOf_take objectLine.sendable short
      rw [List.take_append_of_le_length (Nat.le_of_lt short), isPart, if_neg (by omega)]
      exact readEntry_cut objectLine.isObject cut held
    · rw [if_pos (by omega)]
      by_cases exactly : count = (encodeUtf8 line).length
      · rw [exactly, List.take_left, linesOf_encodeUtf8 objectLine.sendable]
        exact readEntry_line written held
      · rw [List.take_of_length_le (by
            simp only [List.length_append, List.length_cons, List.length_nil]
            omega),
          linesOf_append, linesOf_encodeUtf8 objectLine.sendable]
        exact readEntry_line written held

/-- A whole line is read after what stood before it. -/
theorem readEntries_wholeLine (written : call.line = some line) (before : List UInt8) :
    readEntries host (some (before ++ lineBytes line)) =
      call.effect (readEntries host (some before)) := by
  have taken := readEntries_lineBytes written before (lineBytes line).length
  rw [List.take_length, if_pos (by simp [lineBytes]; omega)] at taken
  exact taken

/-- An append has its effect when complete, and none otherwise. -/
theorem readEntries_appendFile
    {append : OutboxAppend host} (written : append.call.line = some line)
    (file : Option (List UInt8)) :
    (append.Complete →
      readEntries host (appendFile file (lineBytes line) append.reach) =
        append.call.effect (readEntries host file)) ∧
    (¬append.Complete →
      readEntries host (appendFile file (lineBytes line) append.reach) =
        readEntries host file) := by
  have opened : readEntries host (some (file.getD [])) = readEntries host file := by
    rw [readEntries_eq, readEntries_eq, Option.getD_some]
  cases reach : append.reach with
  | whole =>
    have complete : append.Complete := ⟨line, written, .inl reach⟩
    refine ⟨fun _ => ?_, fun incomplete => absurd complete incomplete⟩
    rw [appendFile, readEntries_wholeLine written, opened]
  | cut count =>
    have complete : append.Complete ↔ 1 + (encodeUtf8 line).length ≤ count := by
      simp [OutboxAppend.Complete, written, reach]
    rw [complete, appendFile, readEntries_lineBytes written, opened]
    exact ⟨fun enough => if_pos enough, fun short => if_neg short⟩
  | never =>
    have incomplete : ¬append.Complete := by
      simp [OutboxAppend.Complete, reach]
    exact ⟨fun complete => absurd complete incomplete, fun _ => rfl⟩

/-- The same of a call, which writes nothing when it throws. -/
theorem readEntries_perform (file : Option (List UInt8)) (append : OutboxAppend host) :
    (append.Complete →
      readEntries host (append.perform file) =
        append.call.effect (readEntries host file)) ∧
    (¬append.Complete →
      readEntries host (append.perform file) = readEntries host file) := by
  by_cases skipped : ∃ runId, append.call = .remove runId ∧ file = none
  · obtain ⟨runId, isRemove, rfl⟩ := skipped
    have untouched : append.perform none = none := by
      unfold OutboxAppend.perform
      simp only [isRemove]
    rw [untouched, isRemove]
    exact ⟨fun _ => rfl, fun _ => rfl⟩
  · have performed : append.perform file =
        append.call.line.elim file
          fun line => appendFile file (lineBytes line) append.reach := by
      unfold OutboxAppend.perform
      split
      · next runId isRemove => exact absurd ⟨runId, isRemove, rfl⟩ skipped
      · cases append.call.line <;> rfl
    rw [performed]
    cases written : append.call.line with
    | none =>
      have incomplete : ¬append.Complete := by
        simp [OutboxAppend.Complete, written]
      exact ⟨fun complete => absurd complete incomplete, fun _ => rfl⟩
    | some line => exact readEntries_appendFile written file

end Relavium.Store
