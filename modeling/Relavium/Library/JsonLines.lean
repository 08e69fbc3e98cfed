import Relavium.Library.JsonNesting
import Relavium.Library.JsonReading
import Relavium.Library.Utf8Stream

/-!
# Values on lines of their own

A log of JSON texts, each on a line of its own, that is appended to as bytes and read
back as text.  The text of an object that reached the log is a line that parses to
its reading; what is left of one that was cut short, after whatever byte, is a line
that parses to nothing.
-/

namespace Relavium.Library

/-! ## Well-formed texts -/

theorem WellFormedUtf16.append
    {first second : JsString} (earlier : WellFormedUtf16 first) (later : WellFormedUtf16 second) :
    WellFormedUtf16 (first ++ second) := by
  induction earlier with
  | nil => exact later
  | unit plain _ ih => exact .unit plain ih
  | pair leads trails _ ih => exact .pair leads trails ih

theorem WellFormedUtf16.of_plain
    {text : JsString} (plain : ∀ unit ∈ text, isSurrogate unit = false) :
    WellFormedUtf16 text := by
  induction text with
  | nil => exact .nil
  | cons unit rest ih =>
    exact .unit (plain unit List.mem_cons_self)
      (ih fun other isRest => plain other (List.mem_cons_of_mem _ isRest))

/-- A text that survives encoding, without control characters. -/
structure Sendable (text : JsString) : Prop where
  wellFormed : WellFormedUtf16 text
  visible : ∀ unit ∈ text, 0x20 ≤ unit.toNat

namespace Sendable

theorem append {first second : JsString} (earlier : Sendable first) (later : Sendable second) :
    Sendable (first ++ second) where
  wellFormed := earlier.wellFormed.append later.wellFormed
  visible unit isUnit := by
    obtain isFirst | isSecond := List.mem_append.mp isUnit
    · exact earlier.visible unit isFirst
    · exact later.visible unit isSecond

theorem of_ascii {text : JsString} (ascii : ∀ unit ∈ text, 0x20 ≤ unit.toNat ∧ unit.toNat < 127) :
    Sendable text where
  wellFormed := .of_plain fun unit isUnit => by
    have small := (ascii unit isUnit).2
    simp only [isSurrogate, decide_eq_false_iff_not]
    omega
  visible unit isUnit := (ascii unit isUnit).1

theorem hexUnit {digit : Nat} (small : digit < 16) :
    0x20 ≤ (JsonString.hexUnit digit).toNat ∧ (JsonString.hexUnit digit).toNat < 127 := by
  have table : ∀ digit < 16,
      0x20 ≤ (JsonString.hexUnit digit).toNat ∧ (JsonString.hexUnit digit).toNat < 127 := by
    decide
  exact table digit small

theorem unicodeEscape (unit : UInt16) : Sendable (JsonString.unicodeEscape unit) := by
  have small : unit.toNat < 65536 := unit.toNat_lt
  refine of_ascii fun other isUnit => ?_
  simp only [JsonString.unicodeEscape, List.mem_cons, List.not_mem_nil, or_false] at isUnit
  obtain rfl | rfl | rfl | rfl | rfl | rfl := isUnit
  · decide
  · decide
  · exact hexUnit (by omega)
  · exact hexUnit (by omega)
  · exact hexUnit (by omega)
  · exact hexUnit (by omega)

theorem writeUnit {unit : UInt16} (plain : isSurrogate unit = false) :
    Sendable (JsonString.writeUnit unit) := by
  unfold JsonString.writeUnit
  cases short : JsonString.shortEscape unit with
  | some letter =>
    refine of_ascii fun other isUnit => ?_
    have ascii : 0x20 ≤ letter.toNat ∧ letter.toNat < 127 := by
      unfold JsonString.shortEscape at short
      split_ifs at short <;> obtain rfl := Option.some.inj short <;> decide
    obtain rfl | rfl : other = 0x5C ∨ other = letter := by simpa using isUnit
    · decide
    · exact ascii
  | none =>
    dsimp only
    split
    · exact unicodeEscape unit
    · next printable => exact ⟨.unit plain .nil, by simpa using printable⟩

/-- The text between the quotation marks of any string. -/
theorem writeBody (text : JsString) : Sendable (JsonString.writeBody text) := by
  induction text using JsonString.writeBody.induct with
  | case1 => exact ⟨.nil, by simp [JsonString.writeBody]⟩
  | case2 unit leads =>
    rw [JsonString.writeBody.eq_def]
    simp only [leads, if_true]
    exact unicodeEscape unit
  | case3 unit leads trail later trails ih =>
    have leadRange := of_decide_eq_true leads
    have trailRange := of_decide_eq_true trails
    rw [JsonString.writeBody.eq_def]
    simp only [leads, trails, if_true]
    refine ⟨.pair leads trails ih.wellFormed, fun other isUnit => ?_⟩
    obtain rfl | isRest := List.mem_cons.mp isUnit
    · omega
    · obtain rfl | isLater := List.mem_cons.mp isRest
      · omega
      · exact ih.visible other isLater
  | case4 unit leads trail later alone ih =>
    rw [JsonString.writeBody.eq_def]
    simp only [leads, alone, Bool.false_eq_true, if_true, if_false]
    exact (unicodeEscape unit).append ih
  | case5 unit later notLead trails ih =>
    rw [JsonString.writeBody.eq_def]
    simp only [notLead, trails, Bool.false_eq_true, if_true, if_false]
    exact (unicodeEscape unit).append ih
  | case6 unit later notLead notTrail ih =>
    have plain : isSurrogate unit = false := by
      simp only [isLeadSurrogate, isTrailSurrogate, decide_eq_true_eq] at notLead notTrail
      simp only [isSurrogate, decide_eq_false_iff_not]
      omega
    rw [JsonString.writeBody.eq_def]
    simp only [notLead, notTrail, Bool.false_eq_true, if_false]
    exact (writeUnit plain).append ih

end Sendable

/-- Everything that `JSON.stringify` writes can be sent. -/
theorem textClosed_sendable : JsonText.TextClosed Sendable where
  append _ _ earlier later := earlier.append later
  ascii unit visible small := .of_ascii fun other isUnit => by
    obtain rfl := List.mem_singleton.mp isUnit
    exact ⟨visible, small⟩
  quote text := by
    have mark : Sendable [0x22] := .of_ascii (by decide)
    exact mark.append ((Sendable.writeBody text).append mark)

theorem Sendable.escapeUnits
    {chosen : UInt16 → Bool} (plainChosen : ∀ unit, chosen unit = true → isSurrogate unit = false)
    {text : JsString} (sendable : Sendable text) :
    Sendable (JsonParse.escapeUnits chosen text) := by
  obtain ⟨wellFormed, visible⟩ := sendable
  have surrogateStays : ∀ {unit : UInt16} (rest : JsString), isSurrogate unit = true →
      JsonParse.escapeUnits chosen (unit :: rest) =
        unit :: JsonParse.escapeUnits chosen rest := by
    intro unit rest surrogate
    refine JsonParse.escapeUnits_cons_of_not_chosen ?_ rest
    by_contra isChosen
    rw [plainChosen unit (by simpa using isChosen)] at surrogate
    exact absurd surrogate (by decide)
  induction wellFormed with
  | nil => exact ⟨.nil, visible⟩
  | @unit unit rest plain _ ih =>
    have later := ih fun other isRest =>
      visible other (List.mem_cons_of_mem _ isRest)
    cases isChosen : chosen unit with
    | true =>
      have split : JsonParse.escapeUnits chosen (unit :: rest) =
          JsonString.unicodeEscape unit ++ JsonParse.escapeUnits chosen rest := by
        rw [JsonParse.escapeUnits, List.flatMap_cons, JsonParse.escapeUnit, if_pos isChosen]
        rfl
      rw [split]
      exact (Sendable.unicodeEscape unit).append later
    | false =>
      rw [JsonParse.escapeUnits_cons_of_not_chosen isChosen]
      have alone : Sendable [unit] := ⟨.unit plain .nil, by
        simpa using visible unit List.mem_cons_self⟩
      exact alone.append later
  | @pair lead trail rest leads trails _ ih =>
    have leadRange := of_decide_eq_true leads
    have trailRange := of_decide_eq_true trails
    have later := ih fun other isRest =>
      visible other (List.mem_cons_of_mem _ (List.mem_cons_of_mem _ isRest))
    rw [surrogateStays _ (by simp only [isSurrogate, decide_eq_true_eq]; omega),
      surrogateStays _ (by simp only [isSurrogate, decide_eq_true_eq]; omega)]
    refine ⟨.pair leads trails later.wellFormed, fun other isUnit => ?_⟩
    obtain rfl | isRest := List.mem_cons.mp isUnit
    · omega
    · obtain rfl | isLater := List.mem_cons.mp isRest
      · omega
      · exact later.visible other isLater

/-! ## Lines of bytes -/

/-- The lines of a file, read as text and split at its line feeds. -/
def linesOf (bytes : List UInt8) : List JsString :=
  (decodeUtf8 bytes).splitOn 0x0A

theorem linesOf_nil : linesOf [] = [[]] := rfl

/-- A line feed separates lines, whatever the bytes before it were. -/
theorem linesOf_append (before after : List UInt8) :
    linesOf (before ++ 0x0A :: after) = linesOf before ++ linesOf after := by
  unfold linesOf
  rw [decodeUtf8_lineFeed, List.splitOn_append_cons_self]

theorem Sendable.lineFeed_not_mem {text : JsString} (sendable : Sendable text) :
    (0x0A : UInt16) ∉ text :=
  fun isUnit => absurd (sendable.visible _ isUnit) (by decide)

/-- A sendable text is one line. -/
theorem linesOf_encodeUtf8 {text : JsString} (sendable : Sendable text) :
    linesOf (encodeUtf8 text) = [text] := by
  rw [linesOf, decodeUtf8_encodeUtf8 sendable.wellFormed,
    List.splitOn_eq_singleton sendable.lineFeed_not_mem]

/-- A sendable text cut short is one line, cut short. -/
theorem linesOf_take
    {text : JsString} (sendable : Sendable text) {count : Nat}
    (short : count < (encodeUtf8 text).length) :
    ∃ part, linesOf ((encodeUtf8 text).take count) = [part] ∧ CutShort text part := by
  have cut := cutShort_decodeUtf8 sendable.wellFormed short
  refine ⟨_, List.splitOn_eq_singleton ?_, cut⟩
  generalize decodeUtf8 ((encodeUtf8 text).take count) = part at cut
  cases cut with
  | between starts _ => exact fun isUnit => sendable.lineFeed_not_mem (starts.subset isUnit)
  | inside starts _ =>
    intro isUnit
    obtain isPart | isMark := List.mem_append.mp isUnit
    · exact sendable.lineFeed_not_mem (starts.subset isPart)
    · exact absurd (List.mem_singleton.mp isMark) (by decide)

/-- An object cut short does not parse. -/
theorem parse_of_cutShort
    {text part : JsString} (isObject : JsonParse.ObjectText text) (cut : CutShort text part) :
    JsonParse.parse part = none := by
  cases cut with
  | between starts short => exact JsonParse.parse_cut isObject starts short
  | @inside part starts short =>
    cases part with
    | nil => rfl
    | cons first part =>
      obtain ⟨inner, rfl⟩ := isObject.braces
      obtain ⟨rfl, -⟩ := List.cons_prefix_cons.mp starts
      exact JsonParse.parse_brace_append_ne (by decide) (by decide)

end Relavium.Library
