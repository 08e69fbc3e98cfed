import Relavium.Library.JsonString

/-!
# Text as bytes

The UTF-8 bytes of a text, and the decoder that turns bytes back into a text one
byte at a time, with a replacement character for every sequence that it cannot take
further.  A byte of ASCII ends whatever came before it, so bytes split at line
feeds decode line by line, and bytes cut off anywhere decode to whole characters
with at most one replacement character after them.
-/

namespace Relavium.Library

/-- U+FFFD. -/
def replacementUnit : UInt16 := 0xFFFD

/-- A code point that is a character. -/
def IsScalar (codePoint : Nat) : Prop :=
  codePoint < 0x110000 ∧ ¬(0xD800 ≤ codePoint ∧ codePoint ≤ 0xDFFF)

/-- The code point of a surrogate pair. -/
def pairCodePoint (lead trail : UInt16) : Nat :=
  0x10000 + (lead.toNat - 0xD800) * 0x400 + (trail.toNat - 0xDC00)

/-- The code units of a code point. -/
def codePointUnits (codePoint : Nat) : JsString :=
  if codePoint < 0x10000 then [UInt16.ofNat codePoint]
  else
    [UInt16.ofNat (0xD800 + (codePoint - 0x10000) / 0x400),
      UInt16.ofNat (0xDC00 + (codePoint - 0x10000) % 0x400)]

/-- The bytes of a code point. -/
def encodeCodePoint (codePoint : Nat) : List UInt8 :=
  if codePoint < 0x80 then [UInt8.ofNat codePoint]
  else if codePoint < 0x800 then
    [UInt8.ofNat (0xC0 + codePoint / 0x40), UInt8.ofNat (0x80 + codePoint % 0x40)]
  else if codePoint < 0x10000 then
    [UInt8.ofNat (0xE0 + codePoint / 0x1000), UInt8.ofNat (0x80 + codePoint / 0x40 % 0x40),
      UInt8.ofNat (0x80 + codePoint % 0x40)]
  else
    [UInt8.ofNat (0xF0 + codePoint / 0x40000), UInt8.ofNat (0x80 + codePoint / 0x1000 % 0x40),
      UInt8.ofNat (0x80 + codePoint / 0x40 % 0x40),
      UInt8.ofNat (0x80 + codePoint % 0x40)]

/-- The bytes of a text; a surrogate on its own becomes the replacement character. -/
def encodeUtf8 : JsString → List UInt8
  | [] => []
  | unit :: rest =>
    if isLeadSurrogate unit then
      match rest with
      | [] => encodeCodePoint replacementUnit.toNat
      | next :: later =>
        if isTrailSurrogate next then
          encodeCodePoint (pairCodePoint unit next) ++ encodeUtf8 later
        else encodeCodePoint replacementUnit.toNat ++ encodeUtf8 (next :: later)
    else if isTrailSurrogate unit then
      encodeCodePoint replacementUnit.toNat ++ encodeUtf8 rest
    else encodeCodePoint unit.toNat ++ encodeUtf8 rest

/-! ## The decoder -/

/-- The bytes that may continue a sequence. -/
structure ByteRange where
  low : Nat
  high : Nat
  continues : 0x80 ≤ low

/-- `80..BF`. -/
def ByteRange.any : ByteRange where
  low := 0x80
  high := 0xBF
  continues := by decide

/-- Where the decoder stands between bytes. -/
inductive Utf8State
  | idle
  /-- So many bytes are missing after the next one, which has to be in the range. -/
  | pending (left codePoint : Nat) (range : ByteRange)

/-- The first byte of a sequence. -/
def startByte (byte : Nat) : JsString × Utf8State :=
  if byte ≤ 0x7F then ([UInt16.ofNat byte], .idle)
  else if 0xC2 ≤ byte ∧ byte ≤ 0xDF then
    ([], .pending 0 (byte - 0xC0) .any)
  else if 0xE0 ≤ byte ∧ byte ≤ 0xEF then
    ([], .pending 1 (byte - 0xE0)
      { low := if byte = 0xE0 then 0xA0 else 0x80
        high := if byte = 0xED then 0x9F else 0xBF
        continues := by split <;> decide })
  else if 0xF0 ≤ byte ∧ byte ≤ 0xF4 then
    ([], .pending 2 (byte - 0xF0)
      { low := if byte = 0xF0 then 0x90 else 0x80
        high := if byte = 0xF4 then 0x8F else 0xBF
        continues := by split <;> decide })
  else ([replacementUnit], .idle)

/-- One byte more: what it completes, and where the decoder stands after it. -/
def Utf8State.next (state : Utf8State)
    (byte : Nat) : JsString × Utf8State :=
  match state with
  | .idle => startByte byte
  | .pending left codePoint range =>
    if range.low ≤ byte ∧ byte ≤ range.high then
      match left with
      | 0 => (codePointUnits (codePoint * 0x40 + (byte - 0x80)), .idle)
      | left + 1 => ([], .pending left (codePoint * 0x40 + (byte - 0x80)) .any)
    else (replacementUnit :: (startByte byte).1, (startByte byte).2)

/-- The text of the rest of a stream. -/
def Utf8State.decode (state : Utf8State) : List UInt8 → JsString
  | [] =>
    match state with
    | .idle => []
    | .pending .. => [replacementUnit]
  | byte :: rest => (state.next byte.toNat).1 ++ (state.next byte.toNat).2.decode rest

/-- `toString('utf8')`. -/
def decodeUtf8 (bytes : List UInt8) : JsString :=
  Utf8State.idle.decode bytes

/-! ## Lines -/

theorem Utf8State.decode_lineFeed (state : Utf8State) (before after : List UInt8) :
    state.decode (before ++ 0x0A :: after) =
      state.decode before ++ 0x0A :: decodeUtf8 after := by
  induction before generalizing state with
  | nil =>
    cases state with
    | idle => rfl
    | pending left codePoint range =>
      have outside : ¬(range.low ≤ 10 ∧ 10 ≤ range.high) := by
        have low := range.continues
        omega
      have fed : (Utf8State.pending left codePoint range).next (0x0A : UInt8).toNat =
          ([replacementUnit, 0x0A], .idle) := if_neg outside
      have stepped : (Utf8State.pending left codePoint range).decode (0x0A :: after) =
          replacementUnit :: 0x0A :: decodeUtf8 after := by
        rw [decode, fed]
        rfl
      rw [List.nil_append, stepped]
      rfl
  | cons byte before ih =>
    rw [List.cons_append, decode, decode, ih, List.append_assoc]

/-- A line feed is never part of a longer sequence. -/
theorem decodeUtf8_lineFeed (before after : List UInt8) :
    decodeUtf8 (before ++ 0x0A :: after) =
      decodeUtf8 before ++ 0x0A :: decodeUtf8 after :=
  Utf8State.decode_lineFeed .idle before after

/-! ## One code point -/

/-- A byte that is given by its number. -/
theorem Utf8State.decode_ofNat
    (state : Utf8State) {value : Nat} (small : value < 256) (rest : List UInt8) :
    state.decode (UInt8.ofNat value :: rest) =
      (state.next value).1 ++ (state.next value).2.decode rest := by
  have same : (UInt8.ofNat value).toNat = value := by simp [Nat.mod_eq_of_lt small]
  rw [decode, same]

theorem Utf8State.next_pending_succ
    {left codePoint tail : Nat} {range : ByteRange} (low : range.low ≤ 0x80 + tail)
    (high : 0x80 + tail ≤ range.high) :
    (Utf8State.pending (left + 1) codePoint range).next (0x80 + tail) =
      ([], .pending left (codePoint * 0x40 + tail) .any) := by
  simp only [next, if_pos (And.intro low high), Nat.add_sub_cancel_left]

theorem Utf8State.next_pending_zero
    {codePoint tail : Nat} {range : ByteRange} (low : range.low ≤ 0x80 + tail)
    (high : 0x80 + tail ≤ range.high) :
    (Utf8State.pending 0 codePoint range).next (0x80 + tail) =
      (codePointUnits (codePoint * 0x40 + tail), .idle) := by
  simp only [next, if_pos (And.intro low high), Nat.add_sub_cancel_left]

/-- Bytes that decode to some units, and to nothing when they are cut short. -/
structure Sequence (bytes : List UInt8)
    (units : JsString) : Prop where
  whole : ∀ rest, decodeUtf8 (bytes ++ rest) = units ++ decodeUtf8 rest
  cut : ∀ count, 0 < count → count < bytes.length →
    decodeUtf8 (bytes.take count) = [replacementUnit]

variable {codePoint : Nat} {text : JsString}

theorem sequence_one (small : codePoint < 0x80) :
    Sequence (encodeCodePoint codePoint) (codePointUnits codePoint) := by
  have bytes : encodeCodePoint codePoint = [UInt8.ofNat codePoint] := if_pos small
  have start : startByte codePoint = (codePointUnits codePoint, .idle) := by
    rw [startByte, if_pos (by omega), codePointUnits, if_pos (by omega)]
  rw [bytes]
  constructor
  · intro rest
    rw [decodeUtf8, List.singleton_append, Utf8State.decode_ofNat _ (by omega)]
    simp only [Utf8State.next, start]
    rfl
  · intro count positive short
    simp at short
    omega

theorem sequence_two (large : 0x80 ≤ codePoint) (small : codePoint < 0x800) :
    Sequence (encodeCodePoint codePoint) (codePointUnits codePoint) := by
  have bytes : encodeCodePoint codePoint =
      [UInt8.ofNat (0xC0 + codePoint / 0x40), UInt8.ofNat (0x80 + codePoint % 0x40)] := by
    rw [encodeCodePoint, if_neg (by omega), if_pos small]
  have start : Utf8State.idle.next (0xC0 + codePoint / 0x40) =
      ([], .pending 0 (codePoint / 0x40) .any) := by
    rw [Utf8State.next, startByte, if_neg (by omega), if_pos (by omega),
      Nat.add_sub_cancel_left]
  have finish := @Utf8State.next_pending_zero (codePoint / 0x40) (codePoint % 0x40) .any
    (by simp [ByteRange.any]) (by simp only [ByteRange.any]; omega)
  have joined : codePoint / 0x40 * 0x40 + codePoint % 0x40 = codePoint := by omega
  rw [joined] at finish
  rw [bytes]
  constructor
  · intro rest
    rw [decodeUtf8, List.cons_append, List.singleton_append,
      Utf8State.decode_ofNat _ (by omega), start, Utf8State.decode_ofNat _ (by omega), finish]
    rfl
  · intro count positive short
    obtain rfl : count = 1 := by simp at short; omega
    simp only [List.take_succ_cons, List.take_zero]
    rw [decodeUtf8, Utf8State.decode_ofNat _ (by omega), start]
    rfl

theorem sequence_three
    (large : 0x800 ≤ codePoint) (small : codePoint < 0x10000)
    (notSurrogate : ¬(0xD800 ≤ codePoint ∧ codePoint ≤ 0xDFFF)) :
    Sequence (encodeCodePoint codePoint) (codePointUnits codePoint) := by
  have bytes : encodeCodePoint codePoint =
      [UInt8.ofNat (0xE0 + codePoint / 0x1000), UInt8.ofNat (0x80 + codePoint / 0x40 % 0x40),
        UInt8.ofNat (0x80 + codePoint % 0x40)] := by
    rw [encodeCodePoint, if_neg (by omega), if_neg (by omega), if_pos small]
  obtain ⟨range, start, low, high⟩ : ∃ range : ByteRange,
      Utf8State.idle.next (0xE0 + codePoint / 0x1000) =
        ([], .pending 1 (codePoint / 0x1000) range) ∧
      range.low ≤ 0x80 + codePoint / 0x40 % 0x40 ∧
      0x80 + codePoint / 0x40 % 0x40 ≤ range.high := by
    refine ⟨_, by rw [Utf8State.next, startByte, if_neg (by omega), if_neg (by omega),
      if_pos (by omega), Nat.add_sub_cancel_left], ?_, ?_⟩
    · dsimp only
      split <;> omega
    · dsimp only
      split <;> omega
  have middle := @Utf8State.next_pending_succ 0 (codePoint / 0x1000) _ range low high
  have finish := @Utf8State.next_pending_zero
    (codePoint / 0x1000 * 0x40 + codePoint / 0x40 % 0x40) (codePoint % 0x40) .any
    (by simp [ByteRange.any]) (by simp only [ByteRange.any]; omega)
  have joined : (codePoint / 0x1000 * 0x40 + codePoint / 0x40 % 0x40) * 0x40 +
      codePoint % 0x40 = codePoint := by omega
  rw [joined] at finish
  rw [bytes]
  constructor
  · intro rest
    rw [decodeUtf8, List.cons_append, List.cons_append, List.singleton_append,
      Utf8State.decode_ofNat _ (by omega), start, Utf8State.decode_ofNat _ (by omega), middle,
      Utf8State.decode_ofNat _ (by omega), finish]
    rfl
  · intro count positive short
    obtain rfl | rfl : count = 1 ∨ count = 2 := by simp at short; omega
    · simp only [List.take_succ_cons, List.take_zero]
      rw [decodeUtf8, Utf8State.decode_ofNat _ (by omega), start]
      rfl
    · simp only [List.take_succ_cons, List.take_zero]
      rw [decodeUtf8, Utf8State.decode_ofNat _ (by omega), start,
        Utf8State.decode_ofNat _ (by omega), middle]
      rfl

theorem sequence_four (large : 0x10000 ≤ codePoint) (small : codePoint < 0x110000) :
    Sequence (encodeCodePoint codePoint) (codePointUnits codePoint) := by
  have bytes : encodeCodePoint codePoint =
      [UInt8.ofNat (0xF0 + codePoint / 0x40000), UInt8.ofNat (0x80 + codePoint / 0x1000 % 0x40),
        UInt8.ofNat (0x80 + codePoint / 0x40 % 0x40),
        UInt8.ofNat (0x80 + codePoint % 0x40)] := by
    rw [encodeCodePoint, if_neg (by omega), if_neg (by omega), if_neg (by omega)]
  obtain ⟨range, start, low, high⟩ : ∃ range : ByteRange,
      Utf8State.idle.next (0xF0 + codePoint / 0x40000) =
        ([], .pending 2 (codePoint / 0x40000) range) ∧
      range.low ≤ 0x80 + codePoint / 0x1000 % 0x40 ∧
      0x80 + codePoint / 0x1000 % 0x40 ≤ range.high := by
    refine ⟨_, by rw [Utf8State.next, startByte, if_neg (by omega), if_neg (by omega),
      if_neg (by omega), if_pos (by omega), Nat.add_sub_cancel_left], ?_, ?_⟩
    · dsimp only
      split <;> omega
    · dsimp only
      split <;> omega
  have second := @Utf8State.next_pending_succ 1 (codePoint / 0x40000) _ range low high
  have third := @Utf8State.next_pending_succ 0
    (codePoint / 0x40000 * 0x40 + codePoint / 0x1000 % 0x40) (codePoint / 0x40 % 0x40) .any
    (by simp [ByteRange.any]) (by simp only [ByteRange.any]; omega)
  have finish := @Utf8State.next_pending_zero
    ((codePoint / 0x40000 * 0x40 + codePoint / 0x1000 % 0x40) * 0x40 +
      codePoint / 0x40 % 0x40) (codePoint % 0x40) .any
    (by simp [ByteRange.any]) (by simp only [ByteRange.any]; omega)
  have joined : ((codePoint / 0x40000 * 0x40 + codePoint / 0x1000 % 0x40) * 0x40 +
      codePoint / 0x40 % 0x40) * 0x40 + codePoint % 0x40 = codePoint := by omega
  rw [joined] at finish
  rw [bytes]
  constructor
  · intro rest
    rw [decodeUtf8, List.cons_append, List.cons_append, List.cons_append,
      List.singleton_append, Utf8State.decode_ofNat _ (by omega), start,
      Utf8State.decode_ofNat _ (by omega), second, Utf8State.decode_ofNat _ (by omega), third,
      Utf8State.decode_ofNat _ (by omega), finish]
    rfl
  · intro count positive short
    obtain rfl | rfl | rfl : count = 1 ∨ count = 2 ∨ count = 3 := by simp at short; omega
    · simp only [List.take_succ_cons, List.take_zero]
      rw [decodeUtf8, Utf8State.decode_ofNat _ (by omega), start]
      rfl
    · simp only [List.take_succ_cons, List.take_zero]
      rw [decodeUtf8, Utf8State.decode_ofNat _ (by omega), start,
        Utf8State.decode_ofNat _ (by omega), second]
      rfl
    · simp only [List.take_succ_cons, List.take_zero]
      rw [decodeUtf8, Utf8State.decode_ofNat _ (by omega), start,
        Utf8State.decode_ofNat _ (by omega), second, Utf8State.decode_ofNat _ (by omega), third]
      rfl

/-- The bytes of a character decode to its units. -/
theorem sequence_encodeCodePoint (scalar : IsScalar codePoint) :
    Sequence (encodeCodePoint codePoint) (codePointUnits codePoint) := by
  by_cases one : codePoint < 0x80
  · exact sequence_one one
  · by_cases two : codePoint < 0x800
    · exact sequence_two (by omega) two
    · by_cases three : codePoint < 0x10000
      · exact sequence_three (by omega) three scalar.2
      · exact sequence_four (by omega) scalar.1

/-! ## Texts -/

/-- The first character of a well-formed text. -/
theorem encodeUtf8_cons {unit : UInt16} (plain : isSurrogate unit = false) (rest : JsString) :
    ∃ codePoint, IsScalar codePoint ∧ codePointUnits codePoint = [unit] ∧
      encodeUtf8 (unit :: rest) = encodeCodePoint codePoint ++ encodeUtf8 rest := by
  have small : unit.toNat < 0x10000 := unit.toNat_lt
  have notSurrogate : ¬(0xD800 ≤ unit.toNat ∧ unit.toNat ≤ 0xDFFF) := by
    simpa [isSurrogate] using plain
  have notLead : isLeadSurrogate unit = false := by
    simp only [isLeadSurrogate, decide_eq_false_iff_not]
    omega
  have notTrail : isTrailSurrogate unit = false := by
    simp only [isTrailSurrogate, decide_eq_false_iff_not]
    omega
  refine ⟨unit.toNat, ⟨by omega, notSurrogate⟩, ?_, ?_⟩
  · rw [codePointUnits, if_pos small]
    simp
  · rw [encodeUtf8.eq_def]
    simp only [notLead, notTrail, Bool.false_eq_true, if_false]

theorem encodeUtf8_pair
    {lead trail : UInt16} (leads : isLeadSurrogate lead = true)
    (trails : isTrailSurrogate trail = true) (rest : JsString) :
    ∃ codePoint, IsScalar codePoint ∧ codePointUnits codePoint = [lead, trail] ∧
      encodeUtf8 (lead :: trail :: rest) = encodeCodePoint codePoint ++ encodeUtf8 rest := by
  have leadRange := of_decide_eq_true leads
  have trailRange := of_decide_eq_true trails
  refine ⟨pairCodePoint lead trail, ⟨?_, ?_⟩, ?_, ?_⟩
  · unfold pairCodePoint
    omega
  · unfold pairCodePoint
    omega
  · have leadBack : 0xD800 + (pairCodePoint lead trail - 0x10000) / 0x400 = lead.toNat := by
      unfold pairCodePoint
      omega
    have trailBack : 0xDC00 + (pairCodePoint lead trail - 0x10000) % 0x400 = trail.toNat := by
      unfold pairCodePoint
      omega
    rw [codePointUnits, if_neg (by unfold pairCodePoint; omega), leadBack, trailBack]
    simp
  · rw [encodeUtf8.eq_def]
    simp only [leads, trails, if_true]

theorem decodeUtf8_encodeUtf8_append (wellFormed : WellFormedUtf16 text) (rest : List UInt8) :
    decodeUtf8 (encodeUtf8 text ++ rest) = text ++ decodeUtf8 rest := by
  induction wellFormed with
  | nil => rfl
  | @unit unit later plain _ ih =>
    obtain ⟨codePoint, scalar, units, bytes⟩ := encodeUtf8_cons plain later
    rw [bytes, List.append_assoc, (sequence_encodeCodePoint scalar).whole, units, ih]
    rfl
  | @pair lead trail later leads trails _ ih =>
    obtain ⟨codePoint, scalar, units, bytes⟩ := encodeUtf8_pair leads trails later
    rw [bytes, List.append_assoc, (sequence_encodeCodePoint scalar).whole, units, ih]
    rfl

/-- A well-formed text decodes back. -/
theorem decodeUtf8_encodeUtf8 (wellFormed : WellFormedUtf16 text) :
    decodeUtf8 (encodeUtf8 text) = text := by
  have whole := decodeUtf8_encodeUtf8_append wellFormed []
  rwa [List.append_nil, show decodeUtf8 [] = [] from rfl, List.append_nil] at whole

/-- What is left of a text that is cut short: whole characters, and a replacement for
the one the cut went through. -/
inductive CutShort (text : JsString) : JsString → Prop
  | between
      {part : JsString}
      (starts : part <+: text)
      (short : part ≠ text) :
      CutShort text part
  | inside
      {part : JsString}
      (starts : part <+: text)
      (short : part ≠ text) :
      CutShort text (part ++ [replacementUnit])

theorem CutShort.append_left
    {text part : JsString} (cut : CutShort text part) (before : JsString) :
    CutShort (before ++ text) (before ++ part) := by
  cases cut with
  | between starts short =>
    exact .between ((List.prefix_append_right_inj before).mpr starts)
      fun same => short (List.append_cancel_left same)
  | inside starts short =>
    rw [← List.append_assoc]
    exact .inside ((List.prefix_append_right_inj before).mpr starts)
      fun same => short (List.append_cancel_left same)

/-- A cut in the bytes of a character and a text after it. -/
theorem cutShort_codePoint
    {rest : JsString} (scalar : IsScalar codePoint)
    (later : ∀ count, count < (encodeUtf8 rest).length →
      CutShort rest (decodeUtf8 ((encodeUtf8 rest).take count)))
    {count : Nat} (short : count < (encodeCodePoint codePoint ++ encodeUtf8 rest).length) :
    CutShort (codePointUnits codePoint ++ rest)
      (decodeUtf8 ((encodeCodePoint codePoint ++ encodeUtf8 rest).take count)) := by
  have nonempty : codePointUnits codePoint ≠ [] := by
    unfold codePointUnits
    split <;> simp
  have isShort : ([] : JsString) ≠ codePointUnits codePoint ++ rest := by
    intro same
    exact nonempty (List.append_eq_nil_iff.mp same.symm).1
  rw [List.length_append] at short
  by_cases within : count < (encodeCodePoint codePoint).length
  · rw [List.take_append_of_le_length (Nat.le_of_lt within)]
    cases count with
    | zero => exact .between (List.nil_prefix) isShort
    | succ count =>
      rw [(sequence_encodeCodePoint scalar).cut (count + 1) (by omega) within]
      exact .inside (List.nil_prefix) isShort
  · rw [List.take_append, List.take_of_length_le (by omega),
      (sequence_encodeCodePoint scalar).whole]
    exact (later _ (by omega)).append_left _

/-- The bytes of a well-formed text, cut off before the last one. -/
theorem cutShort_decodeUtf8
    (wellFormed : WellFormedUtf16 text) {count : Nat} (short : count < (encodeUtf8 text).length) :
    CutShort text (decodeUtf8 ((encodeUtf8 text).take count)) := by
  induction wellFormed generalizing count with
  | nil => simp [encodeUtf8] at short
  | @unit unit later plain _ ih =>
    obtain ⟨codePoint, scalar, units, bytes⟩ := encodeUtf8_cons plain later
    rw [bytes] at short ⊢
    rw [show unit :: later = codePointUnits codePoint ++ later by rw [units]; rfl]
    exact cutShort_codePoint scalar (fun _ => ih) short
  | @pair lead trail later leads trails _ ih =>
    obtain ⟨codePoint, scalar, units, bytes⟩ := encodeUtf8_pair leads trails later
    rw [bytes] at short ⊢
    rw [show lead :: trail :: later = codePointUnits codePoint ++ later by rw [units]; rfl]
    exact cutShort_codePoint scalar (fun _ => ih) short

end Relavium.Library
