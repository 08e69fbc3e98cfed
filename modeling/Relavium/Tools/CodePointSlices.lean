import Relavium.Library.CodePoints
import Relavium.Tools.ResultBounding

/-!
# Slices of whole code points

Model of `sliceToBytes` of `packages/core/src/tools/bounding.ts`: the longest part of
a text from its head, or up to its tail, that has no more than a number of bytes and
splits no code point.
-/

namespace Relavium.Tools

open Library

/-- `codePointAt`: the code point of a pair, or a code unit on its own. -/
def codePointAt (text : JsString) (index : Nat) : Option Nat :=
  match text[index]? with
  | none => none
  | some lead =>
    match text[index + 1]? with
    | some trail =>
      if isLeadSurrogate lead && isTrailSurrogate trail then
        some ((lead.toNat - 0xD800) * 0x400 + (trail.toNat - 0xDC00) + 0x10000)
      else some lead.toNat
    | none => some lead.toNat

/-- `codePointBytes`. -/
def codePointBytes (codePoint : Nat) : Nat :=
  if codePoint < 0x80 then 1
  else if codePoint < 0x800 then 2
  else if codePoint < 0x10000 then 3
  else 4

/-- The loop of `sliceHeadToBytes`, from an index on and with the bytes before it. -/
def headStop (text : JsString)
    (maxBytes bytes index : Nat) : Nat :=
  if index < text.length then
    match codePointAt text index with
    | none => index
    | some codePoint =>
      let width := codePointBytes codePoint
      if bytes + width > maxBytes then index
      else headStop text maxBytes (bytes + width) (index + if codePoint > 0xFFFF then 2 else 1)
  else index
termination_by text.length - index
decreasing_by split <;> omega

/-- `sliceHeadToBytes`. -/
def sliceHeadToBytes (text : JsString) (maxBytes : Nat) : JsString :=
  text.take (headStop text maxBytes 0 0)

/-- `codePointStartBefore`. -/
def codePointStartBefore (text : JsString) (stop : Nat) : Nat :=
  let start := stop - 1
  if text[start]?.any isTrailSurrogate ∧ start > 0 then
    if text[start - 1]?.any isLeadSurrogate then start - 1 else start
  else start

/-- The loop of `sliceTailToBytes`, up to an index and with the bytes behind it. -/
def tailStart (text : JsString)
    (maxBytes bytes index : Nat) : Nat :=
  if index > 0 then
    let start := codePointStartBefore text index
    match codePointAt text start with
    | none => index
    | some codePoint =>
      let width := codePointBytes codePoint
      if bytes + width > maxBytes then index
      else tailStart text maxBytes (bytes + width) start
  else index
termination_by index
decreasing_by
  rw [codePointStartBefore]
  split
  · split <;> omega
  · omega

/-- `sliceTailToBytes`. -/
def sliceTailToBytes (text : JsString) (maxBytes : Nat) : JsString :=
  text.drop (tailStart text maxBytes 0 text.length)

/-- `sliceToBytes`. -/
def sliceToBytes (text : JsString) (maxBytes : Nat)
    (fromEnd : Bool) : JsString :=
  if maxBytes = 0 then []
  else if fromEnd then sliceTailToBytes text maxBytes
  else sliceHeadToBytes text maxBytes

/-! ## Bytes of a text and of its parts -/

theorem utf8ByteLength_cons {unit : UInt16} {rest : JsString} (seam : Seam [unit] rest) :
    utf8ByteLength (unit :: rest) = codePointBytes unit.toNat + utf8ByteLength rest := by
  have small : unit.toNat < 0x10000 := unit.toNat_lt
  rw [utf8ByteLength.eq_def, codePointBytes]
  simp only [small, if_true]
  split
  · rfl
  · split
    · rfl
    · split
      · rename_i leads
        cases rest with
        | nil => rfl
        | cons next later => simp only [seam.not_pair leads, Bool.false_eq_true, if_false]
      · rfl

theorem utf8ByteLength_pair
    {lead trail : UInt16} {rest : JsString} (leads : isLeadSurrogate lead = true)
    (trails : isTrailSurrogate trail = true) :
    utf8ByteLength (lead :: trail :: rest) = 4 + utf8ByteLength rest := by
  have bounds := leads
  simp only [isLeadSurrogate, decide_eq_true_eq] at bounds
  rw [utf8ByteLength, if_neg (by omega), if_neg (by omega), if_pos leads, if_pos trails]

/-- The first code point of a text is a unit on its own or a pair. -/
theorem seam_or_pair (unit : UInt16) (rest : JsString) :
    Seam [unit] rest ∨
      ∃ trail later, rest = trail :: later ∧
        isLeadSurrogate unit = true ∧ isTrailSurrogate trail = true := by
  by_cases pair : PairAt (unit :: rest) 0
  · obtain ⟨leads, trails⟩ := pair
    cases rest with
    | nil => cases trails
    | cons trail later => exact .inr ⟨trail, later, rfl, by simpa using leads, by simpa using trails⟩
  · left
    intro index same
    obtain rfl : index = 0 := by simpa using same
    exact pair

theorem utf8ByteLength_append {left right : JsString} (seam : Seam left right) :
    utf8ByteLength (left ++ right) = utf8ByteLength left + utf8ByteLength right := by
  induction isLength : left.length using Nat.strongRecOn generalizing left with
  | ind length ih =>
    cases left with
    | nil => simp [utf8ByteLength]
    | cons unit rest =>
      obtain alone | ⟨trail, later, rfl, leads, trails⟩ := seam_or_pair unit rest
      · have aloneBefore : Seam [unit] (rest ++ right) := by
          intro index same
          obtain rfl : index = 0 := by simpa using same
          cases rest with
          | nil => exact seam 0 rfl
          | cons next others =>
            have := alone 0 rfl
            simpa [PairAt] using this
        have isRest := ih rest.length (by rw [← isLength, List.length_cons]; omega) seam.tail rfl
        rw [List.cons_append, utf8ByteLength_cons aloneBefore, utf8ByteLength_cons alone,
          isRest, Nat.add_assoc]
      · have isLater := ih later.length
          (by rw [← isLength, List.length_cons, List.length_cons]; omega) seam.tail.tail rfl
        rw [List.cons_append, List.cons_append, utf8ByteLength_pair leads trails,
          utf8ByteLength_pair leads trails, isLater, Nat.add_assoc]

variable
  {text : JsString}
  {position : Nat}

/-- The bytes in front of a whole cut and those behind it. -/
theorem utf8ByteLength_take_drop
    (within : position ≤ text.length) (whole : WholeAt text position) :
    utf8ByteLength text =
      utf8ByteLength (text.take position) + utf8ByteLength (text.drop position) := by
  conv_lhs => rw [← List.take_append_drop position text]
  exact utf8ByteLength_append (seam_take_drop within whole)

/-! ## One code point -/

/-- The end of the code point that starts at a position. -/
def codePointEnd (text : JsString) (position : Nat) : Nat :=
  if PairAt text position then position + 2 else position + 1

theorem codePointEnd_le (less : position < text.length) :
    codePointEnd text position ≤ text.length := by
  rw [codePointEnd]
  split
  · rename_i pair
    obtain ⟨unit, isUnit, -⟩ := (Option.any_eq_true _ _).mp pair.2
    exact (List.getElem?_eq_some_iff.mp isUnit).1
  · exact less

theorem wholeAt_codePointEnd {position : Nat} :
    WholeAt text (codePointEnd text position) := by
  rintro index same
  rw [codePointEnd] at same
  split at same
  · rename_i pair
    obtain rfl : index = position + 1 := by omega
    exact pair.next
  · rename_i noPair
    obtain rfl : index = position := by omega
    exact noPair

theorem codePointEnd_le_of_wholeAt
    {position later : Nat} (whole : WholeAt text later) (less : position < later) :
    codePointEnd text position ≤ later := by
  rw [codePointEnd]
  split
  · rename_i pair
    have different : position + 1 ≠ later := fun same => whole position same pair
    omega
  · exact less

/-- The code point at a position: how many units it takes, and its bytes. -/
theorem codePointAt_spec (less : position < text.length) :
    ∃ codePoint, codePointAt text position = some codePoint ∧
      (position + if codePoint > 0xFFFF then 2 else 1) = codePointEnd text position ∧
      utf8ByteLength (text.drop position) =
        codePointBytes codePoint +
          utf8ByteLength (text.drop (codePointEnd text position)) := by
  have isRest := List.drop_eq_getElem_cons less
  generalize isUnit : text[position] = unit at isRest
  have unitThere : text[position]? = some unit := by
    rw [List.getElem?_eq_getElem less, isUnit]
  have small : unit.toNat < 0x10000 := unit.toNat_lt
  by_cases pair : PairAt text position
  · obtain ⟨trail, trailThere, trails⟩ := (Option.any_eq_true _ _).mp pair.2
    have leads : isLeadSurrogate unit = true := by
      have := pair.1
      rwa [unitThere, Option.any_some] at this
    have isLater := JsText.drop_eq_cons trailThere
    have isEnd : codePointEnd text position = position + 2 := if_pos pair
    refine ⟨(unit.toNat - 0xD800) * 0x400 + (trail.toNat - 0xDC00) + 0x10000, ?_, ?_, ?_⟩
    · simp only [codePointAt, unitThere, trailThere, leads, trails, Bool.and_self, if_true]
    · rw [isEnd, if_pos (by omega)]
    · rw [isRest, isLater, utf8ByteLength_pair leads trails, isEnd, codePointBytes,
        if_neg (by omega), if_neg (by omega), if_neg (by omega)]
  · have isEnd : codePointEnd text position = position + 1 := if_neg pair
    have alone : Seam [unit] (text.drop (position + 1)) := by
      intro index same
      obtain rfl : index = 0 := by simpa using same
      rw [List.singleton_append, ← isRest, PairAt, List.getElem?_drop, List.getElem?_drop]
      exact pair
    refine ⟨unit.toNat, ?_, ?_, ?_⟩
    · rw [codePointAt, unitThere]
      cases trailThere : text[position + 1]? with
      | none => rfl
      | some trail =>
        refine if_neg fun both => pair ?_
        rw [Bool.and_eq_true] at both
        rw [PairAt, unitThere, trailThere]
        exact both
    · rw [isEnd, if_neg (by omega)]
    · rw [isRest, utf8ByteLength_cons alone, isEnd]

theorem utf8ByteLength_take_codePointEnd
    {position codePoint : Nat} (less : position < text.length) (whole : WholeAt text position)
    (isCodePoint : codePointAt text position = some codePoint) :
    utf8ByteLength (text.take (codePointEnd text position)) =
      utf8ByteLength (text.take position) + codePointBytes codePoint := by
  obtain ⟨other, isOther, -, bytes⟩ := codePointAt_spec less
  cases isOther.symm.trans isCodePoint
  have front := utf8ByteLength_take_drop less.le whole
  have back := utf8ByteLength_take_drop (codePointEnd_le less) wholeAt_codePointEnd
  omega

/-- A later whole cut has at least the bytes of an earlier one in front of it. -/
theorem utf8ByteLength_take_mono
    {earlier later : Nat} (whole : WholeAt text earlier) (le : earlier ≤ later) :
    utf8ByteLength (text.take earlier) ≤ utf8ByteLength (text.take later) := by
  obtain beyond | within := Nat.lt_or_ge text.length earlier
  · rw [List.take_of_length_le beyond.le, List.take_of_length_le (by omega)]
  · obtain rfl | less := le.eq_or_lt
    · exact le_rfl
    · have parts := @utf8ByteLength_take_drop (text.take later) earlier
        (by rw [List.length_take]; omega) ((wholeAt_take_iff less).mpr whole)
      rw [List.take_take, Nat.min_eq_left le] at parts
      omega

/-! ## The longest slices -/

/-- The loop ends at the last whole cut with no more than the allowed bytes in front. -/
theorem headStop_spec
    {maxBytes bytes index : Nat} (within : index ≤ text.length) (whole : WholeAt text index)
    (isBytes : bytes = utf8ByteLength (text.take index)) (allowed : bytes ≤ maxBytes) :
    headStop text maxBytes bytes index ≤ text.length ∧
      WholeAt text (headStop text maxBytes bytes index) ∧
      utf8ByteLength (text.take (headStop text maxBytes bytes index)) ≤ maxBytes ∧
      ∀ later, headStop text maxBytes bytes index < later → later ≤ text.length →
        WholeAt text later → maxBytes < utf8ByteLength (text.take later) := by
  fun_induction headStop text maxBytes bytes index with
  | case1 bytes index less none =>
    obtain ⟨codePoint, isCodePoint, -⟩ := codePointAt_spec less
    exact absurd (none.symm.trans isCodePoint) (by simp)
  | case2 bytes index less codePoint isCodePoint width tooMany =>
    refine ⟨within, whole, isBytes ▸ allowed, fun later isLater _ wholeLater => ?_⟩
    have mono := utf8ByteLength_take_mono wholeAt_codePointEnd
      (codePointEnd_le_of_wholeAt wholeLater isLater)
    have isEnd := utf8ByteLength_take_codePointEnd less whole isCodePoint
    omega
  | case3 bytes index less codePoint isCodePoint width enough ih =>
    obtain ⟨other, isOther, isNext, -⟩ := codePointAt_spec less
    cases isOther.symm.trans isCodePoint
    have isEnd := utf8ByteLength_take_codePointEnd less whole isCodePoint
    simp only [dite_eq_ite, isNext] at ih ⊢
    exact ih (codePointEnd_le less) wholeAt_codePointEnd (by omega) (by omega)
  | case4 bytes index atEnd =>
    exact ⟨within, whole, isBytes ▸ allowed, fun later isLater inText _ => by omega⟩

theorem codePointStartBefore_spec
    {stop : Nat} (positive : 0 < stop) (within : stop ≤ text.length) (whole : WholeAt text stop) :
    codePointStartBefore text stop < text.length ∧
      WholeAt text (codePointStartBefore text stop) ∧
      codePointEnd text (codePointStartBefore text stop) = stop := by
  obtain ⟨last, rfl⟩ : ∃ last, stop = last + 1 := ⟨stop - 1, by omega⟩
  have noPair : ¬PairAt text last := whole last rfl
  have isEnd : codePointEnd text last = last + 1 := if_neg noPair
  rw [codePointStartBefore]
  simp only [Nat.add_sub_cancel]
  split
  · rename_i trails
    obtain ⟨index, rfl⟩ : ∃ index, last = index + 1 := ⟨last - 1, by omega⟩
    simp only [Nat.add_sub_cancel]
    split
    · rename_i leads
      have pair : PairAt text index := ⟨leads, trails.1⟩
      refine ⟨by omega, ?_, by rw [codePointEnd, if_pos pair]⟩
      rintro earlier rfl isPair
      exact isPair.next pair
    · rename_i noLead
      refine ⟨by omega, ?_, isEnd⟩
      rintro earlier same isPair
      obtain rfl : earlier = index := by omega
      exact noLead isPair.1
  · rename_i noTrail
    refine ⟨by omega, ?_, isEnd⟩
    rintro earlier rfl isPair
    exact noTrail ⟨isPair.2, Nat.succ_pos earlier⟩

/-- Behind an earlier whole cut are at least the bytes behind a later one. -/
theorem utf8ByteLength_drop_mono
    {earlier later : Nat} (whole : WholeAt text earlier) (wholeLater : WholeAt text later)
    (le : earlier ≤ later) (within : later ≤ text.length) :
    utf8ByteLength (text.drop later) ≤ utf8ByteLength (text.drop earlier) := by
  have front := utf8ByteLength_take_drop (le.trans within) whole
  have back := utf8ByteLength_take_drop within wholeLater
  have mono := utf8ByteLength_take_mono whole le
  omega

/-- The loop ends at the first whole cut with no more than the allowed bytes behind. -/
theorem tailStart_spec
    {maxBytes bytes index : Nat} (within : index ≤ text.length) (whole : WholeAt text index)
    (isBytes : bytes = utf8ByteLength (text.drop index)) (allowed : bytes ≤ maxBytes) :
    tailStart text maxBytes bytes index ≤ text.length ∧
      WholeAt text (tailStart text maxBytes bytes index) ∧
      utf8ByteLength (text.drop (tailStart text maxBytes bytes index)) ≤ maxBytes ∧
      ∀ earlier, earlier < tailStart text maxBytes bytes index →
        WholeAt text earlier → maxBytes < utf8ByteLength (text.drop earlier) := by
  fun_induction tailStart text maxBytes bytes index with
  | case1 bytes index positive start none =>
    obtain ⟨less, -⟩ := codePointStartBefore_spec positive within whole
    obtain ⟨codePoint, isCodePoint, -⟩ := codePointAt_spec less
    exact absurd (none.symm.trans isCodePoint) (by simp)
  | case2 bytes index positive start codePoint isCodePoint width tooMany =>
    obtain ⟨less, wholeStart, isEnd⟩ := codePointStartBefore_spec positive within whole
    obtain ⟨other, isOther, -, isWidth⟩ := codePointAt_spec less
    cases isOther.symm.trans isCodePoint
    rw [isEnd] at isWidth
    refine ⟨within, whole, isBytes ▸ allowed, fun earlier isEarlier wholeEarlier => ?_⟩
    have before : earlier ≤ codePointStartBefore text index := by
      by_contra inside
      have := codePointEnd_le_of_wholeAt wholeEarlier (Nat.lt_of_not_le inside)
      omega
    have mono := utf8ByteLength_drop_mono wholeEarlier wholeStart before less.le
    omega
  | case3 bytes index positive start codePoint isCodePoint width enough ih =>
    obtain ⟨less, wholeStart, isEnd⟩ := codePointStartBefore_spec positive within whole
    obtain ⟨other, isOther, -, isWidth⟩ := codePointAt_spec less
    cases isOther.symm.trans isCodePoint
    rw [isEnd] at isWidth
    have isBehind : bytes + width =
        utf8ByteLength (text.drop (codePointStartBefore text index)) := by
      omega
    exact ih less.le wholeStart isBehind (by omega)
  | case4 bytes index atStart =>
    exact ⟨within, whole, isBytes ▸ allowed, fun earlier isEarlier _ => by omega⟩

/-- A text has at most three bytes for each of its units. -/
theorem utf8ByteLength_le (text : JsString) :
    utf8ByteLength text ≤ 3 * text.length := by
  fun_induction utf8ByteLength text <;> simp only [List.length_cons, List.length_nil] at * <;> omega

/-- A front part of whole code points. -/
def WholeHead (text head : JsString) : Prop :=
  ∃ behind, head ++ behind = text ∧ Seam head behind

/-- An end part of whole code points. -/
def WholeTail (text tail : JsString) : Prop :=
  ∃ front, front ++ tail = text ∧ Seam front tail

/-- The longest front part of whole code points within a number of bytes. -/
structure IsLongestHead (text : JsString) (maxBytes : Nat) (head : JsString) : Prop where
  whole : WholeHead text head
  bytes : utf8ByteLength head ≤ maxBytes
  longest : ∀ other, WholeHead text other →
    utf8ByteLength other ≤ maxBytes → other.length ≤ head.length

/-- The longest end part of whole code points within a number of bytes. -/
structure IsLongestTail (text : JsString) (maxBytes : Nat) (tail : JsString) : Prop where
  whole : WholeTail text tail
  bytes : utf8ByteLength tail ≤ maxBytes
  longest : ∀ other, WholeTail text other →
    utf8ByteLength other ≤ maxBytes → other.length ≤ tail.length

theorem isLongestHead_sliceHeadToBytes (text : JsString) (maxBytes : Nat) :
    IsLongestHead text maxBytes (sliceHeadToBytes text maxBytes) := by
  obtain ⟨within, whole, bytes, longest⟩ :=
    @headStop_spec text maxBytes 0 0 (Nat.zero_le _) (wholeAt_zero text) rfl (Nat.zero_le _)
  refine ⟨⟨_, List.take_append_drop _ text, seam_take_drop within whole⟩, bytes, ?_⟩
  rintro other ⟨rest, rfl, seam⟩ allowed
  rw [sliceHeadToBytes, List.length_take, Nat.min_eq_left within]
  by_contra longer
  have tooMany := longest other.length (by omega)
    (by rw [List.length_append]; exact Nat.le_add_right _ _) seam
  rw [List.take_left'  rfl] at tooMany
  omega

theorem isLongestTail_sliceTailToBytes (text : JsString) (maxBytes : Nat) :
    IsLongestTail text maxBytes (sliceTailToBytes text maxBytes) := by
  obtain ⟨within, whole, bytes, longest⟩ :=
    @tailStart_spec text maxBytes 0 text.length le_rfl (wholeAt_of_length_le le_rfl)
      (by rw [List.drop_length]; rfl) (Nat.zero_le _)
  refine ⟨⟨_, List.take_append_drop _ text, seam_take_drop within whole⟩, bytes, ?_⟩
  rintro other ⟨rest, rfl, seam⟩ allowed
  rw [sliceTailToBytes, List.length_drop]
  by_contra longer
  have isLength : (rest ++ other).length = rest.length + other.length := List.length_append
  have tooMany := longest rest.length (by omega) seam
  rw [List.drop_left' rfl] at tooMany
  omega

theorem utf8ByteLength_eq_zero_iff {text : JsString} :
    utf8ByteLength text = 0 ↔ text = [] := by
  constructor
  · intro isZero
    cases text with
    | nil => rfl
    | cons unit rest =>
      obtain alone | ⟨trail, later, rfl, leads, trails⟩ := seam_or_pair unit rest
      · rw [utf8ByteLength_cons alone, codePointBytes] at isZero
        split at isZero
        · omega
        · split at isZero
          · omega
          · split at isZero <;> omega
      · rw [utf8ByteLength_pair leads trails] at isZero
        omega
  · rintro rfl
    rfl

theorem isLongestHead_sliceToBytes (text : JsString) (maxBytes : Nat) :
    IsLongestHead text maxBytes (sliceToBytes text maxBytes false) := by
  rw [sliceToBytes]
  split
  · rename_i isZero
    refine ⟨⟨text, rfl, wholeAt_zero text⟩, Nat.zero_le _, fun other _ allowed => ?_⟩
    rw [isZero, Nat.le_zero, utf8ByteLength_eq_zero_iff] at allowed
    rw [allowed]
  · exact isLongestHead_sliceHeadToBytes text maxBytes

theorem isLongestTail_sliceToBytes (text : JsString) (maxBytes : Nat) :
    IsLongestTail text maxBytes (sliceToBytes text maxBytes true) := by
  rw [sliceToBytes]
  split
  · rename_i isZero
    refine ⟨⟨text, List.append_nil text, ?_⟩, Nat.zero_le _, fun other _ allowed => ?_⟩
    · exact wholeAt_of_length_le (by rw [List.append_nil])
    · rw [isZero, Nat.le_zero, utf8ByteLength_eq_zero_iff] at allowed
      rw [allowed]
  · exact isLongestTail_sliceTailToBytes text maxBytes

end Relavium.Tools
