import Relavium.Library.DecimalRounding
import Relavium.Library.DoubleInteger
import Relavium.Tools.CodePointSlices

/-!
# The preview of a truncated result

Model of `makePreview` of `packages/core/src/tools/bounding.ts`: the head and the tail
of a text over a ceiling with a line between them.  A window of lines is cut to the
ceiling of lines; a text that only has too many bytes is not.
-/

namespace Relavium.Tools

open Library

/-- `Math.floor(count * 0.7)`, with the double `0.7`. -/
def floorSevenTenths (count : Nat) : Nat :=
  nearestDouble (count * 6305039478318694) / 2 ^ 53

example :
    (Binary64.ofDecimal false 7 (-1)).map (fun number => (number.mantissa, number.exponent)) =
      some (6305039478318694, -53) := by
  decide +kernel

/-- `Math.floor(count * 0.3)`, with the double `0.3`. -/
def floorThreeTenths (count : Nat) : Nat :=
  nearestDouble (count * 5404319552844595) / 2 ^ 54

example :
    (Binary64.ofDecimal false 3 (-1)).map (fun number => (number.mantissa, number.exponent)) =
      some (5404319552844595, -54) := by
  decide +kernel

/-- The line between the head and the tail. -/
def ellipsisLine : JsString := jsText "\n…\n"

/-- Lines with their separators again. -/
def joinLines (lines : List JsString) : JsString :=
  [0x0A].intercalate lines

/-- What the head and the tail are taken from. -/
def previewSources (text : JsString)
    (limits : ToolResultLimits) : JsString × JsString :=
  let lines := text.splitOn 0x0A
  if lines.length > limits.maxLines then
    let headLines := max 1 (floorSevenTenths (limits.maxLines - 1))
    let tailLines := max 1 (limits.maxLines - 1 - headLines)
    (joinLines (lines.take headLines), joinLines (lines.drop (lines.length - tailLines)))
  else
    (text, text)

/-- `makePreview`. -/
def makePreview (text : JsString) (limits : ToolResultLimits) : JsString :=
  let (headSource, tailSource) := previewSources text limits
  let byteBudget := limits.maxBytes
  if limits.maxLines < 3 then sliceToBytes headSource byteBudget false
  else
    let head := sliceToBytes headSource (floorSevenTenths byteBudget) false
    let tail := sliceToBytes tailSource (floorThreeTenths byteBudget) true
    if tail = [] then head else head ++ ellipsisLine ++ tail

/-! ## What a preview is held to -/

/-- A preview that honours both ceilings, made of the text's own parts. -/
structure PreviewHonours (text : JsString) (limits : ToolResultLimits)
    (preview : JsString) : Prop where
  lines : (preview.splitOn 0x0A).length ≤ limits.maxLines
  bytes : utf8ByteLength preview ≤ limits.maxBytes + 5
  shape : preview <+: text ∨
    ∃ head tail, head <+: text ∧ tail <:+ text ∧ preview = head ++ ellipsisLine ++ tail
  /-- It has no unpaired surrogate of its own. -/
  surrogates : WellFormedUtf16 text → WellFormedUtf16 preview

/-- The text leaves room for the three lines of the frame: it is cut to a window of
lines, or no tail is asked for, or no head and tail that fit their shares of the bytes
have too many lines between them. -/
def FrameFits (text : JsString) (limits : ToolResultLimits) : Prop :=
  limits.maxLines < countLines text ∨ limits.maxLines < 3 ∨
    ∀ head tail,
      WholeHead text head → utf8ByteLength head ≤ floorSevenTenths limits.maxBytes →
      WholeTail text tail → utf8ByteLength tail ≤ floorThreeTenths limits.maxBytes →
      tail ≠ [] →
      head.count 0x0A + 3 + tail.count 0x0A ≤ limits.maxLines

/-! ## Shares of the ceilings -/

variable
  {count : Nat}

/-- The shares of the bytes do not exceed the whole. -/
theorem shares_le (safe : count < 2 ^ 53) :
    floorSevenTenths count + floorThreeTenths count ≤ count := by
  have seven := nearestDouble_le (count * 6305039478318694)
  have three := nearestDouble_le (count * 5404319552844595)
  have sevenFloor := Nat.div_mul_le_self (nearestDouble (count * 6305039478318694)) (2 ^ 53)
  have threeFloor := Nat.div_mul_le_self (nearestDouble (count * 5404319552844595)) (2 ^ 54)
  rw [floorSevenTenths, floorThreeTenths]
  omega

theorem floorSevenTenths_le (count : Nat) : floorSevenTenths count ≤ count := by
  have seven := nearestDouble_le (count * 6305039478318694)
  have sevenFloor := Nat.div_mul_le_self (nearestDouble (count * 6305039478318694)) (2 ^ 53)
  rw [floorSevenTenths]
  omega

theorem floorSevenTenths_lt (positive : 0 < count) :
    floorSevenTenths count < count := by
  have seven := nearestDouble_le (count * 6305039478318694)
  have sevenFloor := Nat.div_mul_le_self (nearestDouble (count * 6305039478318694)) (2 ^ 53)
  rw [floorSevenTenths]
  omega

/-! ## Lines of a text -/

theorem length_splitOn {text : JsString} :
    (text.splitOn 0x0A).length = text.count 0x0A + 1 := by
  induction text with
  | nil => rfl
  | cons unit rest ih =>
    rw [List.splitOn_cons_eq_if_modifyHead, List.count_cons]
    split
    · rw [List.length_cons, ih]
    · rw [List.length_modifyHead, ih]

theorem not_mem_of_mem_splitOn {text line : JsString} (member : line ∈ text.splitOn 0x0A) :
    0x0A ∉ line := by
  induction text generalizing line with
  | nil =>
    rw [List.splitOn_nil, List.mem_singleton] at member
    simp [member]
  | cons unit rest ih =>
    rw [List.splitOn_cons_eq_if_modifyHead] at member
    split at member
    · obtain rfl | isLater := List.mem_cons.mp member
      · simp
      · exact ih isLater
    · rename_i different
      cases isSplit : rest.splitOn 0x0A with
      | nil => exact absurd isSplit (List.splitOn_ne_nil _ _)
      | cons first others =>
        rw [isSplit] at ih member
        rw [List.modifyHead_cons] at member
        obtain rfl | isLater := List.mem_cons.mp member
        · rw [List.mem_cons, not_or]
          refine ⟨fun same => different (by simp [← same]), ?_⟩
          exact ih (List.mem_cons_self ..)
        · exact ih (List.mem_cons_of_mem _ isLater)

/-- Lines without a separator in them have the separators between them. -/
theorem count_joinLines
    {lines : List JsString} (nonempty : lines ≠ [])
    (clean : ∀ line ∈ lines, (0x0A : UInt16) ∉ line) :
    (joinLines lines).count 0x0A + 1 = lines.length := by
  have isSplit := List.splitOn_intercalate 0x0A clean nonempty
  rw [joinLines, ← length_splitOn, isSplit]

theorem joinLines_append
    {first second : List JsString} (firstNonempty : first ≠ []) (secondNonempty : second ≠ []) :
    joinLines (first ++ second) = joinLines first ++ 0x0A :: joinLines second := by
  induction first with
  | nil => exact absurd rfl firstNonempty
  | cons line rest ih =>
    cases rest with
    | nil =>
      rw [List.singleton_append, joinLines, List.intercalate_cons_of_ne_nil secondNonempty]
      simp [joinLines]
    | cons next others =>
      have rejoined := ih (List.cons_ne_nil _ _)
      have front : ∀ {lines : List JsString}, lines ≠ [] →
          joinLines (line :: lines) = line ++ [0x0A] ++ joinLines lines :=
        List.intercalate_cons_of_ne_nil
      rw [List.cons_append, front (by simp), rejoined, front (List.cons_ne_nil _ _)]
      simp only [List.append_assoc]

/-! ## The window of lines -/

theorem seam_separator_left (left right : JsString) :
    Seam left (0x0A :: right) := by
  refine wholeAt_of_trail_false fun unit isUnit => ?_
  rw [List.getElem?_append_right le_rfl, Nat.sub_self, List.getElem?_cons_zero] at isUnit
  rw [← Option.some.inj isUnit]
  decide

theorem seam_separator_right (left right : JsString) :
    Seam (left ++ [0x0A]) right := by
  rw [Seam, List.length_append]
  refine wholeAt_succ_of_lead_false fun unit isUnit => ?_
  rw [List.append_assoc, List.getElem?_append_right le_rfl, Nat.sub_self] at isUnit
  rw [← Option.some.inj isUnit]
  decide

variable
  {text : JsString}

theorem take_lines (positive : 0 < count) (less : count < (text.splitOn 0x0A).length) :
    (∃ rest, joinLines ((text.splitOn 0x0A).take count) ++ 0x0A :: rest = text) ∧
      (joinLines ((text.splitOn 0x0A).take count)).count 0x0A + 1 = count := by
  have frontNonempty : (text.splitOn 0x0A).take count ≠ [] := by
    rw [ne_eq, List.take_eq_nil_iff, not_or]
    exact ⟨by omega, List.splitOn_ne_nil _ _⟩
  have backNonempty : (text.splitOn 0x0A).drop count ≠ [] := by
    rw [ne_eq, List.drop_eq_nil_iff]
    omega
  constructor
  · refine ⟨joinLines ((text.splitOn 0x0A).drop count), ?_⟩
    rw [← joinLines_append frontNonempty backNonempty, List.take_append_drop]
    exact List.intercalate_splitOn 0x0A
  · rw [count_joinLines frontNonempty fun line member =>
      not_mem_of_mem_splitOn (List.mem_of_mem_take member), List.length_take]
    omega

theorem drop_lines (positive : 0 < count) (less : count < (text.splitOn 0x0A).length) :
    (∃ front, front ++ [0x0A] ++
        joinLines ((text.splitOn 0x0A).drop ((text.splitOn 0x0A).length - count)) = text) ∧
      (joinLines ((text.splitOn 0x0A).drop
        ((text.splitOn 0x0A).length - count))).count 0x0A + 1 = count := by
  generalize isSkipped : (text.splitOn 0x0A).length - count = skipped
  have frontNonempty : (text.splitOn 0x0A).take skipped ≠ [] := by
    rw [ne_eq, List.take_eq_nil_iff, not_or]
    exact ⟨by omega, List.splitOn_ne_nil _ _⟩
  have backNonempty : (text.splitOn 0x0A).drop skipped ≠ [] := by
    rw [ne_eq, List.drop_eq_nil_iff]
    omega
  constructor
  · refine ⟨joinLines ((text.splitOn 0x0A).take skipped), ?_⟩
    rw [List.append_assoc, List.singleton_append, ← joinLines_append frontNonempty backNonempty,
      List.take_append_drop]
    exact List.intercalate_splitOn 0x0A
  · rw [count_joinLines backNonempty fun line member =>
      not_mem_of_mem_splitOn (List.mem_of_mem_drop member), List.length_drop]
    omega

/-! ## The parts of a preview -/

theorem WholeHead.of_lines
    {text source rest head : JsString} (isText : source ++ 0x0A :: rest = text)
    (whole : WholeHead source head) :
    WholeHead text head := by
  obtain ⟨behind, rfl, seam⟩ := whole
  refine ⟨behind ++ 0x0A :: rest, by rw [← isText, List.append_assoc], ?_⟩
  exact seam.append_right (seam_separator_left _ _)

theorem WholeTail.of_lines
    {text source front tail : JsString} (isText : front ++ [0x0A] ++ source = text)
    (whole : WholeTail source tail) :
    WholeTail text tail := by
  obtain ⟨before, rfl, seam⟩ := whole
  refine ⟨front ++ [0x0A] ++ before, by rw [← isText, List.append_assoc], ?_⟩
  exact seam.append_left (seam_separator_right _ _)

theorem WholeHead.wellFormed
    {text head : JsString} (whole : WholeHead text head) (wellFormed : WellFormedUtf16 text) :
    WellFormedUtf16 head := by
  obtain ⟨behind, rfl, seam⟩ := whole
  exact (seam.wellFormed_iff.mp wellFormed).1

theorem WholeTail.wellFormed
    {text tail : JsString} (whole : WholeTail text tail) (wellFormed : WellFormedUtf16 text) :
    WellFormedUtf16 tail := by
  obtain ⟨front, rfl, seam⟩ := whole
  exact (seam.wellFormed_iff.mp wellFormed).2

variable
  {limits : ToolResultLimits}

theorem previewHonours_head
    {text head : JsString} (whole : WholeHead text head)
    (bytes : utf8ByteLength head ≤ limits.maxBytes)
    (lines : head.count 0x0A + 1 ≤ limits.maxLines) :
    PreviewHonours text limits head where
  lines := length_splitOn.trans_le lines
  bytes := bytes.trans (Nat.le_add_right _ _)
  shape := .inl ⟨whole.choose, whole.choose_spec.1⟩
  surrogates := whole.wellFormed

theorem seams_ellipsisLine (head tail : JsString) :
    Seam (head ++ ellipsisLine) tail ∧ Seam head ellipsisLine := by
  have isLine : ellipsisLine = 0x0A :: [0x2026, 0x0A] := by decide
  rw [isLine]
  refine ⟨?_, seam_separator_left _ _⟩
  have isFront : head ++ 0x0A :: [0x2026, 0x0A] = head ++ [0x0A, 0x2026] ++ [0x0A] := by simp
  rw [isFront]
  exact seam_separator_right _ _

theorem utf8ByteLength_framed (head tail : JsString) :
    utf8ByteLength (head ++ ellipsisLine ++ tail) =
      utf8ByteLength head + 5 + utf8ByteLength tail := by
  have isFive : utf8ByteLength ellipsisLine = 5 := by decide
  obtain ⟨outer, inner⟩ := seams_ellipsisLine head tail
  rw [utf8ByteLength_append outer, utf8ByteLength_append inner, isFive]

theorem length_splitOn_framed (head tail : JsString) :
    ((head ++ ellipsisLine ++ tail).splitOn 0x0A).length =
      head.count 0x0A + 3 + tail.count 0x0A := by
  have isTwo : ellipsisLine.count 0x0A = 2 := by decide
  rw [length_splitOn, List.count_append, List.count_append, isTwo]
  omega

theorem previewHonours_framed
    {text head tail : JsString} (wholeHead : WholeHead text head)
    (wholeTail : WholeTail text tail)
    (bytes : utf8ByteLength head + utf8ByteLength tail ≤ limits.maxBytes)
    (lines : head.count 0x0A + 3 + tail.count 0x0A ≤ limits.maxLines) :
    PreviewHonours text limits (head ++ ellipsisLine ++ tail) where
  lines := (length_splitOn_framed head tail).trans_le lines
  bytes := by
    rw [utf8ByteLength_framed]
    omega
  shape := .inr ⟨head, tail, ⟨wholeHead.choose, wholeHead.choose_spec.1⟩,
    ⟨wholeTail.choose, wholeTail.choose_spec.1⟩, rfl⟩
  surrogates wellFormed := by
    have lineFormed : WellFormedUtf16 ellipsisLine := by
      have isLine : ellipsisLine = [0x0A, 0x2026, 0x0A] := by decide
      rw [isLine]
      exact .unit (by decide) (.unit (by decide) (.unit (by decide) .nil))
    obtain ⟨outer, inner⟩ := seams_ellipsisLine head tail
    exact outer.wellFormed_iff.mpr
      ⟨inner.wellFormed_iff.mpr ⟨wholeHead.wellFormed wellFormed, lineFormed⟩,
        wholeTail.wellFormed wellFormed⟩

theorem parts_le
    {text head tail : JsString} {maxBytes : Nat} (isString : text.length < 2 ^ 50)
    (wholeHead : WholeHead text head)
    (headBytes : utf8ByteLength head ≤ floorSevenTenths maxBytes)
    (wholeTail : WholeTail text tail)
    (tailBytes : utf8ByteLength tail ≤ floorThreeTenths maxBytes) :
    utf8ByteLength head + utf8ByteLength tail ≤ maxBytes := by
  obtain safe | large := Nat.lt_or_ge maxBytes (2 ^ 53)
  · have := shares_le safe
    omega
  · obtain ⟨behind, isText, -⟩ := wholeHead
    obtain ⟨front, isSame, -⟩ := wholeTail
    have headLength := congrArg List.length isText
    have tailLength := congrArg List.length isSame
    rw [List.length_append] at headLength tailLength
    have headSmall := utf8ByteLength_le head
    have tailSmall := utf8ByteLength_le tail
    omega

/-! ## Both ceilings -/

/-- A front part of a front part of a text has no more separators than it. -/
theorem WholeHead.count_le {text head : JsString} (whole : WholeHead text head) :
    head.count 0x0A ≤ text.count 0x0A := by
  obtain ⟨behind, rfl, -⟩ := whole
  exact (List.prefix_append head behind).sublist.count_le _

theorem WholeTail.count_le {text tail : JsString} (whole : WholeTail text tail) :
    tail.count 0x0A ≤ text.count 0x0A := by
  obtain ⟨front, rfl, -⟩ := whole
  exact (List.suffix_append front tail).sublist.count_le _

/-- A text over the ceiling of lines is cut to a window of them. -/
theorem makePreview_honours_of_lines
    (isString : text.length < 2 ^ 50) (someLine : 1 ≤ limits.maxLines)
    (tooMany : limits.maxLines < (text.splitOn 0x0A).length) :
    PreviewHonours text limits (makePreview text limits) := by
  have share := floorSevenTenths_le (limits.maxLines - 1)
  rw [makePreview, previewSources]
  simp only [gt_iff_lt, tooMany, if_true]
  generalize isHeadLines : max 1 (floorSevenTenths (limits.maxLines - 1)) = headLines
  obtain ⟨⟨behind, isText⟩, headCount⟩ :=
    @take_lines headLines text (by omega) (by omega)
  split
  · have longest := isLongestHead_sliceToBytes
      (joinLines ((text.splitOn 0x0A).take headLines)) limits.maxBytes
    have atMost := longest.whole.count_le
    exact previewHonours_head (longest.whole.of_lines isText) longest.bytes (by omega)
  · rename_i threeLines
    have less := @floorSevenTenths_lt (limits.maxLines - 1) (by omega)
    obtain ⟨⟨front, isSame⟩, tailCount⟩ :=
      @drop_lines (max 1 (limits.maxLines - 1 - headLines)) text (by omega) (by omega)
    have head := isLongestHead_sliceToBytes
      (joinLines ((text.splitOn 0x0A).take headLines)) (floorSevenTenths limits.maxBytes)
    have tail := isLongestTail_sliceToBytes
      (joinLines ((text.splitOn 0x0A).drop
        ((text.splitOn 0x0A).length - max 1 (limits.maxLines - 1 - headLines))))
      (floorThreeTenths limits.maxBytes)
    have headAtMost := head.whole.count_le
    have tailAtMost := tail.whole.count_le
    split
    · exact previewHonours_head (head.whole.of_lines isText)
        (head.bytes.trans (floorSevenTenths_le _)) (by omega)
    · exact previewHonours_framed (head.whole.of_lines isText) (tail.whole.of_lines isSame)
        (parts_le isString (head.whole.of_lines isText) head.bytes
          (tail.whole.of_lines isSame) tail.bytes) (by omega)

theorem makePreview_of_bytes (notTooMany : (text.splitOn 0x0A).length ≤ limits.maxLines) :
    makePreview text limits = if limits.maxLines < 3 then sliceToBytes text limits.maxBytes false
      else if sliceToBytes text (floorThreeTenths limits.maxBytes) true = [] then
        sliceToBytes text (floorSevenTenths limits.maxBytes) false
      else
        sliceToBytes text (floorSevenTenths limits.maxBytes) false ++ ellipsisLine ++
          sliceToBytes text (floorThreeTenths limits.maxBytes) true := by
  rw [makePreview, previewSources]
  simp only [gt_iff_lt, Nat.not_lt.mpr notTooMany, if_false]

/-- Of two front parts of a text the shorter one has no more separators. -/
theorem WholeHead.count_le_of_length_le
    {text shorter longer : JsString} (whole : WholeHead text shorter)
    (wholeLonger : WholeHead text longer) (le : shorter.length ≤ longer.length) :
    shorter.count 0x0A ≤ longer.count 0x0A := by
  obtain ⟨behind, isText, -⟩ := whole
  obtain ⟨rest, isSame, -⟩ := wholeLonger
  exact (List.prefix_of_prefix_length_le ⟨behind, isText⟩ ⟨rest, isSame⟩ le).sublist.count_le _

theorem WholeTail.count_le_of_length_le
    {text shorter longer : JsString} (whole : WholeTail text shorter)
    (wholeLonger : WholeTail text longer) (le : shorter.length ≤ longer.length) :
    shorter.count 0x0A ≤ longer.count 0x0A := by
  obtain ⟨front, isText, -⟩ := whole
  obtain ⟨rest, isSame, -⟩ := wholeLonger
  exact (List.suffix_of_suffix_length_le ⟨front, isText⟩ ⟨rest, isSame⟩ le).sublist.count_le _

theorem lt_countLines_iff (someLine : 1 ≤ limits.maxLines) :
    limits.maxLines < countLines text ↔ limits.maxLines < (text.splitOn 0x0A).length := by
  rw [length_splitOn, countLines]
  split
  · rename_i empty
    rw [empty, List.count_nil]
    omega
  · omega

/-- The preview honours both ceilings exactly for the texts that leave room for its
frame; its slices are always the longest ones. -/
theorem makePreview_honours_iff
    {text : JsString} {limits : ToolResultLimits} (isString : text.length < 2 ^ 50)
    (someLine : 1 ≤ limits.maxLines)
    (_exceeds : limits.maxBytes < utf8ByteLength text ∨ limits.maxLines < countLines text) :
    (PreviewHonours text limits (makePreview text limits) ∧
      ∀ budget, IsLongestHead text budget (sliceToBytes text budget false) ∧
        IsLongestTail text budget (sliceToBytes text budget true)) ↔
      FrameFits text limits := by
  have slices : ∀ budget, IsLongestHead text budget (sliceToBytes text budget false) ∧
      IsLongestTail text budget (sliceToBytes text budget true) :=
    fun budget => ⟨isLongestHead_sliceToBytes text budget, isLongestTail_sliceToBytes text budget⟩
  rw [and_iff_left slices, FrameFits, lt_countLines_iff someLine]
  obtain tooMany | notTooMany := Nat.lt_or_ge limits.maxLines (text.splitOn 0x0A).length
  · exact iff_of_true (makePreview_honours_of_lines isString someLine tooMany) (.inl tooMany)
  · rw [makePreview_of_bytes notTooMany]
    obtain ⟨⟨head, headBytes, headLongest⟩, -⟩ := slices (floorSevenTenths limits.maxBytes)
    obtain ⟨-, ⟨tail, tailBytes, tailLongest⟩⟩ := slices (floorThreeTenths limits.maxBytes)
    rw [length_splitOn] at notTooMany
    split
    · rename_i few
      have whole := (slices limits.maxBytes).1
      have atMost := whole.whole.count_le
      exact iff_of_true (previewHonours_head whole.whole whole.bytes (by omega))
        (.inr (.inl few))
    · rename_i notFew
      split
      · rename_i noTail
        have atMost := head.count_le
        refine iff_of_true (previewHonours_head head (headBytes.trans (floorSevenTenths_le _))
          (by omega)) (.inr (.inr fun _ other _ _ whole bytes nonempty => ?_))
        have longer := tailLongest other whole bytes
        rw [noTail, List.length_nil, Nat.le_zero, List.length_eq_zero_iff] at longer
        exact absurd longer nonempty
      · rename_i someTail
        constructor
        · intro honours
          refine .inr (.inr fun otherHead otherTail wholeHead headFits wholeTail tailFits _ => ?_)
          have lines := honours.lines
          rw [length_splitOn_framed] at lines
          have headCount := wholeHead.count_le_of_length_le head
            (headLongest otherHead wholeHead headFits)
          have tailCount := wholeTail.count_le_of_length_le tail
            (tailLongest otherTail wholeTail tailFits)
          omega
        · rintro (tooMany | few | fits)
          · rw [length_splitOn] at tooMany
            omega
          · exact absurd few notFew
          · exact previewHonours_framed head tail
              (parts_le isString head headBytes tail tailBytes)
              (fits _ _ head headBytes tail tailBytes someTail)

/-- Two short lines and a long one. -/
def longThirdLine : JsString :=
  jsText "a\nb\n" ++ List.replicate 100 0x63

/-- Three lines are allowed, and the preview of a text with three lines has five. -/
theorem makePreview_longThirdLine :
    countLines longThirdLine = 3 ∧
      utf8ByteLength longThirdLine = 104 ∧
      makePreview longThirdLine { maxBytes := 20, maxLines := 3 } =
        jsText "a\nb\ncccccccccc\n…\ncccccc" ∧
      ((makePreview longThirdLine { maxBytes := 20, maxLines := 3 }).splitOn 0x0A).length = 5 := by
  refine ⟨by decide +kernel, by decide +kernel, by decide +kernel, by decide +kernel⟩

theorem makePreview_honours_longThirdLine :
    (PreviewHonours longThirdLine { maxBytes := 20, maxLines := 3 }
        (makePreview longThirdLine { maxBytes := 20, maxLines := 3 }) ∧
      ∀ budget,
        IsLongestHead longThirdLine budget (sliceToBytes longThirdLine budget false) ∧
          IsLongestTail longThirdLine budget (sliceToBytes longThirdLine budget true)) ↔
      FrameFits longThirdLine { maxBytes := 20, maxLines := 3 } :=
  @makePreview_honours_iff longThirdLine { maxBytes := 20, maxLines := 3 }
    (by decide +kernel) (by decide) (.inl (by decide +kernel))

end Relavium.Tools
