import Mathlib.Data.List.Sort
import Relavium.Library.JsText
import Relavium.Library.Spans

/-!
# Masking ranges of a diagnostic

Model of `maskRanges` in `packages/llm/src/scrub-secrets.ts`: the ranges that
the secret rules matched are sorted and swept, with one open range and a cursor
behind it.  Each maximal chain of overlapping ranges becomes one mark, and the
rest of the text is kept.
-/

namespace Relavium.Llm

open Library

/-- `MaskRange`. -/
abbrev MaskRange : Type := Span

/-- `MASKED`. -/
def masked : JsString := jsText "[REDACTED]"

/-- `text.slice(start, stop)`. -/
def slice (text : JsString) (start stop : Nat) : JsString :=
  (text.drop start).take (stop - start)

/-- The comparison the ranges are sorted by. -/
def compareRanges (left right : MaskRange) : Int :=
  if (left.start : Int) - right.start ≠ 0 then left.start - right.start
  else left.stop - right.stop

/-- The sweep: what is written, up to the cursor, and the range still open. -/
structure MaskSweep where
  output : JsString
  cursor : Nat
  opened : Option MaskRange

namespace MaskSweep

def start : MaskSweep where
  output := []
  cursor := 0
  opened := none

/-- The body of the loop. -/
def next (text : JsString) (sweep : MaskSweep)
    (range : MaskRange) : MaskSweep :=
  match sweep.opened with
  | none => { sweep with opened := some range }
  | some opened =>
    if range.start < opened.stop then
      { sweep with
        opened := some { opened with stop := max opened.stop range.stop } }
    else {
      output :=
        sweep.output ++ (slice text sweep.cursor opened.start ++ masked)
      cursor := opened.stop
      opened := some range }

/-- What the loop leaves to be returned. -/
def finish (text : JsString) (sweep : MaskSweep) : JsString :=
  match sweep.opened with
  | none => text
  | some opened =>
    sweep.output ++ slice text sweep.cursor opened.start ++ masked ++ text.drop opened.stop

end MaskSweep

/-- `maskRanges`. -/
def maskRanges (text : JsString) (ranges : List MaskRange) : JsString :=
  let ordered := ranges.insertionSort fun left right =>
    compareRanges left right ≤ 0
  (ordered.foldl (MaskSweep.next text) .start).finish text

theorem compareRanges_le_iff (left right : MaskRange) :
    compareRanges left right ≤ 0 ↔
      left.start < right.start ∨
        left.start = right.start ∧ left.stop ≤ right.stop := by
  unfold compareRanges
  split <;> omega

theorem ordered_insertionSort (ranges : List MaskRange) :
    Sweep.Ordered (ranges.insertionSort fun left right =>
      compareRanges left right ≤ 0) := by
  have total : Std.Total fun left right : MaskRange =>
      compareRanges left right ≤ 0 :=
    ⟨fun left right => by simp only [compareRanges_le_iff]; omega⟩
  have transitive : IsTrans MaskRange fun left right =>
      compareRanges left right ≤ 0 :=
    ⟨fun first second third => by simp only [compareRanges_le_iff]; omega⟩
  refine (List.pairwise_insertionSort _ ranges).imp ?_
  intro left right ordered
  rw [compareRanges_le_iff] at ordered
  omega

/-- With a range open, the rest of the loop writes what the merged ranges leave
of the text. -/
theorem MaskSweep.finish_foldl
    (text : JsString) (rest : List MaskRange) (current : MaskRange) (output : JsString)
    (cursor : Nat) :
    (rest.foldl (MaskSweep.next text)
        { output, cursor, opened := some current }).finish text =
      output ++ replaceSpans masked text cursor (Sweep.merge current rest) := by
  induction rest generalizing current output cursor with
  | nil => simp [MaskSweep.finish, Sweep.merge, replaceSpans, slice]
  | cons range rest ih =>
    rw [List.foldl_cons, Sweep.merge]
    by_cases inside : range.start < current.stop
    · have grown : MaskSweep.next text
          { output, cursor, opened := some current } range =
          { output, cursor, opened := some { current with
              stop := max current.stop range.stop } } :=
        if_pos inside
      rw [grown, ih, if_pos inside]
    · have closed : MaskSweep.next text
          { output, cursor, opened := some current } range =
          { output := output ++ (slice text cursor current.start ++ masked)
            cursor := current.stop
            opened := some range } :=
        if_neg inside
      rw [closed, ih, if_neg inside]
      simp [replaceSpans, slice]

theorem maskRanges_eq (text : JsString) (ranges : List MaskRange) :
    maskRanges text ranges =
      replaceSpans masked text 0
        (Sweep.chains (ranges.insertionSort fun left right =>
          compareRanges left right ≤ 0)) := by
  unfold maskRanges
  cases ranges.insertionSort fun left right => compareRanges left right ≤ 0 with
  | nil => rfl
  | cons first rest =>
    have started : MaskSweep.next text .start first =
        { output := [], cursor := 0, opened := some first } := rfl
    dsimp only
    rw [List.foldl_cons, started, MaskSweep.finish_foldl]
    rfl

/-- Every maximal chain of overlapping ranges is replaced by one mark, and
without the marks the text is what lies outside the ranges, in its order. -/
theorem maskRanges_chains
    (text : JsString) (ranges : List MaskRange)
    (proper : ∀ range ∈ ranges, range.start < range.stop) :
    ∃ chains : List Span,
      chains.Pairwise Span.Before ∧
        (∀ chain, IsMaximalChain ranges chain ↔ chain ∈ chains) ∧
        maskRanges text ranges = replaceSpans masked text 0 chains ∧
        replaceSpans [] text 0 chains = outside ranges text := by
  have sorted := ordered_insertionSort ranges
  have same : ∀ range, range ∈ ranges.insertionSort (fun left right =>
      compareRanges left right ≤ 0) ↔ range ∈ ranges :=
    fun _ => List.mem_insertionSort _
  have sortedProper : ∀ range ∈ ranges.insertionSort (fun left right =>
      compareRanges left right ≤ 0), range.Proper :=
    fun range member => proper range ((same range).mp member)
  refine ⟨_, Sweep.pairwise sorted, ?_, maskRanges_eq text ranges, ?_⟩
  · intro chain
    rw [← isMaximalChain_congr same, Sweep.isMaximalChain_iff sorted sortedProper]
  · rw [replaceSpans_nil text (Sweep.pairwise sorted)
        (fun _ member => (Sweep.woven sorted sortedProper member).1),
      outside_chains sorted sortedProper, outside_congr same]

/-- Three ranges, of which the last two form a chain. -/
theorem maskRanges_chains_two :
    (∃ chains : List Span,
      chains.Pairwise Span.Before ∧
        (∀ chain, IsMaximalChain [⟨2, 4⟩, ⟨5, 6⟩, ⟨1, 3⟩] chain ↔
          chain ∈ chains) ∧
        maskRanges (jsText "abcdefg") [⟨2, 4⟩, ⟨5, 6⟩, ⟨1, 3⟩] =
          replaceSpans masked (jsText "abcdefg") 0 chains ∧
        replaceSpans [] (jsText "abcdefg") 0 chains =
          outside [⟨2, 4⟩, ⟨5, 6⟩, ⟨1, 3⟩] (jsText "abcdefg")) ∧
      maskRanges (jsText "abcdefg") [⟨2, 4⟩, ⟨5, 6⟩, ⟨1, 3⟩] =
        jsText "a[REDACTED]e[REDACTED]g" :=
  ⟨maskRanges_chains _ _ (by decide), by decide⟩

end Relavium.Llm
