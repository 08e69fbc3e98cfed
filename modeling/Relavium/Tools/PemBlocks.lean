import Mathlib.Data.List.Infix
import Relavium.Library.Pattern
import Relavium.Tools.JoinedView

/-!
# Private-key blocks

Model of `visitPemBlocks` of `packages/core/src/tools/bounding.ts`.  One search for
an END marker serves every BEGIN marker before it.  The blocks that are found are
the matches of one regular expression with a lazy bounded body.
-/

namespace Relavium.Tools

open Library

/-- `PEM_BODY_MAX`. -/
def pemBodyMax : Nat := 20000

/-- Which marker of a block it is. -/
inductive PemEdge
  | opening
  | closing

/-- The word of a marker. -/
def PemEdge.word : PemEdge → JsString
  | .opening => jsText "BEGIN"
  | .closing => jsText "END"

/-- `-----`. -/
def dashes : JsString := jsText "-----"

/-- `[A-Z0-9 ]`. -/
def isLabelUnit (unit : UInt16) : Bool :=
  decide (65 ≤ unit.toNat ∧ unit.toNat ≤ 90) || JsText.isDigit unit || unit = 0x20

/-- `[A-Z0-9\s]`. -/
def isWrappedLabelUnit (unit : UInt16) : Bool :=
  decide (65 ≤ unit.toNat ∧ unit.toNat ≤ 90) || JsText.isDigit unit || JsText.isWhiteSpace unit

/-- What stands between the dashes of a marker. -/
def pemWords (edge : PemEdge) (wrapped : Bool) : Pattern :=
  if wrapped then
    .concat (.literal edge.word)
      (.concat (.unit JsText.isWhiteSpace)
        (.concat (.greedy isWrappedLabelUnit 0 (some 40))
          (.concat (.literal (jsText "PRIVATE"))
            (.concat (.greedy JsText.isWhiteSpace 1 (some 8)) (.literal (jsText "KEY"))))))
  else
    .concat (.literal edge.word)
      (.concat (.literal (jsText " "))
        (.concat (.greedy isLabelUnit 0 (some 40)) (.literal (jsText "PRIVATE KEY"))))

/-- `begin` or `end`. -/
def pemMarker (edge : PemEdge) (wrapped : Bool) : Pattern :=
  .concat (.literal dashes) (.concat (pemWords edge wrapped) (.literal dashes))

/-- The END marker for a BEGIN marker: the one that was found before, unless it stands
before the body.  There is `none` before the first search. -/
def endMarker (text : JsString) (wrapped : Bool) (body : Nat)
    (found : Option (Option (Nat × Nat))) : Option (Nat × Nat) :=
  match found with
  | none => (pemMarker .closing wrapped).exec text body
  | some none => none
  | some (some (index, stop)) =>
    if index < body then (pemMarker .closing wrapped).exec text body else some (index, stop)

/-- A marker starts and ends with dashes and has none in between. -/
structure MarkerAt (text : JsString) (start stop : Nat) : Prop where
  length : start + 10 < stop
  between : ∀ index, start + 5 ≤ index → index < stop - 5 → text[index]? ≠ some 0x2D
  closing : text[stop - 5]? = some 0x2D

theorem avoids_pemWords (edge : PemEdge) (wrapped : Bool) :
    (pemWords edge wrapped).Avoids 0x2D := by
  have word : (Pattern.literal edge.word).Avoids 0x2D :=
    .literal (by cases edge <;> decide)
  cases wrapped with
  | true =>
    exact word.concat ((Pattern.Avoids.unit (by decide)).concat
      ((Pattern.Avoids.greedy (by decide)).concat
        ((Pattern.Avoids.literal (by decide)).concat
          ((Pattern.Avoids.greedy (by decide)).concat
            (.literal (by decide))))))
  | false =>
    exact word.concat ((Pattern.Avoids.literal (by decide)).concat
      ((Pattern.Avoids.greedy (by decide)).concat (.literal (by decide))))

variable
  {text : JsString}
  {wrapped : Bool}
  {edge : PemEdge}

theorem markerAt_of_mem_ends
    {start stop : Nat} (isEnd : stop ∈ (pemMarker edge wrapped).ends text start) :
    MarkerAt text start stop := by
  obtain ⟨words, isOpening, isRest⟩ := Pattern.mem_ends_concat_iff.mp isEnd
  obtain ⟨closing, isWords, isClosing⟩ := Pattern.mem_ends_concat_iff.mp isRest
  obtain ⟨-, rfl⟩ := Pattern.mem_ends_literal_iff.mp isOpening
  obtain ⟨⟨rest, isDashes⟩, rfl⟩ := Pattern.mem_ends_literal_iff.mp isClosing
  have dashCount : dashes.length = 5 := by decide
  have longer : start + dashes.length < closing := by
    have wordLength : 0 < edge.word.length := by cases edge <;> decide
    cases wrapped with
    | true | false =>
      obtain ⟨middle, isWord, isLater⟩ := Pattern.mem_ends_concat_iff.mp isWords
      obtain ⟨-, rfl⟩ := Pattern.mem_ends_literal_iff.mp isWord
      have := Pattern.le_of_mem_ends isLater
      omega
  have atClosing : closing + dashes.length - 5 = closing := by omega
  refine ⟨by omega, fun index least less => ?_, ?_⟩
  · exact avoids_pemWords edge wrapped text _ closing isWords index (by omega) (by omega)
  · have isDash : (text.drop closing)[0]? = some 0x2D := by
      rw [← isDashes]
      rfl
    rw [atClosing]
    simpa using isDash

/-- A BEGIN marker starts with dashes and its word. -/
theorem infix_of_mem_ends
    {start stop : Nat} (isEnd : stop ∈ (pemMarker .opening wrapped).ends text start) :
    jsText "-----BEGIN" <:+: text := by
  obtain ⟨words, isOpening, isRest⟩ := Pattern.mem_ends_concat_iff.mp isEnd
  obtain ⟨closing, isWords, -⟩ := Pattern.mem_ends_concat_iff.mp isRest
  obtain ⟨⟨behind, isText⟩, rfl⟩ := Pattern.mem_ends_literal_iff.mp isOpening
  have isWord : PemEdge.opening.word <+: text.drop (start + dashes.length) := by
    cases wrapped with
    | true | false =>
      obtain ⟨_, isWord, -⟩ := Pattern.mem_ends_concat_iff.mp isWords
      exact (Pattern.mem_ends_literal_iff.mp isWord).1
  have isBehind : text.drop (start + dashes.length) = behind := by
    rw [← List.drop_drop, ← isText, List.drop_left]
  obtain ⟨rest, isRest⟩ := isWord
  have whole : jsText "-----BEGIN" = dashes ++ PemEdge.opening.word := by decide
  refine ⟨text.take start, rest, ?_⟩
  rw [whole, List.append_assoc, List.append_assoc, isRest, isBehind, isText,
    List.take_append_drop]

theorem MarkerAt.stop_le
    {start stop laterStart laterStop : Nat} (marker : MarkerAt text start stop)
    (later : MarkerAt text laterStart laterStop) (le : start ≤ laterStart) :
    stop ≤ laterStop := by
  have length := later.length
  by_contra beyond
  exact marker.between (laterStop - 5) (by omega) (by omega) later.closing

theorem eq_of_mem_ends
    {start stop other : Nat} (isEnd : stop ∈ (pemMarker edge wrapped).ends text start)
    (isOther : other ∈ (pemMarker edge wrapped).ends text start) :
    stop = other :=
  Nat.le_antisymm ((markerAt_of_mem_ends isEnd).stop_le (markerAt_of_mem_ends isOther) le_rfl)
    ((markerAt_of_mem_ends isOther).stop_le (markerAt_of_mem_ends isEnd) le_rfl)

theorem markerAt_of_exec
    {lastIndex start stop : Nat}
    (found : (pemMarker edge wrapped).exec text lastIndex = some (start, stop)) :
    MarkerAt text start stop :=
  markerAt_of_mem_ends (Pattern.mem_ends_of_endAt (Pattern.exec_eq_some_iff.mp found).2.2.1)

/-- What is known of the END marker between two BEGIN markers: it is what a search
from some body before finds. -/
def Cached (text : JsString) (wrapped : Bool) (lastIndex : Nat)
    (found : Option (Option (Nat × Nat))) : Prop :=
  ∀ known, found = some known →
    ∃ searched, (pemMarker .closing wrapped).exec text searched = known ∧
      ∀ start body, lastIndex ≤ start → MarkerAt text start body → searched ≤ body

theorem endMarker_eq_exec
    {lastIndex start body : Nat} {found : Option (Option (Nat × Nat))}
    (cached : Cached text wrapped lastIndex found) (least : lastIndex ≤ start)
    (marker : MarkerAt text start body) :
    endMarker text wrapped body found = (pemMarker .closing wrapped).exec text body := by
  unfold endMarker
  cases found with
  | none => rfl
  | some known =>
    obtain ⟨searched, isKnown, before⟩ := cached known rfl
    have le := before start body least marker
    cases known with
    | none => exact (Pattern.exec_none_of_le isKnown le).symm
    | some entry =>
      obtain ⟨index, stop⟩ := entry
      simp only
      split
      · rfl
      · next notBefore => exact (Pattern.exec_of_le isKnown le (Nat.not_lt.mp notBefore)).symm

/-- The loop of `visitPemBlocks`, a turn for each BEGIN marker. -/
def pemScan (text : JsString) (wrapped : Bool) :
    Nat → Nat → Option (Option (Nat × Nat)) → List SecretSpan
  | 0, _, _ => []
  | turns + 1, lastIndex, found =>
    match (pemMarker .opening wrapped).exec text lastIndex with
    | none => []
    | some (start, body) =>
      match endMarker text wrapped body found with
      | none => []
      | some (index, stop) =>
        if pemBodyMax < index - body then
          pemScan text wrapped turns (start + 1) (some (some (index, stop)))
        else
          .redacted start stop :: pemScan text wrapped turns stop (some (some (index, stop)))

/-- `visitPemBlocks`: the spans it masks.  Every turn of the loop starts later in the
text. -/
def visitPemBlocks (text : JsString) (wrapped : Bool) : List SecretSpan :=
  if jsText "-----BEGIN" <:+: text then pemScan text wrapped (text.length + 1) 0 none else []

/-- A block as one regular expression, with a lazy bounded body. -/
def pemBlock (wrapped : Bool) : Pattern :=
  .concat (pemMarker .opening wrapped)
    (.concat (.lazy (fun _ => true) 0 (some pemBodyMax)) (pemMarker .closing wrapped))

/-- The regular expression matches from a BEGIN marker to the end of the first END
marker behind it, if that one is close enough. -/
theorem pemBlock_endAt_iff {start stop : Nat} :
    (pemBlock wrapped).endAt text start = some stop ↔
      ∃ body index,
        (pemMarker .opening wrapped).endAt text start = some body ∧
        (pemMarker .closing wrapped).exec text body = some (index, stop) ∧
        index - body ≤ pemBodyMax := by
  cases isOpening : (pemMarker .opening wrapped).endAt text start with
  | none =>
    rw [Pattern.endAt_eq_none_iff] at isOpening
    have noBlock : (pemBlock wrapped).endAt text start = none := by
      rw [Pattern.endAt_eq_none_iff]
      rintro ⟨stop, isStop⟩
      obtain ⟨body, isBody, -⟩ := Pattern.mem_ends_concat_iff.mp isStop
      exact isOpening ⟨body, isBody⟩
    simp [noBlock]
  | some body =>
    have isMember := Pattern.mem_ends_of_endAt isOpening
    rw [pemBlock, Pattern.endAt_concat_of_unique isOpening
      (fun other isOther => eq_of_mem_ends isOther isMember), Pattern.endAt_concat,
      Pattern.ends_lazy_any, Pattern.findSome?_range'_eq_some_iff]
    simp only [Option.some.injEq, Pattern.exec_eq_some_iff]
    constructor
    · rintro ⟨index, later, near, isStop, leftmost⟩
      have marker := markerAt_of_mem_ends (Pattern.mem_ends_of_endAt isStop)
      have inText := (List.getElem?_eq_some_iff.mp marker.closing).1
      have length := marker.length
      exact ⟨body, index, rfl, ⟨later, by omega, isStop, leftmost⟩, by omega⟩
    · rintro ⟨_, index, rfl, ⟨later, within, isStop, leftmost⟩, near⟩
      exact ⟨index, later, by omega, isStop, leftmost⟩

/-- The loop finds the matches of the regular expression. -/
theorem pemScan_eq_matchAll
    {turns lastIndex : Nat} {found : Option (Option (Nat × Nat))}
    (cached : Cached text wrapped lastIndex found) (enough : text.length < lastIndex + turns) :
    pemScan text wrapped turns lastIndex found =
      ((pemBlock wrapped).matchAll text lastIndex).map fun block =>
        .redacted block.1 block.2 := by
  induction turns generalizing lastIndex found with
  | zero =>
    have none : (pemBlock wrapped).exec text lastIndex = none :=
      Pattern.exec_eq_none_iff.mpr fun position least within => by omega
    rw [pemScan, Pattern.matchAll]
    split
    · rfl
    · rename_i isBlock
      rw [none] at isBlock
      cases isBlock
  | succ turns ih =>
    rw [pemScan]
    cases isOpening : (pemMarker .opening wrapped).exec text lastIndex with
    | none =>
      have none : (pemBlock wrapped).exec text lastIndex = none := by
        refine Pattern.exec_eq_none_iff.mpr fun position least within => ?_
        have noOpening := Pattern.exec_eq_none_iff.mp isOpening position least within
        by_contra isBlock
        obtain ⟨stop, isStop⟩ := Option.ne_none_iff_exists'.mp isBlock
        obtain ⟨body, -, isBody, -⟩ := pemBlock_endAt_iff.mp isStop
        exact absurd (isBody.symm.trans noOpening) (by simp)
      rw [Pattern.matchAll_of_none none]
      rfl
    | some opening =>
      obtain ⟨start, body⟩ := opening
      obtain ⟨least, inText, isBody, leftmost⟩ := Pattern.exec_eq_some_iff.mp isOpening
      have marker := markerAt_of_exec isOpening
      have isEnd := endMarker_eq_exec cached least marker
      -- No block starts before this BEGIN marker.
      have before : ∀ position, lastIndex ≤ position → position < start →
          (pemBlock wrapped).endAt text position = none := by
        intro position atLeast less
        by_contra isBlock
        obtain ⟨stop, isStop⟩ := Option.ne_none_iff_exists'.mp isBlock
        obtain ⟨other, -, isOther, -⟩ := pemBlock_endAt_iff.mp isStop
        exact absurd (isOther.symm.trans (leftmost position atLeast less)) (by simp)
      -- What is found for this marker serves every later one.
      have cachedAfter : ∀ next, start ≤ next →
          Cached text wrapped next
            (some ((pemMarker .closing wrapped).exec text body)) := by
        intro next later known isKnown
        cases isKnown
        exact ⟨body, rfl, fun other otherBody atLeast otherMarker =>
          marker.stop_le otherMarker (later.trans atLeast)⟩
      simp only [isEnd]
      cases isClosing : (pemMarker .closing wrapped).exec text body with
      | none =>
        have none : (pemBlock wrapped).exec text lastIndex = none := by
          refine Pattern.exec_eq_none_iff.mpr fun position atLeast within => ?_
          obtain less | atStart := Nat.lt_or_ge position start
          · exact before position atLeast less
          · by_contra isBlock
            obtain ⟨stop, isStop⟩ := Option.ne_none_iff_exists'.mp isBlock
            obtain ⟨other, index, isOther, isIndex, -⟩ :=
              pemBlock_endAt_iff.mp isStop
            have later := marker.stop_le
              (markerAt_of_mem_ends (Pattern.mem_ends_of_endAt isOther)) atStart
            have noIndex := Pattern.exec_none_of_le isClosing later
            exact absurd (isIndex.symm.trans noIndex) (by simp)
        rw [Pattern.matchAll_of_none none]
        rfl
      | some closing =>
        obtain ⟨index, stop⟩ := closing
        simp only
        have bounds := Pattern.exec_bounds isClosing
        have length := marker.length
        split
        · rename_i far
          have noBlock : (pemBlock wrapped).endAt text start = none := by
            by_contra isBlock
            obtain ⟨other, isStop⟩ := Option.ne_none_iff_exists'.mp isBlock
            obtain ⟨otherBody, otherIndex, isOther, isIndex, near⟩ :=
              pemBlock_endAt_iff.mp isStop
            cases isBody.symm.trans isOther
            obtain ⟨rfl, -⟩ := Prod.mk.inj (Option.some.inj (isClosing.symm.trans isIndex))
            omega
          have nextCached := cachedAfter (start + 1) (Nat.le_succ start)
          rw [isClosing] at nextCached
          rw [ih nextCached (by omega)]
          congr 1
          refine (Pattern.matchAll_of_endAt_none (by omega) fun position atLeast less => ?_).symm
          obtain earlier | rfl := Nat.lt_succ_iff_lt_or_eq.mp less
          · exact before position atLeast earlier
          · exact noBlock
        · rename_i near
          have isBlock : (pemBlock wrapped).exec text lastIndex = some (start, stop) :=
            Pattern.exec_eq_some_iff.mpr ⟨least, inText,
              pemBlock_endAt_iff.mpr ⟨body, index, isBody, isClosing, Nat.not_lt.mp near⟩, before⟩
          have nextCached := cachedAfter stop (by omega)
          rw [isClosing] at nextCached
          rw [Pattern.matchAll_of_some isBlock, ih nextCached (by omega),
            max_eq_left (by omega)]
          rfl

/-- The scan reports the successive leftmost blocks: those of one regular expression
under global matching, each from a BEGIN marker to the end of the first END marker
behind it. -/
theorem visitPemBlocks_eq_matchAll :
    (∀ text, visitPemBlocks text false =
      ((pemBlock false).matchAll text 0).map fun block => .redacted block.1 block.2) ∧
    ∀ text start stop,
      (pemBlock false).endAt text start = some stop ↔
        ∃ body index,
          (pemMarker .opening false).endAt text start = some body ∧
          (pemMarker .closing false).exec text body = some (index, stop) ∧
          index - body ≤ pemBodyMax := by
  refine ⟨fun text => ?_, fun _ _ _ => pemBlock_endAt_iff⟩
  unfold visitPemBlocks
  split
  · exact pemScan_eq_matchAll (fun _ impossible => absurd impossible (by simp)) (by omega)
  · rename_i absent
    rw [Pattern.matchAll_of_none]
    · rfl
    · refine Pattern.exec_eq_none_iff.mpr fun position _ _ => ?_
      by_contra isBlock
      obtain ⟨stop, isStop⟩ := Option.ne_none_iff_exists'.mp isBlock
      obtain ⟨body, -, isBody, -⟩ := pemBlock_endAt_iff.mp isStop
      exact absent (infix_of_mem_ends (Pattern.mem_ends_of_endAt isBody))

end Relavium.Tools
