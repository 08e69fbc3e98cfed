import Relavium.Library.Pattern

/-!
# The text without its separators

The rules of `packages/core/src/tools/bounding.ts` for split credentials read a text
with its runs of LF and TAB removed.  A cursor over these runs finds the position in
the original text that a position of the joined view stands for.  What a rule reports
is the span of a recognized secret and what replaces it.
-/

namespace Relavium.Tools

open Library

/-! ## Recognized spans -/

/-- `UrlUserinfo`: where the scheme starts, and up to where the userinfo owns its
text. -/
structure UrlUserinfo where
  schemeStart : Nat
  ownsUntil : Nat
  deriving DecidableEq

/-- One call of a `SecretSpanVisitor`. -/
structure SecretSpan where
  start : Nat
  stop : Nat
  replacement : JsString
  /-- Given for a URL's userinfo. -/
  url : Option UrlUserinfo
  deriving DecidableEq

/-- `[redacted]`. -/
def redactedText : JsString := jsText "[redacted]"

/-- A span that is masked as a whole. -/
def SecretSpan.redacted (start stop : Nat) : SecretSpan where
  start
  stop
  replacement := redactedText
  url := none

/-! ## The joined view -/

/-- `[\n\t]`. -/
def isSeparator (unit : UInt16) : Bool :=
  unit = 0x0A || unit = 0x09

/-- `separators`: the runs of removed code units. -/
def separators : Pattern :=
  .greedy isSeparator 1 none

/-- The text from one position up to another. -/
def slice (text : JsString) (start stop : Nat) : JsString :=
  (text.take stop).drop start

/-- The text that is left when the separators are removed. -/
def joinedView (text : JsString) : JsString :=
  text.filter (!isSeparator ·)

/-- The separators ahead of the scan, and how much was removed before. -/
structure JoinedCursor where
  next : List (Nat × Nat)
  removed : Nat

/-- The separators in front of a position are behind the scan. -/
def JoinedCursor.passBefore (originalStart : Nat) (cursor : JoinedCursor) : JoinedCursor :=
  match cursor with
  | { next := [], removed } => { next := [], removed }
  | { next := (index, stop) :: next, removed } =>
    if index < originalStart then
      passBefore originalStart { next, removed := removed + (stop - index) }
    else
      { next := (index, stop) :: next, removed }
termination_by cursor.next.length

/-- `advance`: the runs of separators in front of a target of the joined view are
passed, those right at the target only on demand. -/
def JoinedCursor.pass (target : Nat) (includeAtBoundary : Bool)
    (cursor : JoinedCursor) : JoinedCursor :=
  match cursor with
  | { next := [], removed } => { next := [], removed }
  | { next := (index, stop) :: next, removed } =>
    if index - removed < target ∨ (includeAtBoundary ∧ index - removed = target) then
      pass target includeAtBoundary { next, removed := removed + (stop - index) }
    else
      { next := (index, stop) :: next, removed }
termination_by cursor.next.length

/-- `advance` with the position that it answers. -/
def JoinedCursor.advance (target : Nat) (includeAtBoundary : Bool)
    (cursor : JoinedCursor) : Nat × JoinedCursor :=
  let cursor := cursor.pass target includeAtBoundary
  (target + cursor.removed, cursor)

/-! ## Positions of the joined view -/

/-- A position of the text with a number of kept code units in front of it. -/
structure CutAt (text : JsString) (kept position : Nat) : Prop where
  within : position ≤ text.length
  count : (joinedView (text.take position)).length = kept

/-- A separator stands at a position of the text. -/
def SeparatorAt (text : JsString) (position : Nat) : Prop :=
  text[position]?.any isSeparator = true

instance (text : JsString) (position : Nat) : Decidable (SeparatorAt text position) :=
  inferInstanceAs (Decidable (_ = true))

/-- A separator stands right before a position of the text. -/
def SeparatorBefore (text : JsString) (position : Nat) : Prop :=
  ∃ index, index + 1 = position ∧ SeparatorAt text index

variable
  {text : JsString}

theorem getElem?_of_mem_take_drop
    {position count : Nat} {unit : UInt16} (member : unit ∈ (text.drop position).take count) :
    ∃ offset < count, text[position + offset]? = some unit := by
  obtain ⟨offset, isUnit⟩ := List.mem_iff_getElem?.mp member
  have less : offset < count := by
    by_contra beyond
    rw [List.getElem?_take_eq_none (by omega)] at isUnit
    cases isUnit
  rw [List.getElem?_take_of_lt less, List.getElem?_drop] at isUnit
  exact ⟨offset, less, isUnit⟩

/-- A stretch of kept code units. -/
theorem CutAt.add_of_kept
    {kept position : Nat} (cut : CutAt text kept position) {count : Nat}
    (within : position + count ≤ text.length)
    (noSeparator : ∀ offset < count, ¬SeparatorAt text (position + offset)) :
    CutAt text (kept + count) (position + count) := by
  refine ⟨within, ?_⟩
  have allKept : joinedView ((text.drop position).take count) =
      (text.drop position).take count := by
    refine List.filter_eq_self.mpr fun unit member => ?_
    obtain ⟨offset, less, isUnit⟩ := getElem?_of_mem_take_drop member
    have := noSeparator offset less
    rw [SeparatorAt, isUnit, Option.any_some] at this
    simpa using this
  rw [List.take_add, joinedView, List.filter_append, List.length_append]
  change (joinedView (text.take position)).length +
    (joinedView ((text.drop position).take count)).length = _
  rw [cut.count, allKept, List.length_take, List.length_drop]
  omega

theorem CutAt.add_of_separators
    {kept position : Nat} (cut : CutAt text kept position) {count : Nat}
    (within : position + count ≤ text.length)
    (separators : ∀ offset < count, SeparatorAt text (position + offset)) :
    CutAt text kept (position + count) := by
  refine ⟨within, ?_⟩
  have noneKept : joinedView ((text.drop position).take count) = [] := by
    refine List.filter_eq_nil_iff.mpr fun unit member => ?_
    obtain ⟨offset, less, isUnit⟩ := getElem?_of_mem_take_drop member
    have := separators offset less
    rw [SeparatorAt, isUnit, Option.any_some] at this
    simpa using this
  rw [List.take_add, joinedView, List.filter_append, List.length_append]
  change (joinedView (text.take position)).length +
    (joinedView ((text.drop position).take count)).length = _
  rw [cut.count, noneKept, List.length_nil, Nat.add_zero]

/-- The code units between two positions are those between what they stand for. -/
theorem CutAt.joinedView_slice
    {keptStart start keptStop stop : Nat} (cutStart : CutAt text keptStart start)
    (cutStop : CutAt text keptStop stop) (le : start ≤ stop) :
    joinedView (slice text start stop) = slice (joinedView text) keptStart keptStop := by
  have front : ∀ {kept position : Nat}, CutAt text kept position →
      joinedView (text.take position) = (joinedView text).take kept := by
    intro kept position cut
    have isPrefix : joinedView (text.take position) <+: joinedView text :=
      (List.take_prefix position text).filter _
    rw [List.prefix_iff_eq_take.mp isPrefix, cut.count]
  have split : joinedView (text.take stop) =
      joinedView (text.take start) ++ joinedView (slice text start stop) := by
    rw [slice, joinedView, joinedView, joinedView, ← List.filter_append]
    congr 1
    conv_lhs => rw [← List.take_append_drop start (text.take stop), List.take_take,
      Nat.min_eq_left le]
  have isSlice : slice (joinedView text) keptStart keptStop =
      (joinedView (text.take stop)).drop keptStart := by
    rw [slice, ← front cutStop]
  rw [isSlice, split, List.drop_left' cutStart.count]

theorem separators_exec_spec
    {position index stop : Nat} (found : separators.exec text position = some (index, stop)) :
    position ≤ index ∧ index < stop ∧ stop ≤ text.length ∧ ¬SeparatorAt text stop ∧
      (∀ between, position ≤ between → between < index → ¬SeparatorAt text between) ∧
      ∀ between, index ≤ between → between < stop → SeparatorAt text between := by
  obtain ⟨-, -, within⟩ := Pattern.exec_bounds found
  obtain ⟨least, -, isStop, leftmost⟩ := Pattern.exec_eq_some_iff.mp found
  rw [separators, Pattern.endAt_greedy, Option.ite_none_right_eq_some, Option.some.injEq]
    at isStop
  obtain ⟨nonempty, rfl⟩ := isStop
  have inRun := Pattern.le_length_takeWhile_iff.mp
    (le_refl ((text.drop index).takeWhile isSeparator).length)
  refine ⟨least, by omega, within, fun isNext => ?_, fun between atLeast less isNext => ?_,
    fun between atLeast less => ?_⟩
  · have longer : ((text.drop index).takeWhile isSeparator).length + 1 ≤
        ((text.drop index).takeWhile isSeparator).length := by
      refine Pattern.le_length_takeWhile_iff.mpr fun offset less => ?_
      obtain before | rfl := Nat.lt_succ_iff_lt_or_eq.mp less
      · exact inRun offset before
      · exact isNext
    omega
  · have none := leftmost between atLeast less
    rw [separators, Pattern.endAt_greedy, ite_eq_right_iff] at none
    refine absurd (none (Pattern.le_length_takeWhile_iff.mpr fun offset isFirst => ?_)) (by simp)
    obtain rfl : offset = 0 := by omega
    exact isNext
  · have := inRun (between - index) (by omega)
    rwa [Nat.add_sub_cancel' atLeast] at this

theorem separators_exec_none
    {position : Nat} (notFound : separators.exec text position = none) {between : Nat}
    (least : position ≤ between) :
    ¬SeparatorAt text between := by
  intro isNext
  obtain beyond | within := Nat.lt_or_ge text.length between
  · rw [SeparatorAt, List.getElem?_eq_none (by omega)] at isNext
    cases isNext
  · have none := Pattern.exec_eq_none_iff.mp notFound between least within
    rw [separators, Pattern.endAt_greedy, ite_eq_right_iff] at none
    refine absurd (none (Pattern.le_length_takeWhile_iff.mpr fun offset isFirst => ?_)) (by simp)
    obtain rfl : offset = 0 := by omega
    exact isNext

/-- A cursor whose passed separators are those in front of a position. -/
structure JoinedCursor.StandsAt (text : JsString) (kept position : Nat)
    (cursor : JoinedCursor) : Prop where
  next : cursor.next = separators.matchAll text position
  cut : CutAt text kept position
  removed : kept + cursor.removed = position

theorem JoinedCursor.standsAt_start (text : JsString) :
    JoinedCursor.StandsAt text 0 0 { next := separators.matchAll text 0, removed := 0 } :=
  ⟨rfl, ⟨Nat.zero_le _, rfl⟩, rfl⟩

/-- The position that a call of `advance` answers: one that the target stands for, the
last such position when separators at the target are included, and otherwise the first
one unless the cursor has passed it. -/
structure Advanced (text : JsString) (kept position target : Nat) (includeAtBoundary : Bool)
    (answer : Nat) : Prop where
  cut : CutAt text target answer
  later : position ≤ answer
  last : includeAtBoundary = true → ¬SeparatorAt text answer
  first : includeAtBoundary = false → kept < target → ¬SeparatorBefore text answer
  stays : includeAtBoundary = false → kept = target → answer = position

variable
  {kept position target : Nat}
  {cursor : JoinedCursor}

theorem JoinedCursor.StandsAt.reaches
    (stands : StandsAt text kept position cursor) {includeAtBoundary : Bool}
    (notPassed : kept ≤ target) (within : target + cursor.removed ≤ text.length)
    (noSeparator : ∀ between, position ≤ between → between < target + cursor.removed →
      ¬SeparatorAt text between)
    (last : includeAtBoundary = true → ¬SeparatorAt text (target + cursor.removed)) :
    StandsAt text target (target + cursor.removed) cursor ∧
      Advanced text kept position target includeAtBoundary (target + cursor.removed) := by
  have isRemoved := stands.removed
  have cut : CutAt text target (target + cursor.removed) := by
    have reached : CutAt text (kept + (target - kept)) (position + (target - kept)) :=
      stands.cut.add_of_kept (by omega) fun offset less =>
        noSeparator _ (by omega) (by omega)
    rwa [show kept + (target - kept) = target by omega,
      show position + (target - kept) = target + cursor.removed by omega] at reached
  refine ⟨⟨?_, cut, rfl⟩, cut, by omega, last, fun _ less => ?_, fun _ same => by omega⟩
  · rw [stands.next]
    refine Pattern.matchAll_of_endAt_none (by omega) fun between least less => ?_
    rw [separators, Pattern.endAt_greedy, if_neg]
    intro nonempty
    have isNext := Pattern.le_length_takeWhile_iff.mp nonempty 0 Nat.one_pos
    exact noSeparator between least less isNext
  · rintro ⟨index, isBefore, isSeparator⟩
    exact noSeparator index (by omega) (by omega) isSeparator

theorem JoinedCursor.StandsAt.pass
    (stands : StandsAt text kept position cursor) {includeAtBoundary : Bool}
    (notPassed : kept ≤ target) (within : target ≤ (joinedView text).length) :
    StandsAt text target (target + (cursor.pass target includeAtBoundary).removed)
        (cursor.pass target includeAtBoundary) ∧
      Advanced text kept position target includeAtBoundary
        (target + (cursor.pass target includeAtBoundary).removed) := by
  obtain ⟨next, removed⟩ := cursor
  have isNext := stands.next
  have isRemoved := stands.removed
  simp only at isNext isRemoved
  induction next generalizing kept position removed with
  | nil =>
    rw [JoinedCursor.pass]
    cases found : separators.exec text position with
    | some run =>
      rw [Pattern.matchAll_of_some found] at isNext
      cases isNext
    | none =>
      have free := fun between => @separators_exec_none text position found between
      have whole : CutAt text (kept + (text.length - position)) text.length := by
        have inText := stands.cut.within
        have reached : CutAt text (kept + (text.length - position))
            (position + (text.length - position)) :=
          stands.cut.add_of_kept (by omega) fun offset _ => free _ (Nat.le_add_right _ _)
        rwa [Nat.add_sub_cancel' inText] at reached
      have isLength := whole.count
      rw [List.take_length] at isLength
      have inText := stands.cut.within
      refine stands.reaches notPassed (by simp only; omega)
        (fun between least _ => free between least) fun _ => free _ (by simp only; omega)
  | cons run next ih =>
    obtain ⟨index, stop⟩ := run
    cases found : separators.exec text position with
    | none =>
      rw [Pattern.matchAll_of_none found] at isNext
      cases isNext
    | some first =>
      rw [Pattern.matchAll_of_some found] at isNext
      obtain ⟨isRun, isRest⟩ := List.cons.inj isNext
      obtain rfl : (index, stop) = first := isRun
      obtain ⟨least, nonempty, inText, isEnd, before, inRun⟩ := separators_exec_spec found
      have atIndex : CutAt text (kept + (index - position)) index := by
        have reached : CutAt text (kept + (index - position))
            (position + (index - position)) :=
          stands.cut.add_of_kept (by omega) fun offset less =>
            before _ (by omega) (by omega)
        rwa [Nat.add_sub_cancel' least] at reached
      have atStop : CutAt text (kept + (index - position)) stop := by
        have reached : CutAt text (kept + (index - position)) (index + (stop - index)) :=
          atIndex.add_of_separators (by omega) fun offset less =>
            inRun _ (by omega) (by omega)
        rwa [Nat.add_sub_cancel' nonempty.le] at reached
      rw [JoinedCursor.pass]
      split
      · rename_i passes
        have below : kept + (index - position) ≤ target := by omega
        have standsAfter : StandsAt text (kept + (index - position)) stop
            { next := next, removed := removed + (stop - index) } := by
          refine ⟨?_, atStop, by simp only; omega⟩
          rw [show max stop (index + 1) = stop by omega] at isRest
          exact isRest
        obtain ⟨standsThen, advanced⟩ := ih below _
          standsAfter standsAfter.next standsAfter.removed
        refine ⟨standsThen, advanced.cut, by have := advanced.later; omega, advanced.last,
          fun notIncluded less => advanced.first notIncluded ?_, fun notIncluded same => ?_⟩
        · simp only [notIncluded, Bool.false_eq_true, false_and, or_false] at passes
          omega
        · simp only [notIncluded, Bool.false_eq_true, false_and, or_false] at passes
          omega
      · rename_i stops
        rw [not_or, not_and] at stops
        refine stands.reaches notPassed (by simp only; omega) (fun between atLeast less =>
          before between atLeast (by simp only at less; omega)) fun included => ?_
        have := stops.2 included
        exact before _ (by simp only; omega) (by simp only; omega)

theorem JoinedCursor.StandsAt.advance
    (stands : StandsAt text kept position cursor) (includeAtBoundary : Bool)
    (notPassed : kept ≤ target) (within : target ≤ (joinedView text).length) :
    StandsAt text target (cursor.advance target includeAtBoundary).1
        (cursor.advance target includeAtBoundary).2 ∧
      Advanced text kept position target includeAtBoundary
        (cursor.advance target includeAtBoundary).1 :=
  stands.pass notPassed within

end Relavium.Tools
