import Mathlib.Tactic.Common
import Relavium.Library.JsText

/-!
# Regular expressions as backtracking matchers

A pattern finds, from a position of a text, the ends of its matches there in the
order in which a backtracking matcher tries them; the first one is the match.
`exec` finds the leftmost match from a position on, and `matchAll` the successive
matches that do not overlap, as a global regular expression does.
-/

namespace Relavium.Library

/-- A regular expression over code units. -/
inductive Pattern
  | literal (text : JsString)
  /-- One code unit of a class. -/
  | unit (accepts : UInt16 → Bool)
  /-- A class repeated as often as possible first. -/
  | greedy (accepts : UInt16 → Bool) (least : Nat) (most : Option Nat)
  /-- A class repeated as seldom as possible first. -/
  | lazy (accepts : UInt16 → Bool) (least : Nat) (most : Option Nat)
  /-- The start of the text. -/
  | start
  /-- A lookahead. -/
  | ahead (body : Pattern)
  | concat (first second : Pattern)
  | choice (first second : Pattern)

namespace Pattern

/-- How often a class can be repeated from a position on. -/
def repetitions (accepts : UInt16 → Bool) (least : Nat) (most : Option Nat) (text : JsString)
    (position : Nat) : List Nat :=
  let run := ((text.drop position).takeWhile accepts).length
  let limit := min run (most.getD run)
  (List.range (limit + 1)).filter (least ≤ ·)

/-- The ends of the matches that start at a position, in the order in which they are
tried. -/
def ends : Pattern → JsString → Nat → List Nat
  | .literal expected, text, position =>
    if expected.isPrefixOf (text.drop position) then [position + expected.length] else []
  | .unit accepts, text, position =>
    if text[position]?.any accepts then [position + 1] else []
  | .greedy accepts least most, text, position =>
    (repetitions accepts least most text position).reverse.map (position + ·)
  | .lazy accepts least most, text, position =>
    (repetitions accepts least most text position).map (position + ·)
  | .start, _, position => if position = 0 then [0] else []
  | .ahead body, text, position => if ends body text position = [] then [] else [position]
  | .concat first second, text, position =>
    (ends first text position).flatMap (ends second text)
  | .choice first second, text, position =>
    ends first text position ++ ends second text position

/-- A choice of several patterns, the first one tried first. -/
def oneOf : List Pattern → Pattern
  | [] => .unit fun _ => false
  | [pattern] => pattern
  | pattern :: rest => .choice pattern (oneOf rest)

/-- The end of the match at a position: what a sticky regular expression finds. -/
def endAt (pattern : Pattern) (text : JsString)
    (position : Nat) : Option Nat :=
  (pattern.ends text position).head?

/-- The pattern matches at a position. -/
def Accepts (pattern : Pattern) (text : JsString)
    (position : Nat) : Prop :=
  ∃ stop, stop ∈ pattern.ends text position

instance (pattern : Pattern) (text : JsString)
    (position : Nat) : Decidable (pattern.Accepts text position) :=
  decidable_of_iff (pattern.ends text position ≠ [])
    (by rw [Accepts, ne_eq, List.eq_nil_iff_forall_not_mem, not_forall_not])

/-- `exec` of a global regular expression: the leftmost match from a position on,
with its start and its end. -/
def exec (pattern : Pattern) (text : JsString)
    (lastIndex : Nat) : Option (Nat × Nat) :=
  (List.range' lastIndex (text.length + 1 - lastIndex)).findSome? fun position =>
    (pattern.endAt text position).map (Prod.mk position)

/-! ## The ends of a match -/

variable
  {text : JsString}
  {accepts : UInt16 → Bool}
  {least : Nat}
  {most : Option Nat}

theorem mem_repetitions_iff {position count : Nat} :
    count ∈ repetitions accepts least most text position ↔
      least ≤ count ∧ (∀ bound, most = some bound → count ≤ bound) ∧
        count ≤ ((text.drop position).takeWhile accepts).length := by
  rw [repetitions, List.mem_filter, List.mem_range, decide_eq_true_eq]
  cases most with
  | none =>
    simp only [Option.getD_none, reduceCtorEq, IsEmpty.forall_iff, implies_true, true_and]
    omega
  | some bound =>
    simp only [Option.getD_some, Option.some.injEq, forall_eq']
    omega

/-- A repetition is a stretch of the text in the class. -/
theorem le_length_takeWhile_iff {position count : Nat} :
    count ≤ ((text.drop position).takeWhile accepts).length ↔
      ∀ offset < count, text[position + offset]?.any accepts = true := by
  generalize isRest : text.drop position = rest
  have units : ∀ offset, text[position + offset]? = rest[offset]? := by
    intro offset
    rw [← isRest, List.getElem?_drop]
  simp only [units]
  clear units isRest
  induction count generalizing rest with
  | zero => simp
  | succ count ih =>
    cases rest with
    | nil =>
      constructor
      · intro impossible
        simp at impossible
      · intro all
        simpa using all 0 (Nat.succ_pos count)
    | cons unit others =>
      cases accepted : accepts unit with
      | false =>
        simp only [List.takeWhile_cons, accepted, Bool.false_eq_true, if_false, List.length_nil]
        constructor
        · intro impossible
          omega
        · intro all
          simpa [accepted] using all 0 (Nat.succ_pos count)
      | true =>
        rw [List.takeWhile_cons, if_pos accepted, List.length_cons, Nat.succ_le_succ_iff]
        refine (ih others).trans ?_
        constructor
        · intro all offset less
          cases offset with
          | zero => simpa using accepted
          | succ offset => simpa using all offset (by omega)
        · intro all offset less
          simpa using all (offset + 1) (by omega)

section

attribute [local simp] ends

variable {position stop : Nat}

theorem mem_ends_greedy_iff :
    stop ∈ (greedy accepts least most).ends text position ↔
      ∃ count ∈ repetitions accepts least most text position, position + count = stop := by
  simp

theorem mem_ends_lazy_iff :
    stop ∈ (lazy accepts least most).ends text position ↔
      ∃ count ∈ repetitions accepts least most text position, position + count = stop := by
  simp

theorem mem_ends_concat_iff {first second : Pattern} :
    stop ∈ (concat first second).ends text position ↔
      ∃ middle ∈ first.ends text position, stop ∈ second.ends text middle := by
  simp

theorem mem_ends_literal_iff {expected text : JsString} :
    stop ∈ (literal expected).ends text position ↔
      expected <+: text.drop position ∧ stop = position + expected.length := by
  simp

theorem mem_ends_unit_iff :
    stop ∈ (unit accepts).ends text position ↔
      text[position]?.any accepts = true ∧ stop = position + 1 := by
  simp

end

variable
  {pattern : Pattern}
  {position stop : Nat}

/-- A match ends at its start or later. -/
theorem le_of_mem_ends (isEnd : stop ∈ pattern.ends text position) :
    position ≤ stop := by
  induction pattern generalizing position stop with
  | literal expected =>
    obtain ⟨-, rfl⟩ := mem_ends_literal_iff.mp isEnd
    exact Nat.le_add_right _ _
  | unit accepts =>
    obtain ⟨-, rfl⟩ := mem_ends_unit_iff.mp isEnd
    exact Nat.le_succ _
  | greedy accepts least most =>
    obtain ⟨count, -, rfl⟩ := mem_ends_greedy_iff.mp isEnd
    exact Nat.le_add_right _ _
  | lazy accepts least most =>
    obtain ⟨count, -, rfl⟩ := mem_ends_lazy_iff.mp isEnd
    exact Nat.le_add_right _ _
  | start =>
    simp only [ends, List.mem_ite_nil_right, List.mem_singleton] at isEnd
    omega
  | ahead body =>
    simp only [ends, List.mem_ite_nil_left, List.mem_singleton] at isEnd
    omega
  | concat first second firstBound secondBound =>
    obtain ⟨middle, isMiddle, isLast⟩ := mem_ends_concat_iff.mp isEnd
    exact (firstBound isMiddle).trans (secondBound isLast)
  | choice first second firstBound secondBound =>
    simp only [ends, List.mem_append] at isEnd
    exact isEnd.elim firstBound secondBound

theorem mem_ends_le
    (within : position ≤ text.length) (isEnd : stop ∈ pattern.ends text position) :
    stop ≤ text.length := by
  induction pattern generalizing position stop with
  | literal expected =>
    obtain ⟨isPrefix, rfl⟩ := mem_ends_literal_iff.mp isEnd
    have := isPrefix.length_le
    rw [List.length_drop] at this
    omega
  | unit accepts =>
    obtain ⟨isUnit, rfl⟩ := mem_ends_unit_iff.mp isEnd
    obtain ⟨unit, isThere, -⟩ := (Option.any_eq_true _ _).mp isUnit
    exact (List.getElem?_eq_some_iff.mp isThere).1
  | greedy accepts least most =>
    obtain ⟨count, isCount, rfl⟩ := mem_ends_greedy_iff.mp isEnd
    have short := (mem_repetitions_iff.mp isCount).2.2
    have := (List.takeWhile_prefix (l := text.drop position) accepts).length_le
    rw [List.length_drop] at this
    omega
  | lazy accepts least most =>
    obtain ⟨count, isCount, rfl⟩ := mem_ends_lazy_iff.mp isEnd
    have short := (mem_repetitions_iff.mp isCount).2.2
    have := (List.takeWhile_prefix (l := text.drop position) accepts).length_le
    rw [List.length_drop] at this
    omega
  | start =>
    simp only [ends, List.mem_ite_nil_right, List.mem_singleton] at isEnd
    omega
  | ahead body =>
    simp only [ends, List.mem_ite_nil_left, List.mem_singleton] at isEnd
    omega
  | concat first second firstBound secondBound =>
    obtain ⟨middle, isMiddle, isLast⟩ := mem_ends_concat_iff.mp isEnd
    exact secondBound (firstBound within isMiddle) isLast
  | choice first second firstBound secondBound =>
    simp only [ends, List.mem_append] at isEnd
    exact isEnd.elim (firstBound within) (secondBound within)

theorem mem_ends_of_endAt (isMatch : pattern.endAt text position = some stop) :
    stop ∈ pattern.ends text position :=
  List.mem_of_head? isMatch

theorem endAt_eq_none_iff {position : Nat} :
    pattern.endAt text position = none ↔ ¬pattern.Accepts text position := by
  rw [endAt, List.head?_eq_none_iff, Accepts, List.eq_nil_iff_forall_not_mem, not_exists]

/-- A match of one pattern after another: of the first one, as it is tried, that the
second one goes on from. -/
theorem endAt_concat (first second : Pattern) (text : JsString) (position : Nat) :
    (concat first second).endAt text position =
      (first.ends text position).findSome? (second.endAt text) := by
  rw [endAt, ends, List.head?_flatMap]
  rfl

/-- Where the first part has one end, the second goes on from it. -/
theorem endAt_concat_of_unique
    {first : Pattern} {position middle : Nat} (isEnd : first.endAt text position = some middle)
    (unique : ∀ other ∈ first.ends text position, other = middle) (second : Pattern) :
    (concat first second).endAt text position = second.endAt text middle := by
  rw [endAt_concat]
  have isMember := mem_ends_of_endAt isEnd
  generalize first.ends text position = all at isMember unique
  cases goesOn : second.endAt text middle with
  | none =>
    refine List.findSome?_eq_none_iff.mpr fun other isOther => ?_
    rw [unique other isOther]
    exact goesOn
  | some stop =>
    cases all with
    | nil => exact absurd isMember List.not_mem_nil
    | cons head rest =>
      rw [List.findSome?_cons, unique head List.mem_cons_self, goesOn]

/-- The ends of a lazy repetition of anything, the nearest one first. -/
theorem ends_lazy_any (most : Nat) (text : JsString) (position : Nat) :
    (lazy (fun _ => true) 0 (some most)).ends text position =
      List.range' position (min (text.length - position) most + 1) := by
  rw [ends, repetitions, List.takeWhile_eq_self_iff.mpr (fun _ _ => rfl), List.length_drop,
    Option.getD_some, List.filter_eq_self.mpr (fun _ _ => by simp), List.range'_eq_map_range]

/-- The pattern does not ask where the text starts. -/
def AnchorFree : Pattern → Prop
  | .start => False
  | .ahead body => AnchorFree body
  | .concat first second => AnchorFree first ∧ AnchorFree second
  | .choice first second => AnchorFree first ∧ AnchorFree second
  | _ => True

theorem repetitions_drop
    (accepts : UInt16 → Bool) (least : Nat) (most : Option Nat) (text : JsString)
    (shift position : Nat) :
    repetitions accepts least most text (shift + position) =
      repetitions accepts least most (text.drop shift) position := by
  rw [repetitions, repetitions, List.drop_drop]

/-- Such a pattern matches by the rest of the text alone. -/
theorem ends_drop (anchorFree : pattern.AnchorFree) (text : JsString) (shift position : Nat) :
    pattern.ends text (shift + position) =
      (pattern.ends (text.drop shift) position).map (shift + ·) := by
  induction pattern generalizing position with
  | literal expected =>
    rw [ends, ends, List.drop_drop]
    split <;> simp [Nat.add_assoc]
  | unit accepts =>
    rw [ends, ends, List.getElem?_drop]
    split <;> simp [Nat.add_assoc]
  | greedy accepts least most | lazy accepts least most =>
    rw [ends, ends, repetitions_drop, List.map_map]
    simp [Function.comp_def, Nat.add_assoc]
  | start => exact anchorFree.elim
  | ahead body ih =>
    rw [ends, ends, ih anchorFree position]
    simp only [List.map_eq_nil_iff]
    split <;> simp
  | concat first second firstHypothesis secondHypothesis =>
    rw [ends, ends, firstHypothesis anchorFree.1 position, List.flatMap_map, List.map_flatMap]
    refine List.flatMap_congr fun middle _ => ?_
    exact secondHypothesis anchorFree.2 middle
  | choice first second firstHypothesis secondHypothesis =>
    rw [ends, ends, firstHypothesis anchorFree.1 position,
      secondHypothesis anchorFree.2 position, List.map_append]

/-- A pattern without anchors sees only what follows. -/
theorem accepts_drop_iff (anchorFree : pattern.AnchorFree) {shift position : Nat} :
    pattern.Accepts text (shift + position) ↔
      pattern.Accepts (text.drop shift) position := by
  simp [Accepts, ends_drop anchorFree]

/-- The matches of the pattern do not have a code unit in them. -/
def Avoids (pattern : Pattern) (avoided : UInt16) : Prop :=
  ∀ text position stop, stop ∈ pattern.ends text position →
    ∀ index, position ≤ index → index < stop → text[index]? ≠ some avoided

namespace Avoids

variable
  {avoided : UInt16}

theorem literal {expected : JsString} (absent : avoided ∉ expected) :
    (Pattern.literal expected).Avoids avoided := by
  intro text position stop isEnd index least less isAvoided
  obtain ⟨⟨rest, isText⟩, rfl⟩ := mem_ends_literal_iff.mp isEnd
  have isUnit : (text.drop position)[index - position]? = some avoided := by
    rw [List.getElem?_drop, Nat.add_sub_cancel' least]
    exact isAvoided
  rw [← isText, List.getElem?_append_left (by omega)] at isUnit
  exact absent (List.mem_of_getElem? isUnit)

theorem unit {accepts : UInt16 → Bool} (refused : accepts avoided = false) :
    (Pattern.unit accepts).Avoids avoided := by
  intro text position stop isEnd index least less isAvoided
  obtain ⟨isUnit, rfl⟩ := mem_ends_unit_iff.mp isEnd
  obtain rfl : index = position := by omega
  rw [isAvoided] at isUnit
  simp [refused] at isUnit

theorem greedy
    {accepts : UInt16 → Bool} {least : Nat} {most : Option Nat}
    (refused : accepts avoided = false) :
    (Pattern.greedy accepts least most).Avoids avoided := by
  intro text position stop isEnd index atLeast less isAvoided
  obtain ⟨count, isCount, rfl⟩ := mem_ends_greedy_iff.mp isEnd
  have isUnit := le_length_takeWhile_iff.mp (mem_repetitions_iff.mp isCount).2.2
    (index - position) (by omega)
  rw [Nat.add_sub_cancel' atLeast, isAvoided] at isUnit
  simp [refused] at isUnit

theorem concat
    {first second : Pattern} (firstAvoids : first.Avoids avoided)
    (secondAvoids : second.Avoids avoided) :
    (Pattern.concat first second).Avoids avoided := by
  intro text position stop isEnd index least less
  obtain ⟨middle, isMiddle, isLast⟩ := mem_ends_concat_iff.mp isEnd
  obtain inFirst | inSecond := Nat.lt_or_ge index middle
  · exact firstAvoids text position middle isMiddle index least inFirst
  · exact secondAvoids text middle stop isLast index inSecond less

end Avoids

/-! ## Where a pattern matches -/

variable {position : Nat}

theorem accepts_concat_iff {first second : Pattern} :
    (concat first second).Accepts text position ↔
      ∃ middle ∈ first.ends text position, second.Accepts text middle := by
  simp only [Accepts, mem_ends_concat_iff]
  constructor
  · rintro ⟨stop, middle, isMiddle, isStop⟩
    exact ⟨middle, isMiddle, stop, isStop⟩
  · rintro ⟨middle, isMiddle, stop, isStop⟩
    exact ⟨stop, middle, isMiddle, isStop⟩

theorem accepts_literal_concat_iff {expected : JsString} {second : Pattern} :
    (concat (literal expected) second).Accepts text position ↔
      expected <+: text.drop position ∧ second.Accepts text (position + expected.length) := by
  simp only [accepts_concat_iff, mem_ends_literal_iff]
  constructor
  · rintro ⟨_, ⟨isPrefix, rfl⟩, accepted⟩
    exact ⟨isPrefix, accepted⟩
  · rintro ⟨isPrefix, accepted⟩
    exact ⟨_, ⟨isPrefix, rfl⟩, accepted⟩

theorem accepts_oneOf_iff {patterns : List Pattern} :
    (oneOf patterns).Accepts text position ↔
      ∃ pattern ∈ patterns, pattern.Accepts text position := by
  induction patterns with
  | nil => simp [oneOf, Accepts, ends]
  | cons pattern rest ih =>
    cases rest with
    | nil => simp [oneOf]
    | cons next others =>
      rw [List.exists_mem_cons_iff, ← ih]
      simp only [oneOf, Accepts, ends, List.mem_append, exists_or]

/-- A repetition can be tried exactly where the text is long enough in the class. -/
theorem accepts_greedy_iff (allowed : ∀ bound, most = some bound → least ≤ bound) :
    (greedy accepts least most).Accepts text position ↔
      least ≤ ((text.drop position).takeWhile accepts).length := by
  simp only [Accepts, mem_ends_greedy_iff, mem_repetitions_iff]
  constructor
  · rintro ⟨_, count, ⟨atLeast, -, within⟩, -⟩
    exact atLeast.trans within
  · intro within
    exact ⟨_, least, ⟨le_rfl, allowed, within⟩, rfl⟩

/-- A repetition without a bound takes the whole stretch in its class. -/
theorem endAt_greedy :
    (greedy accepts least none).endAt text position =
      if least ≤ ((text.drop position).takeWhile accepts).length then
        some (position + ((text.drop position).takeWhile accepts).length)
      else none := by
  simp only [endAt, ends, repetitions, Option.getD_none, Nat.min_self]
  generalize ((text.drop position).takeWhile accepts).length = run
  split
  · rename_i enough
    rw [List.range_succ, List.filter_append, List.filter_cons_of_pos (by simpa using enough)]
    simp
  · rename_i short
    have nothing : (List.range (run + 1)).filter (least ≤ ·) = [] := by
      refine List.filter_eq_nil_iff.mpr fun count member => ?_
      have := List.mem_range.mp member
      simp only [decide_eq_true_eq]
      omega
    rw [nothing]
    rfl

theorem mem_ends_ahead_iff {body : Pattern} {position stop : Nat} :
    stop ∈ (ahead body).ends text position ↔ body.Accepts text position ∧ stop = position := by
  have isEmpty : body.ends text position = [] ↔ ¬body.Accepts text position := by
    rw [Accepts, List.eq_nil_iff_forall_not_mem, not_exists]
  by_cases accepted : body.Accepts text position
  · simp [ends, isEmpty, accepted]
  · simp [ends, isEmpty, accepted]

/-! ## The leftmost match -/

theorem findSome?_range'_eq_some_iff {found : Nat → Option α} {first count : Nat} {answer : α} :
    (List.range' first count).findSome? found = some answer ↔
      ∃ position, first ≤ position ∧ position < first + count ∧
        found position = some answer ∧
        ∀ earlier, first ≤ earlier → earlier < position → found earlier = none := by
  induction count generalizing first with
  | zero =>
    simp only [List.range'_zero, List.findSome?_nil, reduceCtorEq, false_iff, not_exists]
    omega
  | succ count ih =>
    rw [List.range'_succ, List.findSome?_cons]
    cases isFound : found first with
    | some here =>
      constructor
      · rintro same
        exact ⟨first, le_rfl, by omega, isFound.trans same, by omega⟩
      · rintro ⟨position, later, -, isAnswer, leftmost⟩
        obtain rfl | less := later.eq_or_lt
        · exact isFound.symm.trans isAnswer
        · exact absurd (isFound.symm.trans (leftmost first le_rfl less)) (by simp)
    | none =>
      refine ih.trans (exists_congr fun position => ?_)
      constructor
      · rintro ⟨later, within, isAnswer, leftmost⟩
        refine ⟨by omega, by omega, isAnswer, fun earlier least less => ?_⟩
        obtain rfl | greater := least.eq_or_lt
        · exact isFound
        · exact leftmost earlier greater less
      · rintro ⟨later, within, isAnswer, leftmost⟩
        have different : first ≠ position := by
          rintro rfl
          exact absurd (isFound.symm.trans isAnswer) (by simp)
        exact ⟨by omega, by omega, isAnswer, fun earlier least less =>
          leftmost earlier (by omega) less⟩

/-- The match found is the first from the last index on. -/
theorem exec_eq_some_iff {lastIndex position stop : Nat} :
    pattern.exec text lastIndex = some (position, stop) ↔
      lastIndex ≤ position ∧ position ≤ text.length ∧
        pattern.endAt text position = some stop ∧
        ∀ earlier, lastIndex ≤ earlier → earlier < position →
          pattern.endAt text earlier = none := by
  simp only [exec, findSome?_range'_eq_some_iff, Option.map_eq_some_iff,
    Option.map_eq_none_iff, Prod.mk.injEq]
  constructor
  · rintro ⟨_, later, within, ⟨_, isStop, rfl, rfl⟩, leftmost⟩
    exact ⟨later, by omega, isStop, leftmost⟩
  · rintro ⟨later, within, isStop, leftmost⟩
    exact ⟨position, later, by omega, ⟨stop, isStop, rfl, rfl⟩, leftmost⟩

theorem exec_eq_none_iff {lastIndex : Nat} :
    pattern.exec text lastIndex = none ↔
      ∀ position, lastIndex ≤ position → position ≤ text.length →
        pattern.endAt text position = none := by
  simp only [exec, List.findSome?_eq_none_iff, List.mem_range'_1, Option.map_eq_none_iff]
  exact ⟨fun all position least within => all position (by omega),
    fun all position range => all position range.1 (by omega)⟩

/-- The first code unit outside of a class, or the end of the text, is where the
stretch in the class ends. -/
theorem exec_unit_not (within : position ≤ text.length) :
    ((unit (!accepts ·)).exec text position).elim text.length Prod.fst =
      position + ((text.drop position).takeWhile accepts).length := by
  have none_iff : ∀ index, (unit (!accepts ·)).endAt text index = none ↔
      ∀ found, text[index]? = some found → accepts found = true := by
    intro index
    rw [endAt, ends]
    cases isUnit : text[index]? with
    | none => simp
    | some found => cases accepted : accepts found <;> simp [accepted]
  have short := (List.takeWhile_prefix (l := text.drop position) accepts).length_le
  rw [List.length_drop] at short
  have stretch : ∀ count, position + count ≤ text.length →
      (∀ index, position ≤ index → index < position + count →
        (unit (!accepts ·)).endAt text index = none) →
      count ≤ ((text.drop position).takeWhile accepts).length := by
    intro count inText inClass
    refine le_length_takeWhile_iff.mpr fun offset less => ?_
    have isUnit := List.getElem?_eq_getElem (show position + offset < text.length by omega)
    rw [isUnit, Option.any_some]
    exact (none_iff _).mp (inClass (position + offset) (by omega) (by omega)) _ isUnit
  cases found : (unit (!accepts ·)).exec text position with
  | none =>
    have whole := stretch (text.length - position) (by omega) fun index least less =>
      exec_eq_none_iff.mp found index least (by omega)
    simp only [Option.elim_none]
    omega
  | some outside =>
    obtain ⟨index, stop⟩ := outside
    obtain ⟨least, inText, isStop, leftmost⟩ := exec_eq_some_iff.mp found
    have before := stretch (index - position) (by omega) fun earlier atLeast less =>
      leftmost earlier atLeast (by omega)
    have notBeyond : ¬index - position + 1 ≤
        ((text.drop position).takeWhile accepts).length := by
      intro beyond
      have inClass := le_length_takeWhile_iff.mp beyond (index - position) (by omega)
      rw [Nat.add_sub_cancel' least] at inClass
      have noMatch : (unit (!accepts ·)).endAt text index = none :=
        (none_iff index).mpr fun unit isUnit => by simpa [isUnit] using inClass
      exact absurd (isStop.symm.trans noMatch) (by simp)
    simp only [Option.elim_some]
    omega

/-- A search may start later, up to what it finds. -/
theorem exec_of_le
    {earlier later position stop : Nat}
    (found : pattern.exec text earlier = some (position, stop)) (le : earlier ≤ later)
    (within : later ≤ position) :
    pattern.exec text later = some (position, stop) := by
  obtain ⟨-, inText, isStop, leftmost⟩ := exec_eq_some_iff.mp found
  exact exec_eq_some_iff.mpr ⟨within, inText, isStop, fun other least less =>
    leftmost other (le.trans least) less⟩

/-- Where nothing matches, nothing matches later. -/
theorem exec_none_of_le
    {earlier later : Nat} (none : pattern.exec text earlier = none) (le : earlier ≤ later) :
    pattern.exec text later = .none :=
  exec_eq_none_iff.mpr fun position least within =>
    exec_eq_none_iff.mp none position (le.trans least) within

theorem exec_bounds
    {lastIndex position stop : Nat}
    (found : pattern.exec text lastIndex = some (position, stop)) :
    lastIndex ≤ position ∧ position ≤ stop ∧ stop ≤ text.length := by
  obtain ⟨least, inText, isStop, -⟩ := exec_eq_some_iff.mp found
  have isEnd := mem_ends_of_endAt isStop
  exact ⟨least, le_of_mem_ends isEnd, mem_ends_le inText isEnd⟩

/-! ## Global matching -/

/-- The successive matches from a position on.  After an empty match the search goes
on one position later. -/
def matchAll (pattern : Pattern) (text : JsString)
    (lastIndex : Nat) : List (Nat × Nat) :=
  match _found : pattern.exec text lastIndex with
  | none => []
  | some (position, stop) =>
    (position, stop) :: matchAll pattern text (max stop (position + 1))
termination_by text.length + 1 - lastIndex
decreasing_by
  have := exec_bounds _found
  omega

theorem matchAll_of_none {lastIndex : Nat} (none : pattern.exec text lastIndex = .none) :
    pattern.matchAll text lastIndex = [] := by
  rw [matchAll]
  split
  · rfl
  · next found => exact absurd (none.symm.trans found) (by simp)

theorem matchAll_of_some
    {lastIndex position stop : Nat}
    (found : pattern.exec text lastIndex = some (position, stop)) :
    pattern.matchAll text lastIndex =
      (position, stop) :: pattern.matchAll text (max stop (position + 1)) := by
  rw [matchAll]
  split
  · next none => exact absurd (none.symm.trans found) (by simp)
  · rename_i other isOther
    cases Option.some.inj (isOther.symm.trans found)
    rfl

/-- Positions without a match can be skipped. -/
theorem matchAll_of_endAt_none {earlier later : Nat} (le : earlier ≤ later)
    (noMatch : ∀ position, earlier ≤ position → position < later →
      pattern.endAt text position = none) :
    pattern.matchAll text earlier = pattern.matchAll text later := by
  cases isLater : pattern.exec text later with
  | none =>
    rw [matchAll_of_none isLater, matchAll_of_none]
    refine exec_eq_none_iff.mpr fun position least within => ?_
    obtain less | more := Nat.lt_or_ge position later
    · exact noMatch position least less
    · exact exec_eq_none_iff.mp isLater position more within
  | some found =>
    obtain ⟨position, stop⟩ := found
    obtain ⟨least, inText, isStop, leftmost⟩ := exec_eq_some_iff.mp isLater
    rw [matchAll_of_some isLater, matchAll_of_some]
    refine exec_eq_some_iff.mpr ⟨le.trans least, inText, isStop, fun other atLeast less => ?_⟩
    obtain before | behind := Nat.lt_or_ge other later
    · exact noMatch other atLeast before
    · exact leftmost other behind less

end Pattern
end Relavium.Library
