import Mathlib.Tactic.Common
import Relavium.Library.JsText

/-!
# Command globs

Model of `globMatch` and `commandAllowed` of
`packages/core/src/tools/registry.ts`.  The matcher keeps one point to return to,
the last star.  It decides the language of the glob: whatever an earlier star
could still swallow, the last one can swallow as well.
-/

namespace Relavium.Tools

open Library

/-- `*`. -/
def starUnit : UInt16 := 0x2A

/-- `?`. -/
def questionUnit : UInt16 := 0x3F

/-- The texts a glob stands for: a star for any text, a question mark for any one
code unit, and every other code unit for itself. -/
inductive InGlob : JsString → JsString → Prop
  | done : InGlob [] []
  | star {glob value : JsString} (swallowed : JsString) :
      InGlob glob value →
      InGlob (starUnit :: glob) (swallowed ++ value)
  | question {glob value : JsString} (unit : UInt16) :
      InGlob glob value →
      InGlob (questionUnit :: glob) (unit :: value)
  | literal {glob value : JsString} {unit : UInt16} :
      unit ≠ starUnit →
      unit ≠ questionUnit →
      InGlob glob value →
      InGlob (unit :: glob) (unit :: value)

/-- The variables of the loop of `globMatch`. -/
structure GlobCursor where
  /-- Index into the glob. -/
  g : Nat
  /-- Index into the value. -/
  v : Nat
  /-- Glob index just past the last star. -/
  star : Option Nat
  /-- Value index to resume from when the last star is extended. -/
  mark : Nat
  markLe : mark ≤ v

/-- A glob unit that matches the unit of the value. -/
def unitMatches (gc : UInt16)
    (unit : Option UInt16) : Prop :=
  gc = questionUnit ∨ (gc ≠ starUnit ∧ some gc = unit)

instance (gc : UInt16) (unit : Option UInt16) : Decidable (unitMatches gc unit) :=
  inferInstanceAs (Decidable (_ ∨ _))

/-- The last star swallows one more code unit. -/
def GlobCursor.retry (cursor : GlobCursor) : Option GlobCursor :=
  cursor.star.map fun star =>
    { g := star
      v := cursor.mark + 1
      star := some star
      mark := cursor.mark + 1
      markLe := le_rfl }

/-- One turn of the loop, which returns `false` without a star to return to. -/
def globStep (glob value : JsString)
    (cursor : GlobCursor) : Option GlobCursor :=
  match glob[cursor.g]? with
  | some gc =>
    if unitMatches gc value[cursor.v]? then
      some
        { cursor with
          g := cursor.g + 1
          v := cursor.v + 1
          markLe := Nat.le_succ_of_le cursor.markLe }
    else if gc = starUnit then
      some
        { g := cursor.g + 1
          v := cursor.v
          star := some (cursor.g + 1)
          mark := cursor.v
          markLe := le_rfl }
    else
      cursor.retry
  | none => cursor.retry

variable
  {glob value : JsString}
  {cursor next : GlobCursor}

/-- What one turn can do. -/
theorem globStep_cases (stepped : globStep glob value cursor = some next) :
    (∃ gc, glob[cursor.g]? = some gc ∧ unitMatches gc value[cursor.v]? ∧
      next.g = cursor.g + 1 ∧ next.v = cursor.v + 1 ∧ next.star = cursor.star ∧
      next.mark = cursor.mark) ∨
    (glob[cursor.g]? = some starUnit ∧
      next.g = cursor.g + 1 ∧ next.v = cursor.v ∧ next.star = some (cursor.g + 1) ∧
      next.mark = cursor.v) ∨
    ((∀ gc, glob[cursor.g]? = some gc →
        gc ≠ starUnit ∧ ¬unitMatches gc value[cursor.v]?) ∧
      ∃ star, cursor.star = some star ∧ next.g = star ∧ next.v = cursor.mark + 1 ∧
        next.star = some star ∧ next.mark = cursor.mark + 1) := by
  have retried : cursor.retry = some next →
      ∃ star, cursor.star = some star ∧ next.g = star ∧ next.v = cursor.mark + 1 ∧
        next.star = some star ∧ next.mark = cursor.mark + 1 := by
    intro isRetry
    obtain ⟨star, isStar, rfl⟩ := Option.map_eq_some_iff.mp isRetry
    exact ⟨star, isStar, rfl, rfl, rfl, rfl⟩
  unfold globStep at stepped
  cases isUnit : glob[cursor.g]? with
  | none =>
    rw [isUnit] at stepped
    exact .inr (.inr ⟨fun _ impossible => absurd impossible (by simp), retried stepped⟩)
  | some gc =>
    simp only [isUnit] at stepped
    split at stepped
    · rename_i isMatch
      cases stepped
      exact .inl ⟨gc, rfl, isMatch, rfl, rfl, rfl, rfl⟩
    · rename_i noMatch
      split at stepped
      · rename_i isStar
        cases stepped
        exact .inr (.inl ⟨by rw [isStar], rfl, rfl, rfl, rfl⟩)
      · rename_i notStar
        refine .inr (.inr ⟨fun other isOther => ?_, retried stepped⟩)
        cases isOther
        exact ⟨notStar, noMatch⟩

/-- Every turn goes on in the glob, or lets the last star swallow more. -/
theorem globStep_decreases
    (stepped : globStep glob value cursor = some next) (inside : cursor.v < value.length) :
    Prod.Lex (· < ·) (· < ·) (value.length - next.mark, glob.length - next.g)
      (value.length - cursor.mark, glob.length - cursor.g) := by
  have markLe := cursor.markLe
  obtain ⟨gc, isUnit, -, nextG, -, -, nextMark⟩ | ⟨isUnit, nextG, -, -, nextMark⟩ |
    ⟨-, star, -, -, -, -, nextMark⟩ := globStep_cases stepped
  · have inGlob := (List.getElem?_eq_some_iff.mp isUnit).1
    rw [nextG, nextMark]
    exact .right _ (by omega)
  · have inGlob := (List.getElem?_eq_some_iff.mp isUnit).1
    rw [nextG, nextMark]
    obtain same | less := markLe.eq_or_lt
    · rw [same]
      exact .right _ (by omega)
    · exact .left _ _ (by omega)
  · rw [nextMark]
    exact .left _ _ (by omega)

/-- The loop of `globMatch`: the glob index at which the value is used up. -/
def globScan (glob value : JsString)
    (cursor : GlobCursor) : Option Nat :=
  if _inside : cursor.v < value.length then
    match _stepped : globStep glob value cursor with
    | some next => globScan glob value next
    | none => none
  else
    some cursor.g
termination_by (value.length - cursor.mark, glob.length - cursor.g)
decreasing_by exact globStep_decreases _stepped _inside

/-- The loop over the trailing stars. -/
def skipStars (glob : JsString) (g : Nat) : Nat :=
  g + ((glob.drop g).takeWhile (· = starUnit)).length

/-- `globMatch`. -/
def globMatch (glob value : JsString) : Bool :=
  match globScan glob value { g := 0, v := 0, star := none, mark := 0, markLe := le_rfl } with
  | some g => skipStars glob g = glob.length
  | none => false

/-- The command allowlist of a tool policy. -/
structure ToolPolicy where
  allowedCommands : Option (List JsString)
  allowedCommandGlobs : Option (List JsString)

/-- `commandAllowed`. -/
def commandAllowed (command : JsString) (policy : ToolPolicy) : Bool :=
  (policy.allowedCommands.getD []).contains command ||
    (policy.allowedCommandGlobs.getD []).any (globMatch · command)

/-! ## The language of a glob -/

theorem inGlob_star_iff {glob value : JsString} :
    InGlob (starUnit :: glob) value ↔
      ∃ start ≤ value.length, InGlob glob (value.drop start) := by
  constructor
  · intro inGlob
    generalize isGlob : starUnit :: glob = whole at inGlob
    cases inGlob with
    | done => simp at isGlob
    | @star rest value swallowed inRest =>
      obtain rfl := (List.cons.inj isGlob).2
      refine ⟨swallowed.length, by simp, ?_⟩
      rw [List.drop_left]
      exact inRest
    | question unit => exact absurd (List.cons.inj isGlob).1 (by decide)
    | literal notStar => exact absurd (List.cons.inj isGlob).1.symm notStar
  · rintro ⟨start, -, inGlob⟩
    rw [← List.take_append_drop start value]
    exact .star _ inGlob

theorem inGlob_cons_iff {gc : UInt16} (notStar : gc ≠ starUnit) :
    InGlob (gc :: glob) value ↔
      unitMatches gc value[0]? ∧ value ≠ [] ∧ InGlob glob (value.drop 1) := by
  constructor
  · intro inGlob
    cases inGlob with
    | star => exact absurd rfl notStar
    | question unit inRest => exact ⟨.inl rfl, by simp, inRest⟩
    | literal _ _ inRest => exact ⟨.inr ⟨notStar, rfl⟩, by simp, inRest⟩
  · rintro ⟨isMatch, nonempty, inRest⟩
    cases value with
    | nil => exact absurd rfl nonempty
    | cons unit rest =>
      obtain rfl | ⟨-, same⟩ := isMatch
      · exact .question unit inRest
      · cases same
        by_cases isQuestion : gc = questionUnit
        · subst isQuestion
          exact .question _ inRest
        · exact .literal notStar isQuestion inRest

theorem inGlob_nil_iff {value : JsString} :
    InGlob [] value ↔ value = [] := by
  constructor
  · intro inGlob
    cases inGlob
    rfl
  · rintro rfl
    exact .done

theorem inGlob_empty_iff {glob : JsString} :
    InGlob glob [] ↔ ∀ unit ∈ glob, unit = starUnit := by
  induction glob with
  | nil => simp [inGlob_nil_iff]
  | cons gc rest ih =>
    by_cases isStar : gc = starUnit
    · subst isStar
      rw [inGlob_star_iff, List.forall_mem_cons]
      simp [ih]
    · rw [inGlob_cons_iff isStar]
      simp [isStar]

/-- Glob units without a star use up as many code units. -/
theorem drop_of_inGlob_append
    {segment glob value : JsString} (starFree : ∀ unit ∈ segment, unit ≠ starUnit)
    (inGlob : InGlob (segment ++ glob) value) :
    segment.length ≤ value.length ∧ InGlob glob (value.drop segment.length) := by
  induction segment generalizing value with
  | nil => exact ⟨Nat.zero_le _, inGlob⟩
  | cons gc rest ih =>
    rw [List.cons_append, inGlob_cons_iff (starFree gc List.mem_cons_self)] at inGlob
    obtain ⟨-, nonempty, inRest⟩ := inGlob
    obtain ⟨lengthLe, inGlobRest⟩ := ih
      (fun unit member => starFree unit (List.mem_cons_of_mem gc member)) inRest
    have positive := List.length_pos_iff.mpr nonempty
    rw [List.length_drop] at lengthLe
    rw [List.drop_drop, Nat.add_comm] at inGlobRest
    exact ⟨by rw [List.length_cons]; omega, inGlobRest⟩

/-! ## The loop -/

/-- What the loop has left to find out: the rest of the value is in the language of
the rest of the glob, or the last star swallows more. -/
structure GlobInvariant (glob value : JsString)
    (cursor : GlobCursor) : Prop where
  inGlob : cursor.g ≤ glob.length
  inValue : cursor.v ≤ value.length
  segment : ∀ star, cursor.star = some star →
    star + cursor.v = cursor.g + cursor.mark ∧ star ≤ cursor.g ∧
      ∀ unit ∈ (glob.drop star).take (cursor.g - star), unit ≠ starUnit
  language : InGlob glob value ↔
    InGlob (glob.drop cursor.g) (value.drop cursor.v) ∨
      ∃ star start, cursor.star = some star ∧ cursor.mark < start ∧
        start ≤ value.length ∧ InGlob (glob.drop star) (value.drop start)

/-- What the last star could still swallow, from the position behind it. -/
theorem GlobInvariant.beyond
    {cursor : GlobCursor} {star start : Nat} (invariant : GlobInvariant glob value cursor)
    (isStar : cursor.star = some star) (later : cursor.mark < start)
    (inValue : start ≤ value.length) (inGlob : InGlob (glob.drop star) (value.drop start)) :
    ∃ next, cursor.v < next ∧ next ≤ value.length ∧
      InGlob (glob.drop cursor.g) (value.drop next) := by
  obtain ⟨aligned, starLe, starFree⟩ := invariant.segment star isStar
  have inGlobLe := invariant.inGlob
  have split : glob.drop star =
      (glob.drop star).take (cursor.g - star) ++ glob.drop cursor.g := by
    conv_lhs => rw [← List.take_append_drop (cursor.g - star) (glob.drop star)]
    rw [List.drop_drop, Nat.add_sub_cancel' starLe]
  have segmentLength : ((glob.drop star).take (cursor.g - star)).length =
      cursor.g - star := by
    rw [List.length_take, List.length_drop]
    omega
  rw [split] at inGlob
  obtain ⟨lengthLe, inRest⟩ := drop_of_inGlob_append starFree inGlob
  rw [segmentLength, List.length_drop] at lengthLe
  rw [segmentLength, List.drop_drop] at inRest
  exact ⟨start + (cursor.g - star), by omega, by omega, inRest⟩

/-- Every turn keeps what the loop has to find out. -/
theorem GlobInvariant.step
    (invariant : GlobInvariant glob value cursor) (inside : cursor.v < value.length)
    (stepped : globStep glob value cursor = some next) :
    GlobInvariant glob value next := by
  have markLe := cursor.markLe
  obtain ⟨gc, isUnit, isMatch, nextG, nextV, nextStar, nextMark⟩ |
    ⟨isUnit, nextG, nextV, nextStar, nextMark⟩ |
    ⟨mismatch, star, isStar, nextG, nextV, nextStar, nextMark⟩ := globStep_cases stepped
  · have inGlob := (List.getElem?_eq_some_iff.mp isUnit).1
    have notStar : gc ≠ starUnit := by
      rintro rfl
      obtain impossible | ⟨impossible, -⟩ := isMatch
      · exact absurd impossible (by decide)
      · exact impossible rfl
    refine ⟨by omega, by omega, fun star isStar => ?_, ?_⟩
    · rw [nextStar] at isStar
      obtain ⟨aligned, starLe, starFree⟩ := invariant.segment star isStar
      refine ⟨by omega, by omega, ?_⟩
      rw [nextG, show cursor.g + 1 - star = (cursor.g - star) + 1 by omega,
        List.take_add_one, List.getElem?_drop,
        show star + (cursor.g - star) = cursor.g by omega, isUnit]
      intro unit member
      obtain earlier | last := List.mem_append.mp member
      · exact starFree unit earlier
      · obtain rfl : unit = gc := by simpa using last
        exact notStar
    · rw [invariant.language, nextG, nextV, nextStar, nextMark, JsText.drop_eq_cons isUnit,
        inGlob_cons_iff notStar, List.getElem?_drop, List.drop_drop]
      have nonempty : value.drop cursor.v ≠ [] := by simpa using inside
      simp only [Nat.add_zero, isMatch, nonempty, ne_eq, not_false_eq_true, true_and]
  · have inGlob := (List.getElem?_eq_some_iff.mp isUnit).1
    refine ⟨by omega, by omega, fun star isStar => ?_, ?_⟩
    · cases nextStar.symm.trans isStar
      exact ⟨by omega, by omega, by simp [nextG]⟩
    · -- What an earlier star could swallow, the new one can swallow as well.
      have absorbed : (InGlob (glob.drop cursor.g) (value.drop cursor.v) ∨
          ∃ star start, cursor.star = some star ∧ cursor.mark < start ∧
            start ≤ value.length ∧ InGlob (glob.drop star) (value.drop start)) ↔
          ∃ start, cursor.v ≤ start ∧ start ≤ value.length ∧
            InGlob (glob.drop (cursor.g + 1)) (value.drop start) := by
        have fromStar : ∀ position, cursor.v ≤ position → position ≤ value.length →
            InGlob (glob.drop cursor.g) (value.drop position) →
            ∃ start, cursor.v ≤ start ∧ start ≤ value.length ∧
              InGlob (glob.drop (cursor.g + 1)) (value.drop start) := by
          intro position later inValue inStar
          rw [JsText.drop_eq_cons isUnit, inGlob_star_iff] at inStar
          obtain ⟨swallowed, swallowedLe, inRest⟩ := inStar
          rw [List.length_drop] at swallowedLe
          rw [List.drop_drop] at inRest
          exact ⟨position + swallowed, by omega, by omega, inRest⟩
        constructor
        · rintro (inHere | ⟨star, start, isStar, later, inValue, inEarlier⟩)
          · exact fromStar cursor.v le_rfl inside.le inHere
          · obtain ⟨position, beyond, fromLe, inStar⟩ :=
              invariant.beyond isStar later inValue inEarlier
            exact fromStar position beyond.le fromLe inStar
        · rintro ⟨start, later, inValue, inRest⟩
          refine .inl ?_
          rw [JsText.drop_eq_cons isUnit, inGlob_star_iff]
          refine ⟨start - cursor.v, ?_, ?_⟩
          · rw [List.length_drop]
            omega
          · rw [List.drop_drop, show cursor.v + (start - cursor.v) = start by omega]
            exact inRest
      rw [invariant.language, absorbed, nextG, nextV, nextStar, nextMark]
      constructor
      · rintro ⟨start, later, inValue, inRest⟩
        obtain rfl | beyond := later.eq_or_lt
        · exact .inl inRest
        · exact .inr ⟨_, start, rfl, beyond, inValue, inRest⟩
      · rintro (inRest | ⟨star, start, isStar, later, inValue, inRest⟩)
        · exact ⟨cursor.v, le_rfl, inside.le, inRest⟩
        · cases isStar
          exact ⟨start, later.le, inValue, inRest⟩
  · obtain ⟨aligned, starLe, -⟩ := invariant.segment star isStar
    have inGlobLe := invariant.inGlob
    -- Nothing matches here, so only the last star can.
    have notHere : ¬InGlob (glob.drop cursor.g) (value.drop cursor.v) := by
      cases isUnit : glob[cursor.g]? with
      | none =>
        rw [List.drop_of_length_le (List.getElem?_eq_none_iff.mp isUnit), inGlob_nil_iff]
        simpa using inside
      | some gc =>
        obtain ⟨notStar, noMatch⟩ := mismatch gc isUnit
        rw [JsText.drop_eq_cons isUnit, inGlob_cons_iff notStar, List.getElem?_drop]
        exact fun inHere => noMatch inHere.1
    refine ⟨by omega, by omega, fun other isOther => ?_, ?_⟩
    · cases nextStar.symm.trans isOther
      exact ⟨by omega, by omega, by simp [nextG]⟩
    · rw [invariant.language, nextG, nextV, nextStar, nextMark]
      constructor
      · rintro (inHere | ⟨other, start, isOther, later, inValue, inRest⟩)
        · exact absurd inHere notHere
        · cases isStar.symm.trans isOther
          obtain rfl | beyond := (Nat.succ_le_of_lt later).eq_or_lt
          · exact .inl inRest
          · exact .inr ⟨_, start, rfl, beyond, inValue, inRest⟩
      · rintro (inRest | ⟨other, start, isOther, later, inValue, inRest⟩)
        · exact .inr ⟨star, _, isStar, Nat.lt_succ_self _, by omega, inRest⟩
        · cases isOther
          exact .inr ⟨_, start, isStar, by omega, inValue, inRest⟩

/-- Without a star to return to, a mismatch is final. -/
theorem GlobInvariant.refused
    {cursor : GlobCursor} (invariant : GlobInvariant glob value cursor)
    (inside : cursor.v < value.length) (stopped : globStep glob value cursor = none) :
    ¬InGlob glob value := by
  have noStar : cursor.star = none := by
    unfold globStep GlobCursor.retry at stopped
    split at stopped
    · split at stopped
      · cases stopped
      · split at stopped
        · cases stopped
        · exact Option.map_eq_none_iff.mp stopped
    · exact Option.map_eq_none_iff.mp stopped
  rw [invariant.language]
  rintro (inHere | ⟨star, _, isStar, _⟩)
  · unfold globStep at stopped
    cases isUnit : glob[cursor.g]? with
    | none =>
      rw [List.drop_of_length_le (List.getElem?_eq_none_iff.mp isUnit), inGlob_nil_iff] at inHere
      exact absurd inHere (by simpa using inside)
    | some gc =>
      simp only [isUnit] at stopped
      split at stopped
      · cases stopped
      · rename_i noMatch
        split at stopped
        · cases stopped
        · rename_i notStar
          rw [JsText.drop_eq_cons isUnit, inGlob_cons_iff notStar, List.getElem?_drop] at inHere
          exact noMatch inHere.1
  · exact absurd (isStar.symm.trans noStar) (by simp)

/-- Only trailing stars may be left of the glob. -/
theorem skipStars_eq_length_iff {glob : JsString} {g : Nat} (inGlob : g ≤ glob.length) :
    skipStars glob g = glob.length ↔ ∀ unit ∈ glob.drop g, unit = starUnit := by
  have rest := List.length_drop (i := g) (l := glob)
  have all : (glob.drop g).takeWhile (fun unit => decide (unit = starUnit)) =
      glob.drop g ↔ _ := List.takeWhile_eq_self_iff
  have short := (List.takeWhile_prefix (l := glob.drop g)
    (fun unit => decide (unit = starUnit))).length_le
  simp only [decide_eq_true_eq] at all
  rw [← all]
  unfold skipStars
  constructor
  · intro whole
    exact (List.takeWhile_prefix _).eq_of_length (by omega)
  · intro whole
    rw [whole]
    omega

/-- A loop that ends has decided the language. -/
theorem GlobInvariant.scan {cursor : GlobCursor} (invariant : GlobInvariant glob value cursor) :
    (∃ g, globScan glob value cursor = some g ∧ skipStars glob g = glob.length) ↔
      InGlob glob value := by
  fun_induction globScan glob value cursor with
  | case1 cursor inside next stepped ih =>
    exact ih (invariant.step inside stepped)
  | case2 cursor inside stopped =>
    have refused := invariant.refused inside stopped
    simp [refused]
  | case3 cursor outside =>
    have atEnd : cursor.v = value.length := Nat.le_antisymm invariant.inValue (by omega)
    have noBeyond : ¬∃ star start, cursor.star = some star ∧ cursor.mark < start ∧
        start ≤ value.length ∧ InGlob (glob.drop star) (value.drop start) := by
      rintro ⟨star, start, isStar, later, inValue, inRest⟩
      obtain ⟨next, beyond, nextLe, -⟩ := invariant.beyond isStar later inValue inRest
      omega
    rw [invariant.language, or_iff_left noBeyond, atEnd, List.drop_length,
      inGlob_empty_iff, ← skipStars_eq_length_iff invariant.inGlob]
    simp

/-- `globMatch` is true exactly on the language of the glob. -/
theorem globMatch_iff (glob value : JsString) :
    globMatch glob value = true ↔ InGlob glob value := by
  have start : GlobInvariant glob value
      { g := 0, v := 0, star := none, mark := 0, markLe := le_rfl } :=
    ⟨Nat.zero_le _, Nat.zero_le _, fun _ impossible => absurd impossible (by simp),
      by simp⟩
  rw [← start.scan, globMatch]
  cases globScan glob value _ with
  | none | some g => simp

/-- The matcher decides the language of a glob, and a command is allowed exactly when
it is listed or in the language of a listed glob. -/
theorem commandAllowed_iff :
    (∀ glob value, globMatch glob value = true ↔ InGlob glob value) ∧
      ∀ command policy, commandAllowed command policy = true ↔
        command ∈ policy.allowedCommands.getD [] ∨
          ∃ glob ∈ policy.allowedCommandGlobs.getD [], InGlob glob command := by
  refine ⟨globMatch_iff, fun command policy => ?_⟩
  simp only [commandAllowed, Bool.or_eq_true, List.contains_iff_mem, List.any_eq_true,
    globMatch_iff]

end Relavium.Tools
