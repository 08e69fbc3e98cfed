import Relavium.Library.Pattern

/-!
# Standalone credentials

The alternation of `STANDALONE_CREDENTIAL_FRAGMENTS` of
`packages/core/src/tools/bounding.ts`: for each family a prefix of bounded width
and a body, where a lookahead enforces the least length before one greedy run.
-/

namespace Relavium.Tools

open Library

/-- `[\w-]`. -/
def isRunUnit (unit : UInt16) : Bool :=
  JsText.isWord unit || unit = 0x2D

/-- `[A-Za-z0-9]`. -/
def isAlphanumeric (unit : UInt16) : Bool :=
  JsText.isLetter unit || JsText.isDigit unit

/-- `[0-9A-Z]`. -/
def isCapitalOrDigit (unit : UInt16) : Bool :=
  JsText.isDigit unit || decide (65 ≤ unit.toNat ∧ unit.toNat ≤ 90)

/-- `[A-Za-z0-9-]`. -/
def isAlphanumericOrDash (unit : UInt16) : Bool :=
  isAlphanumeric unit || unit = 0x2D

/-- One of some characters. -/
def isOneOf (units : JsString) (unit : UInt16) : Bool :=
  units.contains unit

/-- `(?=[class]{least})[class]+`. -/
def boundedRun (accepts : UInt16 → Bool) (least : Nat) : Pattern :=
  .concat (.ahead (.greedy accepts least (some least))) (.greedy accepts 1 none)

/-- A credential family. -/
structure CredentialFragment where
  fragmentPrefix : Pattern
  body : Pattern

/-- The prefix and then the body. -/
def CredentialFragment.whole (fragment : CredentialFragment) : Pattern :=
  .concat fragment.fragmentPrefix fragment.body

/-- `STANDALONE_CREDENTIAL_FRAGMENTS`. -/
def standaloneCredentialFragments : List CredentialFragment :=
  [{ fragmentPrefix := .literal (jsText "sk-"), body := boundedRun isRunUnit 16 },
    { fragmentPrefix :=
        .concat (.literal (jsText "sk_"))
          (.concat (.choice (.literal (jsText "live")) (.literal (jsText "test")))
            (.literal (jsText "_")))
      body := boundedRun isAlphanumeric 16 },
    { fragmentPrefix :=
        .concat (.literal (jsText "A"))
          (.concat (.unit (isOneOf (jsText "KSB"))) (.literal (jsText "IA")))
      body := .greedy isCapitalOrDigit 16 (some 16) },
    { fragmentPrefix :=
        .concat (.literal (jsText "gh"))
          (.concat (.unit (isOneOf (jsText "pousr"))) (.literal (jsText "_")))
      body := boundedRun isAlphanumeric 20 },
    { fragmentPrefix := .literal (jsText "github_pat_"), body := boundedRun JsText.isWord 20 },
    { fragmentPrefix := .literal (jsText "glpat-"), body := boundedRun isRunUnit 16 },
    { fragmentPrefix :=
        .concat (.literal (jsText "xox"))
          (.concat (.unit (isOneOf (jsText "baprs"))) (.literal (jsText "-")))
      body := boundedRun isAlphanumericOrDash 10 },
    { fragmentPrefix := .literal (jsText "AIza"), body := boundedRun isRunUnit 30 },
    { fragmentPrefix := .literal (jsText "ya29."), body := boundedRun isRunUnit 20 },
    { fragmentPrefix := .literal (jsText "hf_"), body := boundedRun isAlphanumeric 20 },
    { fragmentPrefix := .literal (jsText "npm_"), body := boundedRun isAlphanumeric 20 },
    { fragmentPrefix := .literal (jsText "eyJ")
      body :=
        .concat (boundedRun isRunUnit 10)
          (.concat (.literal (jsText "."))
            (.concat (boundedRun isRunUnit 10)
              (.concat (.literal (jsText ".")) (boundedRun isRunUnit 6)))) }]

/-- `JOINED_STANDALONE_CREDENTIAL`. -/
def joinedStandaloneCredential : Pattern :=
  .oneOf (standaloneCredentialFragments.map CredentialFragment.whole)

/-- `STANDALONE_CREDENTIAL_PREFIX`. -/
def standaloneCredentialPrefix : Pattern :=
  .oneOf (standaloneCredentialFragments.map CredentialFragment.fragmentPrefix)

/-- The run of token characters that stands at the front. -/
def frontRun (rest : JsString) : JsString :=
  rest.takeWhile isRunUnit

/-- What stands behind the run and a dot. -/
def afterRun (rest : JsString) : Option JsString :=
  match frontRun rest, rest.dropWhile isRunUnit with
  | _ :: _, unit :: behind => if unit = 0x2E then some behind else none
  | _, _ => none

theorem afterRun_eq_some_iff {rest behind : JsString} :
    afterRun rest = some behind ↔
      frontRun rest ≠ [] ∧ rest = frontRun rest ++ 0x2E :: behind := by
  have split : frontRun rest ++ rest.dropWhile isRunUnit = rest :=
    List.takeWhile_append_dropWhile
  have behindRun : rest = frontRun rest ++ 0x2E :: behind ↔
      rest.dropWhile isRunUnit = 0x2E :: behind := by
    constructor
    · intro isRest
      exact List.append_cancel_left (split.trans isRest)
    · intro isBehind
      rw [← isBehind, split]
  rw [behindRun]
  unfold afterRun
  cases isRun : frontRun rest with
  | nil => simp
  | cons first others =>
    cases isDrop : rest.dropWhile isRunUnit with
    | nil => simp
    | cons unit further =>
      by_cases isDot : unit = 0x2E
      · simp [isDot]
      · simp [isDot]

theorem frontRun_append_drop (rest : JsString) :
    frontRun rest ++ rest.drop (frontRun rest).length = rest := by
  have isTake : frontRun rest = rest.take (frontRun rest).length :=
    List.prefix_iff_eq_take.mp (List.takeWhile_prefix _)
  have whole := List.take_append_drop (frontRun rest).length rest
  rwa [← isTake] at whole

theorem drop_of_afterRun {rest behind : JsString} (isAfter : afterRun rest = some behind) :
    rest.drop (frontRun rest).length = 0x2E :: behind :=
  List.append_cancel_left ((frontRun_append_drop rest).trans (afterRun_eq_some_iff.mp isAfter).2)

theorem eq_length_of_dot
    {rest behind : JsString} {count : Nat} (within : count ≤ (frontRun rest).length)
    (isDot : rest.drop count = 0x2E :: behind) :
    count = (frontRun rest).length := by
  obtain less | same := within.lt_or_eq
  · have isUnit := List.getElem?_eq_getElem less
    have inRun := List.mem_takeWhile_imp (List.mem_of_getElem? isUnit)
    have isHere : rest[count]? = (frontRun rest)[count]? := by
      obtain ⟨others, isRest⟩ := List.takeWhile_prefix (l := rest) isRunUnit
      conv_lhs => rw [← isRest]
      exact List.getElem?_append_left less
    have dotHere : rest[count]? = some 0x2E := by
      rw [← Nat.add_zero count, ← List.getElem?_drop, isDot]
      rfl
    rw [isUnit, dotHere] at isHere
    rw [← Option.some.inj isHere] at inRun
    exact absurd inRun (by decide)
  · exact same

/-! ## Patterns that stay in a run -/

/-- A pattern whose matches stay in the run, within a width of its start. -/
def RunLocal (pattern : Pattern) (width : Nat) : Prop :=
  ∀ text position other otherPosition,
    (frontRun (text.drop position)).take width =
      (frontRun (other.drop otherPosition)).take width →
    ∀ stop, stop ∈ pattern.ends text position →
      ∃ offset, stop = position + offset ∧ offset ≤ width ∧
        offset ≤ (frontRun (text.drop position)).length ∧
        otherPosition + offset ∈ pattern.ends other otherPosition

theorem frontRun_drop
    {rest : JsString} {offset : Nat} (within : offset ≤ (frontRun rest).length) :
    frontRun (rest.drop offset) = (frontRun rest).drop offset := by
  induction offset generalizing rest with
  | zero => rfl
  | succ offset ih =>
    cases rest with
    | nil => simp [frontRun]
    | cons unit others =>
      unfold frontRun at within ⊢
      cases isRun : isRunUnit unit with
      | false => simp [isRun] at within
      | true =>
        rw [List.takeWhile_cons, if_pos isRun] at within ⊢
        exact ih (Nat.le_of_succ_le_succ within)

namespace RunLocal

/-- Token characters at the front of a text are at the front of any text whose run
agrees with its run so far. -/
theorem prefix_transfer
    {expected rest other : JsString} {width : Nat}
    (inRun : ∀ unit ∈ expected, isRunUnit unit = true)
    (agree : (frontRun rest).take width = (frontRun other).take width)
    (short : expected.length ≤ width) (isPrefix : expected <+: rest) :
    expected.length ≤ (frontRun rest).length ∧ expected <+: other := by
  obtain ⟨behind, rfl⟩ := isPrefix
  have isRun : frontRun (expected ++ behind) = expected ++ frontRun behind :=
    List.takeWhile_append_of_pos inRun
  have inOther : expected <+: (frontRun other).take width := by
    rw [← agree, isRun, List.prefix_take_iff]
    exact ⟨List.prefix_append _ _, short⟩
  refine ⟨?_, (inOther.trans (List.take_prefix _ _)).trans (List.takeWhile_prefix _)⟩
  rw [isRun, List.length_append]
  exact Nat.le_add_right _ _

theorem literal
    {expected : JsString} {width : Nat} (inRun : ∀ unit ∈ expected, isRunUnit unit = true)
    (isLength : expected.length = width) :
    RunLocal (.literal expected) width := by
  intro text position other otherPosition agree stop isStop
  obtain ⟨isPrefix, rfl⟩ := Pattern.mem_ends_literal_iff.mp isStop
  obtain ⟨within, inOther⟩ := prefix_transfer inRun agree isLength.le isPrefix
  exact ⟨_, rfl, isLength.le, within, Pattern.mem_ends_literal_iff.mpr ⟨inOther, rfl⟩⟩

theorem unit
    {accepts : UInt16 → Bool} (inRun : ∀ unit, accepts unit = true → isRunUnit unit = true) :
    RunLocal (.unit accepts) 1 := by
  intro text position other otherPosition agree stop isStop
  obtain ⟨isUnit, rfl⟩ := Pattern.mem_ends_unit_iff.mp isStop
  obtain ⟨unit, isThere, accepted⟩ := (Option.any_eq_true _ _).mp isUnit
  have isPrefix : [unit] <+: text.drop position := by
    rw [List.drop_eq_getElem_cons (List.getElem?_eq_some_iff.mp isThere).1,
      (List.getElem?_eq_some_iff.mp isThere).2]
    exact List.prefix_append [unit] _
  obtain ⟨within, behind, isOther⟩ :=
    prefix_transfer (by simpa using inRun unit accepted) agree le_rfl isPrefix
  refine ⟨1, rfl, le_rfl, within, Pattern.mem_ends_unit_iff.mpr ⟨?_, rfl⟩⟩
  have isThere : (other.drop otherPosition)[0]? = some unit := by
    rw [← isOther]
    rfl
  rw [List.getElem?_drop, Nat.add_zero] at isThere
  rw [isThere]
  exact accepted

theorem exactly
    {accepts : UInt16 → Bool} (inRun : ∀ unit, accepts unit = true → isRunUnit unit = true)
    (count : Nat) :
    RunLocal (.greedy accepts count (some count)) count := by
  intro text position other otherPosition agree stop isStop
  obtain ⟨given, isGiven, rfl⟩ := Pattern.mem_ends_greedy_iff.mp isStop
  obtain ⟨atLeast, atMost, long⟩ := Pattern.mem_repetitions_iff.mp isGiven
  obtain rfl : given = count := Nat.le_antisymm (atMost count rfl) atLeast
  let expected := ((text.drop position).takeWhile accepts).take given
  have isLength : expected.length = given := by
    rw [List.length_take, Nat.min_eq_left long]
  have accepted : ∀ unit ∈ expected, accepts unit = true := fun unit member =>
    List.mem_takeWhile_imp (List.mem_of_mem_take member)
  have isPrefix : expected <+: text.drop position :=
    (List.take_prefix _ _).trans (List.takeWhile_prefix _)
  obtain ⟨within, behind, isOther⟩ := prefix_transfer
    (fun unit member => inRun unit (accepted unit member)) agree isLength.le isPrefix
  rw [isLength] at within
  refine ⟨given, rfl, le_rfl, within, Pattern.mem_ends_greedy_iff.mpr
    ⟨given, Pattern.mem_repetitions_iff.mpr ⟨le_rfl, atMost, ?_⟩, rfl⟩⟩
  rw [← isOther, List.takeWhile_append_of_pos accepted, List.length_append, isLength]
  exact Nat.le_add_right _ _

theorem concat
    {first second : Pattern} {firstWidth secondWidth : Nat}
    (firstLocal : RunLocal first firstWidth) (secondLocal : RunLocal second secondWidth) :
    RunLocal (.concat first second) (firstWidth + secondWidth) := by
  intro text position other otherPosition agree stop isStop
  obtain ⟨middle, isMiddle, isLast⟩ := Pattern.mem_ends_concat_iff.mp isStop
  have agreeFirst : (frontRun (text.drop position)).take firstWidth =
      (frontRun (other.drop otherPosition)).take firstWidth := by
    have taken := congrArg (List.take firstWidth) agree
    rwa [List.take_take, List.take_take, Nat.min_eq_left (Nat.le_add_right _ _)] at taken
  obtain ⟨offset, rfl, short, inRun, isThere⟩ :=
    firstLocal text position other otherPosition agreeFirst middle isMiddle
  -- Behind the first match the runs agree as far as the second one goes.
  have otherInRun : offset ≤ (frontRun (other.drop otherPosition)).length := by
    have lengths := congrArg List.length agreeFirst
    rw [List.length_take, List.length_take] at lengths
    omega
  have agreeSecond : (frontRun (text.drop (position + offset))).take secondWidth =
      (frontRun (other.drop (otherPosition + offset))).take secondWidth := by
    rw [← List.drop_drop, ← List.drop_drop, frontRun_drop inRun, frontRun_drop otherInRun]
    have dropped := congrArg (fun run => (run.drop offset).take secondWidth) agree
    simp only [List.drop_take, List.take_take] at dropped
    rwa [Nat.min_eq_left (by omega)] at dropped
  obtain ⟨further, rfl, shortFurther, inRunFurther, isThereFurther⟩ :=
    secondLocal text (position + offset) other (otherPosition + offset) agreeSecond stop isLast
  rw [← List.drop_drop, frontRun_drop inRun, List.length_drop] at inRunFurther
  refine ⟨offset + further, Nat.add_assoc _ _ _, by omega, by omega,
    Pattern.mem_ends_concat_iff.mpr ⟨_, isThere, ?_⟩⟩
  rw [← Nat.add_assoc]
  exact isThereFurther

theorem choice
    {first second : Pattern} {width : Nat} (firstLocal : RunLocal first width)
    (secondLocal : RunLocal second width) :
    RunLocal (.choice first second) width := by
  intro text position other otherPosition agree stop isStop
  obtain isFirst | isSecond := List.mem_append.mp isStop
  · obtain ⟨offset, isOffset, short, inRun, isThere⟩ :=
      firstLocal text position other otherPosition agree stop isFirst
    exact ⟨offset, isOffset, short, inRun, List.mem_append_left _ isThere⟩
  · obtain ⟨offset, isOffset, short, inRun, isThere⟩ :=
      secondLocal text position other otherPosition agree stop isSecond
    exact ⟨offset, isOffset, short, inRun, List.mem_append_right _ isThere⟩

/-- Texts whose runs agree far enough match alike. -/
theorem accepts_iff
    {pattern : Pattern} {width position otherPosition : Nat} {text other : JsString}
    (isLocal : RunLocal pattern width)
    (agree : (frontRun (text.drop position)).take width =
      (frontRun (other.drop otherPosition)).take width) :
    pattern.Accepts text position ↔ pattern.Accepts other otherPosition := by
  constructor
  · rintro ⟨stop, isStop⟩
    obtain ⟨offset, -, -, -, isThere⟩ :=
      isLocal text position other otherPosition agree stop isStop
    exact ⟨_, isThere⟩
  · rintro ⟨stop, isStop⟩
    obtain ⟨offset, -, -, -, isHere⟩ :=
      isLocal other otherPosition text position agree.symm stop isStop
    exact ⟨_, isHere⟩

end RunLocal

/-! ## Runs with a least length -/

variable {least position : Nat} {text : JsString}

/-- A run with a lookahead can be matched exactly where the lookahead can. -/
theorem accepts_boundedRun_iff {accepts : UInt16 → Bool} (positive : 0 < least) :
    (boundedRun accepts least).Accepts text position ↔
      least ≤ ((text.drop position).takeWhile accepts).length := by
  have window := @Pattern.accepts_greedy_iff text accepts least (some least) position
    (fun bound isBound => (Option.some.inj isBound).le)
  have run := @Pattern.accepts_greedy_iff text accepts 1 none position
    (fun _ impossible => absurd impossible (by simp))
  rw [boundedRun, Pattern.accepts_concat_iff]
  simp only [Pattern.mem_ends_ahead_iff, and_assoc, window]
  constructor
  · rintro ⟨_, atLeast, rfl, -⟩
    exact atLeast
  · intro atLeast
    exact ⟨position, atLeast, rfl, run.mpr (positive.trans_le atLeast)⟩

/-- In front of a run with a lookahead only the lookahead matters. -/
theorem accepts_concat_boundedRun_iff
    {lead : Pattern} {accepts : UInt16 → Bool} (positive : 0 < least) :
    (Pattern.concat lead (boundedRun accepts least)).Accepts text position ↔
      (Pattern.concat lead (.greedy accepts least (some least))).Accepts text position := by
  rw [Pattern.accepts_concat_iff, Pattern.accepts_concat_iff]
  refine exists_congr fun middle => and_congr_right fun _ => ?_
  rw [accepts_boundedRun_iff positive, Pattern.accepts_greedy_iff
    (fun bound isBound => (Option.some.inj isBound).le)]

theorem accepts_boundedRun_dot_iff
    {behind : Pattern} (positive : 0 < least) (anchorFree : behind.AnchorFree) :
    (Pattern.concat (boundedRun isRunUnit least)
        (.concat (.literal (jsText ".")) behind)).Accepts text position ↔
      least ≤ (frontRun (text.drop position)).length ∧
        ∃ rest, afterRun (text.drop position) = some rest ∧ behind.Accepts rest 0 := by
  have dotText : jsText "." = [0x2E] := by decide
  have window := @Pattern.accepts_greedy_iff text isRunUnit least (some least) position
    (fun bound isBound => (Option.some.inj isBound).le)
  rw [Pattern.accepts_concat_iff]
  constructor
  · rintro ⟨middle, isMiddle, accepted⟩
    obtain ⟨start, isAhead, isRun⟩ := Pattern.mem_ends_concat_iff.mp isMiddle
    obtain ⟨looked, isStart⟩ := Pattern.mem_ends_ahead_iff.mp isAhead
    rw [isStart] at isRun
    obtain ⟨count, isCount, rfl⟩ := Pattern.mem_ends_greedy_iff.mp isRun
    obtain ⟨some, -, within⟩ := Pattern.mem_repetitions_iff.mp isCount
    obtain ⟨⟨rest, isDot⟩, behindAccepts⟩ := Pattern.accepts_literal_concat_iff.mp accepted
    rw [dotText, List.singleton_append, ← List.drop_drop] at isDot
    have isWhole := eq_length_of_dot within isDot.symm
    refine ⟨window.mp looked, rest, afterRun_eq_some_iff.mpr ⟨?_, ?_⟩, ?_⟩
    · intro empty
      rw [empty] at isWhole
      simp only [List.length_nil] at isWhole
      omega
    · conv_lhs => rw [← frontRun_append_drop (text.drop position), ← isWhole, ← isDot]
    · have isRest : text.drop (position + count + 1) = rest := by
        rw [← List.drop_drop, ← List.drop_drop, ← isDot]
        rfl
      rw [dotText, List.length_singleton] at behindAccepts
      rw [← isRest, ← Pattern.accepts_drop_iff anchorFree]
      exact behindAccepts
  · rintro ⟨atLeast, rest, isAfter, behindAccepts⟩
    have isDot := drop_of_afterRun isAfter
    refine ⟨position + (frontRun (text.drop position)).length,
      Pattern.mem_ends_concat_iff.mpr ⟨position,
        Pattern.mem_ends_ahead_iff.mpr ⟨window.mpr atLeast, rfl⟩,
        Pattern.mem_ends_greedy_iff.mpr ⟨_, Pattern.mem_repetitions_iff.mpr
          ⟨positive.trans_le atLeast, fun _ impossible => absurd impossible (by simp),
            le_rfl⟩, rfl⟩⟩,
      Pattern.accepts_literal_concat_iff.mpr ⟨?_, ?_⟩⟩
    · rw [← List.drop_drop, isDot, dotText]
      exact List.prefix_append [0x2E] rest
    · have isRest : text.drop (position + (frontRun (text.drop position)).length + 1) =
          rest := by
        rw [← List.drop_drop, ← List.drop_drop, isDot]
        rfl
      rw [← isRest, ← Pattern.accepts_drop_iff anchorFree] at behindAccepts
      rw [dotText, List.length_singleton]
      exact behindAccepts

end Relavium.Tools
