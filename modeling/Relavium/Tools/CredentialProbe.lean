import Relavium.Tools.CredentialPatterns
import Relavium.Tools.JoinedView

/-!
# Probing for a credential

Model of `joinedCredentialProbe` and `visitJoinedStandaloneCredentials` of
`packages/core/src/tools/bounding.ts`.  A probe keeps the first characters of at
most three runs with dots between them, and finds the ends of the runs in a cache.
It matches exactly where the whole text does.
-/

namespace Relavium.Tools

open Library

/-- A run whose end is known. -/
structure CachedRun where
  start : Nat
  stop : Nat

/-- The characters of a run that a probe keeps. -/
def probeWidth : Nat := 64

/-- `runEnd`: the end of the run, and the three runs that are known then. -/
def runEnd (joined : JsString) (runs : List CachedRun)
    (start : Nat) : Nat × List CachedRun :=
  match runs.find? (fun run => run.start ≤ start ∧ start < run.stop) with
  | some cached => (cached.stop, runs)
  | none =>
    let stop :=
      ((Pattern.unit (!isRunUnit ·)).exec joined start).elim joined.length Prod.fst
    if start < stop then
      let longer := runs ++ [{ start, stop }]
      (stop, if 3 < longer.length then longer.drop 1 else longer)
    else
      (stop, runs)

/-- The turns of a probe: a run and, when a dot follows, the next one. -/
def probeFrom (joined : JsString) :
    Nat → List CachedRun → Nat → JsString × List CachedRun
  | 0, runs, _ => ([], runs)
  | turns + 1, runs, start =>
    let (stop, runs) := runEnd joined runs start
    let preview := slice joined start (min stop (start + probeWidth))
    if stop = start ∨ joined[stop]? ≠ some 0x2E then
      (preview, runs)
    else
      let (rest, runs) := probeFrom joined turns runs (stop + 1)
      (preview ++ 0x2E :: rest, runs)

/-- One call of the probe, with the runs that are known before and after. -/
def joinedCredentialProbe (joined : JsString) (runs : List CachedRun)
    (start : Nat) : JsString × List CachedRun :=
  probeFrom joined 3 runs start

/-! ## What a probe sees -/

/-- A run, shortened, and what follows it behind a dot. -/
def previewOf : Nat → JsString → JsString
  | 0, _ => []
  | turns + 1, rest =>
    (frontRun rest).take probeWidth ++
      match afterRun rest with
      | some behind => 0x2E :: previewOf turns behind
      | none => []

theorem frontRun_previewOf (turns : Nat) (rest : JsString) :
    frontRun (previewOf (turns + 1) rest) = (frontRun rest).take probeWidth := by
  have inRun : ∀ unit ∈ (frontRun rest).take probeWidth, isRunUnit unit = true :=
    fun unit member => List.mem_takeWhile_imp (List.mem_of_mem_take member)
  rw [previewOf]
  conv_lhs => rw [frontRun, List.takeWhile_append_of_pos inRun]
  cases afterRun rest with
  | none => simp
  | some behind =>
    rw [List.takeWhile_cons_of_neg (by decide), List.append_nil]

theorem afterRun_previewOf (turns : Nat) (rest : JsString) :
    afterRun (previewOf (turns + 1) rest) = (afterRun rest).map (previewOf turns) := by
  have front := frontRun_previewOf turns rest
  cases isAfter : afterRun rest with
  | none =>
    have whole : previewOf (turns + 1) rest = (frontRun rest).take probeWidth := by
      rw [previewOf, isAfter, List.append_nil]
    by_contra found
    obtain ⟨behind, isBehind⟩ := Option.ne_none_iff_exists'.mp found
    have isText := (afterRun_eq_some_iff.mp isBehind).2
    rw [front, whole] at isText
    have lengths := congrArg List.length isText
    rw [List.length_append, List.length_cons] at lengths
    omega
  | some behind =>
    obtain ⟨nonempty, -⟩ := afterRun_eq_some_iff.mp isAfter
    rw [Option.map_some, afterRun_eq_some_iff, front]
    refine ⟨?_, by rw [previewOf, isAfter]⟩
    intro empty
    have width : probeWidth ≠ 0 := by decide
    exact nonempty ((List.take_eq_nil_iff.mp empty).resolve_left width)

/-- Patterns that stay in a short stretch of the run see the same. -/
theorem accepts_previewOf_of_runLocal
    {pattern : Pattern} {width : Nat} (isLocal : RunLocal pattern width) (le : width ≤ probeWidth)
    (turns : Nat) (rest : JsString) :
    pattern.Accepts (previewOf (turns + 1) rest) 0 ↔ pattern.Accepts rest 0 := by
  refine isLocal.accepts_iff ?_
  rw [List.drop_zero, List.drop_zero, frontRun_previewOf, List.take_take, Nat.min_eq_left le]

/-- The families whose credentials are one run. -/
theorem accepts_previewOf_of_boundedRun
    {lead : Pattern} {accepts : UInt16 → Bool} {width least : Nat}
    (leadLocal : RunLocal lead width)
    (inRun : ∀ unit, accepts unit = true → isRunUnit unit = true) (positive : 0 < least)
    (le : width + least ≤ probeWidth) (turns : Nat) (rest : JsString) :
    (Pattern.concat lead (boundedRun accepts least)).Accepts (previewOf (turns + 1) rest) 0 ↔
      (Pattern.concat lead (boundedRun accepts least)).Accepts rest 0 := by
  rw [accepts_concat_boundedRun_iff positive, accepts_concat_boundedRun_iff positive]
  exact accepts_previewOf_of_runLocal (leadLocal.concat (.exactly inRun least)) le turns rest

theorem prefix_dot_iff
    {run rest : JsString} (nonempty : run ≠ []) (inRun : ∀ unit ∈ run, isRunUnit unit = true) :
    run ++ [0x2E] <+: rest ↔
      frontRun rest = run ∧ ∃ behind, afterRun rest = some behind := by
  constructor
  · rintro ⟨behind, rfl⟩
    have front : frontRun (run ++ [0x2E] ++ behind) = run := by
      rw [List.append_assoc, frontRun, List.takeWhile_append_of_pos inRun,
        List.singleton_append, List.takeWhile_cons_of_neg (by decide), List.append_nil]
    refine ⟨front, behind, afterRun_eq_some_iff.mpr ⟨front.symm ▸ nonempty, ?_⟩⟩
    rw [front, List.append_assoc, List.singleton_append]
  · rintro ⟨rfl, behind, isAfter⟩
    refine ⟨behind, ?_⟩
    rw [List.append_assoc, List.singleton_append]
    exact (afterRun_eq_some_iff.mp isAfter).2.symm

/-- The `ya29.` family, whose prefix is a run with a dot. -/
theorem accepts_ya29_iff (rest : JsString) :
    (Pattern.concat (.literal (jsText "ya29.")) (boundedRun isRunUnit 20)).Accepts rest 0 ↔
      frontRun rest = jsText "ya29" ∧
        ∃ behind, afterRun rest = some behind ∧ 20 ≤ (frontRun behind).length := by
  have isText : jsText "ya29." = jsText "ya29" ++ [0x2E] := by decide
  have isLength : (jsText "ya29.").length = (jsText "ya29").length + 1 := by decide
  rw [Pattern.accepts_literal_concat_iff, accepts_boundedRun_iff (by decide), List.drop_zero,
    isLength, Nat.zero_add, isText, prefix_dot_iff (by decide) (by decide),
    and_assoc]
  refine and_congr_right fun isRun => ?_
  have behindOf : ∀ behind, afterRun rest = some behind →
      rest.drop ((jsText "ya29").length + 1) = behind := by
    intro behind isAfter
    rw [← isRun, ← List.drop_drop, drop_of_afterRun isAfter]
    rfl
  constructor
  · rintro ⟨⟨behind, isAfter⟩, long⟩
    rw [behindOf behind isAfter] at long
    exact ⟨behind, isAfter, long⟩
  · rintro ⟨behind, isAfter, long⟩
    refine ⟨⟨behind, isAfter⟩, ?_⟩
    rw [behindOf behind isAfter]
    exact long

/-- Token characters in front of a run belong to it. -/
theorem frontRun_append
    {front : JsString} (inRun : ∀ unit ∈ front, isRunUnit unit = true) (rest : JsString) :
    frontRun (front ++ rest) = front ++ frontRun rest :=
  List.takeWhile_append_of_pos inRun

theorem afterRun_append
    {front rest : JsString} (inRun : ∀ unit ∈ front, isRunUnit unit = true)
    (nonempty : frontRun rest ≠ []) :
    afterRun (front ++ rest) = afterRun rest := by
  refine Option.ext fun behind => ?_
  rw [afterRun_eq_some_iff, afterRun_eq_some_iff,
    frontRun_append inRun, List.append_assoc, List.append_right_inj]
  simp [nonempty]

/-- The family of signed tokens: three runs with dots between them. -/
theorem accepts_eyJ_iff (rest : JsString) :
    (Pattern.concat (.literal (jsText "eyJ"))
        (.concat (boundedRun isRunUnit 10)
          (.concat (.literal (jsText "."))
            (.concat (boundedRun isRunUnit 10)
              (.concat (.literal (jsText ".")) (boundedRun isRunUnit 6)))))).Accepts rest 0 ↔
      jsText "eyJ" <+: frontRun rest ∧ 13 ≤ (frontRun rest).length ∧
        ∃ behind, afterRun rest = some behind ∧ 10 ≤ (frontRun behind).length ∧
          ∃ last, afterRun behind = some last ∧ 6 ≤ (frontRun last).length := by
  have isLength : (jsText "eyJ").length = 3 := by decide
  have inRun : ∀ unit ∈ jsText "eyJ", isRunUnit unit = true := by decide
  have lastFree : (boundedRun isRunUnit 6).AnchorFree := ⟨trivial, trivial⟩
  have behindFree : (Pattern.concat (boundedRun isRunUnit 10)
      (.concat (.literal (jsText ".")) (boundedRun isRunUnit 6))).AnchorFree :=
    ⟨⟨trivial, trivial⟩, trivial, lastFree⟩
  rw [Pattern.accepts_literal_concat_iff, List.drop_zero,
    accepts_boundedRun_dot_iff (by decide) behindFree]
  simp only [accepts_boundedRun_dot_iff (show 0 < 10 by decide) lastFree, List.drop_zero,
    accepts_boundedRun_iff (show 0 < 6 by decide), isLength, Nat.zero_add]
  constructor
  · rintro ⟨⟨others, rfl⟩, long, behind, isAfter, behindLong⟩
    rw [show (jsText "eyJ" ++ others).drop 3 = others from List.drop_left' isLength]
      at long isAfter
    have nonempty : frontRun others ≠ [] := List.ne_nil_of_length_pos (by omega)
    rw [frontRun_append inRun, afterRun_append inRun nonempty, List.length_append, isLength]
    exact ⟨List.prefix_append _ _, by omega, behind, isAfter, behindLong⟩
  · rintro ⟨isPrefix, long, behind, isAfter, behindLong⟩
    obtain ⟨others, rfl⟩ := isPrefix.trans (List.takeWhile_prefix _)
    rw [frontRun_append inRun, List.length_append, isLength] at long
    have nonempty : frontRun others ≠ [] := List.ne_nil_of_length_pos (by omega)
    rw [afterRun_append inRun nonempty] at isAfter
    rw [show (jsText "eyJ" ++ others).drop 3 = others from List.drop_left' isLength]
    exact ⟨List.prefix_append _ _, by omega, behind, isAfter, behindLong⟩

/-! ## The cache -/

/-- The end of a cached run is the end of the run that stands there. -/
def CacheValid (joined : JsString) (runs : List CachedRun) : Prop :=
  ∀ run ∈ runs, run.stop = run.start + (frontRun (joined.drop run.start)).length

variable
  {joined : JsString}
  {runs : List CachedRun}

theorem runEnd_spec (valid : CacheValid joined runs) (start : Nat) :
    (start ≤ joined.length →
      (runEnd joined runs start).1 = start + (frontRun (joined.drop start)).length) ∧
    (joined.length < start → (runEnd joined runs start).1 = joined.length) ∧
    CacheValid joined (runEnd joined runs start).2 := by
  unfold runEnd
  cases isCached : runs.find? (fun run => run.start ≤ start ∧ start < run.stop) with
  | some cached =>
    have isRun := valid cached (List.mem_of_find?_eq_some isCached)
    have within := List.find?_some isCached
    simp only [decide_eq_true_eq] at within
    have same : cached.stop = start + (frontRun (joined.drop start)).length := by
      have front := @frontRun_drop (joined.drop cached.start) (start - cached.start) (by omega)
      rw [List.drop_drop, Nat.add_sub_cancel' within.1] at front
      rw [front, List.length_drop]
      omega
    refine ⟨fun _ => same, fun beyond => ?_, valid⟩
    have empty : frontRun (joined.drop start) = [] := by
      rw [List.drop_of_length_le beyond.le]
      rfl
    rw [empty, List.length_nil] at same
    omega
  | none =>
    simp only
    have ends : start ≤ joined.length →
        ((Pattern.unit (!isRunUnit ·)).exec joined start).elim joined.length Prod.fst =
          start + (frontRun (joined.drop start)).length := Pattern.exec_unit_not
    have beyondEnds : joined.length < start →
        ((Pattern.unit (!isRunUnit ·)).exec joined start).elim joined.length Prod.fst =
          joined.length := by
      intro beyond
      rw [Pattern.exec_eq_none_iff.mpr fun position least within => by omega]
      rfl
    generalize ((Pattern.unit (!isRunUnit ·)).exec joined start).elim joined.length
      Prod.fst = stop at ends beyondEnds ⊢
    split
    · rename_i nonempty
      have inText : start ≤ joined.length := by
        by_contra beyond
        rw [beyondEnds (by omega)] at nonempty
        omega
      have longer : CacheValid joined (runs ++ [⟨start, stop⟩]) := by
        intro run isRun
        obtain earlier | isNew := List.mem_append.mp isRun
        · exact valid run earlier
        · rw [List.mem_singleton.mp isNew]
          exact ends inText
      refine ⟨ends, beyondEnds, ?_⟩
      split
      · exact fun run isRun => longer run (List.mem_of_mem_drop isRun)
      · exact longer
    · exact ⟨ends, beyondEnds, valid⟩

theorem probeFrom_spec (valid : CacheValid joined runs) (turns start : Nat) :
    (probeFrom joined turns runs start).1 = previewOf turns (joined.drop start) ∧
      CacheValid joined (probeFrom joined turns runs start).2 := by
  induction turns generalizing runs start with
  | zero => exact ⟨rfl, valid⟩
  | succ turns ih =>
    obtain ⟨inside, outside, validAfter⟩ := runEnd_spec valid start
    rw [probeFrom]
    generalize runEnd joined runs start = ended at inside outside validAfter
    obtain ⟨stop, runsAfter⟩ := ended
    simp only at inside outside validAfter ⊢
    have isSlice : slice joined start (min stop (start + probeWidth)) =
        (joined.drop start).take (min stop (start + probeWidth) - start) := by
      rw [slice, List.drop_take]
    obtain inText | beyond := le_or_gt start joined.length
    · have isStop := inside inText
      have isTake : frontRun (joined.drop start) =
          (joined.drop start).take (frontRun (joined.drop start)).length :=
        List.prefix_iff_eq_take.mp (List.takeWhile_prefix _)
      have preview : slice joined start (min stop (start + probeWidth)) =
          (frontRun (joined.drop start)).take probeWidth := by
        rw [isSlice, show min stop (start + probeWidth) - start =
          min probeWidth (frontRun (joined.drop start)).length by omega, ← List.take_take,
          ← isTake]
      have unitAt : joined[stop]? =
          ((joined.drop start).drop (frontRun (joined.drop start)).length)[0]? := by
        rw [List.drop_drop, List.getElem?_drop, isStop, Nat.add_zero]
      rw [preview, previewOf]
      cases isAfter : afterRun (joined.drop start) with
      | some behind =>
        have isDot := drop_of_afterRun isAfter
        have nonempty := List.length_pos_iff.mpr (afterRun_eq_some_iff.mp isAfter).1
        rw [isDot] at unitAt
        have goesOn : ¬(stop = start ∨ joined[stop]? ≠ some 0x2E) := by
          rw [unitAt]
          simp only [List.getElem?_cons_zero, ne_eq, not_true_eq_false, or_false]
          omega
        have isBehind : joined.drop (stop + 1) = behind := by
          rw [isStop, ← List.drop_drop, ← List.drop_drop, isDot]
          rfl
        obtain ⟨restSeen, restValid⟩ := ih validAfter (stop + 1)
        rw [isBehind] at restSeen
        rw [if_neg goesOn]
        exact ⟨by rw [restSeen], restValid⟩
      | none =>
        have stops : stop = start ∨ joined[stop]? ≠ some 0x2E := by
          by_contra goesOn
          rw [not_or, not_ne_iff, unitAt] at goesOn
          obtain ⟨nonempty, isDot⟩ := goesOn
          have behind := JsText.drop_eq_cons isDot
          rw [List.drop_zero] at behind
          have isSome := afterRun_eq_some_iff.mpr
            ⟨List.ne_nil_of_length_pos (by omega),
              (frontRun_append_drop (joined.drop start)).symm.trans
                (congrArg (frontRun (joined.drop start) ++ ·) behind)⟩
          exact absurd (isAfter.symm.trans isSome) (by simp)
        rw [if_pos stops, List.append_nil]
        exact ⟨rfl, validAfter⟩
    · have isStop := outside beyond
      have empty : joined.drop start = [] := List.drop_of_length_le beyond.le
      have stops : stop = start ∨ joined[stop]? ≠ some 0x2E := by
        right
        rw [isStop, List.getElem?_eq_none le_rfl]
        simp
      rw [if_pos stops, isSlice, empty]
      exact ⟨by simp [previewOf, afterRun, frontRun], validAfter⟩

/-! ## The families -/

theorem isRunUnit_of_isWord (unit : UInt16) (accepted : JsText.isWord unit = true) :
    isRunUnit unit = true := by
  simp only [isRunUnit, accepted, Bool.true_or]

theorem isRunUnit_of_isAlphanumeric (unit : UInt16) (accepted : isAlphanumeric unit = true) :
    isRunUnit unit = true := by
  unfold isAlphanumeric at accepted
  simp only [isRunUnit, JsText.isWord, accepted, Bool.true_or]

theorem isRunUnit_of_isAlphanumericOrDash
    (unit : UInt16) (accepted : isAlphanumericOrDash unit = true) :
    isRunUnit unit = true := by
  obtain isAlphanumeric | isDash := (Bool.or_eq_true _ _).mp accepted
  · exact isRunUnit_of_isAlphanumeric unit isAlphanumeric
  · rw [isRunUnit, isDash, Bool.or_true]

theorem isRunUnit_of_isCapitalOrDigit (unit : UInt16) (accepted : isCapitalOrDigit unit = true) :
    isRunUnit unit = true := by
  refine isRunUnit_of_isAlphanumeric unit ?_
  simp only [isCapitalOrDigit, isAlphanumeric, JsText.isLetter, Bool.or_eq_true,
    decide_eq_true_eq] at accepted ⊢
  exact accepted.elim .inr fun isCapital => .inl (.inl isCapital)

theorem isRunUnit_of_isOneOf
    {units : JsString} (inRun : ∀ unit ∈ units, isRunUnit unit = true) (unit : UInt16)
    (accepted : isOneOf units unit = true) :
    isRunUnit unit = true :=
  inRun unit (List.contains_iff_mem.mp accepted)

/-- A prefix with one of some characters in it. -/
theorem runLocal_lettered
    {front units behind : JsString} (frontInRun : ∀ unit ∈ front, isRunUnit unit = true)
    (unitsInRun : ∀ unit ∈ units, isRunUnit unit = true)
    (behindInRun : ∀ unit ∈ behind, isRunUnit unit = true) :
    RunLocal (.concat (.literal front) (.concat (.unit (isOneOf units)) (.literal behind)))
      (front.length + (1 + behind.length)) :=
  (RunLocal.literal frontInRun rfl).concat
    ((RunLocal.unit (isRunUnit_of_isOneOf unitsInRun)).concat (.literal behindInRun rfl))

/-- A family whose probe sees what the text shows. -/
def SeenByProbe (fragment : CredentialFragment) : Prop :=
  ∀ rest, fragment.whole.Accepts (previewOf 3 rest) 0 ↔ fragment.whole.Accepts rest 0

theorem seenByProbe_literal
    {text : JsString} {accepts : UInt16 → Bool} {least : Nat}
    (textInRun : ∀ unit ∈ text, isRunUnit unit = true)
    (inRun : ∀ unit, accepts unit = true → isRunUnit unit = true) (positive : 0 < least)
    (le : text.length + least ≤ probeWidth) :
    SeenByProbe { fragmentPrefix := .literal text, body := boundedRun accepts least } :=
  accepts_previewOf_of_boundedRun (.literal textInRun rfl) inRun positive le 2

theorem seenByProbe_ya29 :
    SeenByProbe
      { fragmentPrefix := .literal (jsText "ya29."), body := boundedRun isRunUnit 20 } := by
  intro rest
  have width : (20 : Nat) ≤ probeWidth := by decide
  have isRun : (frontRun rest).take probeWidth = jsText "ya29" ↔
      frontRun rest = jsText "ya29" := by
    have isLength : (jsText "ya29").length = 4 := by decide
    constructor
    · intro taken
      have lengths := congrArg List.length taken
      rw [List.length_take, isLength] at lengths
      rw [← taken, List.take_of_length_le (by omega)]
    · intro same
      rw [same, List.take_of_length_le (by rw [isLength]; decide)]
  refine (accepts_ya29_iff _).trans (Iff.trans ?_ (accepts_ya29_iff rest).symm)
  rw [frontRun_previewOf, afterRun_previewOf, isRun]
  simp only [Option.map_eq_some_iff, exists_exists_and_eq_and, frontRun_previewOf,
    List.length_take, Nat.le_min, width, true_and]

theorem seenByProbe_eyJ :
    SeenByProbe
      { fragmentPrefix := .literal (jsText "eyJ")
        body :=
          .concat (boundedRun isRunUnit 10)
            (.concat (.literal (jsText "."))
              (.concat (boundedRun isRunUnit 10)
                (.concat (.literal (jsText ".")) (boundedRun isRunUnit 6)))) } := by
  intro rest
  have widths : (jsText "eyJ").length ≤ probeWidth ∧ 13 ≤ probeWidth ∧ 10 ≤ probeWidth ∧
      6 ≤ probeWidth := by decide
  refine (accepts_eyJ_iff _).trans (Iff.trans ?_ (accepts_eyJ_iff rest).symm)
  rw [frontRun_previewOf, afterRun_previewOf, List.prefix_take_iff]
  simp only [Option.map_eq_some_iff, exists_exists_and_eq_and, frontRun_previewOf,
    afterRun_previewOf, List.length_take, Nat.le_min, widths, and_true, true_and]

theorem seenByProbe :
    ∀ fragment ∈ standaloneCredentialFragments, SeenByProbe fragment := by
  unfold standaloneCredentialFragments
  simp only [List.forall_mem_cons]
  refine ⟨?_, ?_, ?_, ?_, ?_, ?_, ?_, ?_, seenByProbe_ya29, ?_, ?_, seenByProbe_eyJ, by simp⟩
  · exact seenByProbe_literal (by decide) (fun _ => id) (by decide)
      (by decide)
  · exact accepts_previewOf_of_boundedRun
      ((@RunLocal.literal (jsText "sk_") 3 (by decide) (by decide)).concat
        (((@RunLocal.literal (jsText "live") 4 (by decide) (by decide)).choice
            (.literal (by decide) (by decide))).concat
          (@RunLocal.literal (jsText "_") 1 (by decide) (by decide))))
      isRunUnit_of_isAlphanumeric (by decide) (by decide) 2
  · exact accepts_previewOf_of_runLocal
      ((runLocal_lettered (by decide) (by decide) (by decide)).concat
        (.exactly isRunUnit_of_isCapitalOrDigit 16)) (by decide) 2
  · exact accepts_previewOf_of_boundedRun (runLocal_lettered (by decide) (by decide) (by decide))
      isRunUnit_of_isAlphanumeric (by decide) (by decide) 2
  · exact seenByProbe_literal (by decide) isRunUnit_of_isWord (by decide)
      (by decide)
  · exact seenByProbe_literal (by decide) (fun _ => id) (by decide)
      (by decide)
  · exact accepts_previewOf_of_boundedRun (runLocal_lettered (by decide) (by decide) (by decide))
      isRunUnit_of_isAlphanumericOrDash (by decide) (by decide) 2
  · exact seenByProbe_literal (by decide) (fun _ => id) (by decide)
      (by decide)
  · exact seenByProbe_literal (by decide) isRunUnit_of_isAlphanumeric (by decide)
      (by decide)
  · exact seenByProbe_literal (by decide) isRunUnit_of_isAlphanumeric (by decide)
      (by decide)

/-- A probe matches exactly where the text it was made of does. -/
theorem accepts_previewOf_iff (rest : JsString) :
    joinedStandaloneCredential.Accepts (previewOf 3 rest) 0 ↔
      joinedStandaloneCredential.Accepts rest 0 := by
  rw [joinedStandaloneCredential, Pattern.accepts_oneOf_iff, Pattern.accepts_oneOf_iff]
  simp only [List.mem_map, exists_exists_and_eq_and]
  exact exists_congr fun fragment =>
    and_congr_right fun member => seenByProbe fragment member rest

/-! ## The scan -/

/-- `candidates`: a letter at the start of the text or behind no word character. -/
def credentialCandidates : Pattern :=
  .concat (.choice .start (.unit (!JsText.isWord ·))) (.unit JsText.isLetter)

/-- The loop over the candidates.  The matcher runs where `accepts` lets it, which may
keep known runs. -/
def visitCandidates (joined : JsString) (accepts : List CachedRun → Nat → Bool × List CachedRun) :
    List (Nat × Nat) → JoinedCursor → Nat → List CachedRun → List SecretSpan
  | [], _, _, _ => []
  | candidate :: rest, cursor, matchedUntil, runs =>
    let originalStart := candidate.2 - 1
    let cursor := cursor.passBefore originalStart
    let start := originalStart - cursor.removed
    if start < matchedUntil then
      visitCandidates joined accepts rest cursor matchedUntil runs
    else
      let (accepted, runs) := accepts runs start
      if accepted then
        match joinedStandaloneCredential.endAt joined start with
        | some stop =>
          .redacted start stop :: visitCandidates joined accepts rest cursor stop runs
        | none => visitCandidates joined accepts rest cursor matchedUntil runs
      else
        visitCandidates joined accepts rest cursor matchedUntil runs

/-- The scan starts at the first candidate and the first separator. -/
def visitAllCandidates (original joined : JsString)
    (accepts : List CachedRun → Nat → Bool × List CachedRun) : List SecretSpan :=
  visitCandidates joined accepts (credentialCandidates.matchAll original 0)
    { next := if original = joined then [] else separators.matchAll original 0
      removed := 0 }
    0 []

/-- The probe lets the matcher run where the matcher finds a match in the preview. -/
def probeAccepts (joined : JsString) (runs : List CachedRun)
    (start : Nat) : Bool × List CachedRun :=
  let (preview, runs) := joinedCredentialProbe joined runs start
  ((joinedStandaloneCredential.endAt preview 0).isSome, runs)

/-- `visitJoinedStandaloneCredentials`. -/
def visitJoinedStandaloneCredentials (original joined : JsString) : List SecretSpan :=
  if standaloneCredentialPrefix.exec joined 0 = none then []
  else visitAllCandidates original joined (probeAccepts joined)

/-- The matcher at every candidate that is not inside of a masked span. -/
def visitWithFullMatcher (original joined : JsString) : List SecretSpan :=
  visitAllCandidates original joined fun runs _ => (true, runs)

/-- The previews of candidates one after another, each with the runs that are known by
then. -/
def previews (joined : JsString) :
    List CachedRun → List Nat → List (Nat × JsString)
  | _, [] => []
  | runs, start :: rest =>
    let (preview, runs) := joinedCredentialProbe joined runs start
    (start, preview) :: previews joined runs rest

theorem anchorFree_joinedStandaloneCredential : joinedStandaloneCredential.AnchorFree := by
  simp [joinedStandaloneCredential, standaloneCredentialFragments, Pattern.oneOf,
    CredentialFragment.whole, boundedRun, Pattern.AnchorFree]

/-- A probe agrees with the matcher, whatever runs are known. -/
theorem accepts_joinedCredentialProbe_iff (valid : CacheValid joined runs) (start : Nat) :
    (joinedStandaloneCredential.Accepts (joinedCredentialProbe joined runs start).1 0 ↔
      joinedStandaloneCredential.Accepts joined start) ∧
    CacheValid joined (joinedCredentialProbe joined runs start).2 := by
  obtain ⟨seen, validAfter⟩ := probeFrom_spec valid 3 start
  refine ⟨?_, validAfter⟩
  rw [joinedCredentialProbe, seen, accepts_previewOf_iff,
    ← Pattern.accepts_drop_iff anchorFree_joinedStandaloneCredential, Nat.add_zero]

theorem accepts_of_mem_previews
    {joined preview : JsString} {starts : List Nat} {start : Nat} (valid : CacheValid joined runs)
    (isPreview : (start, preview) ∈ previews joined runs starts) :
    joinedStandaloneCredential.Accepts preview 0 ↔
      joinedStandaloneCredential.Accepts joined start := by
  induction starts generalizing runs with
  | nil => exact absurd isPreview List.not_mem_nil
  | cons first rest ih =>
    obtain ⟨agrees, validAfter⟩ := accepts_joinedCredentialProbe_iff valid first
    obtain isFirst | isLater := List.mem_cons.mp isPreview
    · cases isFirst
      exact agrees
    · exact ih validAfter isLater

/-- The probe only omits candidates at which the matcher fails. -/
theorem visitCandidates_eq
    {candidates : List (Nat × Nat)} {cursor : JoinedCursor} {matchedUntil : Nat}
    {runs others : List CachedRun} (valid : CacheValid joined runs) :
    visitCandidates joined (probeAccepts joined) candidates cursor matchedUntil runs =
      visitCandidates joined (fun runs _ => (true, runs)) candidates cursor matchedUntil
        others := by
  induction candidates generalizing cursor matchedUntil runs others with
  | nil => rfl
  | cons candidate rest ih =>
    rw [visitCandidates, visitCandidates]
    simp only
    split
    · exact ih valid
    · generalize candidate.2 - 1 - (cursor.passBefore (candidate.2 - 1)).removed = start
      obtain ⟨agrees, validAfter⟩ := accepts_joinedCredentialProbe_iff valid start
      have accepted : (probeAccepts joined runs start).1 = true ↔
          joinedStandaloneCredential.Accepts joined start := by
        rw [← agrees, probeAccepts, Option.isSome_iff_ne_none, ne_eq,
          Pattern.endAt_eq_none_iff, not_not]
      change CacheValid joined (probeAccepts joined runs start).2 at validAfter
      cases isMatch : joinedStandaloneCredential.endAt joined start with
      | none =>
        have refused : (probeAccepts joined runs start).1 = false := by
          rw [Bool.eq_false_iff, ne_eq, accepted]
          exact Pattern.endAt_eq_none_iff.mp isMatch
        rw [refused]
        exact ih validAfter
      | some stop =>
        have isAccepted : (probeAccepts joined runs start).1 = true := by
          rw [accepted]
          exact ⟨stop, Pattern.mem_ends_of_endAt isMatch⟩
        rw [isAccepted]
        simp only [if_true]
        rw [ih validAfter]

/-- Every family starts with some characters. -/
theorem starts_with_text :
    ∀ fragment ∈ standaloneCredentialFragments, ∃ expected, expected ≠ [] ∧
      ∀ text position, fragment.fragmentPrefix.Accepts text position →
        expected <+: text.drop position := by
  have ofLiteral : ∀ expected text position,
      (Pattern.literal expected).Accepts text position → expected <+: text.drop position := by
    rintro expected text position ⟨stop, isStop⟩
    exact (Pattern.mem_ends_literal_iff.mp isStop).1
  have ofConcat : ∀ expected second text position,
      (Pattern.concat (.literal expected) second).Accepts text position →
        expected <+: text.drop position :=
    fun _ _ _ _ accepted => (Pattern.accepts_literal_concat_iff.mp accepted).1
  unfold standaloneCredentialFragments
  simp only [List.forall_mem_cons, List.not_mem_nil, IsEmpty.forall_iff, implies_true, and_true]
  exact ⟨⟨_, by decide, ofLiteral _⟩, ⟨_, by decide, ofConcat _ _⟩,
    ⟨_, by decide, ofConcat _ _⟩, ⟨_, by decide, ofConcat _ _⟩,
    ⟨_, by decide, ofLiteral _⟩, ⟨_, by decide, ofLiteral _⟩,
    ⟨_, by decide, ofConcat _ _⟩, ⟨_, by decide, ofLiteral _⟩,
    ⟨_, by decide, ofLiteral _⟩, ⟨_, by decide, ofLiteral _⟩,
    ⟨_, by decide, ofLiteral _⟩, ⟨_, by decide, ofLiteral _⟩⟩

theorem accepts_prefix_of_accepts
    {text : JsString} {position : Nat}
    (accepted : joinedStandaloneCredential.Accepts text position) :
    standaloneCredentialPrefix.Accepts text position ∧ position < text.length := by
  obtain ⟨whole, isWhole, wholeAccepts⟩ := Pattern.accepts_oneOf_iff.mp accepted
  obtain ⟨fragment, isFragment, rfl⟩ := List.mem_map.mp isWhole
  obtain ⟨middle, isMiddle, -⟩ := Pattern.accepts_concat_iff.mp wholeAccepts
  have prefixed : fragment.fragmentPrefix.Accepts text position := ⟨middle, isMiddle⟩
  refine ⟨Pattern.accepts_oneOf_iff.mpr ⟨_, List.mem_map_of_mem isFragment, prefixed⟩, ?_⟩
  obtain ⟨expected, nonempty, starts⟩ := starts_with_text fragment isFragment
  have short := (starts text position prefixed).length_le
  have positive := List.length_pos_iff.mpr nonempty
  rw [List.length_drop] at short
  omega

theorem visitCandidates_eq_nil
    (absent : standaloneCredentialPrefix.exec joined 0 = none) (candidates : List (Nat × Nat))
    (cursor : JoinedCursor) (matchedUntil : Nat) (runs : List CachedRun) :
    visitCandidates joined (fun runs _ => (true, runs)) candidates cursor matchedUntil
      runs = [] := by
  induction candidates generalizing cursor matchedUntil runs with
  | nil => rfl
  | cons candidate rest ih =>
    rw [visitCandidates]
    simp only
    split
    · exact ih _ _ _
    · generalize candidate.2 - 1 - (cursor.passBefore (candidate.2 - 1)).removed = start
      have noMatch : joinedStandaloneCredential.endAt joined start = none := by
        rw [Pattern.endAt_eq_none_iff]
        intro accepted
        obtain ⟨prefixed, inText⟩ := accepts_prefix_of_accepts accepted
        have noPrefix := Pattern.exec_eq_none_iff.mp absent start (Nat.zero_le _) inText.le
        exact Pattern.endAt_eq_none_iff.mp noPrefix prefixed
      rw [noMatch]
      exact ih _ _ _

/-- The bounded probe agrees with the matcher at every candidate, and so the scan masks
the spans that the matcher finds at every candidate outside of a masked span. -/
theorem joinedCredentialProbe_agrees :
    (∀ joined starts start preview, (start, preview) ∈ previews joined [] starts →
      (joinedStandaloneCredential.Accepts preview 0 ↔
        joinedStandaloneCredential.Accepts joined start)) ∧
    ∀ original joined,
      visitJoinedStandaloneCredentials original joined =
        visitWithFullMatcher original joined := by
  have noRuns : ∀ joined, CacheValid joined [] := fun joined _ impossible =>
    absurd impossible List.not_mem_nil
  refine ⟨fun joined starts start preview isPreview =>
    accepts_of_mem_previews (noRuns joined) isPreview, fun original joined => ?_⟩
  unfold visitJoinedStandaloneCredentials visitWithFullMatcher visitAllCandidates
  split
  · next absent => exact (visitCandidates_eq_nil absent _ _ _ _).symm
  · exact visitCandidates_eq (noRuns joined)

end Relavium.Tools
