import Relavium.Tools.CredentialProbe
import Relavium.Tools.JoinedView

/-!
# Spans split by separators

Model of `visitSplitSpans` of `packages/core/src/tools/bounding.ts`.  The spans that a
rule finds in the joined view are mapped back to the original text by one cursor, and
those that a separator splits are reported.
-/

namespace Relavium.Tools

open Library

/-- The points of a span mapped back, with the cursor behind them. -/
def JoinedCursor.mapSpan (ownsEdges : Bool) (cursor : JoinedCursor)
    (span : SecretSpan) : SecretSpan × JoinedCursor :=
  match span.url with
  | none =>
    let (start, cursor) := cursor.advance span.start (!ownsEdges)
    let (stop, cursor) := cursor.advance span.stop ownsEdges
    ({ span with start, stop }, cursor)
  | some url =>
    let (schemeStart, cursor) := cursor.advance url.schemeStart true
    let (start, cursor) := cursor.advance span.start (!ownsEdges)
    let (ownsUntil, cursor) := cursor.advance url.ownsUntil ownsEdges
    let (stop, cursor) := cursor.advance span.stop ownsEdges
    ({ span with start, stop, url := some { schemeStart, ownsUntil } }, cursor)

/-- The text that the boundary is tested on: the code unit in front of a position. -/
def unitBefore (text : JsString) : Nat → JsString
  | 0 => []
  | index + 1 => text[index]?.toList

/-- A userinfo owns nothing past its first separator. -/
def ownsUntilSplit (text : JsString) (start : Nat)
    (url : UrlUserinfo) : UrlUserinfo :=
  { url with
    ownsUntil :=
      match (slice text start url.ownsUntil).findIdx? isSeparator with
      | none => url.ownsUntil
      | some split => start + split }

/-- The callback of `visitSplitSpans` after its points are mapped back. -/
def reportSpan (text : JsString) (boundary : Option Pattern)
    (mapped : SecretSpan) : Option SecretSpan :=
  if boundary.any fun pattern => (pattern.exec (unitBefore text mapped.start) 0).isSome then
    none
  else if !(slice text ((mapped.url.map (·.schemeStart)).getD mapped.start)
      mapped.stop).any isSeparator then
    none
  else
    some { mapped with url := mapped.url.map (ownsUntilSplit text mapped.start) }

/-- The callback on one span after the other. -/
def reportSpans (text : JsString) (boundary : Option Pattern) (ownsEdges : Bool) :
    JoinedCursor → List SecretSpan → List SecretSpan
  | _, [] => []
  | cursor, span :: rest =>
    let (mapped, cursor) := cursor.mapSpan ownsEdges span
    (reportSpan text boundary mapped).toList ++ reportSpans text boundary ownsEdges cursor rest

/-- `visitSplitSpans`. -/
def visitSplitSpans
    (text : JsString) (visit : JsString → List SecretSpan) (boundary : Option Pattern)
    (ownsEdges : Bool) : List SecretSpan :=
  if !text.any isSeparator then []
  else
    reportSpans text boundary ownsEdges
      { next := separators.matchAll text 0, removed := 0 }
      (visit (joinedView text))

/-! ## Where a span is mapped back to -/

/-- The points of a span in their order. -/
def SecretSpan.points (span : SecretSpan) : List Nat :=
  match span.url with
  | none => [span.start, span.stop]
  | some url => [url.schemeStart, span.start, url.ownsUntil, span.stop]

/-- The points of the spans are those of a text and do not decrease. -/
structure OrderedSpans (joined : JsString) (spans : List SecretSpan) : Prop where
  nonDecreasing : (spans.flatMap SecretSpan.points).Pairwise (· ≤ ·)
  within : ∀ point ∈ spans.flatMap SecretSpan.points, point ≤ joined.length

/-- The separators in front of a span belong to the span before it or to its scheme. -/
def StartTaken (previous : Option Nat) (span : SecretSpan) : Prop :=
  previous = some span.start ∨ ∃ url ∈ span.url, url.schemeStart = span.start

/-- A span and the range that it is mapped back to.  `previous` is the end of the span
before it. -/
structure MapsBack (text : JsString) (ownsEdges : Bool) (previous : Option Nat)
    (span mapped : SecretSpan) : Prop where
  replacement : mapped.replacement = span.replacement
  /-- The range is one of the text. -/
  range : mapped.start ≤ mapped.stop ∧ mapped.stop ≤ text.length
  /-- Its kept code units are those of the span, and it starts where the span does. -/
  kept : joinedView (slice text mapped.start mapped.stop) =
    slice (joinedView text) span.start span.stop
  startsAt : CutAt text span.start mapped.start
  /-- A rule that does not own its edges begins and ends on kept code units. -/
  keepsStart : ownsEdges = false → ¬SeparatorAt text mapped.start
  keepsStop : ownsEdges = false → span.start < span.stop → ¬SeparatorBefore text mapped.stop
  /-- One that owns them takes in the separators at its end, and those at its start
  unless they are taken. -/
  takesStart : ownsEdges = true → ¬StartTaken previous span →
    ¬SeparatorBefore text mapped.start
  afterTaken : ownsEdges = true → StartTaken previous span → ¬SeparatorAt text mapped.start
  takesStop : ownsEdges = true → ¬SeparatorAt text mapped.stop
  /-- The scheme begins on a kept code unit. -/
  url : Option.Rel
    (fun url mappedUrl =>
      CutAt text url.schemeStart mappedUrl.schemeStart ∧
        ¬SeparatorAt text mappedUrl.schemeStart ∧
        mappedUrl.schemeStart ≤ mapped.start ∧
        CutAt text url.ownsUntil mappedUrl.ownsUntil)
    span.url mapped.url

/-- Spans that are mapped back one after the other. -/
inductive AllMapBack (text : JsString) (ownsEdges : Bool) :
    Option Nat → List SecretSpan → List SecretSpan → Prop
  | nil {previous : Option Nat} : AllMapBack text ownsEdges previous [] []
  | cons
      {previous : Option Nat}
      {span mapped : SecretSpan}
      {spans mappedSpans : List SecretSpan} :
      MapsBack text ownsEdges previous span mapped →
      AllMapBack text ownsEdges (some span.stop) spans mappedSpans →
      AllMapBack text ownsEdges previous (span :: spans) (mapped :: mappedSpans)

/-- The boundary of a mapped span is allowed, and a separator stands between its start,
or the start of its scheme, and its end. -/
def Reported (text : JsString) (boundary : Option Pattern)
    (mapped : SecretSpan) : Prop :=
  (∀ pattern ∈ boundary, pattern.exec (unitBefore text mapped.start) 0 = none) ∧
    ∃ position < mapped.stop,
      (mapped.url.map (·.schemeStart)).getD mapped.start ≤ position ∧
        SeparatorAt text position

variable
  {text : JsString}

theorem slice_any_isSeparator_iff {start stop : Nat} :
    (slice text start stop).any isSeparator = true ↔
      ∃ position < stop, start ≤ position ∧ SeparatorAt text position := by
  rw [List.any_eq_true]
  constructor
  · rintro ⟨unit, member, isSeparator⟩
    rw [slice, List.drop_take] at member
    obtain ⟨offset, less, isUnit⟩ := getElem?_of_mem_take_drop member
    have isNext : SeparatorAt text (start + offset) := by
      rw [SeparatorAt, isUnit]
      exact isSeparator
    exact ⟨start + offset, by omega, Nat.le_add_right _ _, isNext⟩
  · rintro ⟨position, less, least, isNext⟩
    obtain ⟨unit, isUnit, isSeparator⟩ := (Option.any_eq_true _ _).mp isNext
    refine ⟨unit, ?_, isSeparator⟩
    refine @List.mem_of_getElem? _ _ (position - start) _ ?_
    rw [slice, List.getElem?_drop, Nat.add_sub_cancel' least, List.getElem?_take_of_lt less]
    exact isUnit

theorem reportSpan_eq_some_iff {boundary : Option Pattern} {mapped reported : SecretSpan} :
    reportSpan text boundary mapped = some reported ↔
      Reported text boundary mapped ∧
        reported = { mapped with url := mapped.url.map (ownsUntilSplit text mapped.start) } := by
  have allowed_iff :
      ¬(boundary.any fun pattern =>
        (pattern.exec (unitBefore text mapped.start) 0).isSome) = true ↔
        ∀ pattern ∈ boundary, pattern.exec (unitBefore text mapped.start) 0 = none := by
    cases boundary with
    | none | some pattern => simp
  rw [reportSpan, Reported, ← slice_any_isSeparator_iff, ← allowed_iff]
  split
  · next refused => simp [refused]
  · rename_i allowed
    split
    · rename_i noSeparator
      simp only [Bool.not_eq_true', ← Bool.not_eq_true] at noSeparator
      simp [noSeparator]
    · rename_i separated
      rw [Bool.not_eq_true', Bool.not_eq_false] at separated
      rw [Option.some.injEq]
      constructor
      · rintro rfl
        exact ⟨⟨allowed, separated⟩, rfl⟩
      · rintro ⟨-, rfl⟩
        rfl

/-! ## Mapping back -/

/-- A cursor behind the span that ends at `previous`, or at the start of the text. -/
structure StandsBehind
    (text : JsString) (ownsEdges : Bool) (previous : Option Nat) (position : Nat)
    (cursor : JoinedCursor) : Prop where
  stands : cursor.StandsAt text (previous.getD 0) position
  fresh : previous = none → position = 0
  owned : ownsEdges = true → previous ≠ none → ¬SeparatorAt text position

theorem not_separatorBefore_zero {text : JsString} :
    ¬SeparatorBefore text 0 := by
  rintro ⟨index, impossible, -⟩
  exact absurd impossible (Nat.succ_ne_zero index)

variable
  {ownsEdges : Bool}
  {previous : Option Nat}
  {position : Nat}
  {cursor : JoinedCursor}

theorem StandsBehind.mapSpan_plain
    (behind : StandsBehind text ownsEdges previous position cursor) {span : SecretSpan}
    (isPlain : span.url = none) (notPassed : previous.getD 0 ≤ span.start)
    (ordered : span.start ≤ span.stop) (within : span.stop ≤ (joinedView text).length) :
    MapsBack text ownsEdges previous span (cursor.mapSpan ownsEdges span).1 ∧
      StandsBehind text ownsEdges (some span.stop) (cursor.mapSpan ownsEdges span).1.stop
        (cursor.mapSpan ownsEdges span).2 := by
  obtain ⟨standsStart, atStart⟩ :=
    behind.stands.advance (!ownsEdges) notPassed (ordered.trans within)
  obtain ⟨standsStop, atStop⟩ := standsStart.advance ownsEdges ordered within
  simp only [JoinedCursor.mapSpan, isPlain]
  refine ⟨⟨rfl, ⟨atStop.later, atStop.cut.within⟩,
    atStart.cut.joinedView_slice atStop.cut atStop.later, atStart.cut, fun notOwned =>
      atStart.last (by simp [notOwned]), fun notOwned less => atStop.first notOwned less,
    fun owned notTaken => ?_, fun owned taken => ?_, atStop.last, by simp [isPlain]⟩,
    standsStop, nofun, fun owned _ => atStop.last owned⟩
  · obtain less | same := notPassed.lt_or_eq
    · exact atStart.first (by simp [owned]) less
    · cases isPrevious : previous with
      | none =>
        have stays := atStart.stays (by simp [owned]) same
        rw [behind.fresh isPrevious] at stays
        simp only [stays]
        exact not_separatorBefore_zero
      | some stop =>
        rw [isPrevious, Option.getD_some] at same
        exact absurd (.inl (by rw [isPrevious, same])) notTaken
  · obtain isPrevious | ⟨url, isUrl, -⟩ := taken
    · have stays := atStart.stays (by simp [owned]) (by rw [isPrevious, Option.getD_some])
      simp only [stays]
      exact behind.owned owned (by simp [isPrevious])
    · rw [isPlain] at isUrl
      cases isUrl

theorem StandsBehind.mapSpan_url
    (behind : StandsBehind text ownsEdges previous position cursor) {span : SecretSpan}
    {url : UrlUserinfo} (isUrl : span.url = some url)
    (notPassed : previous.getD 0 ≤ url.schemeStart) (startOrdered : url.schemeStart ≤ span.start)
    (ownsOrdered : span.start ≤ url.ownsUntil) (stopOrdered : url.ownsUntil ≤ span.stop)
    (within : span.stop ≤ (joinedView text).length) :
    MapsBack text ownsEdges previous span (cursor.mapSpan ownsEdges span).1 ∧
      StandsBehind text ownsEdges (some span.stop) (cursor.mapSpan ownsEdges span).1.stop
        (cursor.mapSpan ownsEdges span).2 := by
  obtain ⟨standsScheme, atScheme⟩ :=
    behind.stands.advance true notPassed (by omega)
  obtain ⟨standsStart, atStart⟩ :=
    standsScheme.advance (!ownsEdges) startOrdered (by omega)
  obtain ⟨standsOwns, atOwns⟩ := standsStart.advance ownsEdges ownsOrdered (by omega)
  obtain ⟨standsStop, atStop⟩ := standsOwns.advance ownsEdges stopOrdered within
  simp only [JoinedCursor.mapSpan, isUrl]
  refine ⟨⟨rfl, ⟨atOwns.later.trans atStop.later, atStop.cut.within⟩,
    atStart.cut.joinedView_slice atStop.cut (atOwns.later.trans atStop.later), atStart.cut,
    fun notOwned => atStart.last (by simp [notOwned]), fun notOwned less => ?_,
    fun owned notTaken => ?_, fun owned taken => ?_, atStop.last, ?_⟩,
    standsStop, nofun, fun owned _ => atStop.last owned⟩
  · obtain lessStop | same := stopOrdered.lt_or_eq
    · exact atStop.first notOwned lessStop
    · rw [atStop.stays notOwned same]
      exact atOwns.first notOwned (by omega)
  · obtain less | same := startOrdered.lt_or_eq
    · exact atStart.first (by simp [owned]) less
    · exact absurd (.inr ⟨url, by simp [isUrl], same⟩) notTaken
  · have same : url.schemeStart = span.start := by
      obtain isPrevious | ⟨other, isOther, same⟩ := taken
      · rw [isPrevious, Option.getD_some] at notPassed
        omega
      · rw [isUrl, Option.mem_some_iff] at isOther
        rw [isOther, same]
    rw [atStart.stays (by simp [owned]) same]
    exact atScheme.last rfl
  · rw [isUrl]
    exact .some ⟨atScheme.cut, atScheme.last rfl, atStart.later, atOwns.cut⟩

theorem reportSpans_mapsBack
    {boundary : Option Pattern} {spans : List SecretSpan}
    (ordered : OrderedSpans (joinedView text) spans)
    (notPassed : ∀ point ∈ spans.flatMap SecretSpan.points, previous.getD 0 ≤ point)
    (behind : StandsBehind text ownsEdges previous position cursor) :
    ∃ mappedSpans, AllMapBack text ownsEdges previous spans mappedSpans ∧
      reportSpans text boundary ownsEdges cursor spans =
        mappedSpans.filterMap (reportSpan text boundary) := by
  induction spans generalizing previous position cursor with
  | nil => exact ⟨[], .nil, rfl⟩
  | cons span rest ih =>
    obtain ⟨nonDecreasing, within⟩ := ordered
    rw [List.flatMap_cons] at nonDecreasing within notPassed
    obtain ⟨ownOrdered, restOrdered, ownBefore⟩ := List.pairwise_append.mp nonDecreasing
    have stopMember : span.stop ∈ span.points := by
      unfold SecretSpan.points
      cases span.url <;> simp
    have mapped : MapsBack text ownsEdges previous span (cursor.mapSpan ownsEdges span).1 ∧
        StandsBehind text ownsEdges (some span.stop) (cursor.mapSpan ownsEdges span).1.stop
          (cursor.mapSpan ownsEdges span).2 := by
      have stopWithin := within _ (List.mem_append_left _ stopMember)
      cases isUrl : span.url with
      | none =>
        have isPoints : span.points = [span.start, span.stop] := by
          rw [SecretSpan.points, isUrl]
        rw [isPoints] at ownOrdered notPassed
        simp only [List.pairwise_cons, List.mem_cons, List.not_mem_nil, or_false,
          forall_eq] at ownOrdered
        exact behind.mapSpan_plain isUrl (notPassed _ (by simp)) ownOrdered.1 stopWithin
      | some url =>
        have isPoints : span.points =
            [url.schemeStart, span.start, url.ownsUntil, span.stop] := by
          rw [SecretSpan.points, isUrl]
        rw [isPoints] at ownOrdered notPassed
        simp only [List.pairwise_cons, List.mem_cons, List.not_mem_nil, or_false,
          forall_eq_or_imp, forall_eq] at ownOrdered
        exact behind.mapSpan_url isUrl (notPassed _ (by simp)) ownOrdered.1.1
          ownOrdered.2.1.1 ownOrdered.2.2.1 stopWithin
    obtain ⟨mapsBack, standsBehind⟩ := mapped
    have restNotPassed : ∀ point ∈ rest.flatMap SecretSpan.points,
        (some span.stop).getD 0 ≤ point :=
      fun point member => ownBefore _ stopMember _ member
    obtain ⟨mappedRest, allMapBack, isReports⟩ := ih
      ⟨restOrdered, fun point member => within point (List.mem_append_right _ member)⟩
      restNotPassed standsBehind
    refine ⟨(cursor.mapSpan ownsEdges span).1 :: mappedRest, .cons mapsBack allMapBack, ?_⟩
    rw [reportSpans, List.filterMap_cons]
    simp only [isReports]
    cases reportSpan text boundary (cursor.mapSpan ownsEdges span).1 with
    | none | some reported => rfl

/-- Spans of the joined view map back: each to a range of the text with the kept code
units of the span, with the edges that the rule asks for, and exactly those whose
boundary is allowed and that a separator splits are reported. -/
theorem visitSplitSpans_mapsBack
    {text : JsString} {visit : JsString → List SecretSpan} (boundary : Option Pattern)
    (ownsEdges : Bool) (ordered : OrderedSpans (joinedView text) (visit (joinedView text))) :
    ∃ mappedSpans, AllMapBack text ownsEdges none (visit (joinedView text)) mappedSpans ∧
      visitSplitSpans text visit boundary ownsEdges =
        mappedSpans.filterMap (reportSpan text boundary) ∧
      ∀ mapped ∈ mappedSpans, ∀ reported,
        reportSpan text boundary mapped = some reported ↔
          Reported text boundary mapped ∧
            reported =
              { mapped with url := mapped.url.map (ownsUntilSplit text mapped.start) } := by
  have atStart : StandsBehind text ownsEdges none 0
      { next := separators.matchAll text 0, removed := 0 } :=
    ⟨JoinedCursor.standsAt_start text, fun _ => rfl, fun _ different => absurd rfl different⟩
  obtain ⟨mappedSpans, allMapBack, isReports⟩ :=
    @reportSpans_mapsBack text ownsEdges none 0 _ boundary _ ordered (fun _ _ => Nat.zero_le _)
      atStart
  refine ⟨mappedSpans, allMapBack, ?_, fun mapped _ reported => reportSpan_eq_some_iff⟩
  rw [visitSplitSpans]
  split
  · rename_i noSeparator
    refine (List.filterMap_eq_nil_iff.mpr fun mapped _ => ?_).symm
    refine Option.eq_none_iff_forall_ne_some.mpr fun reported isReported => ?_
    obtain ⟨-, position, -, -, isNext⟩ := (reportSpan_eq_some_iff.mp isReported).1
    obtain ⟨unit, isUnit, isSeparator⟩ := (Option.any_eq_true _ _).mp isNext
    have isSome := List.any_eq_true.mpr ⟨unit, List.mem_of_getElem? isUnit, isSeparator⟩
    rw [isSome] at noSeparator
    cases noSeparator
  · exact isReports

/-- Two spans with a separator between them, found by a rule that owns its edges. -/
def adjacentSpans : List SecretSpan :=
  [.redacted 0 1, .redacted 1 2]

/-- The separator between the spans goes to the first one, and the second one is
reported without it. -/
theorem visitSplitSpans_adjacent :
    OrderedSpans (joinedView (jsText "a\nb\nc")) adjacentSpans ∧
      visitSplitSpans (jsText "a\nb\nc") (fun _ => adjacentSpans) none true =
        [.redacted 0 2, .redacted 2 4] ∧
      SeparatorBefore (jsText "a\nb\nc") 2 := by
  refine ⟨⟨by decide +kernel, by decide +kernel⟩, by decide +kernel, 1, rfl, by decide +kernel⟩

theorem visitSplitSpans_mapsBack_adjacent :
    ∃ mappedSpans,
      AllMapBack (jsText "a\nb\nc") true none adjacentSpans mappedSpans ∧
      visitSplitSpans (jsText "a\nb\nc") (fun _ => adjacentSpans) none true =
        mappedSpans.filterMap (reportSpan (jsText "a\nb\nc") none) ∧
      ∀ mapped ∈ mappedSpans, ∀ reported,
        reportSpan (jsText "a\nb\nc") none mapped = some reported ↔
          Reported (jsText "a\nb\nc") none mapped ∧
            reported = { mapped with
              url := mapped.url.map (ownsUntilSplit (jsText "a\nb\nc") mapped.start) } :=
  @visitSplitSpans_mapsBack (jsText "a\nb\nc") (fun _ => adjacentSpans) none true
    ⟨by decide, by decide⟩

end Relavium.Tools
