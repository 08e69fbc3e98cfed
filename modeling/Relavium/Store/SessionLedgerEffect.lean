import Relavium.Store.SessionLedger
import Mathlib.Algebra.Group.Pi.Basic

/-!
# What ledger statements do to the figures

A session has four figures: realized and conservative money, pending and unknown
calls.  Its row holds each of them, and the rows of the models add up to each of
them.  A statement shifts the figures in the row by some amounts and the sums by
others; for money the two may differ, since each column rounds on its own.
-/

namespace Relavium.Store
namespace SessionLedger

open Library
open Library.Statements
open Usage (UsageDisposition UsageInvocation)

/-! ## Figures -/

/-- The figures that are kept twice. -/
inductive Measure
  | cost
  | conservative
  | pending
  | unknown
  deriving DecidableEq

/-- A figure as the row of the session holds it. -/
def AgentSessionRow.figure (row : AgentSessionRow) : Measure → Int
  | .cost => row.totalCostMicrocents
  | .conservative => row.totalConservativeMicrocents
  | .pending => row.usagePendingInvocations
  | .unknown => row.usageUnknownCalls

/-- What one cost row adds to a figure. -/
def SessionCostRow.figure (row : SessionCostRow) : Measure → Int
  | .cost => row.costMicrocents
  | .conservative => row.conservativeMicrocents
  | .pending => 0
  | .unknown => 0

/-- What one coverage row adds to a figure. -/
def CoverageRow.figure (row : CoverageRow) : Measure → Int
  | .cost => 0
  | .conservative => 0
  | .pending => row.pendingInvocations
  | .unknown => row.unknownCalls

/-- The sum of a figure over the cost rows of a session. -/
def costSum (costs : OrderedMap CostKey SessionCostRow) (sessionId : String)
    (measure : Measure) : Int :=
  costs.total fun key row =>
    if key.sessionId = sessionId then row.figure measure else 0

/-- The sum of a figure over the coverage rows of a session. -/
def coverageSum (coverage : OrderedMap CoverageKey CoverageRow) (sessionId : String)
    (measure : Measure) : Int :=
  coverage.total fun key row =>
    if key.sessionId = sessionId then row.figure measure else 0

/-- The sum of a figure over the models of a session. -/
def LedgerTables.perModel (tables : LedgerTables) (sessionId : String)
    (measure : Measure) : Int :=
  costSum tables.costs sessionId measure + coverageSum tables.coverage sessionId measure

/-- Amounts by which figures of sessions shift. -/
abbrev Amounts := String → Measure → Int

/-- Amounts for one session. -/
def atSession (sessionId : String)
    (amounts : Measure → Int) : Amounts :=
  fun other => if other = sessionId then amounts else 0

@[simp] theorem atSession_self (sessionId : String) (amounts : Measure → Int) :
    atSession sessionId amounts sessionId = amounts :=
  if_pos rfl

theorem atSession_of_ne
    {sessionId other : String} (differs : other ≠ sessionId) (amounts : Measure → Int) :
    atSession sessionId amounts other = 0 :=
  if_neg differs

@[simp] theorem atSession_zero (sessionId : String) : atSession sessionId 0 = 0 :=
  funext fun _ => ite_self 0

/-- An amount for one figure of one session. -/
def atFigure (sessionId : String) (measure : Measure)
    (amount : Int) : Amounts :=
  atSession sessionId (Pi.single measure amount)

@[simp] theorem atFigure_self (sessionId : String) (measure : Measure) (amount : Int) :
    atFigure sessionId measure amount sessionId measure = amount := by
  simp [atFigure]

theorem atFigure_of_ne
    {sessionId other : String} {measure figure : Measure}
    (differs : ¬(other = sessionId ∧ figure = measure)) (amount : Int) :
    atFigure sessionId measure amount other figure = 0 := by
  by_cases same : other = sessionId
  · subst same
    have apart : figure ≠ measure := fun isFigure => differs ⟨rfl, isFigure⟩
    simp [atFigure, apart]
  · rw [atFigure, atSession_of_ne same]
    rfl

/-- What the database checks: money and coverage rows belong to sessions that are
there, and the counters are in their bounds. -/
structure LedgerTables.Sound (tables : LedgerTables) : Prop where
  costs : ∀ key, (tables.costs.get key).isSome →
    (tables.sessions.get key.sessionId).isSome
  coverage : ∀ key, (tables.coverage.get key).isSome →
    (tables.sessions.get key.sessionId).isSome
  sessionBounds : ∀ sessionId row, tables.sessions.get sessionId = some row →
    row.UsageBounds
  coverageBounds : ∀ key row, tables.coverage.get key = some row → row.Bounds

theorem LedgerTables.Sound.perModel_eq_zero
    {tables : LedgerTables} (sound : tables.Sound) {sessionId : String}
    (absent : tables.sessions.get sessionId = none) (measure : Measure) :
    tables.perModel sessionId measure = 0 := by
  have costs : costSum tables.costs sessionId measure = 0 := by
    refine OrderedMap.total_eq_zero fun key row found => if_neg ?_
    rintro rfl
    simpa [absent] using sound.costs key (by simp [found])
  have coverage : coverageSum tables.coverage sessionId measure = 0 := by
    refine OrderedMap.total_eq_zero fun key row found => if_neg ?_
    rintro rfl
    simpa [absent] using sound.coverage key (by simp [found])
  rw [LedgerTables.perModel, costs, coverage, Int.add_zero]

/-- A cost row moves the sum of its session by the difference it makes. -/
theorem costSum_set
    (costs : OrderedMap CostKey SessionCostRow) (key : CostKey) (row : SessionCostRow)
    (sessionId : String) (measure : Measure) :
    costSum (costs.set key row) sessionId measure =
      costSum costs sessionId measure +
        if sessionId = key.sessionId then
          row.figure measure - ((costs.get key).map (·.figure measure)).getD 0
        else 0 := by
  rw [costSum, OrderedMap.total_set, OrderedMap.weightAt, ← costSum]
  by_cases same : sessionId = key.sessionId
  · cases found : costs.get key with
    | none => simp [same]
    | some old =>
      simp [same]
      omega
  · cases costs.get key <;> simp [same, Ne.symm same]

/-- A coverage row moves the sum of its session by the difference it makes. -/
theorem coverageSum_set
    (coverage : OrderedMap CoverageKey CoverageRow) (key : CoverageKey) (row : CoverageRow)
    (sessionId : String) (measure : Measure) :
    coverageSum (coverage.set key row) sessionId measure =
      coverageSum coverage sessionId measure +
        if sessionId = key.sessionId then
          row.figure measure - ((coverage.get key).map (·.figure measure)).getD 0
        else 0 := by
  rw [coverageSum, OrderedMap.total_set, OrderedMap.weightAt, ← coverageSum]
  by_cases same : sessionId = key.sessionId
  · cases found : coverage.get key with
    | none => simp [same]
    | some old =>
      simp [same]
      omega
  · cases coverage.get key <;> simp [same, Ne.symm same]

/-! ## Shifts -/

/-- What statements do to the sessions that are there: their rows shift by the
first amounts, the sums over their models by the second. -/
structure Shifts (before after : LedgerTables)
    (owner models : Amounts) : Prop where
  row : ∀ sessionId row, before.sessions.get sessionId = some row →
    ∃ next, after.sessions.get sessionId = some next ∧
      (∀ measure,
        next.figure measure = row.figure measure + owner sessionId measure) ∧
      row.usageInvocationHighWater ≤ next.usageInvocationHighWater
  sums : ∀ sessionId measure,
    after.perModel sessionId measure =
      before.perModel sessionId measure + models sessionId measure
  sound : before.Sound → after.Sound

theorem Shifts.refl (tables : LedgerTables) : Shifts tables tables 0 0 where
  row _ row found := ⟨row, found, by simp, le_refl _⟩
  sums := by simp
  sound := id

theorem Shifts.of_same
    {before after : LedgerTables} (sessions : after.sessions = before.sessions)
    (costs : after.costs = before.costs) (coverage : after.coverage = before.coverage) :
    Shifts before after 0 0 where
  row _ row found := ⟨row, sessions ▸ found, by simp, le_refl _⟩
  sums := by simp [LedgerTables.perModel, costs, coverage]
  sound sound := by
    refine ⟨?_, ?_, ?_, ?_⟩
    · rw [costs, sessions]
      exact sound.costs
    · rw [coverage, sessions]
      exact sound.coverage
    · rw [sessions]
      exact sound.sessionBounds
    · rw [coverage]
      exact sound.coverageBounds

theorem Shifts.trans
    {before middle after : LedgerTables} {owner models owner' models' : Amounts}
    (earlier : Shifts before middle owner models) (later : Shifts middle after owner' models') :
    Shifts before after (owner + owner') (models + models') where
  row sessionId row found := by
    obtain ⟨next, isNext, figures, mark⟩ := earlier.row sessionId row found
    obtain ⟨last, isLast, lastFigures, lastMark⟩ := later.row sessionId next isNext
    refine ⟨last, isLast, fun measure => ?_, mark.trans lastMark⟩
    rw [lastFigures, figures, Pi.add_apply, Pi.add_apply, Int.add_assoc]
  sums sessionId measure := by
    rw [later.sums, earlier.sums, Pi.add_apply, Pi.add_apply, Int.add_assoc]
  sound := later.sound ∘ earlier.sound

/-- Statements that shift by the same amounts whenever they commit. -/
def Shifting (statements : LedgerStatements α)
    (owner models : Amounts) : Prop :=
  ∀ before answer after, Commits statements before answer after →
    Shifts before after owner models

/-- Statements that shift no figure. -/
abbrev Still (statements : LedgerStatements α) : Prop :=
  Shifting statements 0 0

section Sequences

variable
  {owner models owner' models' : Amounts}

variable {first : LedgerStatements α} {next : α → LedgerStatements β}

/-- The shifts of statements add up. -/
theorem Shifting.bind
    (firstShifts : Shifting first owner models)
    (nextShifts : ∀ answer, Shifting (next answer) owner' models') :
    Shifting (first >>= next) (owner + owner') (models + models') := by
  intro before answer after commits
  obtain ⟨given, middle, firstCommits, nextCommits⟩ := commits_bind.mp commits
  exact (firstShifts _ _ _ firstCommits).trans (nextShifts given _ _ _ nextCommits)

theorem Shifting.after
    (nextShifts : ∀ answer, Shifting (next answer) owner models) (firstStill : Still first) :
    Shifting (first >>= next) owner models := by
  simpa using firstStill.bind nextShifts

theorem Shifting.before
    (firstShifts : Shifting first owner models) (nextStill : ∀ answer, Still (next answer)) :
    Shifting (first >>= next) owner models := by
  simpa using firstShifts.bind nextStill

theorem still_of_unchanged {statements : LedgerStatements α}
    (unchanged : ∀ before answer after, Commits statements before answer after →
      after = before) :
    Still statements := by
  intro before answer after commits
  rw [unchanged before answer after commits]
  exact .refl before

theorem still_pure (answer : α) : Still (pure answer : LedgerStatements α) :=
  still_of_unchanged fun _ _ _ commits => (commits_pure.mp commits).2.symm

theorem still_select (read : LedgerTables → α) : Still (select read) :=
  still_of_unchanged fun _ _ _ commits => (commits_select.mp commits).2.symm

theorem still_require {condition : Prop} [Decidable condition] (refusal : LedgerRefusal) :
    Still (require condition refusal : LedgerStatements Unit) :=
  still_of_unchanged fun _ _ _ commits => (commits_require.mp commits).2.symm

theorem shifting_refuse (refusal : LedgerRefusal) :
    Shifting (refuse refusal : LedgerStatements α) owner models :=
  fun _ _ _ commits => absurd commits commits_refuse

theorem still_forEach
    {act : α → LedgerStatements Unit} (still : ∀ item, Still (act item)) (items : List α) :
    Still (forEach act items) := by
  induction items with
  | nil => exact still_pure ()
  | cons item rest ih =>
    exact Shifting.after (fun _ => ih) (still item)

end Sequences

/-! ## Session rows -/

/-- An update changes the row when there is one, and answers how many. -/
theorem commits_updateSessionRow
    {sessionId : String} {set : AgentSessionRow → AgentSessionRow} {before after : LedgerTables}
    {changes : Nat} :
    Commits (updateSessionRow sessionId set) before changes after ↔
      (∃ row, before.sessions.get sessionId = some row ∧ (set row).UsageBounds ∧
        changes = 1 ∧
        after = { before with
          sessions := before.sessions.set sessionId (set row) }) ∨
      before.sessions.get sessionId = none ∧ changes = 0 ∧ after = before := by
  simp only [updateSessionRow, commits_bind, commits_select]
  cases found : before.sessions.get sessionId with
  | none =>
    constructor
    · rintro ⟨_, _, ⟨rfl, rfl⟩, commits⟩
      obtain ⟨rfl, rfl⟩ := commits_pure.mp commits
      exact .inr ⟨rfl, rfl, rfl⟩
    · rintro (⟨_, absurd, _⟩ | ⟨-, rfl, rfl⟩)
      · cases absurd
      · exact ⟨_, _, ⟨rfl, rfl⟩, commits_pure.mpr ⟨rfl, rfl⟩⟩
  | some row =>
    constructor
    · rintro ⟨_, _, ⟨rfl, rfl⟩, commits⟩
      simp only [commits_bind, commits_require, commits_update, commits_pure] at commits
      obtain ⟨_, _, ⟨bounds, rfl⟩, _, _, rfl, rfl, rfl⟩ := commits
      exact .inl ⟨row, rfl, bounds, rfl, rfl⟩
    · rintro (⟨_, isRow, bounds, rfl, rfl⟩ | ⟨absurd, _⟩)
      · cases isRow
        refine ⟨_, _, ⟨rfl, rfl⟩, ?_⟩
        simp only [commits_bind, commits_require, commits_update, commits_pure]
        exact ⟨(), before, ⟨bounds, rfl⟩, (), _, rfl, trivial, rfl⟩
      · cases absurd

/-- Setting a session row shifts the owner's figures by the difference. -/
theorem shifts_of_set
    {sessionId : String} {row next : AgentSessionRow} {before : LedgerTables}
    (found : before.sessions.get sessionId = some row)
    (mark : row.usageInvocationHighWater ≤ next.usageInvocationHighWater)
    (bounds : next.UsageBounds) :
    Shifts before
      { before with sessions := before.sessions.set sessionId next }
      (atSession sessionId (next.figure - row.figure)) 0 where
  row other old isOld := by
    by_cases same : other = sessionId
    · subst same
      cases found.symm.trans isOld
      exact ⟨next, by simp, by simp, mark⟩
    · exact ⟨old, by simp [OrderedMap.get_set, same, isOld],
        by simp [atSession_of_ne same], le_refl _⟩
  sums _ _ := (Int.add_zero _).symm
  sound sound := by
    have kept {other : String} (present : (before.sessions.get other).isSome) :
        ((before.sessions.set sessionId next).get other).isSome := by
      rw [OrderedMap.get_set]
      split
      · rfl
      · exact present
    refine ⟨fun key isKey => kept (sound.costs key isKey),
      fun key isKey => kept (sound.coverage key isKey),
      fun other row isRow => ?_, sound.coverageBounds⟩
    rw [OrderedMap.get_set] at isRow
    split at isRow
    · cases isRow
      exact bounds
    · exact sound.sessionBounds other row isRow

section Updates

variable
  {sessionId : String}
  {set : AgentSessionRow → AgentSessionRow}

/-- The amounts by which an update shifts the row of a session. -/
def rowShift (before : LedgerTables) (sessionId : String)
    (set : AgentSessionRow → AgentSessionRow) : Measure → Int :=
  ((before.sessions.get sessionId).map fun row => (set row).figure - row.figure).getD 0

theorem shifts_of_updateSessionRow
    (mark : ∀ row,
      row.usageInvocationHighWater ≤ (set row).usageInvocationHighWater)
    {before after : LedgerTables}
    {changes : Nat}
    (commits : Commits (updateSessionRow sessionId set) before changes after) :
    Shifts before after (atSession sessionId (rowShift before sessionId set)) 0 := by
  obtain ⟨row, found, bounds, -, rfl⟩ | ⟨absent, -, rfl⟩ :=
    commits_updateSessionRow.mp commits
  · simpa [rowShift, found] using shifts_of_set found (mark row) bounds
  · simpa [rowShift, absent] using Shifts.refl after

theorem still_updateSessionRow (figures : ∀ row, (set row).figure = row.figure)
    (mark : ∀ row,
      row.usageInvocationHighWater ≤ (set row).usageInvocationHighWater) :
    Still (updateSessionRow sessionId set) := by
  intro before changes after commits
  have shifts := shifts_of_updateSessionRow mark commits
  have none : rowShift before sessionId set = 0 := by
    cases found : before.sessions.get sessionId <;> simp [rowShift, found, figures]
  rwa [none, atSession_zero] at shifts

theorem still_touchRevision (sessionId : String) : Still (touchRevision sessionId) :=
  Shifting.after
    (fun _ => Shifting.after
      (fun _ => Shifting.after (fun _ => still_pure ())
        (still_updateSessionRow (fun _ => funext fun measure => by
          cases measure <;> rfl) fun _ => le_refl _))
      (still_require _))
    (still_select _)

theorem still_touchRevisions (sessionId : String) (count : Nat) :
    Still (touchRevisions sessionId count) := by
  induction count with
  | zero => exact still_pure ()
  | succ count ih =>
    exact Shifting.after (fun _ => ih) (still_touchRevision sessionId)

theorem shifts_of_updateBusinessColumns
    (mark : ∀ row,
      row.usageInvocationHighWater ≤ (set row).usageInvocationHighWater)
    {before after : LedgerTables}
    {answer : Unit}
    (commits : Commits (updateBusinessColumns sessionId set) before answer after) :
    Shifts before after (atSession sessionId (rowShift before sessionId set)) 0 := by
  obtain ⟨changes, middle, updates, touches⟩ := commits_bind.mp commits
  simpa using (shifts_of_updateSessionRow mark updates).trans
    (still_touchRevisions sessionId changes _ _ _ touches)

end Updates

/-- A session flush shifts nothing, whatever totals its record carries. -/
theorem still_mutableSessionColumns (sessionId : String) (record : AgentSessionRecord) :
    Still (updateBusinessColumns sessionId (mutableSessionColumns record).set) := by
  have updates : Still
      (updateSessionRow sessionId (mutableSessionColumns record).set) := by
    refine still_updateSessionRow (fun row => funext fun measure => ?_) fun row => le_refl _
    cases measure <;> rfl
  exact updates.before fun changes => still_touchRevisions sessionId changes

theorem shifts_of_insertSession
    {sessionId : String} {row : AgentSessionRow} {before after : LedgerTables}
    (commits : Commits (insertSession sessionId row) before () after) :
    before.sessions.get sessionId = none ∧ Shifts before after 0 0 ∧
      ∃ next, after.sessions.get sessionId = some next ∧
        next.figure = row.figure := by
  simp only [insertSession, commits_bind, commits_select, commits_require,
    commits_update] at commits
  obtain ⟨_, _, ⟨rfl, rfl⟩, _, _, ⟨⟨absent, bounds⟩, rfl⟩, _, _, rfl, touched⟩ :=
    commits
  have touches := still_touchRevision sessionId _ _ _ touched
  obtain ⟨next, isNext, figures, -⟩ := touches.row sessionId row (by simp)
  refine ⟨absent, ?_, next, isNext, funext fun measure => by simpa using figures measure⟩
  have kept {other : String} (present : (before.sessions.get other).isSome) :
      other ≠ sessionId := by
    rintro rfl
    simp [absent] at present
  have inserted : Shifts before
      { before with sessions := before.sessions.set sessionId row } 0 0 := by
    refine ⟨fun other old isOld => ⟨old, ?_, by simp, le_refl _⟩,
      by simp [LedgerTables.perModel],
      fun sound => ⟨fun key isKey => ?_, fun key isKey => ?_,
        fun other old isOld => ?_, sound.coverageBounds⟩⟩
    · simp [OrderedMap.get_set, kept (isOld ▸ rfl : (before.sessions.get other).isSome), isOld]
    · simpa [OrderedMap.get_set, kept (sound.costs key isKey)] using sound.costs key isKey
    · simpa [OrderedMap.get_set, kept (sound.coverage key isKey)] using sound.coverage key isKey
    · rw [OrderedMap.get_set] at isOld
      split at isOld
      · cases isOld
        exact bounds
      · exact sound.sessionBounds other old isOld
  simpa using inserted.trans touches

/-! ## Model rows -/

theorem still_insertMessage (row : SessionMessageRow) : Still (insertMessage row) := by
  refine Shifting.after (fun _ => Shifting.after (fun _ => Shifting.after
    (fun _ => still_touchRevision row.sessionId) ?_) (still_require _)) (still_select _)
  intro before answer after commits
  rw [← commits_update.mp commits]
  exact .of_same rfl rfl rfl

theorem shifts_of_setCost
    {key : CostKey} {row : SessionCostRow} {before : LedgerTables}
    (owned : before.Sound → (before.sessions.get key.sessionId).isSome) :
    Shifts before { before with costs := before.costs.set key row } 0
      (atSession key.sessionId
        (row.figure - ((before.costs.get key).map (·.figure)).getD 0)) where
  row _ row found := ⟨row, found, by simp, le_refl _⟩
  sums other measure := by
    simp only [LedgerTables.perModel, costSum_set, atSession]
    cases before.costs.get key <;> split <;> simp <;> omega
  sound sound := by
    refine ⟨fun other isOther => ?_, sound.coverage, sound.sessionBounds, sound.coverageBounds⟩
    by_cases same : other = key
    · exact same ▸ owned sound
    · exact sound.costs other (by simpa [OrderedMap.get_set, same] using isOther)

/-- The amounts by which an upsert shifts the sums over the cost rows. -/
def costShift (before : LedgerTables) (key : CostKey) (inserted : SessionCostRow)
    (set : SessionCostRow → SessionCostRow) : Measure → Int :=
  match before.costs.get key with
  | some row => (set row).figure - row.figure
  | none => inserted.figure

/-- An upsert of a cost row shifts the models by its figures. -/
theorem shifts_of_upsertCost
    {key : CostKey} {inserted : SessionCostRow} {set : SessionCostRow → SessionCostRow}
    {before after : LedgerTables} {answer : Unit}
    (commits : Commits (upsertCost key inserted set) before answer after) :
    Shifts before after 0
      (atSession key.sessionId (costShift before key inserted set)) := by
  simp only [upsertCost, commits_bind, commits_select] at commits
  obtain ⟨_, _, ⟨rfl, rfl⟩, _, middle, writes, touches⟩ := commits
  have touched := still_touchRevision _ _ _ _ touches
  unfold costShift
  cases found : before.costs.get key with
  | some row =>
    simp only [id_eq, found, commits_update] at writes
    rw [← writes] at touched
    have written := @shifts_of_setCost key (set row) before fun sound =>
      sound.costs key (by simp [found])
    simpa [found] using written.trans touched
  | none =>
    simp only [id_eq, found, commits_bind, commits_require, commits_update] at writes
    obtain ⟨_, _, ⟨⟨-, present, -⟩, rfl⟩, rfl⟩ := writes
    have written := @shifts_of_setCost key inserted before fun _ => present
    simpa [found] using written.trans touched

/-- Setting a coverage row shifts the models by the difference. -/
theorem shifts_of_setCoverage
    {key : CoverageKey} {row : CoverageRow} {before : LedgerTables}
    (owned : before.Sound → (before.sessions.get key.sessionId).isSome) (bounds : row.Bounds) :
    Shifts before { before with coverage := before.coverage.set key row } 0
      (atSession key.sessionId
        (row.figure - ((before.coverage.get key).map (·.figure)).getD 0)) where
  row _ row found := ⟨row, found, by simp, le_refl _⟩
  sums other measure := by
    simp only [LedgerTables.perModel, coverageSum_set, atSession]
    cases before.coverage.get key <;> split <;> simp <;> omega
  sound sound := by
    refine ⟨sound.costs, fun other isOther => ?_, sound.sessionBounds, fun other old isOld => ?_⟩
    · by_cases same : other = key
      · exact same ▸ owned sound
      · exact sound.coverage other (by simpa [OrderedMap.get_set, same] using isOther)
    · rw [OrderedMap.get_set] at isOld
      split at isOld
      · cases isOld
        exact bounds
      · exact sound.coverageBounds other old isOld

/-- The amounts of a change of coverage. -/
def coverageAmounts (pending unknown : Int) : Measure → Int
  | .cost => 0
  | .conservative => 0
  | .pending => pending
  | .unknown => unknown

/-- A change of coverage shifts the row of the session and the sums alike. -/
theorem shifting_changeCoverage (receipt : SessionUsageReceipt) (pending unknown : Int) :
    Shifting (changeCoverage receipt pending unknown)
      (atSession receipt.sessionId (coverageAmounts pending unknown))
      (atSession receipt.sessionId (coverageAmounts pending unknown)) := by
  intro before answer after commits
  simp only [changeCoverage, commits_bind, commits_select] at commits
  obtain ⟨_, _, ⟨rfl, rfl⟩, commits⟩ := commits
  cases found : before.coverage.get ⟨receipt.sessionId, receipt.model⟩ with
  | none =>
    rw [found] at commits
    exact absurd commits commits_refuse
  | some row =>
    simp only [found, commits_bind, commits_require, commits_update] at commits
    obtain ⟨_, _, ⟨bounds, rfl⟩, _, _, rfl, changes, _, updated, isOne, rfl⟩ := commits
    have written := @shifts_of_setCoverage ⟨receipt.sessionId, receipt.model⟩
      ⟨row.pendingInvocations + pending, row.unknownCalls + unknown⟩ before
      (fun sound => sound.coverage _ (by simp [found])) bounds
    have counted : CoverageRow.figure
          ⟨row.pendingInvocations + pending, row.unknownCalls + unknown⟩ -
        ((before.coverage.get ⟨receipt.sessionId, receipt.model⟩).map
          (·.figure)).getD 0 = coverageAmounts pending unknown := by
      ext measure
      cases measure <;> simp [found, CoverageRow.figure, coverageAmounts]
    obtain ⟨owner, isOwner, bounds, -, rfl⟩ | ⟨-, isZero, -⟩ :=
      commits_updateSessionRow.mp updated
    · have owned := @shifts_of_set receipt.sessionId owner
        { owner with
          usagePendingInvocations := owner.usagePendingInvocations + pending
          usageUnknownCalls := owner.usageUnknownCalls + unknown }
        _ isOwner (le_refl _) bounds
      have same : AgentSessionRow.figure
          { owner with
            usagePendingInvocations := owner.usagePendingInvocations + pending
            usageUnknownCalls := owner.usageUnknownCalls + unknown } - owner.figure =
          coverageAmounts pending unknown := by
        ext measure
        cases measure <;> simp [AgentSessionRow.figure, coverageAmounts]
      rw [counted] at written
      rw [same] at owned
      simpa using written.trans owned
    · simp [isZero] at isOne

theorem still_update_of_invocations
    (change : LedgerTables → OrderedMap InvocationKey InvocationRow) :
    Still (update fun tables =>
      { tables with invocations := change tables }) := by
  intro before answer after commits
  rw [← commits_update.mp commits]
  exact .of_same rfl rfl rfl

/-! ## The outer transaction -/

/-- The rows of `session_costs` and `session_usage_invocations`. -/
def LedgerTables.receiptRows (tables : LedgerTables) :
    OrderedMap CostKey SessionCostRow × OrderedMap InvocationKey InvocationRow :=
  (tables.costs, tables.invocations)

section Keeps

variable
  {sessionId : String}
  {set : AgentSessionRow → AgentSessionRow}

theorem keeps_updateSessionRow :
    Keeps LedgerTables.receiptRows (updateSessionRow sessionId set) := by
  intro before changes after commits
  obtain ⟨_, _, _, _, rfl⟩ | ⟨_, _, rfl⟩ := commits_updateSessionRow.mp commits
  · rfl
  · rfl

theorem keeps_forEach
    {view : LedgerTables → β} {act : α → LedgerStatements Unit}
    (keeps : ∀ item, Keeps view (act item)) (items : List α) :
    Keeps view (forEach act items) := by
  induction items with
  | nil => exact .pure
  | cons item rest ih =>
    exact Keeps.bind (keeps item) fun _ => ih

theorem keeps_latchEntryTaint :
    Keeps LedgerTables.receiptRows (latchEntryTaint sessionId) := by
  refine Keeps.bind .select fun found => ?_
  cases found with
  | none => exact .pure
  | some row =>
    refine Keeps.bind .require fun _ => ?_
    split
    · exact Keeps.bind keeps_updateSessionRow fun _ => .pure
    · exact .pure

theorem keeps_acknowledgeFinalRevision :
    Keeps LedgerTables.receiptRows (acknowledgeFinalRevision sessionId) := by
  refine Keeps.bind .select fun found => ?_
  cases found with
  | none => exact .pure
  | some row =>
    exact Keeps.bind .require fun _ =>
      Keeps.bind keeps_updateSessionRow fun _ => .pure

end Keeps

theorem still_latchEntryTaint (sessionId : String) :
    Still (latchEntryTaint sessionId) := by
  refine Shifting.after (fun found => ?_) (still_select _)
  cases found with
  | none => exact still_pure ()
  | some row =>
    refine Shifting.after (fun _ => ?_) (still_require _)
    split
    · exact Shifting.after (fun _ => still_pure ())
        (still_updateSessionRow (fun _ => funext fun measure => by
          cases measure <;> rfl) fun _ => le_refl _)
    · exact still_pure ()

theorem still_acknowledgeFinalRevision (sessionId : String) :
    Still (acknowledgeFinalRevision sessionId) := by
  refine Shifting.after (fun found => ?_) (still_select _)
  cases found with
  | none => exact still_pure ()
  | some row =>
    exact Shifting.after (fun _ => Shifting.after (fun _ => still_pure ())
      (still_updateSessionRow (fun _ => funext fun measure => by
        cases measure <;> rfl) fun _ => le_refl _)) (still_require _)

/-- The outer transaction commits when its body does, between statements that
shift nothing and write none of these rows. -/
theorem frame_of_withSessionUsageWrite
    {sessionIds : List String} {body : LedgerStatements α} {before after : LedgerTables}
    {answer : α} (commits : Commits (withSessionUsageWrite sessionIds body) before answer after) :
    ∃ entered left, Commits body entered answer left ∧
      Shifts before entered 0 0 ∧ Shifts left after 0 0 ∧
      entered.receiptRows = before.receiptRows ∧
      after.receiptRows = left.receiptRows := by
  simp only [withSessionUsageWrite, commits_bind, commits_pure] at commits
  obtain ⟨_, entered, latched, _, left, ran, _, _, acknowledged, rfl, rfl⟩ := commits
  exact ⟨entered, left, ran, still_forEach still_latchEntryTaint _ _ _ _ latched,
    still_forEach still_acknowledgeFinalRevision _ _ _ _ acknowledged,
    keeps_forEach (fun _ => keeps_latchEntryTaint) _ _ _ _ latched,
    keeps_forEach (fun _ => keeps_acknowledgeFinalRevision) _ _ _ _ acknowledged⟩

/-- A usage write runs its body between bookkeeping that shifts nothing. -/
theorem commits_of_withSessionUsageWrite
    {sessionIds : List String} {body : LedgerStatements α} {before after : LedgerTables}
    {answer : α} (commits : Commits (withSessionUsageWrite sessionIds body) before answer after) :
    ∃ entered left, Shifts before entered 0 0 ∧
      Commits body entered answer left ∧ Shifts left after 0 0 := by
  obtain ⟨entered, left, ran, enters, leaves, -, -⟩ :=
    frame_of_withSessionUsageWrite commits
  exact ⟨entered, left, enters, ran, leaves⟩

end SessionLedger
end Relavium.Store
