import Relavium.Store.SessionLedgerBalance

/-!
# The money of a session along a run

A session that is created with zero totals starts in balance, and a call keeps
it there as long as the money that it adds fits above the total of the session:
up to `2 ^ 53` every integer is a binary64 number.  The coverage counters add no
money, so they stay in balance over every run.
-/

namespace Relavium.Store
namespace SessionLedger

open Library
open Library.Statements

/-! ## Calls -/

/-- The money that an answered call adds. -/
def added : (LedgerCall × WriteFault) × Option LedgerAnswer → Amounts
  | ((.recordSessionCost _ entry, _), some (.accepted true)) =>
    atFigure entry.sessionId .cost entry.costMicrocents
  | ((.recordSessionConservativeCommitment entry, _), some _) =>
    atFigure entry.sessionId .conservative entry.estimateMicrocents
  | _ => 0

theorem atFigure_nonneg
    (sessionId : String) (measure : Measure) (amount : Nat) (other : String) (figure : Measure) :
    0 ≤ atFigure sessionId measure amount other figure := by
  by_cases target : other = sessionId ∧ figure = measure
  · obtain ⟨rfl, rfl⟩ := target
    simp
  · rw [atFigure_of_ne target]

/-- Only money is added, and no negative amount. -/
theorem added_nonneg
    (call : (LedgerCall × WriteFault) × Option LedgerAnswer) (sessionId : String)
    (measure : Measure) :
    0 ≤ added call sessionId measure ∧
      (¬measure.IsMoney → added call sessionId measure = 0) := by
  unfold added
  split
  · refine ⟨atFigure_nonneg .., fun counter => atFigure_of_ne ?_ _⟩
    rintro ⟨-, rfl⟩
    exact counter trivial
  · refine ⟨atFigure_nonneg .., fun counter => atFigure_of_ne ?_ _⟩
    rintro ⟨-, rfl⟩
    exact counter trivial
  · exact ⟨le_refl 0, fun _ => rfl⟩

theorem LedgerEffect.refl (tables : LedgerTables) : LedgerEffect 0 tables tables :=
  (Shifts.refl tables).pairs.effect

/-- A transaction has the effect of its commit, or none. -/
theorem effect_write
    {fault : WriteFault} {statements : LedgerStatements α} {tables : LedgerTables}
    {adds : Option α → Amounts} (nothing : adds none = 0)
    (effect : ∀ answer after, Commits statements tables answer after →
      LedgerEffect (adds (some answer)) tables after) :
    LedgerEffect (adds (write fault statements tables).committed) tables
      (write fault statements tables).tables := by
  obtain ⟨given, committed, commits⟩ | ⟨committed, same, -⟩ :=
    @write_cases _ fault statements tables
  · rw [committed]
    exact effect given _ commits
  · rw [committed, same, nothing]
    exact .refl tables

theorem Pairing.effect_write
    {statements : LedgerStatements α} (pairing : Pairing statements) {fault : WriteFault}
    {tables : LedgerTables} :
    LedgerEffect 0 tables (write fault statements tables).tables :=
  @SessionLedger.effect_write _ fault statements tables (fun _ => 0) rfl fun _ _ => pairing.effect

/-- Every call adds its money, and moves nothing else apart. -/
theorem effect_perform (world : LedgerWorld) (input : LedgerCall × WriteFault) :
    LedgerEffect (added (input, (perform world input).1)) world.tables
      (perform world input).2.tables := by
  obtain ⟨call, fault⟩ := input
  cases call with
  | createSession record => exact (pairing_createSession record).effect_write
  | createFreshSession seed => exact (pairing_createFreshSession seed).effect_write
  | createFreshOneShotOwner db sessionId now =>
    have effect := @Pairing.effect_write _ _ (pairing_reserveOneShot sessionId now)
      fault world.tables
    simp only [perform, LedgerWorld.createFreshOneShotOwner]
    split
    · exact effect
    · exact effect
  | recordSessionCost db entry =>
    simp only [perform, LedgerWorld.recordSessionCost]
    split
    · exact .refl _
    · refine @effect_write _ fault (recordSessionCost entry _) world.tables
        (fun committed => added ((.recordSessionCost db entry, fault),
          committed.map .accepted)) rfl fun accepted after commits => ?_
      have effect := pays_recordSessionCost commits
      cases accepted <;> exact effect
    · refine @effect_write _ fault (recordSessionCost entry _) world.tables
        (fun committed => added ((.recordSessionCost db entry, fault),
          committed.map .accepted)) rfl fun accepted after commits => ?_
      have effect := pays_recordSessionCost commits
      cases accepted <;> exact effect
  | recordSessionConservativeCommitment entry =>
    exact @effect_write _ fault (recordSessionConservativeCommitment entry) world.tables
      (fun committed => added ((.recordSessionConservativeCommitment entry, fault),
        committed.map fun _ => .done)) rfl
      fun _ _ commits => pays_recordSessionConservativeCommitment commits
  | releaseSessionConservativeCommitments sessionId ts =>
    exact @effect_write _ fault (releaseSessionConservativeCommitments sessionId ts)
      world.tables (fun _ => 0) rfl
      fun _ _ => effect_releaseSessionConservativeCommitments
  | updateSession record => exact (pairing_updateSession record).effect_write
  | writeTurn turn => exact (pairing_writeTurn turn).effect_write
  | beginInvocation db given owner =>
    have effect := @Pairing.effect_write _ _
      (pairing_beginSessionUsageInvocation given owner.isSome) fault world.tables
    simp only [perform, LedgerWorld.beginInvocation]
    split
    · exact .refl _
    · split
      · exact effect
      · exact effect
  | disposition db receipt value =>
    simp only [perform, LedgerWorld.disposition]
    split
    · exact .refl _
    · split
      · exact .refl _
      · exact (pairing_disposeSessionUsageInvocation _ value).effect_write
  | retire db receipt =>
    simp only [perform, LedgerWorld.retire]
    split
    · exact .refl _
    · split
      · exact .refl _
      · exact (pairing_retireSessionUsageInvocation _).effect_write

section Steps

variable
  {world next : LedgerWorld}
  {call : (LedgerCall × WriteFault) × Option LedgerAnswer}
  {sessionId : String}
  {measure : Measure}

/-- A step has the effect of what its call adds. -/
theorem LedgerStep.effect (step : LedgerStep world call next) :
    LedgerEffect (added call) world.tables next.tables := by
  have effect := effect_perform world call.1
  rwa [show perform world call.1 = (call.2, next) from step] at effect

/-- What the call adds to a figure of the session fits above the total. -/
def FindsRoom (sessionId : String) (measure : Measure) (world : LedgerWorld)
    (call : (LedgerCall × WriteFault) × Option LedgerAnswer) : Prop :=
  ∀ row ∈ world.tables.sessions.get sessionId, 0 < added call sessionId measure →
    row.figure measure + added call sessionId measure ≤ 2 ^ 53

instance
    (sessionId : String) (measure : Measure) (world : LedgerWorld)
    (call : (LedgerCall × WriteFault) × Option LedgerAnswer) :
    Decidable (FindsRoom sessionId measure world call) :=
  inferInstanceAs (Decidable (∀ row ∈ world.tables.sessions.get sessionId, _))

/-- A call that finds room for what it adds to a figure of the session. -/
def RoomyStep
    (sessionId : String) (measure : Measure) (world : LedgerWorld)
    (call : (LedgerCall × WriteFault) × Option LedgerAnswer)
    (next : LedgerWorld) : Prop :=
  LedgerStep world call next ∧ FindsRoom sessionId measure world call

/-- Whether a call finds room, given its input. -/
def roomCheck (sessionId : String) (measure : Measure) (world : LedgerWorld)
    (input : LedgerCall × WriteFault) : Bool :=
  decide (FindsRoom sessionId measure world (input, (perform world input).1))

theorem roomyStep_of_check
    (checked : LedgerStep world call next ∧ roomCheck sessionId measure world call.1 = true) :
    RoomyStep sessionId measure world call next := by
  obtain ⟨step, finds⟩ := checked
  refine ⟨step, ?_⟩
  have answered : (perform world call.1).1 = call.2 := congrArg Prod.fst step
  have room := of_decide_eq_true finds
  rwa [answered] at room

/-- A call always finds room for the counters, to which it adds no money. -/
theorem LedgerStep.roomy (step : LedgerStep world call next) (counter : ¬measure.IsMoney) :
    RoomyStep sessionId measure world call next := by
  refine ⟨step, fun row _ adds => ?_⟩
  rw [(added_nonneg call sessionId measure).2 counter] at adds
  exact absurd adds (lt_irrefl 0)

/-- Statements that shift nothing keep the balance. -/
theorem Shifts.balanced
    {before after : LedgerTables} (shifts : Shifts before after 0 0)
    (balanced : before.Balanced sessionId measure) :
    after.Balanced sessionId measure := by
  obtain ⟨row, found, agrees, small⟩ := balanced
  obtain ⟨next, isNext, figures, -⟩ := shifts.row sessionId row found
  have same : next.figure measure = row.figure measure := by simpa using figures measure
  refine ⟨next, isNext, ?_, same ▸ small⟩
  rw [shifts.sums, agrees, same]
  simp

/-- The counters of a session stay within the safe integers. -/
theorem AgentSessionRow.figure_le_of_counter
    {row : AgentSessionRow} (bounds : row.UsageBounds) (counter : ¬measure.IsMoney) :
    row.figure measure ≤ 2 ^ 53 := by
  obtain ⟨-, -, ⟨-, pending⟩, ⟨-, unknown⟩, -⟩ := bounds
  unfold maxSafeInteger at pending unknown
  cases measure with
  | cost | conservative => exact absurd trivial counter
  | pending => exact pending.trans (by decide)
  | unknown => exact unknown.trans (by decide)

/-- A call that finds room keeps the balance, and does not lower the realized
money. -/
theorem RoomyStep.balanced
    (step : RoomyStep sessionId measure world call next) (sound : next.tables.Sound)
    (balanced : world.tables.Balanced sessionId measure) :
    next.tables.Balanced sessionId measure ∧
      (measure = .cost →
        world.tables.perModel sessionId measure ≤
          next.tables.perModel sessionId measure) := by
  obtain ⟨taken, room⟩ := step
  obtain ⟨row, found, agrees, small⟩ := balanced
  obtain ⟨owner, models, shifts, exact⟩ := taken.effect
  obtain ⟨nonneg, -⟩ := added_nonneg call sessionId measure
  have fits : row.figure measure + added call sessionId measure ≤ 2 ^ 53 := by
    obtain zero | adds := nonneg.eq_or_lt
    · rwa [← zero, Int.add_zero]
    · exact room row found adds
  obtain ⟨paired, atMost, exactly⟩ := exact sessionId row measure found agrees fits
  obtain ⟨last, isLast, figures, -⟩ := shifts.row sessionId row found
  refine ⟨⟨last, isLast, ?_, ?_⟩, fun isCost => ?_⟩
  · rw [shifts.sums, figures, agrees, paired]
  · by_cases isMoney : measure.IsMoney
    · rw [figures, paired]
      exact (Int.add_le_add_left (atMost isMoney) _).trans fits
    · exact AgentSessionRow.figure_le_of_counter (sound.sessionBounds _ _ isLast) isMoney
  · rw [shifts.sums, exactly isCost]
    exact Int.le_add_of_nonneg_right nonneg

/-- A run whose calls find room keeps the balance. -/
theorem balanced_of_roomyRun
    {history : List ((LedgerCall × WriteFault) × Option LedgerAnswer)}
    (run : Run (RoomyStep sessionId measure) world history next) (sound : world.tables.Sound)
    (balanced : world.tables.Balanced sessionId measure) :
    next.tables.Sound ∧ next.tables.Balanced sessionId measure ∧
      (measure = .cost →
        world.tables.perModel sessionId measure ≤
          next.tables.perModel sessionId measure) := by
  induction run with
  | nil => exact ⟨sound, balanced, fun _ => le_refl _⟩
  | snoc _ step ih =>
    obtain ⟨sound, balanced, grows⟩ := ih
    have sound := step.1.effect.sound sound
    obtain ⟨balanced, grows'⟩ := step.balanced sound balanced
    exact ⟨sound, balanced, fun isCost => (grows isCost).trans (grows' isCost)⟩

end Steps

/-- Every run from a sound world ends in one. -/
theorem sound_of_run
    {world next : LedgerWorld} {history : List ((LedgerCall × WriteFault) × Option LedgerAnswer)}
    (run : Run LedgerStep world history next) (sound : world.tables.Sound) :
    next.tables.Sound :=
  run.invariant (fun _ world => world.tables.Sound) sound
    fun _ _ _ _ _ sound step => step.effect.sound sound

/-! ## Sessions created with zero totals -/

/-- The call creates the session, with zero totals. -/
def createsZero (sessionId : String) :
    (LedgerCall × WriteFault) × Option LedgerAnswer → Prop
  | ((.createSession record, _), some _) =>
    record.id = sessionId ∧ record.totalCostMicrocents = 0 ∧
      record.totalConservativeMicrocents = 0
  | ((.createFreshSession seed, _), some _) => seed.id = sessionId
  | ((.createFreshOneShotOwner _ created _, _), some _) => created = sessionId
  | _ => False

theorem sound_fresh (modelCatalog effectScopes : List String) :
    (LedgerWorld.fresh modelCatalog effectScopes).tables.Sound :=
  ⟨fun _ isKey => by simp [LedgerWorld.fresh] at isKey,
    fun _ isKey => by simp [LedgerWorld.fresh] at isKey,
    fun _ _ isRow => by simp [LedgerWorld.fresh] at isRow,
    fun _ _ isRow => by simp [LedgerWorld.fresh] at isRow⟩

theorem balanced_of_insertSession
    {sessionId : String} {measure : Measure} {row : AgentSessionRow} {before after : LedgerTables}
    (sound : before.Sound) (zero : row.figure = 0)
    (commits : Commits (insertSession sessionId row) before () after) :
    after.Balanced sessionId measure := by
  obtain ⟨absent, shifts, next, isNext, figures⟩ := shifts_of_insertSession commits
  refine ⟨next, isNext, ?_, ?_⟩
  · rw [shifts.sums, sound.perModel_eq_zero absent, figures, zero]
    rfl
  · rw [figures, zero]
    exact Int.zero_le_ofNat _

section Creations

variable
  {before after : LedgerTables}
  {sessionId : String}
  {measure : Measure}

theorem balanced_of_withSessionUsageWrite
    {sessionIds : List String} {body : LedgerStatements α} {answer : α} (sound : before.Sound)
    (balances : ∀ entered left, entered.Sound → Commits body entered answer left →
      left.Balanced sessionId measure)
    (commits : Commits (withSessionUsageWrite sessionIds body) before answer after) :
    after.Balanced sessionId measure := by
  obtain ⟨entered, left, enters, ran, leaves⟩ :=
    commits_of_withSessionUsageWrite commits
  exact leaves.balanced (balances entered left (enters.sound sound) ran)

theorem balanced_of_createSession
    {record : AgentSessionRecord} (sound : before.Sound) (cost : record.totalCostMicrocents = 0)
    (conservative : record.totalConservativeMicrocents = 0)
    (commits : Commits (createSession record) before () after) :
    after.Balanced record.id measure := by
  refine balanced_of_withSessionUsageWrite sound (fun _ _ enteredSound ran => ?_) commits
  refine balanced_of_insertSession enteredSound (funext fun measure => ?_) ran
  cases measure with
  | cost => simp [AgentSessionRow.figure, newSessionRow, cost]
  | conservative => simp [AgentSessionRow.figure, newSessionRow, conservative]
  | pending | unknown => rfl

theorem balanced_of_createFreshSession
    {seed : FreshSessionSeed} (sound : before.Sound)
    (commits : Commits (createFreshSession seed) before () after) :
    after.Balanced seed.id measure := by
  refine balanced_of_withSessionUsageWrite sound (fun _ _ enteredSound ran => ?_) commits
  simp only [commits_bind, commits_select, commits_require, commits_pure] at ran
  obtain ⟨_, _, ⟨rfl, rfl⟩, _, _, ⟨-, rfl⟩, _, _, inserts, _, _, updates, -, rfl⟩ := ran
  have balanced : LedgerTables.Balanced _ seed.id measure := balanced_of_insertSession enteredSound
    (funext fun measure => by cases measure <;> rfl) inserts
  have still := still_updateSessionRow (fun row => funext fun measure => by cases measure <;> rfl)
    (fun row => by exact le_refl _) _ _ _ updates
  exact still.balanced balanced

theorem balanced_of_reserveOneShot {now : Int} (sound : before.Sound)
    (commits : Commits (reserveOneShotSessionEffectTurnKey sessionId now) before () after) :
    after.Balanced sessionId measure := by
  simp only [reserveOneShotSessionEffectTurnKey, commits_bind, commits_require] at commits
  obtain ⟨_, _, ⟨-, rfl⟩, commits⟩ := commits
  refine balanced_of_withSessionUsageWrite sound (fun _ _ enteredSound ran => ?_) commits
  simp only [commits_bind, commits_select, commits_require] at ran
  obtain ⟨_, _, ⟨rfl, rfl⟩, _, _, ⟨-, rfl⟩, inserts⟩ := ran
  exact balanced_of_insertSession enteredSound
    (funext fun measure => by cases measure <;> rfl) inserts

end Creations

theorem commits_of_committed
    {fault : WriteFault} {statements : LedgerStatements α} {tables : LedgerTables} {answer : α}
    (committed : (write fault statements tables).committed = some answer) :
    Commits statements tables answer (write fault statements tables).tables := by
  obtain ⟨given, isGiven, commits⟩ | ⟨none, -, -⟩ :=
    @write_cases _ fault statements tables
  · cases committed.symm.trans isGiven
    exact commits
  · simp [committed] at none

/-- A session created without money is balanced. -/
theorem balanced_of_creation
    {world next : LedgerWorld} {call : (LedgerCall × WriteFault) × Option LedgerAnswer}
    {sessionId : String} {measure : Measure} (sound : world.tables.Sound)
    (step : LedgerStep world call next) (creates : createsZero sessionId call) :
    next.tables.Balanced sessionId measure := by
  obtain ⟨⟨call, fault⟩, answer⟩ := call
  obtain ⟨answered, reached⟩ := Prod.mk.inj
    (show ((perform world (call, fault)).1, (perform world (call, fault)).2) =
      (answer, next) from step)
  subst reached
  cases answer with
  | none => cases call <;> exact creates.elim
  | some given =>
    cases call with
    | createSession record =>
      obtain ⟨rfl, cost, conservative⟩ := creates
      obtain ⟨_, committed, -⟩ := Option.map_eq_some_iff.mp answered
      exact balanced_of_createSession sound cost conservative (commits_of_committed committed)
    | createFreshSession seed =>
      obtain rfl : seed.id = sessionId := creates
      obtain ⟨_, committed, -⟩ := Option.map_eq_some_iff.mp answered
      exact balanced_of_createFreshSession sound (commits_of_committed committed)
    | createFreshOneShotOwner db created now =>
      obtain rfl : created = sessionId := creates
      obtain ⟨_, committed, -⟩ := Option.map_eq_some_iff.mp answered
      have balanced : LedgerTables.Balanced _ created measure := balanced_of_reserveOneShot sound
        (commits_of_committed committed)
      simp only [perform, LedgerWorld.createFreshOneShotOwner]
      split
      · exact balanced
      · exact balanced
    | _ => exact creates.elim

/-- A session that was created with zero totals is in balance as long as all calls
found room. -/
theorem balanced_of_run
    {modelCatalog effectScopes : List String}
    {history : List ((LedgerCall × WriteFault) × Option LedgerAnswer)} {world : LedgerWorld}
    {sessionId : String} {measure : Measure}
    (run : Run (RoomyStep sessionId measure) (.fresh modelCatalog effectScopes) history world)
    {creation : (LedgerCall × WriteFault) × Option LedgerAnswer}
    (member : creation ∈ history)
    (creates : createsZero sessionId creation) :
    world.tables.Balanced sessionId measure := by
  obtain ⟨earlier, later, rfl⟩ := List.append_of_mem member
  obtain ⟨before, toBefore, fromBefore⟩ := run.split
  obtain ⟨created, step, fromCreated⟩ :=
    @Run.split _ _ _ _ _ [creation] later fromBefore
  have sound := sound_of_run (toBefore.imp fun _ _ _ step => step.1)
    (sound_fresh modelCatalog effectScopes)
  have creating := step.step_of_singleton.1
  exact (balanced_of_roomyRun fromCreated (creating.effect.sound sound)
    (balanced_of_creation sound creating creates)).2.1

end SessionLedger
end Relavium.Store
