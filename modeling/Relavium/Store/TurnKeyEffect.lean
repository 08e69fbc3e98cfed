import Relavium.Store.TurnKeyEvidence

/-!
# What the transactions do to a session

Every transaction either leaves the mark and the effects of a session as they
are, apart from effects under keys that were issued, or it has seeded the mark
from the evidence and may sweep, or it has reserved the next key.
-/

namespace Relavium.Store

open Library

/-- The mark of a session, if it has a row. -/
def highWater (tables : SessionTables) (sessionId : String) : Option Int :=
  (tables.sessions.get sessionId).map SessionRow.effectTurnHighWater

/-- The key that a session has reached: its mark, or the floor of its evidence
while the mark is zero. -/
def Reached (tables : SessionTables) (sessionId : String)
    (key : Nat) : Prop :=
  highWater tables sessionId = some (key : Int) ∧ 0 < key ∧
      (key : Int) ≤ maxSafeInteger ∨
    highWater tables sessionId = some 0 ∧ legacyFloor tables sessionId = .ok key

/-- A later row of an effect that at most lost its result. -/
def RowKept (row later : EffectRow) : Prop :=
  later = row ∨ later = { row with resultJson := none }

/-- The journal keeps what it holds under an identity, and gains nothing there. -/
structure IdentityKept (before after : EffectJournal)
    (identity : EffectIdentity) : Prop where
  kept : ∀ row, before.get identity = some row →
    ∃ later, after.get identity = some later ∧ RowKept row later
  noMore : ∀ later, after.get identity = some later →
    ∃ row, before.get identity = some row

/-- What a transaction does to a session, when the keys in `issued` were handed
out before. -/
inductive TurnEffect (issued : List (String × Nat)) (sessionId : String)
    (before after : SessionTables) : Prop
  | kept (mark : highWater after sessionId = highWater before sessionId)
      (messages : List MessageRow)
      (appended : after.messages = before.messages ++ messages)
      (rows : ∀ identity, inScope sessionId identity.scope = true →
        IdentityKept before.effects after.effects identity ∨
          ∃ key, (sessionId, key) ∈ issued ∧
            identity.scope = turnScope sessionId key)
  | seeded (key : Nat) (reached : Reached before sessionId key)
      (mark : highWater after sessionId = some (key : Int))
      (rows : ∀ identity row,
        after.effects.get identity = some row →
          before.effects.get identity = some row)
  | reserved (current : Nat) (reached : Reached before sessionId current)
      (bound : (current : Int) < maxSafeInteger)
      (mark : highWater after sessionId = some ((current + 1 : Nat) : Int))
      (effects : after.effects = before.effects)
  | rowless (absent : highWater before sessionId = none)
      (still : highWater after sessionId = none)

section Effects

variable
  {issued : List (String × Nat)}
  {sessionId other : String}
  {before middle after tables : SessionTables}

theorem IdentityKept.refl (journal : EffectJournal) (identity : EffectIdentity) :
    IdentityKept journal journal identity :=
  ⟨fun row found => ⟨row, found, .inl rfl⟩, fun row found => ⟨row, found⟩⟩

variable
  {identity : EffectIdentity}

theorem IdentityKept.of_get_eq
    {before after : EffectJournal} (same : after.get identity = before.get identity) :
    IdentityKept before after identity :=
  ⟨fun row found => ⟨row, same.trans found, .inl rfl⟩,
    fun row found => ⟨row, same.symm.trans found⟩⟩

theorem TurnEffect.of_same
    (mark : highWater after sessionId = highWater before sessionId)
    (messages : after.messages = before.messages) (effects : after.effects = before.effects) :
    TurnEffect issued sessionId before after :=
  .kept mark [] (messages.trans (List.append_nil _).symm) fun _ _ =>
    .inl (.of_get_eq (by rw [effects]))

theorem TurnEffect.refl (tables : SessionTables) :
    TurnEffect issued sessionId tables tables :=
  .of_same rfl rfl rfl

/-! ## Setting the mark -/

variable
  {key : Nat}

theorem sessions_setHighWater_of_ne (different : other ≠ sessionId) :
    (setHighWater sessionId key tables).sessions.get other =
      tables.sessions.get other := by
  unfold setHighWater
  split
  · exact OrderedMap.get_set_of_ne _ different _
  · rfl

theorem highWater_setHighWater {mark : Int} (present : highWater tables sessionId = some mark) :
    highWater (setHighWater sessionId key tables) sessionId = some (key : Int) := by
  obtain ⟨row, found, _⟩ := Option.map_eq_some_iff.mp present
  unfold setHighWater highWater
  rw [found]
  simp

theorem messages_setHighWater {key : Nat} :
    (setHighWater sessionId key tables).messages = tables.messages := by
  unfold setHighWater
  split <;> rfl

theorem effects_setHighWater {key : Nat} :
    (setHighWater sessionId key tables).effects = tables.effects := by
  unfold setHighWater
  split <;> rfl

/-! ## Seeding -/

/-- Tables that differ in the mark of one session at most. -/
structure MarksOnly (sessionId : String)
    (before after : SessionTables) : Prop where
  messages : after.messages = before.messages
  effects : after.effects = before.effects
  others : ∀ other, other ≠ sessionId →
    after.sessions.get other = before.sessions.get other

theorem marksOnly_setHighWater {key : Nat} :
    MarksOnly sessionId tables (setHighWater sessionId key tables) :=
  ⟨messages_setHighWater, effects_setHighWater,
    fun _ different => sessions_setHighWater_of_ne different⟩

theorem MarksOnly.refl (tables : SessionTables) :
    MarksOnly sessionId tables tables :=
  ⟨rfl, rfl, fun _ _ => rfl⟩

theorem MarksOnly.trans
    (first : MarksOnly sessionId before middle) (second : MarksOnly sessionId middle after) :
    MarksOnly sessionId before after :=
  ⟨second.messages.trans first.messages, second.effects.trans first.effects,
    fun other different =>
      (second.others other different).trans (first.others other different)⟩

theorem MarksOnly.turnEffect_of_ne
    (marks : MarksOnly other before after) (different : sessionId ≠ other) :
    TurnEffect issued sessionId before after :=
  .of_same (by rw [highWater, marks.others _ different]; rfl) marks.messages
    marks.effects

/-- Seeding marks the session with the key its evidence reaches. -/
theorem seedLegacyKey_commits
    (commits : Statements.Commits (seedLegacyKey sessionId) before key after) :
    Reached before sessionId key ∧
      highWater after sessionId = some (key : Int) ∧
      MarksOnly sessionId before after := by
  unfold seedLegacyKey at commits
  obtain ⟨session, _, selected, rest⟩ := Statements.commits_bind.mp commits
  obtain ⟨found, rfl⟩ := Statements.commits_select.mp selected
  cases session with
  | none => exact absurd rest Statements.commits_refuse
  | some row =>
    obtain ⟨current, _, checked, rest⟩ := Statements.commits_bind.mp rest
    obtain ⟨isCurrent, rfl⟩ := Statements.commits_ofExcept.mp checked
    obtain ⟨isMark, safe⟩ := safeKey_roundToDouble_iff.mp isCurrent
    have marked : highWater before sessionId = some (current : Int) := by
      rw [highWater, found, isMark]
      rfl
    split at rest
    · next positive =>
      obtain ⟨rfl, rfl⟩ := Statements.commits_pure.mp rest
      exact ⟨.inl ⟨marked, positive, by omega⟩, marked, .refl before⟩
    · next notPositive =>
      obtain rfl : current = 0 := by omega
      obtain ⟨given, _, selected, rest⟩ := Statements.commits_bind.mp rest
      obtain ⟨isGiven, rfl⟩ := Statements.commits_select.mp selected
      obtain ⟨floor, _, checked, rest⟩ := Statements.commits_bind.mp rest
      obtain ⟨valid, rfl⟩ := Statements.commits_ofExcept.mp checked
      obtain ⟨_, written, updated, answered⟩ := Statements.commits_bind.mp rest
      obtain rfl := Statements.commits_update.mp updated
      obtain ⟨rfl, rfl⟩ := Statements.commits_pure.mp answered
      exact ⟨.inr ⟨marked, isGiven.trans valid⟩, highWater_setHighWater marked,
        marksOnly_setHighWater⟩

theorem seedLegacyKey_of_none (absent : tables.sessions.get sessionId = none) :
    (seedLegacyKey sessionId tables).1 = .error .sessionMissing := by
  unfold seedLegacyKey
  simp only [bind, Statements.andThen, Statements.select, absent]
  rfl

theorem seedLegacyKey_of_some
    {row : SessionRow} (found : tables.sessions.get sessionId = some row) :
    (seedLegacyKey sessionId tables).1 =
      match safeKey (roundToDouble row.effectTurnHighWater) with
      | .error refusal => .error refusal
      | .ok current =>
        if 0 < current then .ok current else legacyFloor tables sessionId := by
  unfold seedLegacyKey
  simp only [bind, Statements.andThen, Statements.select, found, Statements.ofExcept]
  cases safeKey (roundToDouble row.effectTurnHighWater) with
  | error refusal => rfl
  | ok current =>
    dsimp only
    split
    · rfl
    · cases floor : legacyFloor tables sessionId with
      | error refusal =>
        simp only [Statements.andThen, Statements.select, floor, Statements.ofExcept]
      | ok key =>
        simp only [Statements.andThen, Statements.select, floor, Statements.ofExcept]
        rfl

/-- A refused seeding writes nothing. -/
theorem seedLegacyKey_refusesCleanly (sessionId : String) :
    Statements.RefusesCleanly (seedLegacyKey sessionId) := by
  unfold seedLegacyKey
  refine .bind .select .select fun session => ?_
  cases session with
  | none => exact .refuse
  | some row =>
    refine .bind .ofExcept .ofExcept fun current => ?_
    split
    · exact fun _ _ _ refused => absurd (Prod.mk.inj refused).1 (by simp)
    · refine .bind .select .select fun checked => .bind .ofExcept .ofExcept fun floor => ?_
      exact fun _ _ _ refused => absurd (Prod.mk.inj refused).1 (by simp)

/-- The floor depends on the messages and effects only. -/
theorem legacyFloor_congr
    (messages : after.messages = before.messages) (effects : after.effects = before.effects) :
    legacyFloor after sessionId = legacyFloor before sessionId := by
  unfold legacyFloor assistantMessages sessionScopes
  rw [messages, effects]

/-- A session may be seeded more than once. -/
theorem Reached.of_seeded
    {first second : Nat} (reached : Reached before sessionId first)
    (mark : highWater middle sessionId = some (first : Int))
    (messages : middle.messages = before.messages) (effects : middle.effects = before.effects)
    (again : Reached middle sessionId second) :
    Reached before sessionId second := by
  rcases again with ⟨marked, positive, safe⟩ | ⟨marked, valid⟩
  · have same : first = second := by
      have equal := Option.some.inj (mark.symm.trans marked)
      omega
    exact same ▸ reached
  · have zero : first = 0 := by
      have equal := Option.some.inj (mark.symm.trans marked)
      omega
    subst zero
    rcases reached with ⟨_, positive, _⟩ | ⟨atZero, _⟩
    · omega
    · exact .inr ⟨atZero, (legacyFloor_congr messages effects).symm.trans valid⟩

/-- Tables in which marks may have been seeded, and nothing else has changed. -/
structure Seeds (before after : SessionTables) : Prop where
  messages : after.messages = before.messages
  effects : after.effects = before.effects
  marks : ∀ sessionId,
    highWater after sessionId = highWater before sessionId ∨
      ∃ key, Reached before sessionId key ∧ highWater after sessionId = some (key : Int)

theorem Seeds.refl (tables : SessionTables) : Seeds tables tables :=
  ⟨rfl, rfl, fun _ => .inl rfl⟩

theorem Seeds.trans (first : Seeds before middle) (second : Seeds middle after) :
    Seeds before after := by
  refine ⟨second.messages.trans first.messages, second.effects.trans first.effects,
    fun sessionId => ?_⟩
  rcases second.marks sessionId with same | ⟨key, reached, mark⟩
  · rw [same]
    exact first.marks sessionId
  · right
    refine ⟨key, ?_, mark⟩
    rcases first.marks sessionId with unmoved | ⟨earlier, earlierReached, earlierMark⟩
    · unfold Reached at reached ⊢
      rwa [unmoved, legacyFloor_congr first.messages first.effects] at reached
    · exact earlierReached.of_seeded earlierMark first.messages first.effects reached

theorem MarksOnly.seeds
    (marks : MarksOnly sessionId before after) (reached : Reached before sessionId key)
    (mark : highWater after sessionId = some (key : Int)) :
    Seeds before after := by
  refine ⟨marks.messages, marks.effects, fun other => ?_⟩
  by_cases same : other = sessionId
  · subst same
    exact .inr ⟨key, reached, mark⟩
  · left
    rw [highWater, marks.others other same]
    rfl

variable
  {answer : Unit}

theorem seedOrKeep_commits
    (commits : Statements.Commits (seedOrKeep sessionId) before answer after) :
    Seeds before after := by
  rcases Statements.commits_tryCatch.mp commits with seeded | ⟨refusal, middle, refused, kept⟩
  · obtain ⟨key, middle, seeding, rest⟩ := Statements.commits_bind.mp seeded
    obtain ⟨_, rfl⟩ := Statements.commits_pure.mp rest
    obtain ⟨reached, mark, marks⟩ := seedLegacyKey_commits seeding
    exact marks.seeds reached mark
  · have untouched : middle = before :=
      (seedLegacyKey_refusesCleanly sessionId).bind_pure before refusal middle refused
    split at kept
    · obtain ⟨_, rfl⟩ := Statements.commits_pure.mp kept
      exact untouched ▸ .refl middle
    · exact absurd kept Statements.commits_refuse

/-- Seeding every session only seeds. -/
theorem seedAll_commits
    {sessions : List String}
    (commits : Statements.Commits (seedAll sessions) before answer after) :
    Seeds before after := by
  induction sessions generalizing before with
  | nil =>
    obtain ⟨_, rfl⟩ := Statements.commits_pure.mp commits
    exact .refl before
  | cons sessionId rest ih =>
    obtain ⟨_, middle, first, later⟩ := Statements.commits_bind.mp commits
    exact (seedOrKeep_commits first).trans (ih later)

/-! ## The transactions -/

theorem turnEffect_initialize
    (commits : Statements.Commits initializeSessionEffectTurnKeys before answer after) :
    TurnEffect issued sessionId before after := by
  obtain ⟨sessions, _, selected, rest⟩ := Statements.commits_bind.mp commits
  obtain ⟨_, rfl⟩ := Statements.commits_select.mp selected
  have seeds := seedAll_commits rest
  rcases seeds.marks sessionId with same | ⟨key, reached, mark⟩
  · exact .of_same same seeds.messages seeds.effects
  · refine .seeded key reached mark fun identity row found => ?_
    rwa [seeds.effects] at found

/-- A reservation answers one more than the session has reached. -/
theorem reserve_commits
    (commits : Statements.Commits (reserveSessionEffectTurnKey sessionId) before key after) :
    ∃ current,
      key = current + 1 ∧
        Reached before sessionId current ∧
        (current : Int) < maxSafeInteger ∧
        highWater after sessionId = some (key : Int) ∧
        MarksOnly sessionId before after := by
  unfold reserveSessionEffectTurnKey at commits
  obtain ⟨row, _, selected, rest⟩ := Statements.commits_bind.mp commits
  obtain ⟨_, rfl⟩ := Statements.commits_select.mp selected
  split at rest
  · exact absurd rest Statements.commits_refuse
  · obtain ⟨current, middle, seeding, rest⟩ := Statements.commits_bind.mp rest
    obtain ⟨reached, mark, marks⟩ := seedLegacyKey_commits seeding
    split at rest
    · exact absurd rest Statements.commits_refuse
    · next notExhausted =>
      obtain ⟨_, written, updated, answered⟩ := Statements.commits_bind.mp rest
      obtain rfl := Statements.commits_update.mp updated
      obtain ⟨rfl, rfl⟩ := Statements.commits_pure.mp answered
      have safe : (current : Int) ≤ maxSafeInteger := by
        rcases reached with ⟨_, _, safe⟩ | ⟨_, valid⟩
        · exact safe
        · exact legacyFloor_safe valid
      exact ⟨current, rfl, reached, by omega, highWater_setHighWater mark,
        marks.trans marksOnly_setHighWater⟩

theorem turnEffect_reserve
    (commits : Statements.Commits (reserveSessionEffectTurnKey other) before key after) :
    TurnEffect issued sessionId before after := by
  obtain ⟨current, rfl, reached, bound, mark, marks⟩ := reserve_commits commits
  by_cases same : sessionId = other
  · subst same
    exact .reserved current reached bound mark marks.effects
  · exact marks.turnEffect_of_ne same

/-- Effects of one session may have gone. -/
structure Deletes (sessionId : String)
    (before after : SessionTables) : Prop where
  sessions : after.sessions = before.sessions
  messages : after.messages = before.messages
  fewer : ∀ identity row,
    after.effects.get identity = some row → before.effects.get identity = some row
  outside : ∀ identity,
    inScope sessionId identity.scope = false →
      after.effects.get identity = before.effects.get identity

theorem Deletes.refl (tables : SessionTables) : Deletes sessionId tables tables :=
  ⟨rfl, rfl, fun _ _ found => found, fun _ _ => rfl⟩

theorem Deletes.trans
    (first : Deletes sessionId before middle) (second : Deletes sessionId middle after) :
    Deletes sessionId before after :=
  ⟨second.sessions.trans first.sessions, second.messages.trans first.messages,
    fun identity row found => first.fewer identity row (second.fewer identity row found),
    fun identity outside =>
      (second.outside identity outside).trans (first.outside identity outside)⟩

/-- A captured sweep deletes rows of its session only. -/
theorem deletes_deleteCaptured (captured : List CapturedSessionEffect) :
    Deletes sessionId tables (deleteCaptured sessionId captured tables).2 := by
  refine ⟨rfl, rfl, fun identity row found => ?_, fun identity outside => ?_⟩
  · rw [deleteCaptured, OrderedMap.get_filter] at found
    exact (Option.filter_eq_some_iff.mp found).1
  · rw [deleteCaptured, OrderedMap.get_filter]
    cases present : tables.effects.get identity with
    | none => rfl
    | some row => simp [Option.filter, sweeps, outside]

theorem deleteBatches_commits
    {batches : List (List CapturedSessionEffect)} {changes deleted : Nat}
    (commits :
      Statements.Commits (deleteBatches sessionId changes batches) before deleted after) :
    Deletes sessionId before after := by
  induction batches generalizing changes before with
  | nil =>
    obtain ⟨_, rfl⟩ := Statements.commits_pure.mp commits
    exact .refl before
  | cons captured rest ih =>
    obtain ⟨gone, middle, first, later⟩ := Statements.commits_bind.mp commits
    have written := Statements.commits_modifyGet.mp first
    have isMiddle : (deleteCaptured sessionId captured before).2 = middle := by
      rw [written]
    exact (isMiddle ▸ deletes_deleteCaptured captured).trans (ih later)

/-- Before a sweep a known session is marked with the key it reaches. -/
theorem preserve_commits
    (commits : Statements.Commits (preserveSessionEffectTurnKeyBeforeSweep sessionId)
      before answer after) :
    highWater before sessionId = none ∧ after = before ∨
      ∃ key,
        Reached before sessionId key ∧
          highWater after sessionId = some (key : Int) ∧
          MarksOnly sessionId before after := by
  unfold preserveSessionEffectTurnKeyBeforeSweep at commits
  obtain ⟨session, _, selected, rest⟩ := Statements.commits_bind.mp commits
  obtain ⟨found, rfl⟩ := Statements.commits_select.mp selected
  split at rest
  · obtain ⟨key, middle, seeding, answered⟩ := Statements.commits_bind.mp rest
    obtain ⟨_, rfl⟩ := Statements.commits_pure.mp answered
    exact .inr ⟨key, seedLegacyKey_commits seeding⟩
  · next absent =>
    obtain ⟨_, rfl⟩ := Statements.commits_pure.mp rest
    refine .inl ⟨?_, rfl⟩
    rw [highWater, found, Option.not_isSome_iff_eq_none.mp absent]
    rfl

theorem Deletes.highWater_eq (deletes : Deletes other middle after) :
    highWater after sessionId = highWater middle sessionId := by
  rw [highWater, deletes.sessions]
  rfl

theorem Deletes.identityKept_of_ne
    (deletes : Deletes other middle after) (different : sessionId ≠ other)
    (inside : inScope sessionId identity.scope = true) :
    IdentityKept middle.effects after.effects identity := by
  refine .of_get_eq (deletes.outside identity ?_)
  by_contra alsoInside
  rw [Bool.not_eq_false] at alsoInside
  exact different (eq_of_inScope inside alsoInside)

theorem turnEffect_sweep {captured : List CapturedSessionEffect} {deleted : Nat}
    (commits :
      Statements.Commits (sweepCommittedForSession other captured) before deleted after) :
    TurnEffect issued sessionId before after := by
  obtain ⟨_, middle, preserved, rest⟩ := Statements.commits_bind.mp commits
  split at preserved
  · have deletes := deleteBatches_commits rest
    rcases preserve_commits preserved with ⟨absent, rfl⟩ | ⟨key, reached, mark, marks⟩
    · by_cases same : sessionId = other
      · subst same
        exact .rowless absent (deletes.highWater_eq.trans absent)
      · exact .kept deletes.highWater_eq [] (deletes.messages.trans (List.append_nil _).symm)
          fun identity inside => .inl (deletes.identityKept_of_ne same inside)
    · by_cases same : sessionId = other
      · subst same
        refine .seeded key reached (deletes.highWater_eq.trans mark) fun identity row found => ?_
        exact marks.effects ▸ deletes.fewer identity row found
      · refine .kept ?_ [] ?_ fun identity inside => .inl ?_
        · rw [deletes.highWater_eq, highWater, marks.others _ same]
          rfl
        · rw [deletes.messages, marks.messages, List.append_nil]
        · exact marks.effects ▸ deletes.identityKept_of_ne same inside
  · next nothing =>
    rw [not_not] at nothing
    subst nothing
    obtain ⟨_, rfl⟩ := Statements.commits_pure.mp preserved
    obtain ⟨_, rfl⟩ := Statements.commits_pure.mp rest
    exact .refl before

/-- An identity that may be journaled: that of a run, or one of a session under a
key that was issued. -/
def Addressed (issued : List (String × Nat)) (identity : EffectIdentity) : Prop :=
  identity.ofSession = false ∨
    ∃ entry ∈ issued, identity.scope = turnScope entry.1 entry.2

instance : DecidablePred (Addressed issued) := fun identity =>
  inferInstanceAs (Decidable (identity.ofSession = false ∨
    ∃ entry ∈ issued, identity.scope = turnScope entry.1 entry.2))

/-- A journal write under an issued key is a turn effect. -/
theorem turnEffect_journal {journal : EffectJournal} (addressed : Addressed issued identity)
    (elsewhere : ∀ otherIdentity, otherIdentity ≠ identity →
      journal.get otherIdentity = tables.effects.get otherIdentity) :
    TurnEffect issued sessionId tables { tables with effects := journal } := by
  refine .kept rfl [] (List.append_nil _).symm fun otherIdentity inside => ?_
  by_cases same : otherIdentity = identity
  · subst same
    rcases addressed with ofRun | ⟨⟨owner, key⟩, member, isScope⟩
    · exact absurd (ofSession_of_inScope inside) (by simp [ofRun])
    · obtain rfl : sessionId = owner :=
        eq_of_inScope inside (isScope ▸ inScope_turnScope)
      exact .inr ⟨key, member, isScope⟩
  · exact .inl (.of_get_eq (elsewhere otherIdentity same))

variable {deletedAt : Option Int}

theorem highWater_updateSession :
    highWater (updateSession other deletedAt tables) sessionId =
      highWater tables sessionId := by
  unfold updateSession
  split
  · next row found =>
    by_cases same : sessionId = other
    · subst same
      simp [highWater, found]
    · rw [highWater, OrderedMap.get_set_of_ne _ same]
      rfl
  · rfl

theorem messages_updateSession :
    (updateSession other deletedAt tables).messages = tables.messages := by
  unfold updateSession
  split <;> rfl

theorem effects_updateSession :
    (updateSession other deletedAt tables).effects = tables.effects := by
  unfold updateSession
  split <;> rfl

theorem turnEffect_updateSession :
    TurnEffect issued sessionId tables (updateSession other deletedAt tables) :=
  .of_same highWater_updateSession messages_updateSession effects_updateSession

theorem turnEffect_writeTurn
    {messages : List MessageRow} {session : Option (String × Option Int)} :
    TurnEffect issued sessionId tables (writeTurn messages session tables) := by
  unfold writeTurn
  cases session with
  | none => exact .kept rfl messages rfl fun identity _ => .inl (.refl _ identity)
  | some flushed =>
    refine .kept highWater_updateSession messages messages_updateSession
      fun identity _ => .inl (.of_get_eq ?_)
    dsimp only
    rw [effects_updateSession]

theorem turnEffect_clear :
    TurnEffect issued sessionId tables (clearLegacySessionEffectResults tables) := by
  refine .kept rfl [] (List.append_nil _).symm fun identity _ => .inl ⟨?_, ?_⟩
  · intro row found
    rw [clearLegacySessionEffectResults, OrderedMap.get_mapValues, found, Option.map_some]
    refine ⟨_, rfl, ?_⟩
    split
    · exact .inr rfl
    · exact .inl rfl
  · intro later found
    rw [clearLegacySessionEffectResults, OrderedMap.get_mapValues,
      Option.map_eq_some_iff] at found
    obtain ⟨row, present, _⟩ := found
    exact ⟨row, present⟩

end Effects

end Relavium.Store
