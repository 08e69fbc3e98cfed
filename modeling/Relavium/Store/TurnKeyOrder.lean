import Relavium.Library.Trace
import Relavium.Store.TurnKeyEffect

/-!
# Turn keys are never reissued

Any number of processes open the database, reserve turn keys, journal effects
under the keys they were given, sweep committed effects and write sessions and
messages.  Each operation is one immediate transaction, which may be lost or
whose acknowledgement may be lost.  The mark of a session stays at or above
every key that was returned and every key that was ever journaled; as long as
the mark is still zero, the journaled keys above it are all still journaled.
-/

namespace Relavium.Store

open Library

inductive TurnCall
  /-- `initializeSessionEffectTurnKeys`, at every opening. -/
  | initializeKeys
  /-- `clearLegacySessionEffectResults`, after it. -/
  | clearResults
  | reserve (sessionId : String) (inTransaction : Bool)
  | sweep (sessionId : String) (captured : List CapturedSessionEffect) (inTransaction : Bool)
  | prepare (identity : EffectIdentity) (id : String) (tier : EffectTier) (argsDigest : String)
  | settle (identity : EffectIdentity) (state : EffectState) (result : Option JsValue)
  | discard (identity : EffectIdentity)
  | updateSession (sessionId : String) (deletedAt : Option Int)
  | writeTurn (messages : List MessageRow) (session : Option (String × Option Int))

structure TurnEvent where
  call : TurnCall
  fault : WriteFault

inductive TurnAnswer
  | reserved (key : Nat)
  | swept (deleted : Nat)
  /-- The transaction committed; what the journal answered is not recorded. -/
  | done
  | refused (refusal : SessionEffectTurnError)
  /-- The caller does not learn whether the transaction committed. -/
  | lost
  deriving DecidableEq

structure TurnWorld where
  tables : SessionTables
  /-- The keys that callers hold, with their sessions. -/
  issued : List (String × Nat)

/-- The identity that a call journals under. -/
def TurnCall.identity : TurnCall → Option EffectIdentity
  | .prepare identity _ _ _ => some identity
  | .settle identity _ _ => some identity
  | .discard identity => some identity
  | _ => none

/-- A call that must own its transaction is refused inside another one. -/
def outermost (inTransaction : Bool)
    (statements : TurnStatements TurnAnswer) : TurnStatements TurnAnswer :=
  if inTransaction then Statements.refuse .transactionActive else statements

/-- The transaction of a call. -/
def TurnCall.statements
    (exoticText : Option JsString) : TurnCall → TurnStatements TurnAnswer
  | .initializeKeys => do
      initializeSessionEffectTurnKeys
      pure .done
  | .clearResults => do
      Statements.update clearLegacySessionEffectResults
      pure .done
  | .reserve sessionId inTransaction =>
    outermost inTransaction do
      let key ← reserveSessionEffectTurnKey sessionId
      pure (.reserved key)
  | .sweep sessionId captured inTransaction =>
    outermost inTransaction do
      let deleted ← sweepCommittedForSession sessionId captured
      pure (.swept deleted)
  | .prepare identity id tier argsDigest => do
      Statements.update fun tables =>
        { tables with
          effects := (tables.effects.prepare identity id tier argsDigest).2 }
      pure .done
  | .settle identity state result => do
      Statements.update fun tables =>
        { tables with
          effects := (tables.effects.settle exoticText identity state result).2 }
      pure .done
  | .discard identity => do
      Statements.update fun tables =>
        { tables with effects := tables.effects.discard identity }
      pure .done
  | .updateSession sessionId deletedAt => do
      Statements.update (Store.updateSession sessionId deletedAt)
      pure .done
  | .writeTurn messages session => do
      Statements.update (Store.writeTurn messages session)
      pure .done

/-- What the caller gets of a transaction. -/
def TurnAnswer.ofTransaction :
    Option (Except SessionEffectTurnError TurnAnswer) → TurnAnswer
  | some (.ok answer) => answer
  | some (.error refusal) => .refused refusal
  | none => .lost

/-- The keys that callers hold after an answer. -/
def issuedAfter (issued : List (String × Nat)) : TurnCall → TurnAnswer → List (String × Nat)
  | .reserve sessionId _, .reserved key => issued ++ [(sessionId, key)]
  | _, _ => issued

/-- One transaction; effects are journaled under issued keys alone. -/
def TurnWorld.apply (exoticText : Option JsString) (world : TurnWorld)
    (event : TurnEvent) : Option (TurnAnswer × TurnWorld) :=
  if event.call.identity.all fun identity => decide (Addressed world.issued identity) then
    let ran := Statements.transactionUnder event.fault (event.call.statements exoticText)
      world.tables
    let answer := TurnAnswer.ofTransaction ran.1
    some (answer, ⟨ran.2, issuedAfter world.issued event.call answer⟩)
  else none

/-- A step is labelled with the event and its answer. -/
def TurnStep (exoticText : Option JsString) (world : TurnWorld) (label : TurnEvent × TurnAnswer)
    (next : TurnWorld) : Prop :=
  world.apply exoticText label.1 = some (label.2, next)

/-- Some reservation for the session returned the key. -/
def Returned (history : List (TurnEvent × TurnAnswer)) (sessionId : String)
    (key : Nat) : Prop :=
  ∃ inTransaction fault,
    (⟨.reserve sessionId inTransaction, fault⟩, .reserved key) ∈ history

/-- The evidence of a session is refused. -/
def EvidenceInvalid (tables : SessionTables) (sessionId : String) : Prop :=
  (seedLegacyKey sessionId tables).1 = .error .historyInvalid

/-! ## One step -/

section Steps

variable
  {exoticText : Option JsString}
  {world next : TurnWorld}
  {event : TurnEvent}
  {answer : TurnAnswer}
  {sessionId : String}

variable
  {before after : SessionTables}

theorem commits_then_pure {first : TurnStatements α} {given : α → TurnAnswer}
    (commits : Statements.Commits (first >>= fun value => pure (given value))
      before answer after) :
    ∃ value, Statements.Commits first before value after ∧ given value = answer := by
  obtain ⟨value, _, committed, rest⟩ := Statements.commits_bind.mp commits
  obtain ⟨isAnswer, rfl⟩ := Statements.commits_pure.mp rest
  exact ⟨value, committed, isAnswer⟩

theorem after_of_update {write : SessionTables → SessionTables} {given : TurnAnswer}
    (commits : Statements.Commits
      ((Statements.update write : TurnStatements Unit) >>= fun _ => pure given)
      before answer after) :
    after = write before := by
  obtain ⟨_, committed, _⟩ := commits_then_pure commits
  exact (Statements.commits_update.mp committed).symm

theorem commits_of_outermost {inTransaction : Bool} {statements : TurnStatements TurnAnswer}
    (commits : Statements.Commits (outermost inTransaction statements) before answer after) :
    Statements.Commits statements before answer after := by
  unfold outermost at commits
  split at commits
  · exact absurd commits Statements.commits_refuse
  · exact commits

/-- The statements of every call have a turn effect. -/
theorem turnEffect_statements
    {issued : List (String × Nat)} {call : TurnCall}
    (addressed : ∀ identity, call.identity = some identity → Addressed issued identity)
    (commits : Statements.Commits (call.statements exoticText) before answer after) :
    TurnEffect issued sessionId before after := by
  cases call with
  | initializeKeys =>
    obtain ⟨_, committed, _⟩ := commits_then_pure commits
    exact turnEffect_initialize committed
  | clearResults =>
    rw [after_of_update commits]
    exact turnEffect_clear
  | reserve owner inTransaction =>
    obtain ⟨_, committed, _⟩ := commits_then_pure (commits_of_outermost commits)
    exact turnEffect_reserve committed
  | sweep owner captured inTransaction =>
    obtain ⟨_, committed, _⟩ := commits_then_pure (commits_of_outermost commits)
    exact turnEffect_sweep committed
  | prepare identity id tier argsDigest =>
    rw [after_of_update commits]
    exact turnEffect_journal (addressed identity rfl) fun _ different =>
      get_prepare_of_ne different
  | settle identity state result =>
    rw [after_of_update commits]
    exact turnEffect_journal (addressed identity rfl) fun _ different =>
      get_settle_of_ne different
  | discard identity =>
    rw [after_of_update commits]
    exact turnEffect_journal (addressed identity rfl) fun _ different =>
      get_discard_of_ne different
  | updateSession owner deletedAt =>
    rw [after_of_update commits]
    exact turnEffect_updateSession
  | writeTurn messages session =>
    rw [after_of_update commits]
    exact turnEffect_writeTurn

/-- What a step of the world can do. -/
theorem step_cases (taken : TurnStep exoticText world (event, answer) next) :
    (∀ identity, event.call.identity = some identity →
        Addressed world.issued identity) ∧
      answer = TurnAnswer.ofTransaction (Statements.transactionUnder event.fault
        (event.call.statements exoticText) world.tables).1 ∧
      next.tables = (Statements.transactionUnder event.fault
        (event.call.statements exoticText) world.tables).2 ∧
      next.issued = issuedAfter world.issued event.call answer := by
  unfold TurnStep TurnWorld.apply at taken
  split at taken
  · next allowed =>
    obtain ⟨isAnswer, isNext⟩ := Prod.mk.inj (Option.some.inj taken)
    subst isNext
    dsimp only at isAnswer ⊢
    refine ⟨fun identity called => ?_, isAnswer.symm, rfl, by rw [isAnswer]⟩
    rw [called] at allowed
    exact of_decide_eq_true allowed
  · exact absurd taken nofun

theorem turnEffect_of_step (taken : TurnStep exoticText world (event, answer) next) :
    TurnEffect world.issued sessionId world.tables next.tables := by
  obtain ⟨addressed, _, tables, _⟩ := step_cases taken
  rw [tables]
  rcases Statements.tables_transactionUnder event.fault
    (event.call.statements exoticText) world.tables with same | ⟨given, commits⟩
  · rw [same]
    exact .refl world.tables
  · exact turnEffect_statements addressed commits

variable
  {key : Nat}

/-- A reservation that returned a key has committed it. -/
theorem reserved_of_step {inTransaction : Bool} {fault : WriteFault}
    (taken : TurnStep exoticText world
      (⟨.reserve sessionId inTransaction, fault⟩, .reserved key) next) :
    ∃ current,
      key = current + 1 ∧
        Reached world.tables sessionId current ∧
        (current : Int) < maxSafeInteger ∧
        highWater next.tables sessionId = some (key : Int) := by
  obtain ⟨_, isAnswer, tables, _⟩ := step_cases taken
  cases answered : (Statements.transactionUnder fault
      (TurnCall.statements exoticText (.reserve sessionId inTransaction)) world.tables).1 with
  | none =>
    rw [answered] at isAnswer
    exact absurd isAnswer nofun
  | some outcome =>
    cases outcome with
    | error refusal =>
      rw [answered] at isAnswer
      exact absurd isAnswer nofun
    | ok given =>
      rw [answered] at isAnswer
      have commits := Statements.commits_of_transactionUnder answered
      rw [← tables] at commits
      obtain ⟨reservedKey, committed, isGiven⟩ :=
        commits_then_pure (commits_of_outermost commits)
      obtain rfl : reservedKey = key :=
        TurnAnswer.reserved.inj (isGiven.trans isAnswer.symm)
      obtain ⟨current, isKey, reached, bound, mark, _⟩ := reserve_commits committed
      exact ⟨current, isKey, reached, bound, mark⟩

/-- A key that a caller holds was held before, or has just been committed. -/
theorem issued_of_step
    (taken : TurnStep exoticText world (event, answer) next)
    (held : (sessionId, key) ∈ next.issued) :
    (sessionId, key) ∈ world.issued ∨
      0 < key ∧ (key : Int) ≤ maxSafeInteger ∧
        highWater next.tables sessionId = some (key : Int) := by
  have isIssued := (step_cases taken).2.2.2
  obtain ⟨call, fault⟩ := event
  rw [isIssued] at held
  cases call with
  | reserve owner inTransaction =>
    cases answer with
    | reserved returned =>
      rcases List.mem_append.mp held with earlier | same
      · exact .inl earlier
      · cases List.mem_singleton.mp same
        obtain ⟨current, isKey, _, bound, mark⟩ := reserved_of_step taken
        exact .inr ⟨by omega, by omega, mark⟩
    | _ => exact .inl held
  | _ => exact .inl held

/-! ## The keys stay below the mark -/

/-- The keys that callers hold are at most the mark, and so are the keys that
were ever journaled, except those that are still journaled while the mark is
zero. -/
structure KeysCovered (sessionId : String) (seen : Nat → Prop)
    (world : TurnWorld) : Prop where
  issued : ∀ key, (sessionId, key) ∈ world.issued →
    ∃ mark : Nat,
      highWater world.tables sessionId = some (mark : Int) ∧
        0 < key ∧ key ≤ mark ∧ (mark : Int) ≤ maxSafeInteger
  covers : ∀ key mark,
    seen key → highWater world.tables sessionId = some mark → 0 ≤ mark →
      (key : Int) ≤ mark ∨ mark = 0 ∧ Journaled world.tables sessionId key
  journaled : ∀ key, Journaled world.tables sessionId key → seen key

variable
  {seen : Nat → Prop}

/-- A key reached now is at least every key seen. -/
theorem KeysCovered.le_of_reached
    {current key : Nat} (covered : KeysCovered sessionId seen world)
    (reached : Reached world.tables sessionId current) (wasSeen : seen key) :
    key ≤ current := by
  rcases reached with ⟨marked, positive, _⟩ | ⟨marked, valid⟩
  · rcases covered.covers key _ wasSeen marked (by omega) with bound | ⟨zero, _⟩ <;> omega
  · rcases covered.covers key _ wasSeen marked (by omega) with bound | ⟨_, journaled⟩
    · omega
    · exact le_legacyFloor valid journaled

theorem KeysCovered.issued_le_of_reached
    {current key : Nat} (covered : KeysCovered sessionId seen world)
    (reached : Reached world.tables sessionId current) (held : (sessionId, key) ∈ world.issued) :
    key ≤ current := by
  obtain ⟨mark, marked, positive, bound, _⟩ := covered.issued key held
  rcases reached with ⟨sameMark, _, _⟩ | ⟨zero, _⟩
  · have equal := Option.some.inj (marked.symm.trans sameMark)
    omega
  · have equal := Option.some.inj (marked.symm.trans zero)
    omega

/-- A mark only rises. -/
theorem mark_le_of_turnEffect
    {issued : List (String × Nat)} {mark : Nat}
    (effect : TurnEffect issued sessionId before after)
    (marked : highWater before sessionId = some (mark : Int)) (positive : 0 < mark)
    (safe : (mark : Int) ≤ maxSafeInteger) :
    ∃ later : Nat,
      highWater after sessionId = some (later : Int) ∧
        mark ≤ later ∧ (later : Int) ≤ maxSafeInteger := by
  have current {key : Nat} (reached : Reached before sessionId key) : key = mark := by
    rcases reached with ⟨sameMark, _, _⟩ | ⟨zero, _⟩
    · have equal := Option.some.inj (marked.symm.trans sameMark)
      omega
    · have equal := Option.some.inj (marked.symm.trans zero)
      omega
  cases effect with
  | kept same => exact ⟨mark, same.trans marked, le_rfl, safe⟩
  | seeded key reached later => exact ⟨key, later, (current reached).ge, current reached ▸ safe⟩
  | reserved key reached bound later =>
    have isMark := current reached
    exact ⟨key + 1, later, by omega, by omega⟩
  | rowless absent => exact absurd (absent.symm.trans marked) nofun

/-- Keys covered before a transaction are covered after it. -/
theorem KeysCovered.covers_of_turnEffect
    {after : SessionTables} {mark : Int} (covered : KeysCovered sessionId seen world)
    (effect : TurnEffect world.issued sessionId world.tables after) (wasSeen : seen key)
    (marked : highWater after sessionId = some mark) (nonneg : 0 ≤ mark) :
    (key : Int) ≤ mark ∨ mark = 0 ∧ Journaled after sessionId key := by
  cases effect with
  | kept same _ _ rows =>
    rw [same] at marked
    rcases covered.covers key mark wasSeen marked nonneg with bound | ⟨zero, journaled⟩
    · exact .inl bound
    · obtain ⟨identity, row, found, isScope⟩ := journaled
      rcases rows identity (isScope ▸ inScope_turnScope) with still | ⟨other, held, sameScope⟩
      · obtain ⟨later, foundLater, _⟩ := still.kept row found
        exact .inr ⟨zero, identity, later, foundLater, isScope⟩
      · obtain rfl := turnKey_inj (isScope.symm.trans sameScope)
        obtain ⟨current, sameMark, _, bound, _⟩ := covered.issued key held
        have equal := Option.some.inj (marked.symm.trans sameMark)
        exact .inl (by omega)
  | seeded current reached later | reserved current reached _ later =>
    have bound := covered.le_of_reached reached wasSeen
    have equal := Option.some.inj (marked.symm.trans later)
    exact .inl (by omega)
  | rowless _ still => exact absurd (still.symm.trans marked) nofun

/-- An effect that a transaction journals was seen before, or its key is one that
was issued. -/
theorem KeysCovered.journaled_of_turnEffect
    {after : SessionTables} {mark : Int} (covered : KeysCovered sessionId seen world)
    (effect : TurnEffect world.issued sessionId world.tables after)
    (journaled : Journaled after sessionId key) (marked : highWater after sessionId = some mark) :
    seen key ∨ (key : Int) ≤ mark := by
  obtain ⟨identity, row, found, isScope⟩ := journaled
  cases effect with
  | kept same _ _ rows =>
    rcases rows identity (isScope ▸ inScope_turnScope) with still | ⟨other, held, sameScope⟩
    · obtain ⟨earlier, foundEarlier⟩ := still.noMore row found
      exact .inl (covered.journaled key ⟨identity, earlier, foundEarlier, isScope⟩)
    · obtain rfl := turnKey_inj (isScope.symm.trans sameScope)
      obtain ⟨current, sameMark, _, bound, _⟩ := covered.issued key held
      have equal := Option.some.inj (marked.symm.trans (same.trans sameMark))
      exact .inr (by omega)
  | seeded _ _ _ rows =>
    exact .inl (covered.journaled key ⟨identity, row, rows identity row found, isScope⟩)
  | reserved _ _ _ _ effects =>
    exact .inl (covered.journaled key ⟨identity, row, effects ▸ found, isScope⟩)
  | rowless _ still => exact absurd (still.symm.trans marked) nofun

/-- A step keeps every key seen covered, and covers the new ones. -/
theorem KeysCovered.step
    (covered : KeysCovered sessionId seen world)
    (taken : TurnStep exoticText world (event, answer) next) :
    KeysCovered sessionId
      (fun key => seen key ∨ Journaled next.tables sessionId key) next := by
  have effect : TurnEffect world.issued sessionId world.tables next.tables :=
    turnEffect_of_step taken
  refine ⟨fun key held => ?_, fun key mark wasSeen marked nonneg => ?_,
    fun key journaled => .inr journaled⟩
  · rcases issued_of_step taken held with earlier | ⟨positive, safe, marked⟩
    · obtain ⟨mark, marked, positive, bound, safe⟩ := covered.issued key earlier
      obtain ⟨later, markedLater, more, safeLater⟩ :=
        mark_le_of_turnEffect effect marked (by omega) safe
      exact ⟨later, markedLater, positive, by omega, safeLater⟩
    · exact ⟨key, marked, positive, le_rfl, safe⟩
  · rcases wasSeen with before | journaled
    · exact covered.covers_of_turnEffect effect before marked nonneg
    · rcases covered.journaled_of_turnEffect effect journaled marked with before | bound
      · exact covered.covers_of_turnEffect effect before marked nonneg
      · exact .inl bound

/-! ## Invalid evidence -/

theorem reached_of_not_invalid
    {tables : SessionTables} {row : SessionRow} (found : tables.sessions.get sessionId = some row)
    (valid : ¬EvidenceInvalid tables sessionId) :
    ∃ key, Reached tables sessionId key := by
  have marked : highWater tables sessionId = some row.effectTurnHighWater := by
    rw [highWater, found]
    rfl
  unfold EvidenceInvalid at valid
  rw [seedLegacyKey_of_some found] at valid
  cases checked : safeKey (roundToDouble row.effectTurnHighWater) with
  | error refusal =>
    rw [checked, safeKey_error checked] at valid
    exact absurd rfl valid
  | ok current =>
    obtain ⟨isMark, safe⟩ := safeKey_roundToDouble_iff.mp checked
    rw [checked] at valid
    dsimp only at valid
    split at valid
    · next positive => exact ⟨current, .inl ⟨isMark ▸ marked, positive, by omega⟩⟩
    · cases floor : legacyFloor tables sessionId with
      | error refusal =>
        rw [floor, legacyFloor_error floor] at valid
        exact absurd rfl valid
      | ok key =>
        have zero : row.effectTurnHighWater = 0 := by omega
        exact ⟨key, .inr ⟨zero ▸ marked, floor⟩⟩

theorem not_reached_of_invalid
    {tables : SessionTables} (invalid : EvidenceInvalid tables sessionId) :
    ¬Reached tables sessionId key := by
  intro reached
  unfold EvidenceInvalid at invalid
  cases found : tables.sessions.get sessionId with
  | none =>
    rcases reached with ⟨marked, _⟩ | ⟨marked, _⟩
    · exact absurd marked (by simp [highWater, found])
    · exact absurd marked (by simp [highWater, found])
  | some row =>
    have marked : highWater tables sessionId = some row.effectTurnHighWater := by
      rw [highWater, found]
      rfl
    rw [seedLegacyKey_of_some found] at invalid
    rcases reached with ⟨isMark, positive, safe⟩ | ⟨isZero, valid⟩
    · have equal := Option.some.inj (marked.symm.trans isMark)
      rw [safeKey_roundToDouble_iff.mpr ⟨equal.symm, by omega⟩] at invalid
      simp [positive] at invalid
    · have equal := Option.some.inj (marked.symm.trans isZero)
      rw [@safeKey_roundToDouble_iff row.effectTurnHighWater 0 |>.mpr
        ⟨equal.symm, by rw [equal]; decide⟩] at invalid
      simp [valid] at invalid

/-- Invalid evidence is a mark from which no key is reached. -/
theorem evidenceInvalid_iff {tables : SessionTables} :
    EvidenceInvalid tables sessionId ↔
      (∃ mark, highWater tables sessionId = some mark) ∧
        ∀ key, ¬Reached tables sessionId key := by
  constructor
  · intro invalid
    refine ⟨?_, fun key => not_reached_of_invalid invalid⟩
    cases found : tables.sessions.get sessionId with
    | none =>
      unfold EvidenceInvalid at invalid
      rw [seedLegacyKey_of_none found] at invalid
      cases invalid
    | some row => exact ⟨row.effectTurnHighWater, by rw [highWater, found]; rfl⟩
  · rintro ⟨⟨mark, marked⟩, nothing⟩
    obtain ⟨row, found, _⟩ := Option.map_eq_some_iff.mp marked
    by_contra valid
    obtain ⟨key, reached⟩ := reached_of_not_invalid found valid
    exact nothing key reached

/-- A transaction leaves invalid evidence and the effects under it alone, and
reserves nothing for it. -/
theorem EvidenceInvalid.step
    (invalid : EvidenceInvalid world.tables sessionId)
    (covered : KeysCovered sessionId seen world)
    (taken : TurnStep exoticText world (event, answer) next) :
    EvidenceInvalid next.tables sessionId ∧
      (∀ identity, inScope sessionId identity.scope = true →
        IdentityKept world.tables.effects next.tables.effects identity) ∧
      ∀ inTransaction fault key,
        (event, answer) ≠ (⟨.reserve sessionId inTransaction, fault⟩, .reserved key) := by
  obtain ⟨⟨mark, marked⟩, nothing⟩ := evidenceInvalid_iff.mp invalid
  have noneIssued : ∀ key, (sessionId, key) ∉ world.issued := by
    intro key held
    obtain ⟨reachedMark, sameMark, positive, bound, safe⟩ := covered.issued key held
    exact nothing reachedMark (.inl ⟨sameMark, by omega, safe⟩)
  have effect : TurnEffect world.issued sessionId world.tables next.tables :=
    turnEffect_of_step taken
  cases effect with
  | seeded key reached | reserved key reached => exact absurd reached (nothing key)
  | rowless absent => exact absurd (absent.symm.trans marked) nofun
  | kept same messages appended rows =>
    have identityKept : ∀ identity, inScope sessionId identity.scope = true →
        IdentityKept world.tables.effects next.tables.effects identity :=
      fun identity inside => (rows identity inside).resolve_right
        fun ⟨key, held, _⟩ => noneIssued key held
    refine ⟨evidenceInvalid_iff.mpr ⟨⟨mark, same.trans marked⟩, fun key reached => ?_⟩,
      identityKept, fun inTransaction fault key isReserve => ?_⟩
    · rcases reached with ⟨sameMark, positive, safe⟩ | ⟨zero, valid⟩
      · exact nothing key (.inl ⟨same.symm.trans sameMark, positive, safe⟩)
      · obtain ⟨floor, earlier⟩ := legacyFloor_of_later appended
          (fun identity row inside found =>
            let ⟨later, foundLater, _⟩ := (identityKept identity inside).kept row found
            ⟨later, foundLater⟩) valid
        exact nothing floor (.inr ⟨same.symm.trans zero, earlier⟩)
    · rw [isReserve] at taken
      obtain ⟨current, _, reached, _⟩ := reserved_of_step taken
      exact nothing current reached

end Steps

/-! ## Whole histories -/

section Histories

variable
  {exoticText : Option JsString}
  {start world : TurnWorld}
  {history : List (TurnEvent × TurnAnswer)}
  {sessionId : String}

/-- A start in which a session is legacy, with the mark zero and no key issued, or
its mark covers the keys that were issued and those that are journaled. -/
structure TurnStart (sessionId : String)
    (world : TurnWorld) : Prop where
  issued : ∀ key, (sessionId, key) ∈ world.issued →
    ∃ mark : Nat,
      highWater world.tables sessionId = some (mark : Int) ∧
        0 < key ∧ key ≤ mark ∧ (mark : Int) ≤ maxSafeInteger
  journaled : ∀ key mark,
    highWater world.tables sessionId = some mark → 0 < mark →
      Journaled world.tables sessionId key → (key : Int) ≤ mark

/-- Some effect of the session was journaled under the key at some point of the
history. -/
def EverJournaled
    (exoticText : Option JsString) (start : TurnWorld) (history : List (TurnEvent × TurnAnswer))
    (sessionId : String)
    (key : Nat) : Prop :=
  ∃ past middle,
    past <+: history ∧
      Run (TurnStep exoticText) start past middle ∧
      Journaled middle.tables sessionId key

variable
  {label : TurnEvent × TurnAnswer}

theorem turnStep_functional
    {state first second : TurnWorld} (taken : TurnStep exoticText state label first)
    (again : TurnStep exoticText state label second) :
    first = second :=
  (Prod.mk.inj (Option.some.inj (taken.symm.trans again))).2

theorem everJournaled_nil_iff {key : Nat} :
    EverJournaled exoticText start [] sessionId key ↔
      Journaled start.tables sessionId key := by
  constructor
  · rintro ⟨past, middle, isPast, run, journaled⟩
    obtain rfl := List.prefix_nil.mp isPast
    exact run.unique .nil (fun _ _ _ _ => turnStep_functional) ▸ journaled
  · intro journaled
    exact ⟨[], start, List.prefix_rfl, .nil, journaled⟩

variable
  {next : TurnWorld}

theorem everJournaled_snoc_iff
    {key : Nat} (run : Run (TurnStep exoticText) start history world)
    (taken : TurnStep exoticText world label next) :
    EverJournaled exoticText start (history ++ [label]) sessionId key ↔
      EverJournaled exoticText start history sessionId key ∨
        Journaled next.tables sessionId key := by
  constructor
  · rintro ⟨past, middle, isPast, pastRun, journaled⟩
    rcases List.prefix_concat_iff.mp isPast with rfl | earlier
    · exact .inr
        (pastRun.unique (.snoc run taken) (fun _ _ _ _ => turnStep_functional) ▸ journaled)
    · exact .inl ⟨past, middle, earlier, pastRun, journaled⟩
  · rintro (⟨past, middle, isPast, pastRun, journaled⟩ | journaled)
    · exact ⟨past, middle, isPast.trans (List.prefix_append _ _), pastRun, journaled⟩
    · exact ⟨_, next, List.prefix_rfl, .snoc run taken, journaled⟩

/-- Over a run every key ever journaled is covered. -/
theorem keysCovered_run
    (starts : TurnStart sessionId start) (run : Run (TurnStep exoticText) start history world) :
    KeysCovered sessionId (EverJournaled exoticText start history sessionId) world := by
  refine run.invariant
    (fun past reached =>
      KeysCovered sessionId (EverJournaled exoticText start past sessionId) reached)
    ⟨starts.issued, fun key mark wasSeen marked nonneg => ?_, fun key journaled => ?_⟩
    fun past reached label next pastRun covered taken => ?_
  · have journaled := everJournaled_nil_iff.mp wasSeen
    rcases nonneg.eq_or_lt with zero | positive
    · exact .inr ⟨zero.symm, journaled⟩
    · exact .inl (starts.journaled key mark marked positive journaled)
  · exact everJournaled_nil_iff.mpr journaled
  · have seen : EverJournaled exoticText start (past ++ [label]) sessionId =
        fun key => EverJournaled exoticText start past sessionId key ∨
          Journaled next.tables sessionId key :=
      funext fun key => propext (everJournaled_snoc_iff pastRun taken)
    rw [seen]
    exact covered.step taken

theorem issued_mono
    {event : TurnEvent} {answer : TurnAnswer} {entry : String × Nat}
    (taken : TurnStep exoticText world (event, answer) next) (held : entry ∈ world.issued) :
    entry ∈ next.issued := by
  rw [(step_cases taken).2.2.2]
  unfold issuedAfter
  split
  · exact List.mem_append_left _ held
  · exact held

/-- A key returned has been issued. -/
theorem issued_of_returned
    {key : Nat} (run : Run (TurnStep exoticText) start history world)
    (returned : Returned history sessionId key ∨ (sessionId, key) ∈ start.issued) :
    (sessionId, key) ∈ world.issued := by
  refine run.invariant
    (fun past reached =>
      Returned past sessionId key ∨ (sessionId, key) ∈ start.issued →
        (sessionId, key) ∈ reached.issued)
    ?_ (fun past reached label next _ ih taken => ?_) returned
  · rintro (⟨_, _, member⟩ | held)
    · exact absurd member List.not_mem_nil
    · exact held
  · obtain ⟨event, answer⟩ := label
    rintro (⟨inTransaction, fault, member⟩ | held)
    · rcases List.mem_append.mp member with earlier | last
      · exact issued_mono taken (ih (.inl ⟨inTransaction, fault, earlier⟩))
      · cases List.mem_singleton.mp last
        rw [(step_cases taken).2.2.2]
        exact List.mem_append_right _ (List.mem_singleton.mpr rfl)
    · exact issued_mono taken (ih (.inr held))

theorem RowKept.trans
    {first second third : EffectRow} (early : RowKept first second)
    (late : RowKept second third) :
    RowKept first third := by
  rcases late with rfl | rfl
  · exact early
  · rcases early with rfl | rfl
    · exact .inr rfl
    · exact .inr rfl

/-- From invalid evidence on, no run issues a key. -/
theorem invalid_run
    {seen : Nat → Prop} (covered : KeysCovered sessionId seen start)
    (invalid : EvidenceInvalid start.tables sessionId)
    (run : Run (TurnStep exoticText) start history world) :
    (∀ key, ¬Returned history sessionId key) ∧
      ∀ identity row,
        inScope sessionId identity.scope = true →
          start.tables.effects.get identity = some row →
            ∃ later,
              world.tables.effects.get identity = some later ∧ RowKept row later := by
  have carried := run.invariant
    (fun past reached =>
      (∃ seen, KeysCovered sessionId seen reached) ∧
        EvidenceInvalid reached.tables sessionId ∧
        (∀ key, ¬Returned past sessionId key) ∧
        ∀ identity row,
          inScope sessionId identity.scope = true →
            start.tables.effects.get identity = some row →
              ∃ later,
                reached.tables.effects.get identity = some later ∧ RowKept row later)
    ⟨⟨seen, covered⟩, invalid, fun key ⟨_, _, member⟩ => absurd member List.not_mem_nil,
      fun identity row _ found => ⟨row, found, .inl rfl⟩⟩
    ?_
  · exact carried.2.2
  · rintro past reached ⟨event, answer⟩ next _
      ⟨⟨earlierSeen, earlierCovered⟩, stillInvalid, noneReturned, rows⟩ taken
    obtain ⟨nextInvalid, identityKept, notReserve⟩ := stillInvalid.step earlierCovered taken
    refine ⟨⟨_, earlierCovered.step taken⟩, nextInvalid, fun key returned => ?_,
      fun identity row inside found => ?_⟩
    · obtain ⟨inTransaction, fault, member⟩ := returned
      rcases List.mem_append.mp member with earlier | last
      · exact noneReturned key ⟨inTransaction, fault, earlier⟩
      · exact notReserve inTransaction fault key (List.mem_singleton.mp last).symm
    · obtain ⟨later, foundLater, kept⟩ := rows identity row inside found
      obtain ⟨last, foundLast, keptLast⟩ := (identityKept identity inside).kept later foundLater
      exact ⟨last, foundLast, kept.trans keptLast⟩

/-- Every key that a reservation returns is greater than the keys returned before
it and than the keys of all effects that were ever journaled.  From the moment
its evidence is invalid, a session gets no key and loses no effect. -/
theorem turn_keys_never_reissued
    (starts : TurnStart sessionId start) (run : Run (TurnStep exoticText) start history world) :
    (∀ before after inTransaction fault key,
      history =
          before ++ (⟨.reserve sessionId inTransaction, fault⟩, .reserved key) :: after →
        (∀ earlier,
          Returned before sessionId earlier ∨ (sessionId, earlier) ∈ start.issued →
            earlier < key) ∧
          ∀ journaled,
            EverJournaled exoticText start before sessionId journaled →
              journaled < key) ∧
      ∀ before after middle,
        history = before ++ after →
        Run (TurnStep exoticText) start before middle →
        EvidenceInvalid middle.tables sessionId →
          (∀ key, ¬Returned after sessionId key) ∧
            ∀ identity row,
              inScope sessionId identity.scope = true →
                middle.tables.effects.get identity = some row →
                  ∃ later,
                    world.tables.effects.get identity = some later ∧
                      RowKept row later := by
  refine ⟨?_, ?_⟩
  · rintro before after inTransaction fault key rfl
    rw [List.append_cons] at run
    obtain ⟨reached, first, _⟩ := run.split
    obtain ⟨middle, beforeRun, last⟩ := first.split
    obtain ⟨current, isKey, atCurrent, _⟩ := reserved_of_step last.step_of_singleton
    have covered := keysCovered_run starts beforeRun
    refine ⟨fun earlier returned => ?_, fun journaled ever => ?_⟩
    · have bound := covered.issued_le_of_reached atCurrent (issued_of_returned beforeRun returned)
      omega
    · have bound := covered.le_of_reached atCurrent ever
      omega
  · rintro before after middle rfl beforeRun invalid
    obtain ⟨reached, firstRun, rest⟩ := run.split
    obtain rfl := firstRun.unique beforeRun fun _ _ _ _ => turnStep_functional
    exact invalid_run (keysCovered_run starts beforeRun) invalid rest

/-- A step with the answer that is expected. -/
def TurnWorld.answering (exoticText : Option JsString) (world : TurnWorld)
    (label : TurnEvent × TurnAnswer) : Option TurnWorld :=
  match world.apply exoticText label.1 with
  | some (answer, next) => if answer = label.2 then some next else none
  | none => none

theorem turnStep_of_answering (taken : world.answering exoticText label = some next) :
    TurnStep exoticText world label next := by
  unfold TurnWorld.answering at taken
  unfold TurnStep
  split at taken
  · next answer reached applied =>
    split at taken
    · next same =>
      rw [applied, same, Option.some.inj taken]
    · exact absurd taken nofun
  · exact absurd taken nofun

/-- An effect from before the reservations. -/
def legacyEffect : CapturedSessionEffect where
  id := "r"
  identity := ⟨"session:s:4", 0, "http_request"⟩

/-- A legacy session with one completed message and one committed effect. -/
def legacyWorld : TurnWorld where
  tables := {
    sessions := OrderedMap.empty.set "s" ⟨0, none⟩
    messages := [⟨"s", "assistant", none, some (jsText "done")⟩]
    effects := OrderedMap.empty.set legacyEffect.identity
      ⟨legacyEffect.id, .three, .committed, "digest", none⟩
  }
  issued := []

/-- The effect is swept, and two keys are reserved. -/
def sweptHistory : List (TurnEvent × TurnAnswer) :=
  [(⟨.sweep "s" [legacyEffect] false, .none⟩, .swept 1),
    (⟨.reserve "s" false, .none⟩, .reserved 5),
    (⟨.reserve "s" false, .none⟩, .reserved 6)]

theorem turn_keys_never_reissued_swept :
    ∃ world,
      Run (TurnStep none) legacyWorld sweptHistory world ∧
        5 < 6 ∧
        ∀ journaled,
          EverJournaled none legacyWorld (sweptHistory.take 1) "s" journaled →
            journaled < 5 := by
  have ends : (sweptHistory.foldlM (TurnWorld.answering none) legacyWorld).isSome = true := by
    decide +kernel
  obtain ⟨world, taken⟩ := Option.isSome_iff_exists.mp ends
  have run : Run (TurnStep none) legacyWorld sweptHistory world :=
    (Run.of_foldlM taken).imp fun _ _ _ => turnStep_of_answering
  have starts : TurnStart "s" legacyWorld := by
    refine ⟨fun key held => absurd held List.not_mem_nil, fun key mark marked positive _ => ?_⟩
    have zero : highWater legacyWorld.tables "s" = some 0 := by decide +kernel
    have equal := Option.some.inj (zero.symm.trans marked)
    omega
  have keys := (turn_keys_never_reissued starts run).1
  refine ⟨world, run, ?_, ?_⟩
  · exact (keys (sweptHistory.take 2) [] false .none 6 rfl).1 5
      (.inl ⟨false, .none, by simp [sweptHistory]⟩)
  · exact (keys (sweptHistory.take 1) (sweptHistory.drop 2) false .none 5 rfl).2

end Histories

end Relavium.Store
