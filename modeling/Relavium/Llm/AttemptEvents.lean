import Relavium.Llm.AttemptVisits

/-!
# What is seen of attempts

The events of a log are read as records, failures, invocations and refreshes.  Every way
an attempt, an entry or a plan can go says what it adds to them: the order of the events,
the budget of invocations, the refreshes that are spent, and how the ending follows from
the records.
-/

namespace Relavium.Llm

open Library

variable {ε : Type}

/-! ## Reading the events -/

def ChainEvent.index : ChainEvent ε → Nat
  | .recorded index _ => index
  | .invoked index => index
  | .refreshed index _ _ => index
  | .judged index _ _ _ => index

def ChainEvent.record : ChainEvent ε → Option (AttemptRecord ε)
  | .recorded _ record => some record
  | _ => none

/-- Whether an event is a call of a provider. -/
def ChainEvent.isInvocation : ChainEvent ε → Bool
  | .invoked _ => true
  | _ => false

/-- Whether an event is a credential refresh that was granted. -/
def ChainEvent.isGrant : ChainEvent ε → Bool
  | .refreshed _ _ granted => granted
  | _ => false

/-- Whether an event asks for the credential of a provider. -/
def ChainEvent.asksFor (provider : ProviderId) : ChainEvent ε → Bool
  | .refreshed _ asked _ => asked = provider
  | _ => false

/-- The error of a failed record. -/
def AttemptRecord.error (record : AttemptRecord ε) : Option (LlmError ε) :=
  match record.outcome with
  | .failed error => some error
  | _ => none

def AttemptRecord.skipReason (record : AttemptRecord ε) : Option String :=
  match record.outcome with
  | .skipped reason => some reason
  | _ => none

/-- The events of one entry. -/
def eventsAt (index : Nat)
    (events : List (ChainEvent ε)) : List (ChainEvent ε) :=
  events.filter fun event => event.index = index

def records (events : List (ChainEvent ε)) : List (AttemptRecord ε) :=
  events.filterMap ChainEvent.record

/-- The errors of the failed records. -/
def failures (events : List (ChainEvent ε)) : List (LlmError ε) :=
  (records events).filterMap AttemptRecord.error

def skipReasons (events : List (ChainEvent ε)) : List String :=
  (records events).filterMap AttemptRecord.skipReason

def invocations (events : List (ChainEvent ε)) : Nat :=
  events.countP ChainEvent.isInvocation

def grants (events : List (ChainEvent ε)) : Nat :=
  events.countP ChainEvent.isGrant

/-- How often the credential of a provider is asked for. -/
def refreshes (provider : ProviderId)
    (events : List (ChainEvent ε)) : Nat :=
  events.countP (ChainEvent.asksFor provider)

section Reading

variable
  (first second : List (ChainEvent ε))
  (index : Nat)
  (invoked : Bool)
  (record : AttemptRecord ε)
  (provider : ProviderId)

@[simp] theorem records_append :
    records (first ++ second) = records first ++ records second := by
  simp [records]

@[simp] theorem failures_append :
    failures (first ++ second) = failures first ++ failures second := by
  simp [failures]

@[simp] theorem skipReasons_append :
    skipReasons (first ++ second) = skipReasons first ++ skipReasons second := by
  simp [skipReasons]

@[simp] theorem invocations_append :
    invocations (first ++ second) = invocations first + invocations second := by
  simp [invocations]

@[simp] theorem grants_append :
    grants (first ++ second) = grants first + grants second := by
  simp [grants]

@[simp] theorem refreshes_append :
    refreshes provider (first ++ second) =
      refreshes provider first + refreshes provider second := by
  simp [refreshes]

@[simp] theorem eventsAt_append :
    eventsAt index (first ++ second) = eventsAt index first ++ eventsAt index second := by
  simp [eventsAt]

/-- What an invocation adds to each reading. -/
@[simp] theorem read_invocationEvents :
    records (invocationEvents index invoked : List (ChainEvent ε)) = [] ∧
      invocations (invocationEvents index invoked : List (ChainEvent ε)) = invoked.toNat ∧
      grants (invocationEvents index invoked : List (ChainEvent ε)) = 0 := by
  cases invoked <;> exact ⟨rfl, rfl, rfl⟩

@[simp] theorem refreshes_invocationEvents :
    refreshes provider (invocationEvents index invoked : List (ChainEvent ε)) = 0 := by
  cases invoked <;> rfl

@[simp] theorem records_recorded :
    records [.recorded index record] = [record] := rfl

/-- What an attempt adds. -/
@[simp] theorem read_attemptEvents :
    records (attemptEvents index invoked record) = [record] ∧
      invocations (attemptEvents index invoked record) = invoked.toNat ∧
      grants (attemptEvents index invoked record) = 0 := by
  cases invoked <;> exact ⟨rfl, rfl, rfl⟩

@[simp] theorem refreshes_attemptEvents :
    refreshes provider (attemptEvents index invoked record) = 0 := by
  cases invoked <;> rfl

theorem mem_attemptEvents {event : ChainEvent ε} :
    event ∈ attemptEvents index invoked record →
      event = .invoked index ∨ event = .recorded index record := by
  cases invoked <;> simp +contextual [attemptEvents, invocationEvents]

end Reading

/-! ## What a failure shows -/

/-- Which events may come after an event: none of an earlier entry, none after a fatal
verdict, and after a verdict to advance only those of later entries. -/
def MayFollow (first second : ChainEvent ε) : Prop :=
  first.index ≤ second.index ∧
    ∀ index error renewed verdict, first = .judged index error renewed verdict →
      verdict ≠ .fatal ∧ (verdict = .advance → index < second.index)

/-- The number of refreshes that a provider has spent. -/
def refreshesSpent (refreshed : OrderedSet ProviderId)
    (provider : ProviderId) : Nat :=
  if provider ∈ refreshed then 1 else 0

theorem refreshesSpent_le_one (refreshed : OrderedSet ProviderId) (provider : ProviderId) :
    refreshesSpent refreshed provider ≤ 1 := by
  unfold refreshesSpent
  split <;> omega

namespace Failure

variable
  {entry : FallbackPlanEntry}
  {view : CallView ε}
  (failure : Failure ε entry view.refreshed)
  (index : Nat)

/-- What a failure adds to each reading. -/
@[simp] theorem read_events :
    records (failure.events index) = [failure.record] ∧
      invocations (failure.events index) = failure.invoked.toNat ∧
      grants (failure.events index) = (failure.asks && failure.granted).toNat := by
  obtain ⟨invoked, asks, granted, _, _, _, _⟩ := failure
  cases invoked <;> cases asks <;> cases granted <;> exact ⟨rfl, rfl, rfl⟩

/-- What it adds while its hook has not answered. -/
@[simp] theorem read_asked :
    records (failure.asked index) = [failure.record] ∧
      invocations (failure.asked index) = failure.invoked.toNat ∧
      grants (failure.asked index) = 0 := by
  obtain ⟨invoked, _, _, _, _, _, _⟩ := failure
  cases invoked <;> exact ⟨rfl, rfl, rfl⟩

/-- Only the credential of the entry's provider is asked for. -/
theorem refreshes_events (provider : ProviderId) :
    refreshes provider (failure.events index) =
      (failure.asks && entry.provider.id = provider).toNat := by
  obtain ⟨invoked, asks, _, _, _, _, _⟩ := failure
  by_cases same : entry.provider.id = provider <;> cases invoked <;> cases asks <;>
    simp [Failure.events, attemptEvents, invocationEvents, verdictEvents, refreshes,
      ChainEvent.asksFor, same]

theorem refreshes_asked (asks : failure.asks = true) (provider : ProviderId) :
    refreshes provider (failure.asked index) = refreshes provider (failure.events index) := by
  rw [failure.refreshes_events, asks]
  obtain ⟨invoked, _, _, _, _, _, _⟩ := failure
  by_cases same : entry.provider.id = provider <;> cases invoked <;>
    simp [Failure.asked, attemptEvents, invocationEvents, refreshes, ChainEvent.asksFor, same]

theorem grants_le_refreshes :
    grants (failure.events index) ≤ refreshes entry.provider.id (failure.events index) := by
  rw [(failure.read_events index).2.2, failure.refreshes_events]
  cases failure.asks <;> cases failure.granted <;> simp

/-- A refresh that is asked for is spent. -/
theorem refreshes_spent (provider : ProviderId) :
    refreshes provider (failure.events index) + refreshesSpent view.refreshed provider =
      refreshesSpent failure.after.refreshed provider := by
  rw [failure.refreshes_events]
  cases asks : failure.asks with
  | false => simp [after, asks]
  | true =>
    by_cases isAsked : entry.provider.id = provider
    · subst isAsked
      simp [after, asks, refreshesSpent, failure.asksOnce asks]
    · have notAsked : ¬provider = entry.provider.id := fun same => isAsked same.symm
      simp [after, asks, refreshesSpent, isAsked, notAsked]

/-- The events are in place, and each may follow those before it. -/
theorem mem_events {event : ChainEvent ε} :
    event ∈ failure.events index →
      event = .invoked index ∨ event = .recorded index failure.record ∨
        event = .refreshed index entry.provider.id failure.granted ∨
        event = .judged index failure.error (failure.asks && failure.granted) failure.verdict := by
  unfold Failure.events
  obtain ⟨invoked, asks, _, _, _, _, _⟩ := failure
  cases invoked <;> cases asks <;>
    grind [attemptEvents, invocationEvents, verdictEvents]

theorem mem_asked {event : ChainEvent ε} :
    event ∈ failure.asked index →
      event = .invoked index ∨ event = .recorded index failure.record ∨
        event = .refreshed index entry.provider.id false := by
  unfold Failure.asked
  obtain ⟨invoked, _, _, _, _, _, _⟩ := failure
  cases invoked <;> simp +contextual [attemptEvents, invocationEvents]

theorem pairwise_events : (failure.events index).Pairwise MayFollow := by
  unfold Failure.events
  obtain ⟨invoked, asks, _, _, _, _, _⟩ := failure
  cases invoked <;> cases asks <;>
    simp [attemptEvents, invocationEvents, verdictEvents, MayFollow, ChainEvent.index]

theorem pairwise_asked : (failure.asked index).Pairwise MayFollow := by
  unfold Failure.asked
  obtain ⟨invoked, _, _, _, _, _, _⟩ := failure
  cases invoked <;> simp [attemptEvents, invocationEvents, MayFollow, ChainEvent.index]

end Failure

/-! ## What the attempts of an entry show -/

section Entries

variable
  {entry : FallbackPlanEntry}
  {index left : Nat}
  {view later : CallView ε}
  {events : List (ChainEvent ε)}
  {ending : Option (CallEnding ε)}

theorem Attempts.located (attempts : Attempts entry index left view events ending later) :
    ∀ event ∈ events, event.index = index := by
  induction attempts with
  | spent | cutShort => simp
  | silent => simp [invocationEvents, ChainEvent.index]
  | stopped =>
    intro event member
    obtain rfl | rfl := mem_attemptEvents _ _ _ member <;> rfl
  | unrefreshed failure =>
    intro event member
    obtain rfl | rfl | rfl := failure.mem_asked index member <;> rfl
  | closed failure =>
    intro event member
    obtain rfl | rfl | rfl | rfl := failure.mem_events index member <;> rfl
  | again failure _ _ ih =>
    intro event member
    obtain now | rest := List.mem_append.mp member
    · obtain rfl | rfl | rfl | rfl := failure.mem_events index now <;> rfl
    · exact ih event rest

variable {error : LlmError ε} {record : AttemptRecord ε}

/-- A verdict to renew is given where a refresh was granted. -/
theorem renewed_of_authRefreshed
    {renewed : Bool} (isVerdict : verdictOf error renewed = .authRefreshed) :
    renewed = true := by
  by_contra notRenewed
  rw [Bool.eq_false_of_not_eq_true notRenewed, verdictOf] at isVerdict
  split at isVerdict
  · cases isVerdict
  · cases isKind : error.kind <;> simp [isKind, isRetryable] at isVerdict

/-- An attempt that goes on has used up one, unless a refresh was granted for it. -/
theorem Failure.leaves_le
    {failure : Failure ε entry view.refreshed} {more : Nat}
    (goesOn : failure.verdict.leaves left = some more) :
    more ≤ left + (failure.asks && failure.granted).toNat := by
  cases isVerdict : failure.verdict with
  | authRefreshed =>
    rw [isVerdict, Verdict.leaves, Option.some.injEq] at goesOn
    rw [renewed_of_authRefreshed isVerdict, ← goesOn]
    rfl
  | retryable =>
    rw [isVerdict, Verdict.leaves, Option.some.injEq] at goesOn
    omega
  | _ => simp [isVerdict, Verdict.leaves] at goesOn

/-- A provider is called once for each attempt that is left, and once more for each
refresh granted. -/
theorem Attempts.invocations_le (attempts : Attempts entry index left view events ending later) :
    invocations events ≤ left + grants events := by
  induction attempts with
  | spent | cutShort => exact Nat.zero_le _
  | silent | stopped | unrefreshed failure => simpa using Nat.le_add_left_of_le (Bool.toNat_le _)
  | closed failure =>
    have once := Bool.toNat_le failure.invoked
    simp only [failure.read_events]
    omega
  | again failure goesOn _ ih =>
    have once := Bool.toNat_le failure.invoked
    have := failure.leaves_le goesOn
    simp only [invocations_append, grants_append, failure.read_events]
    omega

theorem Attempts.refreshes_le
    (attempts : Attempts entry index left view events ending later) (provider : ProviderId) :
    refreshes provider events + refreshesSpent view.refreshed provider ≤
      refreshesSpent later.refreshed provider := by
  induction attempts with
  | spent | cutShort => exact Nat.le_of_eq (Nat.zero_add _)
  | silent | stopped => simp [CallView.attempted]
  | unrefreshed failure asks =>
    rw [failure.refreshes_asked index asks]
    exact (failure.refreshes_spent index provider).le
  | closed failure => exact (failure.refreshes_spent index provider).le
  | again failure _ _ ih =>
    have := failure.refreshes_spent index provider
    rw [refreshes_append]
    omega

theorem Attempts.grants_le (attempts : Attempts entry index left view events ending later) :
    grants events ≤ refreshes entry.provider.id events := by
  induction attempts with
  | spent | cutShort => exact Nat.zero_le _
  | silent | stopped | unrefreshed failure => simp
  | closed failure => exact failure.grants_le_refreshes index
  | again failure _ _ ih =>
    rw [grants_append, refreshes_append]
    exact Nat.add_le_add (failure.grants_le_refreshes index) ih

/-- Requests are handed out as the attempts invoke their provider. -/
theorem Attempts.reached (attempts : Attempts entry index left view events ending later) :
    later.reached = view.reached ++ List.replicate (invocations events) entry := by
  have once (invoked : Bool) : (if invoked then [entry] else []) =
      List.replicate invoked.toNat entry := by
    cases invoked <;> rfl
  induction attempts with
  | spent | cutShort => exact (List.append_nil _).symm
  | silent | stopped => simp [CallView.attempted, once]
  | unrefreshed failure | closed failure => simp [Failure.after, CallView.attempted, once]
  | again failure _ _ ih =>
    rw [ih]
    simp [Failure.after, CallView.attempted, once]

/-- Attempts leave a record, unless there is none, the call is cut short before the
first or that never ends. -/
theorem Attempts.recorded (attempts : Attempts entry index left view events ending later) :
    records events ≠ [] ∨
      events = [] ∧ (ending = none → left = 0) ∨
      events = [.invoked index] ∧ ending = some .unanswered := by
  cases attempts with
  | spent => exact .inr (.inl ⟨rfl, fun _ => rfl⟩)
  | cutShort => exact .inr (.inl ⟨rfl, nofun⟩)
  | @silent _ _ invoked =>
    cases invoked with
    | false => exact .inr (.inl ⟨rfl, nofun⟩)
    | true => exact .inr (.inr ⟨rfl, rfl⟩)
  | stopped | unrefreshed failure | closed failure | again failure => simp

/-- A failed record holds its error and no reason to skip. -/
theorem AttemptRecord.of_failed (isFailed : record.outcome = .failed error) :
    record.error = some error ∧ record.skipReason = none := by
  simp [AttemptRecord.error, AttemptRecord.skipReason, isFailed]

theorem CallEnding.StopsAt.skipReason_eq {ending : CallEnding ε} (stops : ending.StopsAt record) :
    record.skipReason = none := by
  have isOver (observed : Option (LlmError ε)) (isOutcome : record.outcome = .of observed) :
      record.skipReason = none := by
    cases observed <;> simp [AttemptRecord.skipReason, isOutcome, AttemptOutcome.of]
  cases ending with
  | returned surfaced => exact isOver surfaced stops
  | thrown => exact stops.elim isOver
  | abandoned => exact stops.elim fun observed isFailed => (AttemptRecord.of_failed isFailed).2
  | _ => exact stops.elim

theorem Attempts.skipReasons_eq (attempts : Attempts entry index left view events ending later) :
    skipReasons events = [] := by
  induction attempts with
  | spent | cutShort => rfl
  | silent => simp [skipReasons]
  | stopped stops => simp [skipReasons, stops.skipReason_eq]
  | unrefreshed failure =>
    simp [skipReasons, (AttemptRecord.of_failed failure.isFailed).2]
  | closed failure => simp [skipReasons, (AttemptRecord.of_failed failure.isFailed).2]
  | again failure _ _ ih =>
    rw [skipReasons_append, ih]
    simp [skipReasons, (AttemptRecord.of_failed failure.isFailed).2]

/-- A failure that lets its entry go on is followed by the entry's further events. -/
theorem Failure.mayFollow
    {failure : Failure ε entry view.refreshed} {more : Nat}
    (goesOn : failure.verdict.leaves left = some more) {first second : ChainEvent ε}
    (isFirst : first ∈ failure.events index) (isSecond : second.index = index) :
    MayFollow first second := by
  obtain rfl | rfl | rfl | rfl := failure.mem_events index isFirst
  · exact ⟨Nat.le_of_eq isSecond.symm, by simp⟩
  · exact ⟨Nat.le_of_eq isSecond.symm, by simp⟩
  · exact ⟨Nat.le_of_eq isSecond.symm, by simp⟩
  · refine ⟨Nat.le_of_eq isSecond.symm, ?_⟩
    rintro _ _ _ _ ⟨⟩
    cases isVerdict : failure.verdict <;> simp [isVerdict, Verdict.leaves] at goesOn ⊢

theorem Attempts.pairwise (attempts : Attempts entry index left view events ending later) :
    events.Pairwise MayFollow := by
  induction attempts with
  | spent | cutShort => exact .nil
  | @silent _ _ invoked => cases invoked <;> simp [invocationEvents]
  | @stopped _ _ invoked =>
    cases invoked <;> simp [attemptEvents, invocationEvents, MayFollow, ChainEvent.index]
  | unrefreshed failure => exact failure.pairwise_asked index
  | closed failure => exact failure.pairwise_events index
  | again failure goesOn rest ih =>
    exact List.pairwise_append.mpr ⟨failure.pairwise_events index, ih,
      fun first isFirst second isSecond =>
        failure.mayFollow goesOn isFirst (rest.located second isSecond)⟩

/-- The verdict table; a fatal one ends the call with the failure, and one to advance
ends the attempts. -/
theorem Attempts.verdict
    (attempts : Attempts entry index left view events ending later) {place : Nat} {renewed : Bool}
    {verdict : Verdict} :
    .judged place error renewed verdict ∈ events →
    verdict = verdictOf error renewed ∧
      (verdict = .fatal → ending = some (.fatal error)) ∧
      (verdict = .advance → ending = none) := by
  induction attempts with
  | spent | cutShort => simp
  | silent => simp [invocationEvents]
  | stopped =>
    intro member
    obtain same | same := mem_attemptEvents _ _ _ member <;> simp at same
  | unrefreshed failure =>
    intro member
    obtain same | same | same := failure.mem_asked index member <;> simp at same
  | closed failure closes =>
    intro member
    obtain same | same | same | same := failure.mem_events index member
    case inr.inr.inr =>
      cases same
      refine ⟨rfl, fun isFatal => ?_, fun advances => ?_⟩
      · rw [isFatal] at closes
        exact (Option.some.inj closes).symm
      · rw [advances] at closes
        exact (Option.some.inj closes).symm
    all_goals cases same
  | again failure goesOn _ ih =>
    intro member
    obtain now | rest := List.mem_append.mp member
    · obtain same | same | same | same := failure.mem_events index now
      case inr.inr.inr =>
        cases same
        refine ⟨rfl, fun isFatal => ?_, fun advances => ?_⟩
        · simp [isFatal, Verdict.leaves] at goesOn
        · simp [advances, Verdict.leaves] at goesOn
      all_goals cases same
    · exact ih rest

theorem Failure.failures_eq
    (failure : Failure ε entry view.refreshed) {events : List (ChainEvent ε)}
    (isRecord : records events = [failure.record]) :
    failures events = [failure.error] := by
  simp [failures, isRecord, (AttemptRecord.of_failed failure.isFailed).1]

/-- The last failure of the entry becomes that of the call. -/
theorem Attempts.view_eq
    (attempts : Attempts entry index left view events ending later) (goesOn : ending = none) :
    later.lastError = (failures events).getLast?.or view.lastError ∧
      later.skipped = view.skipped := by
  induction attempts with
  | spent => exact ⟨rfl, rfl⟩
  | cutShort | silent | stopped | unrefreshed => cases goesOn
  | closed failure =>
    rw [failure.failures_eq (failure.read_events index).1]
    exact ⟨rfl, rfl⟩
  | again failure _ _ ih =>
    obtain ⟨isLast, isSkipped⟩ := ih goesOn
    refine ⟨?_, isSkipped⟩
    rw [isLast, failures_append, List.getLast?_append,
      failure.failures_eq (failure.read_events index).1, Option.or_assoc]
    rfl

/-- A surfaced error is that of the last failed record. -/
theorem Attempts.surfaced
    (attempts : Attempts entry index left view events ending later) {final : CallEnding ε}
    (isFinal : ending = some final) (surfaces : final.error = some error) :
    (failures events).getLast? = some error := by
  induction attempts with
  | spent => exact absurd isFinal (by simp)
  | @cutShort _ _ ending isCut =>
    obtain rfl := Option.some.inj isFinal
    cases ending <;> simp [CallEnding.cutShort, CallEnding.error] at isCut surfaces
  | silent =>
    obtain rfl := Option.some.inj isFinal
    simp [CallEnding.error] at surfaces
  | @stopped _ _ _ record ending stops =>
    obtain rfl := Option.some.inj isFinal
    cases ending with
    | returned surfaced =>
      obtain rfl : surfaced = some error := surfaces
      simp [failures, (AttemptRecord.of_failed stops).1]
    | thrown | abandoned => simp [CallEnding.error] at surfaces
    | _ => exact stops.elim
  | unrefreshed =>
    obtain rfl := Option.some.inj isFinal
    simp [CallEnding.error] at surfaces
  | closed failure closes =>
    subst isFinal
    have isError : final.error = some failure.error := by
      cases isVerdict : failure.verdict <;> simp [isVerdict, Verdict.closes] at closes
      rw [← closes]
      rfl
    rw [failure.failures_eq (failure.read_events index).1, ← surfaces, isError]
    rfl
  | again failure _ _ ih =>
    rw [failures_append, List.getLast?_append, ih isFinal]
    rfl

/-- What the end of a call says of the events before it. -/
def CallEnding.Follows (events : List (ChainEvent ε)) : CallEnding ε → Prop
  | .returned surfaced =>
    ∃ record, (records events).getLast? = some record ∧ record.outcome = .of surfaced
  | .fatal error => ∃ index renewed, events.getLast? = some (.judged index error renewed .fatal)
  | .refused error =>
    ∃ index record, events.getLast? = some (.recorded index record) ∧
      record.outcome = .failed error
  | _ => True

/-- It says so still where more events came before. -/
theorem CallEnding.Follows.append
    {ending : CallEnding ε} (follows : ending.Follows events) (before : List (ChainEvent ε)) :
    ending.Follows (before ++ events) := by
  cases ending with
  | returned surfaced =>
    obtain ⟨record, isLast, isOutcome⟩ := follows
    exact ⟨record, by rw [records_append, List.getLast?_append, isLast]; rfl, isOutcome⟩
  | fatal error =>
    obtain ⟨index, renewed, isLast⟩ := follows
    exact ⟨index, renewed, by rw [List.getLast?_append, isLast]; rfl⟩
  | refused error =>
    obtain ⟨index, record, isLast, isOutcome⟩ := follows
    exact ⟨index, record, by rw [List.getLast?_append, isLast]; rfl, isOutcome⟩
  | _ => trivial

theorem Attempts.follows
    (attempts : Attempts entry index left view events ending later) {final : CallEnding ε}
    (isFinal : ending = some final) :
    final.Follows events ∧ ∀ error, final ≠ .exhausted error := by
  induction attempts with
  | spent => exact absurd isFinal (by simp)
  | @cutShort _ _ ending isCut =>
    obtain rfl := Option.some.inj isFinal
    cases ending <;> simp [CallEnding.cutShort, CallEnding.Follows] at isCut ⊢
  | silent =>
    obtain rfl := Option.some.inj isFinal
    exact ⟨trivial, by simp⟩
  | @stopped _ _ _ record ending stops =>
    obtain rfl := Option.some.inj isFinal
    cases ending with
    | returned surfaced => exact ⟨⟨record, by simp, stops⟩, by simp⟩
    | thrown | abandoned => exact ⟨trivial, by simp⟩
    | _ => exact stops.elim
  | unrefreshed =>
    obtain rfl := Option.some.inj isFinal
    exact ⟨trivial, by simp⟩
  | closed failure closes =>
    subst isFinal
    cases isVerdict : failure.verdict <;> simp [isVerdict, Verdict.closes] at closes
    subst closes
    refine ⟨⟨index, failure.asks && failure.granted, ?_⟩, by simp⟩
    simp [Failure.events, verdictEvents, isVerdict]
  | again failure _ _ ih =>
    obtain ⟨follows, notExhausted⟩ := ih isFinal
    exact ⟨follows.append _, notExhausted⟩

/-- An attempt that succeeds ends the call, with its result unless a host fault leaves
the chain. -/
theorem Attempts.succeeded
    (attempts : Attempts entry index left view events ending later)
    (isSuccess : record.outcome = .succeeded) :
    record ∈ records events →
    ending = some (.returned none) ∨ ending = some .thrown := by
  have notFailure {view : CallView ε} (failure : Failure ε entry view.refreshed) :
      record ≠ failure.record := by
    rintro rfl
    rw [failure.isFailed] at isSuccess
    cases isSuccess
  induction attempts with
  | spent | cutShort => simp [records]
  | silent => simp
  | @stopped _ _ _ other ending stops =>
    intro member
    obtain rfl : record = other := by simpa using member
    cases ending with
    | returned surfaced =>
      cases surfaced with
      | none => exact .inl rfl
      | some error => exact absurd (isSuccess.symm.trans stops) (by simp [AttemptOutcome.of])
    | thrown => exact .inr rfl
    | abandoned =>
      obtain ⟨observed, isFailed⟩ := stops
      exact absurd (isSuccess.symm.trans isFailed) (by simp)
    | _ => exact stops.elim
  | unrefreshed failure | closed failure =>
    intro member
    exact absurd (by simpa using member) (notFailure failure)
  | again failure _ _ ih =>
    intro member
    rw [records_append, (failure.read_events index).1] at member
    obtain now | rest := List.mem_append.mp member
    · exact absurd (List.mem_singleton.mp now) (notFailure failure)
    · exact ih rest

end Entries

end Relavium.Llm
