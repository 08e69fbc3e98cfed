import Relavium.Llm.PlanEvents

/-!
# The attempt budget and the verdicts

Over the life of a chain a call of `generate` or `stream` calls each provider within the
budget of its entry, goes through its plan once and in order, and ends as its records
say.  A call that the caller does not cancel, whose providers and hooks answer and whose
host does not fail ends with a result or with an error.
-/

namespace Relavium.Llm

open Library

variable {α ε ο : Type}

/-! ## Calls that nothing cuts short -/

/-- The attempt ends with what its provider answers. -/
def AttemptEnd.isAnswer : AttemptEnd α ε → Bool
  | .returned _ _ => true
  | .failed _ => true
  | _ => false

/-- An attempt that the caller does not cancel and whose provider and host answer. -/
def LoggedTurn.Undisturbed (attemptEnd : ο → AttemptEnd α ε)
    (turn : LoggedTurn ο) : Prop :=
  turn.aborted = false ∧ turn.slept = true ∧ turn.answered = true ∧
    (attemptEnd turn.outcome).isAnswer = true

/-- A call that the caller does not cancel and whose providers and host answer. -/
structure Undisturbed (attemptEnd : ο → AttemptEnd α ε) (plan : List FallbackPlanEntry)
    (turns : List (PlanTurn ο ε)) : Prop where
  answered : plan.length ≤ turns.length
  live : ∀ turn ∈ turns, turn.aborted = false
  attempts : ∀ turn ∈ turns, ∀ attempt ∈ turn.attempts, attempt.Undisturbed attemptEnd
  enough : ∀ turn ∈ turns, ∀ entry ∈ plan, entry.maxAttempts + 1 ≤ turn.attempts.length

/-- The endings of an undisturbed call. -/
def CallEnding.settled : CallEnding ε → Bool
  | .returned _ => true
  | .fatal _ => true
  | .refused _ => true
  | .exhausted _ => true
  | _ => false

/-- A verdict to renew spends the refresh; no verdict gives one back. -/
theorem Failure.spent
    {entry : FallbackPlanEntry} {view : CallView ε} (failure : Failure ε entry view.refreshed) :
    refreshesSpent view.refreshed entry.provider.id ≤
        refreshesSpent failure.after.refreshed entry.provider.id ∧
      (failure.verdict = .authRefreshed →
        refreshesSpent view.refreshed entry.provider.id = 0 ∧
          refreshesSpent failure.after.refreshed entry.provider.id = 1) := by
  have isSpent := failure.refreshes_spent 0 entry.provider.id
  refine ⟨by omega, fun isRenewed => ?_⟩
  have asks := ((Bool.and_eq_true _ _).mp (renewed_of_authRefreshed isRenewed)).1
  have once := refreshesSpent_le_one failure.after.refreshed entry.provider.id
  rw [failure.refreshes_events, asks] at isSpent
  simp only [decide_true, Bool.and_self, Bool.toNat_true] at isSpent
  omega

theorem settled_attemptEntry
    {attemptEnd : ο → AttemptEnd α ε} (options : FallbackChainOptions) (index : Nat)
    {entry : FallbackPlanEntry} (request : LlmRequest α) {turns : List (LoggedTurn ο)}
    (undisturbed : ∀ turn ∈ turns, turn.Undisturbed attemptEnd) {attempt bonus : Nat}
    (state : CallState α ε)
    (enough : entry.maxAttempts + bonus + 1 - attempt + 1 ≤
      turns.length + refreshesSpent state.walk.chain.authRefreshed entry.provider.id) :
    (attemptEntry attemptEnd options index entry request turns attempt bonus
      state).2.1.all CallEnding.settled = true := by
  induction turns generalizing attempt bonus state with
  | nil =>
    have once := refreshesSpent_le_one state.walk.chain.authRefreshed entry.provider.id
    rw [List.length_nil] at enough
    unfold attemptEntry
    rw [if_pos (by omega)]
    rfl
  | cons turn turns ih =>
    obtain ⟨isLive, hasSlept, hasAnswered, isAnswer⟩ := undisturbed turn List.mem_cons_self
    have rest := fun turn member => undisturbed turn (List.mem_cons_of_mem _ member)
    rw [List.length_cons] at enough
    unfold attemptEntry
    split
    · rfl
    · simp only [isLive, hasAnswered, Bool.false_eq_true, if_false, Bool.not_true,
        Bool.and_false, Bool.and_true]
      cases isEnd : attemptEnd turn.outcome with
      | returned content surfaced => rfl
      | failed error =>
        have isVerdict := afterFailure_eq options state.walk.chain entry error
          (turn.refreshed && turn.answered) turn.now
        simp only [hasAnswered, Bool.and_true] at isVerdict
        simp only [chain_attempted]
        generalize afterFailure options state.walk.chain entry error turn.refreshed
          turn.now = outcome at isVerdict
        obtain ⟨verdict, chain⟩ := outcome
        obtain ⟨isVerdict, isChain⟩ := isVerdict
        have isVerdict : verdict = (failureOf options state entry turn error).verdict := by
          simp only [Failure.verdict, failureOf, hasAnswered, Bool.and_true]
          exact isVerdict
        have isChain : chain.authRefreshed =
            (failureOf options state entry turn error).after.refreshed := isChain
        obtain ⟨kept, spends⟩ := (failureOf options state entry turn error).spent
        rw [← isChain, ← isVerdict] at spends
        rw [← isChain] at kept
        simp only [CallState.view] at kept spends
        cases verdict with
        | fatal | advance => rfl
        | authRefreshed =>
          obtain ⟨unspent, isSpent⟩ := spends rfl
          refine ih rest _ ?_
          simp only [CallState.withWalk]
          omega
        | retryable =>
          simp only [hasSlept, Bool.true_eq_false, and_false, if_false]
          refine ih rest _ ?_
          simp only [CallState.withWalk]
          omega
      | _ => simp [isEnd, AttemptEnd.isAnswer] at isAnswer

/-- An undisturbed call ends with a result, a fatal or refused request, or at the end of
the plan. -/
theorem settled_walkPlan
    {scrubSecrets : String → String} {streaming : Bool} {attemptEnd : ο → AttemptEnd α ε}
    {options : FallbackChainOptions} {index : Nat} {plan : List FallbackPlanEntry}
    {turns : List (PlanTurn ο ε)} {state : CallState α ε}
    (undisturbed : Undisturbed attemptEnd plan turns) :
    (walkPlan scrubSecrets streaming attemptEnd options index plan turns
      state).2.1.settled = true := by
  induction plan generalizing index turns state with
  | nil => rfl
  | cons entry plan ih =>
    obtain ⟨answered, live, attempts, enough⟩ := undisturbed
    cases turns with
    | nil => simp at answered
    | cons turn turns =>
      have rest : Undisturbed attemptEnd plan turns :=
        { answered := by simpa using answered
          live := fun turn member => live turn (List.mem_cons_of_mem _ member)
          attempts := fun turn member => attempts turn (List.mem_cons_of_mem _ member)
          enough := fun turn member entry isEntry =>
            enough turn (List.mem_cons_of_mem _ member) entry (List.mem_cons_of_mem _ isEntry) }
      unfold walkPlan
      rw [if_neg (by simp [live turn List.mem_cons_self])]
      split
      · exact ih rest
      · split
        · rfl
        · generalize state.walk.run.beginEntry options.acceptedTiers entry = begun
          obtain ⟨request, run⟩ := begun
          simp only
          generalize materializeMedia options _ request _ = materialized
          obtain ⟨⟨⟩ | request, egress⟩ := materialized
          · exact ih rest
          · have settled := @settled_attemptEntry _ _ _ attemptEnd options index entry request
              turn.attempts (attempts turn List.mem_cons_self) 1 0
              (state.withWalk ((state.walk.begun entry run).withSidecar egress.sidecar))
              (Nat.le_add_right_of_le (enough turn List.mem_cons_self entry List.mem_cons_self))
            simp only
            generalize attemptEntry attemptEnd options index entry request _ 1 0 _ =
              attempted at settled ⊢
            obtain ⟨events, _ | ending, later⟩ := attempted
            · exact ih rest
            · simpa using settled

/-- A call that nothing cuts short. -/
def LoggedCall.Undisturbed
    (options : FallbackChainOptions) : LoggedCall α ε → Prop
  | .generate _ _ turns => Llm.Undisturbed GenerateEnd.attemptEnd options.plan turns
  | .stream _ _ turns => Llm.Undisturbed StreamEnd.attemptEnd options.plan turns

theorem LoggedCall.settled
    {scrubSecrets : String → String} {options : FallbackChainOptions} {chain : FallbackChain}
    {call : LoggedCall α ε} (undisturbed : call.Undisturbed options) :
    (call.log scrubSecrets options chain).ending.settled = true := by
  cases call with
  | generate request captureFailure turns | stream request captureFailure turns =>
    cases captureFailure with
    | some error => rfl
    | none => exact settled_walkPlan undisturbed

/-! ## The life of a chain -/

/-- Over the whole life of a chain the credential of a provider is asked for once. -/
theorem refreshes_lifeEvents
    (scrubSecrets : String → String) (options : FallbackChainOptions)
    (calls : List (LoggedCall α ε)) (chain : FallbackChain) (provider : ProviderId) :
    refreshes provider (lifeEvents scrubSecrets options chain calls) +
      refreshesSpent chain.authRefreshed provider ≤ 1 := by
  induction calls generalizing chain with
  | nil => exact (Nat.zero_add _).trans_le (refreshesSpent_le_one ..)
  | cons call calls ih =>
    obtain ⟨later, visits, isLater, -⟩ := call.visits scrubSecrets options chain
    have now := visits.refreshes_le provider
    have rest := ih (call.log scrubSecrets options chain).chain
    rw [isLater] at now
    simp only [CallView.start] at now
    rw [lifeEvents, refreshes_append]
    omega

/-! ## Reasons to skip -/

theorem cannotServe_ne_cooldown (reason : String) :
    "provider cannot serve the request: " ++ reason ≠ cooldownSkipReason := by
  intro same
  have isFront := congrArg (fun text : String => text.toList.take 10) same
  simp [cooldownSkipReason] at isFront

theorem skipReason_eq_cooldown_iff
    (chain : FallbackChain) (entry : FallbackPlanEntry) (now : Nat) (unsupported : Option String)
    (streaming : Bool) :
    skipReason chain entry now unsupported streaming = some cooldownSkipReason ↔
      ∃ cooldownUntil, chain.cooldownUntil.get entry.provider.id = some cooldownUntil ∧
        now < cooldownUntil := by
  have isUnmet : skipReason.unmet entry unsupported streaming ≠ some cooldownSkipReason := by
    unfold skipReason.unmet
    split
    · decide
    · intro isReason
      obtain ⟨reason, -, same⟩ := Option.map_eq_some_iff.mp isReason
      exact cannotServe_ne_cooldown reason same
  unfold skipReason
  split
  · rename_i cooldownUntil isCooling
    split
    · next before => exact iff_of_true rfl ⟨cooldownUntil, isCooling, before⟩
    · rename_i notBefore
      refine iff_of_false isUnmet ?_
      rintro ⟨other, same, before⟩
      cases isCooling.symm.trans same
      exact notBefore before
  · rename_i notCooling
    refine iff_of_false isUnmet ?_
    rintro ⟨other, same, -⟩
    exact absurd (notCooling.symm.trans same) (by simp)

/-! ## The attempt budget and the verdicts -/

theorem after_verdict
    {events before after : List (ChainEvent ε)} (pairwise : events.Pairwise MayFollow)
    {index : Nat} {error : LlmError ε} {renewed : Bool} {verdict : Verdict}
    (isSplit : events = before ++ .judged index error renewed verdict :: after) :
    (verdict = .advance → ∀ event ∈ after, index < event.index) ∧
      (verdict = .fatal → after = []) := by
  rw [isSplit] at pairwise
  have follows := (List.pairwise_cons.mp (List.pairwise_append.mp pairwise).2.1).1
  constructor
  · intro advances event member
    exact ((follows event member).2 _ _ _ _ rfl).2 advances
  · intro isFatal
    refine List.eq_nil_iff_forall_not_mem.mpr fun event member => ?_
    exact ((follows event member).2 _ _ _ _ rfl).1 isFatal

/-- A protocol failure never lets its entry go on. -/
theorem verdictOf_protocol
    {error : LlmError ε} (isProtocol : error.kind = .protocol) (renewed : Bool) :
    verdictOf error renewed = .fatal ∨ verdictOf error renewed = .advance := by
  unfold verdictOf
  split
  · exact .inl rfl
  · rw [isProtocol]
    exact .inr rfl

/-- A settled call without a success surfaces the last failure, or where there is none,
what the reasons of all skipped entries say. -/
theorem error_of_settled
    {ending : CallEnding ε} {events : List (ChainEvent ε)} (isSettled : ending.settled = true)
    (follows : ending.Follows events)
    (failed : ∀ record ∈ records events, record.outcome ≠ .succeeded) :
    ∃ error, ending.error = some error := by
  cases ending with
  | returned surfaced =>
    obtain ⟨record, isLast, isOutcome⟩ := follows
    cases surfaced with
    | none => exact absurd isOutcome (failed record (List.mem_of_getLast? isLast))
    | some error => exact ⟨error, rfl⟩
  | fatal error | refused error | exhausted error => exact ⟨error, rfl⟩
  | _ => simp [CallEnding.settled] at isSettled

/-- The attempts, verdicts and errors of one call of `generate` or `stream`, in the life
of a chain.

The log is that of the chain's own walk, with a request handed out for every invocation.
The provider of an entry is called `maxAttempts` times at most, and once more if a
credential refresh was granted; the credential of a provider is asked for once in the
whole life of a chain.  What is seen of a call goes through the plan in its order; an
entry that is passed has left a record, and so has one that is seen, unless its first
attempt never ends; the record is only that of the skip if it is skipped.  Verdicts are
those of the table: after a fatal one nothing comes and the call ends with the failure,
and after a protocol failure nothing of its entry.  The ending follows from the records:
a call with a success returns it, and the error that a call surfaces is the last failure,
or without one says all reasons of the skipped entries; it is a rate limit just if one of
them was a cooldown.  A call that the caller does not cancel and whose host answers ends
with a result or, where nothing has succeeded, with such an error. -/
theorem fallbackChain_attempts
    (scrubSecrets : String → String) (options : FallbackChainOptions) (chain : FallbackChain)
    (call : LoggedCall α ε) (calls : List (LoggedCall α ε)) :
    let log := call.log scrubSecrets options chain
    let exhausted : LlmError ε :=
      exhaustedError scrubSecrets options (skipReasons log.events)
    ((call.plain.run options chain).1 = log.chain ∧
      (call.plain.run options chain).2.dispatches.map Dispatch.entry =
        invokedEntries options.plan log.events) ∧
    (∀ (index : Nat) entry, options.plan[index]? = some entry →
      invocations (eventsAt index log.events) ≤
        entry.maxAttempts + grants (eventsAt index log.events) ∧
      grants (eventsAt index log.events) ≤ 1) ∧
    (∀ provider,
      refreshes provider (lifeEvents scrubSecrets options .new calls) ≤ 1) ∧
    log.events.Pairwise (fun first second => first.index ≤ second.index) ∧
    (∀ event ∈ log.events, event.index < options.plan.length) ∧
    (∀ index < options.plan.length,
      (eventsAt index log.events ≠ [] →
        records (eventsAt index log.events) ≠ [] ∨
          eventsAt index log.events = [.invoked index] ∧ log.ending = .unanswered) ∧
      ((∃ event ∈ log.events, index < event.index) ∨ (∃ error, log.ending = .exhausted error) →
        records (eventsAt index log.events) ≠ []) ∧
      ((∃ record reason, eventsAt index log.events = [.recorded index record] ∧
          record.outcome = .skipped reason) ∨
        skipReasons (eventsAt index log.events) = [])) ∧
    (∀ before after index error renewed verdict,
      log.events = before ++ .judged index error renewed verdict :: after →
      verdict = verdictOf error renewed ∧
      (error.kind = .protocol → ∀ event ∈ after, index < event.index) ∧
      (verdict = .fatal → after = [] ∧ log.ending = .fatal error)) ∧
    log.ending.Follows log.events ∧
    (∀ record ∈ records log.events, record.outcome = .succeeded →
      log.ending = .returned none ∨ log.ending = .thrown) ∧
    (∀ error, log.ending.error = some error →
      error = (failures log.events).getLast?.getD exhausted) ∧
    (log.ending.settled = true →
      (∀ record ∈ records log.events, record.outcome ≠ .succeeded) →
        log.ending.error = some ((failures log.events).getLast?.getD exhausted)) ∧
    (exhausted.kind = .rateLimit ↔ cooldownSkipReason ∈ skipReasons log.events) ∧
    (∀ chain entry now unsupported streaming,
      skipReason chain entry now unsupported streaming = some cooldownSkipReason ↔
        ∃ cooldownUntil, chain.cooldownUntil.get entry.provider.id = some cooldownUntil ∧
          now < cooldownUntil) ∧
    (call.Undisturbed options → log.ending.settled = true) := by
  intro log exhausted
  obtain ⟨later, visits, -, isReached⟩ := call.visits scrubSecrets options chain
  have isEvents : ∀ index < options.plan.length, eventsAt index log.events = [] ∨
      ∃ entry before final after, 0 < entry.maxAttempts ∧
        Visit entry index before (eventsAt index log.events) final after ∧
          (final = none ∨ final = some log.ending) := by
    intro index isIndex
    have isVisit := visits.eventsAt_eq (List.getElem?_eq_getElem isIndex)
    rw [Nat.zero_add] at isVisit
    refine isVisit.imp_right ?_
    rintro ⟨before, final, after, visit, ends⟩
    exact ⟨_, before, final, after, options.maxAttempts_pos _ (List.getElem_mem isIndex), visit,
      ends⟩
  have surfaced (error : LlmError ε) (surfaces : log.ending.error = some error) :
      error = (failures log.events).getLast?.getD exhausted := by
    simpa [CallView.start] using visits.surfaced surfaces
  refine ⟨⟨chain_log scrubSecrets options chain call, ?_⟩, ?_, ?_, ?_, ?_, ?_, ?_,
    visits.follows, fun record member isSuccess => visits.succeeded isSuccess member, surfaced,
    fun isSettled failed => ?_, ?_, skipReason_eq_cooldown_iff, LoggedCall.settled⟩
  · rw [← isReached]
    exact visits.reached fun place => by rw [Nat.zero_add]
  · intro index entry isEntry
    have isVisit := visits.eventsAt_eq isEntry
    rw [Nat.zero_add] at isVisit
    obtain none | ⟨before, final, after, visit, -⟩ := isVisit
    · rw [none]
      exact ⟨Nat.zero_le _, Nat.zero_le _⟩
    · exact ⟨visit.invocations_le, visit.grants_le⟩
  · intro provider
    exact (Nat.le_add_right ..).trans (refreshes_lifeEvents ..)
  · exact visits.pairwise.imp fun follows => follows.1
  · intro event member
    have := (visits.located event member).2
    omega
  · intro index isIndex
    refine ⟨fun isSeen => ?_, fun passed => ?_, ?_⟩
    · obtain none | ⟨entry, before, final, after, positive, visit, ends⟩ := isEvents index isIndex
      · exact absurd none isSeen
      · refine (visit.recorded positive).imp_right ?_
        rintro (⟨isEmpty, -⟩ | ⟨isInvocation, isUnanswered⟩)
        · exact absurd isEmpty isSeen
        · obtain goesOn | stops := ends
          · exact absurd (goesOn.symm.trans isUnanswered) (by simp)
          · exact ⟨isInvocation, Option.some.inj (stops.symm.trans isUnanswered)⟩
    · have isRecorded := visits.recorded options.maxAttempts_pos isIndex (by simpa using passed)
      rwa [Nat.zero_add] at isRecorded
    · obtain none | ⟨entry, before, final, after, -, visit, -⟩ := isEvents index isIndex
      · rw [none]
        exact .inr rfl
      · exact visit.skipped_or
  · intro before after index error renewed verdict isSplit
    have member : .judged index error renewed verdict ∈ log.events := by
      rw [isSplit]
      simp
    obtain ⟨isVerdict, isFatal⟩ := visits.verdict member
    obtain ⟨advances, ends⟩ := after_verdict visits.pairwise isSplit
    refine ⟨isVerdict, ?_, fun fatal => ⟨ends fatal, isFatal fatal⟩⟩
    intro isProtocol
    obtain fatal | advance := verdictOf_protocol isProtocol renewed
    · rw [ends (isVerdict.trans fatal)]
      simp
    · exact advances (isVerdict.trans advance)
  · obtain ⟨error, isError⟩ := error_of_settled isSettled visits.follows failed
    rw [isError, ← surfaced error isError]
  · simp only [exhausted, exhaustedError, makeLlmError]
    split <;> simp_all

/-- Two entries with one attempt each, and a hook that refreshes credentials. -/
def twoEntries : FallbackChainOptions where
  plan :=
    [{ provider := { id := .anthropic, streaming := true }, model := [], maxAttempts := 1 },
      { provider := { id := .openai, streaming := true }, model := [], maxAttempts := 1 }]
  cooldownMs := 1000
  refreshesCredentials := true
  resolvesMedia := false
  acceptedTiers := fun _ _ => true
  plan_nonempty := by simp
  maxAttempts_pos := by simp

/-- An attempt whose provider answers with an error of the kind. -/
def failingTurn (provider : ProviderId)
    (kind : LlmErrorKind) : LoggedTurn (GenerateEnd Unit Unit) where
  aborted := false
  invoked := true
  outcome := .error (makeLlmError id provider kind "")
  refreshed := true
  now := 0
  slept := true
  answered := true

/-- The first provider refuses the credential and, with a new one, breaks the protocol;
the second is overloaded. -/
def failingCall : LoggedCall Unit Unit :=
  .generate { model := [], messages := [], reasoningEffort := none } none
    [{ aborted := false, now := 0, unsupported := none, refusal := none, answers := []
       attempts := [failingTurn .anthropic .auth, failingTurn .anthropic .protocol] },
      { aborted := false, now := 0, unsupported := none, refusal := none, answers := []
        attempts := [failingTurn .openai .overloaded, failingTurn .openai .overloaded] }]

theorem undisturbed_failingCall : failingCall.Undisturbed twoEntries where
  answered := by decide
  live := by simp
  attempts := by simp [failingTurn, LoggedTurn.Undisturbed, GenerateEnd.attemptEnd,
    AttemptEnd.isAnswer]
  enough := by simp [twoEntries]

/-- The first entry spends its attempt and the one it is granted, and the call surfaces
the failure of the second. -/
theorem fallbackChain_attempts_failing :
    (failingCall.log id twoEntries .new).ending.error =
        some (makeLlmError id .openai .overloaded "") ∧
      invocations (eventsAt 0 (failingCall.log id twoEntries .new).events) = 2 ∧
      refreshes .anthropic (lifeEvents id twoEntries .new [failingCall, failingCall]) ≤ 1 := by
  obtain ⟨-, -, refreshed, -, -, -, -, -, -, -, surfaces, -, -, isSettled⟩ :=
    fallbackChain_attempts id twoEntries .new failingCall [failingCall, failingCall]
  refine ⟨?_, rfl, refreshed .anthropic⟩
  rw [surfaces (isSettled undisturbed_failingCall) (by decide)]
  rfl

end Relavium.Llm
