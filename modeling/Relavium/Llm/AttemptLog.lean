import Relavium.Llm.FallbackChain

/-!
# What a call shows of its attempts

The walk of `packages/llm/src/fallback-chain.ts` with what can be seen of it: the attempt
records that `onAttempt` is given, the calls of the providers and of the credential hook,
the verdicts on failures and the error that a call surfaces.  The records that only
refine the coverage of an attempt (of a retry inside an adapter, of a late receipt) are
left out; one that is the sole record of its attempt stands for it.  Behind the log the
walk is that of `runPlan`, with a request handed out for every invocation.
-/

namespace Relavium.Llm

open Library

variable {α ε ο π : Type}

/-! ## Records and events -/

/-- `AttemptOutcome`, with what goes with it in a record. -/
inductive AttemptOutcome (ε : Type)
  | succeeded
  /-- The error as the attempt returns it. -/
  | failed (error : LlmError ε)
  | skipped (reason : String)
  deriving DecidableEq

/-- The outcome of an attempt that is over, with its failure, if any. -/
def AttemptOutcome.of : Option (LlmError ε) → AttemptOutcome ε
  | none => .succeeded
  | some error => .failed error

/-- What says of an attempt record which attempt it is and how it ended. -/
structure AttemptRecord (ε : Type) where
  attemptNumber : Nat
  provider : ProviderId
  model : JsString
  outcome : AttemptOutcome ε

/-- What is seen of a call, with the place in the plan that it belongs to. -/
inductive ChainEvent (ε : Type)
  | recorded (index : Nat) (record : AttemptRecord ε)
  | invoked (index : Nat)
  /-- The call of `onAuthError`. -/
  | refreshed (index : Nat) (provider : ProviderId) (granted : Bool)
  /-- The verdict on a failure; `renewed` if a credential was refreshed for it. -/
  | judged (index : Nat) (error : LlmError ε) (renewed : Bool) (verdict : Verdict)

/-- How a call ends. -/
inductive CallEnding (ε : Type)
  /-- The result is returned, or the stream completes, with the failure that it has
  surfaced itself, if any. -/
  | returned (surfaced : Option (LlmError ε))
  | fatal (error : LlmError ε)
  /-- The request could not be taken over or selected for an entry. -/
  | refused (error : LlmError ε)
  | exhausted (error : LlmError ε)
  | cancelled (provider : ProviderId)
  /-- A host fault leaves the chain. -/
  | thrown
  /-- The consumer of the stream has returned. -/
  | abandoned
  /-- A provider or the host never answers. -/
  | unanswered

/-! ## Attempts -/

/-- How one attempt ends, with the parts that the caller has been given. -/
inductive AttemptEnd (α ε : Type)
  | returned (content : List (ContentPart α)) (surfaced : Option (LlmError ε))
  | failed (error : LlmError ε)
  /-- A host fault, after a record with the failure, if any. -/
  | thrown (content : List (ContentPart α)) (observed : Option (LlmError ε))
  /-- The consumer returns, which is recorded as the failure. -/
  | abandoned (content : List (ContentPart α)) (observed : LlmError ε)
  /-- The provider, or a hook before it is called, never answers. -/
  | unanswered (content : List (ContentPart α))

/-- What the walk makes of an attempt's end. -/
def AttemptEnd.conclude : AttemptEnd α ε → Conclusion α ε
  | .returned content _ => .stops content
  | .failed error => .failed error
  | .thrown content _ => .stops content
  | .abandoned content _ => .stops content
  | .unanswered content => .stops content

/-- How a `generate` attempt ends. -/
inductive GenerateEnd (α ε : Type)
  | success (content : List (ContentPart α))
  | error (error : LlmError ε)
  | thrown (observed : Option (LlmError ε))
  | unanswered

def GenerateEnd.attemptEnd : GenerateEnd α ε → AttemptEnd α ε
  | .success content => .returned content none
  | .error failure => .failed failure
  | .thrown observed => .thrown [] observed
  | .unanswered => .unanswered []

/-- The attempt without what only the log shows of it. -/
def GenerateEnd.attempt : GenerateEnd α ε → GenerateAttempt α ε
  | .success content => .success content
  | .error failure => .error failure
  | .thrown _ => .thrown
  | .unanswered => .thrown

theorem GenerateEnd.conclude_attempt (outcome : GenerateEnd α ε) :
    outcome.attempt.conclude = outcome.attemptEnd.conclude := by
  cases outcome <;> rfl

/-- How a `stream` attempt ends, with the failure that it surfaces inside the stream. -/
inductive StreamEnd (α ε : Type)
  | committed (content : List (ContentPart α)) (surfaced : Option (LlmError ε))
  | ended (surfaced : Option (LlmError ε))
  | failure (error : LlmError ε)
  | thrown (content : List (ContentPart α)) (observed : Option (LlmError ε))
  | abandoned (content : List (ContentPart α)) (observed : LlmError ε)
  | unanswered (content : List (ContentPart α))

def StreamEnd.attemptEnd : StreamEnd α ε → AttemptEnd α ε
  | .committed content surfaced => .returned content surfaced
  | .ended surfaced => .returned [] surfaced
  | .failure error => .failed error
  | .thrown content observed => .thrown content observed
  | .abandoned content observed => .abandoned content observed
  | .unanswered content => .unanswered content

/-- The attempt without what only the log shows of it. -/
def StreamEnd.attempt : StreamEnd α ε → StreamAttempt α ε
  | .committed content _ => .committed content
  | .ended _ => .ended
  | .failure error => .failure error
  | .thrown content _ => .committed content
  | .abandoned content _ => .committed content
  | .unanswered content => .committed content

theorem StreamEnd.conclude_attempt (outcome : StreamEnd α ε) :
    outcome.attempt.conclude = outcome.attemptEnd.conclude := by
  cases outcome <;> rfl

/-- What the world answers during one attempt. -/
structure LoggedTurn (ο : Type) extends AttemptTurn ο where
  /-- The credential hook answers, if it is asked. -/
  answered : Bool

/-- A call under way: its walk, and the fields of `ChainRun` that say what it shows. -/
structure CallState (α ε : Type) where
  walk : ChainWalk α
  attemptNumber : Nat
  lastError : Option (LlmError ε)
  /-- The reasons of the entries skipped so far. -/
  skipped : List String

namespace CallState

/-- `ChainRun.next`, as the record it becomes. -/
def record (state : CallState α ε) (entry : FallbackPlanEntry)
    (outcome : AttemptOutcome ε) : AttemptRecord ε where
  attemptNumber := state.attemptNumber + 1
  provider := entry.provider.id
  model := entry.model
  outcome

/-- The state after `ChainRun.next`. -/
def next (state : CallState α ε) : CallState α ε :=
  { state with attemptNumber := state.attemptNumber + 1 }

/-- The state after a failure. -/
def failed (state : CallState α ε)
    (error : LlmError ε) : CallState α ε :=
  { state.next with lastError := some error }

/-- The state after a skipped entry. -/
def skip (state : CallState α ε)
    (reason : String) : CallState α ε :=
  { state.next with skipped := state.skipped ++ [reason] }

def withWalk (state : CallState α ε)
    (walk : ChainWalk α) : CallState α ε :=
  { state with walk }

end CallState

/-- Whether `#afterFailure` calls the credential hook. -/
def asksCredential
    (options : FallbackChainOptions) (chain : FallbackChain) (entry : FallbackPlanEntry)
    (error : LlmError ε) : Bool :=
  !error.contentCommitted && error.kind = .auth && options.refreshesCredentials &&
    entry.provider.id ∉ chain.authRefreshed

/-- The event of an attempt that reaches its provider. -/
def invocationEvents (index : Nat)
    (invoked : Bool) : List (ChainEvent ε) :=
  if invoked then [.invoked index] else []

/-- The events of an attempt up to its record. -/
def attemptEvents (index : Nat) (invoked : Bool)
    (record : AttemptRecord ε) : List (ChainEvent ε) :=
  invocationEvents index invoked ++ [.recorded index record]

/-- The events of `#afterFailure`. -/
def verdictEvents
    (index : Nat) (provider : ProviderId) (asks : Bool) (granted : Bool) (error : LlmError ε)
    (verdict : Verdict) : List (ChainEvent ε) :=
  (if asks then [.refreshed index provider granted] else []) ++
    [.judged index error (asks && granted) verdict]

/-- `#runEntryGenerate` and `#runEntryStream`: the events, the ending unless the walk goes
on, and the state.  A stream that surfaces a failure records it as failed. -/
def attemptEntry
    (attemptEnd : ο → AttemptEnd α ε) (options : FallbackChainOptions) (index : Nat)
    (entry : FallbackPlanEntry) (request : LlmRequest α) (turns : List (LoggedTurn ο))
    (attempt : Nat) (bonus : Nat) (state : CallState α ε) :
    List (ChainEvent ε) × Option (CallEnding ε) × CallState α ε :=
  if entry.maxAttempts + bonus < attempt then ([], none, state)
  else
    match turns with
    | [] => ([], some .unanswered, state)
    | turn :: turns =>
      if turn.aborted then ([], some (.cancelled entry.provider.id), state)
      else
        let walk := state.walk.attempted entry request turn.invoked
        match attemptEnd turn.outcome with
        | .returned content surfaced =>
          (attemptEvents index turn.invoked (state.record entry (.of surfaced)),
            some (.returned surfaced), state.next.withWalk (walk.delivered entry content))
        | .thrown content observed =>
          (attemptEvents index turn.invoked (state.record entry (.of observed)),
            some .thrown, state.next.withWalk (walk.delivered entry content))
        | .abandoned content observed =>
          (attemptEvents index turn.invoked (state.record entry (.failed observed)),
            some .abandoned, state.next.withWalk (walk.delivered entry content))
        | .unanswered content =>
          (invocationEvents index turn.invoked, some .unanswered,
            state.next.withWalk (walk.delivered entry content))
        | .failed error =>
          let asks := asksCredential options walk.chain entry error
          let granted := turn.refreshed && turn.answered
          let (verdict, chain) :=
            afterFailure options walk.chain entry error granted turn.now
          let failed :=
            attemptEvents index turn.invoked (state.record entry (.failed error))
          let events :=
            failed ++ verdictEvents index entry.provider.id asks granted error verdict
          let state := (state.failed error).withWalk { walk with chain }
          if asks && !turn.answered then
            (failed ++ [.refreshed index entry.provider.id false], some .unanswered, state)
          else
            match verdict with
            | .fatal => (events, some (.fatal error), state)
            | .advance => (events, none, state)
            | .authRefreshed =>
              let (rest, ending, state) :=
                attemptEntry attemptEnd options index entry request turns
                  (attempt + 1) (bonus + 1) state
              (events ++ rest, ending, state)
            | .retryable =>
              if attempt < entry.maxAttempts + bonus ∧ turn.slept = false then
                (events, some .unanswered, state)
              else
                let (rest, ending, state) :=
                  attemptEntry attemptEnd options index entry request turns
                    (attempt + 1) bonus state
                (events ++ rest, ending, state)

/-! ## Plans -/

/-- What the world answers while the walk is at one entry. -/
structure PlanTurn (ο ε : Type) where
  aborted : Bool
  now : Nat
  unsupported : Option String
  /-- The error of a request that could not be selected for the entry. -/
  refusal : Option (LlmError ε)
  answers : List (Option MediaSource)
  attempts : List (LoggedTurn ο)

section Errors

variable (scrubSecrets : String → String)

/-- `COOLDOWN_SKIP_REASON`. -/
def cooldownSkipReason : String :=
  "provider in rate-limit cooldown"

/-- The failure of `#materializeForEntry`. -/
def materializationError (entry : FallbackPlanEntry) : LlmError ε :=
  makeLlmError scrubSecrets entry.provider.id .unknown
    "media re-materialization failed before egress"

/-- `#exhaustedProvider`. -/
def FallbackChainOptions.exhaustedProvider (options : FallbackChainOptions) : ProviderId :=
  (options.plan.getLast options.plan_nonempty).provider.id

/-- `#exhaustedError`. -/
def exhaustedError (options : FallbackChainOptions)
    (reasons : List String) : LlmError ε :=
  makeLlmError scrubSecrets options.exhaustedProvider
    (if cooldownSkipReason ∈ reasons then .rateLimit else .badRequest)
    ("fallback chain exhausted: no provider could serve the request (" ++
      "; ".intercalate (OrderedSet.ofList reasons).elements ++ ")")

/-- The loop over the plan, from the entry at `index` on. -/
def walkPlan
    (streaming : Bool) (attemptEnd : ο → AttemptEnd α ε) (options : FallbackChainOptions) :
    Nat → List FallbackPlanEntry → List (PlanTurn ο ε) → CallState α ε →
      List (ChainEvent ε) × CallEnding ε × CallState α ε
  | _, [], _, state =>
    ([], .exhausted (state.lastError.getD (exhaustedError scrubSecrets options state.skipped)),
      state)
  | _, _ :: _, [], state => ([], .unanswered, state)
  | index, entry :: plan, turn :: turns, state =>
    if turn.aborted then ([], .cancelled entry.provider.id, state)
    else
      match skipReason state.walk.chain entry turn.now turn.unsupported streaming with
      | some reason =>
        let (rest, ending, later) :=
          walkPlan streaming attemptEnd options (index + 1) plan turns (state.skip reason)
        (.recorded index (state.record entry (.skipped reason)) :: rest, ending, later)
      | none =>
        match turn.refusal with
        | some refusal =>
          ([.recorded index (state.record entry (.failed refusal))], .refused refusal, state.next)
        | none =>
          let (request, run) :=
            state.walk.run.beginEntry options.acceptedTiers entry
          let walk := state.walk.begun entry run
          match materializeMedia options entry.provider.id request
              { sidecar := walk.chain.egressSidecar, answers := turn.answers } with
          | (none, egress) =>
            let error := materializationError scrubSecrets entry
            let (rest, ending, later) :=
              walkPlan streaming attemptEnd options (index + 1) plan turns
                ((state.failed error).withWalk (walk.withSidecar egress.sidecar))
            (.recorded index (state.record entry (.failed error)) :: rest, ending, later)
          | (some request, egress) =>
            match attemptEntry attemptEnd options index entry request turn.attempts 1 0
                (state.withWalk (walk.withSidecar egress.sidecar)) with
            | (events, some ending, state) => (events, ending, state)
            | (events, none, state) =>
              let (rest, ending, later) :=
                walkPlan streaming attemptEnd options (index + 1) plan turns state
              (events ++ rest, ending, later)

/-! ## Calls -/

/-- A call before its first entry. -/
def CallState.start (chain : FallbackChain)
    (request : LlmRequest α) : CallState α ε where
  walk := .start chain request
  attemptNumber := 0
  lastError := none
  skipped := []

/-- What is seen of a call, and the chain it leaves. -/
structure CallLog (ε : Type) where
  events : List (ChainEvent ε)
  ending : CallEnding ε
  chain : FallbackChain

/-- `#captureFailureRecord`, with the error. -/
def captureFailureRecord (options : FallbackChainOptions)
    (error : LlmError ε) : AttemptRecord ε where
  attemptNumber := 1
  provider := (options.plan.head options.plan_nonempty).provider.id
  model := (options.plan.head options.plan_nonempty).model
  outcome := .failed error

/-- One call; `captureFailure` is the error if the request could not be taken over. -/
def logCall
    (streaming : Bool) (attemptEnd : ο → AttemptEnd α ε) (options : FallbackChainOptions)
    (chain : FallbackChain) (request : LlmRequest α) (captureFailure : Option (LlmError ε))
    (turns : List (PlanTurn ο ε)) : CallLog ε :=
  match captureFailure with
  | some error =>
    { events := [.recorded 0 (captureFailureRecord options error)]
      ending := .refused error
      chain }
  | none =>
    let (events, ending, state) :=
      walkPlan scrubSecrets streaming attemptEnd options 0 options.plan turns
        (.start chain request)
    { events, ending, chain := (state.walk.finish request.messages).1 }

/-- A call with its script. -/
inductive LoggedCall (α ε : Type)
  | generate (request : LlmRequest α) (captureFailure : Option (LlmError ε))
      (turns : List (PlanTurn (GenerateEnd α ε) ε))
  | stream (request : LlmRequest α) (captureFailure : Option (LlmError ε))
      (turns : List (PlanTurn (StreamEnd α ε) ε))

def LoggedCall.log (options : FallbackChainOptions)
    (chain : FallbackChain) : LoggedCall α ε → CallLog ε
  | .generate request captureFailure turns =>
    logCall scrubSecrets false GenerateEnd.attemptEnd options chain request captureFailure turns
  | .stream request captureFailure turns =>
    logCall scrubSecrets true StreamEnd.attemptEnd options chain request captureFailure turns

/-- The events of calls one after another on a chain. -/
def lifeEvents (options : FallbackChainOptions) :
    FallbackChain → List (LoggedCall α ε) → List (ChainEvent ε)
  | _, [] => []
  | chain, call :: calls =>
    let log := call.log scrubSecrets options chain
    log.events ++ lifeEvents options log.chain calls

end Errors

/-! ## The walk behind the log -/

/-- The turn as the walk reads it.  A hook that never answers grants nothing. -/
def LoggedTurn.plain (settle : ο → π)
    (turn : LoggedTurn ο) : AttemptTurn π where
  aborted := turn.aborted
  invoked := turn.invoked
  outcome := settle turn.outcome
  refreshed := turn.refreshed && turn.answered
  now := turn.now
  slept := turn.slept

def PlanTurn.plain (settle : ο → π)
    (turn : PlanTurn ο ε) : EntryTurn π where
  aborted := turn.aborted
  now := turn.now
  unsupported := turn.unsupported
  refused := turn.refusal.isSome
  answers := turn.answers
  attempts := turn.attempts.map (LoggedTurn.plain settle)

/-- The call as the walk reads it. -/
def LoggedCall.plain : LoggedCall α ε → ChainCall α ε
  | .generate request captureFailure turns =>
    .generate request captureFailure.isNone (turns.map (PlanTurn.plain GenerateEnd.attempt))
  | .stream request captureFailure turns =>
    .stream request captureFailure.isNone (turns.map (PlanTurn.plain StreamEnd.attempt))

/-- The place of the entry whose provider is called. -/
def ChainEvent.invocation? : ChainEvent ε → Option Nat
  | .invoked index => some index
  | _ => none

/-- The entries whose providers are called, in order. -/
def invokedEntries (plan : List FallbackPlanEntry)
    (events : List (ChainEvent ε)) : List FallbackPlanEntry :=
  events.filterMap fun event => event.invocation?.bind fun index => plan[index]?

/-- The entries to which requests were handed out. -/
def ChainWalk.reached (walk : ChainWalk α) : List FallbackPlanEntry :=
  walk.dispatches.map Dispatch.entry

@[simp] theorem invokedEntries_append
    (plan : List FallbackPlanEntry) (first second : List (ChainEvent ε)) :
    invokedEntries plan (first ++ second) =
      invokedEntries plan first ++ invokedEntries plan second :=
  List.filterMap_append

@[simp] theorem chain_attempted
    (walk : ChainWalk α) (entry : FallbackPlanEntry) (request : LlmRequest α) (invoked : Bool) :
    (walk.attempted entry request invoked).chain = walk.chain := by
  unfold ChainWalk.attempted
  split <;> rfl

section Walk

variable
  {attemptEnd : ο → AttemptEnd α ε}
  {conclude : π → Conclusion α ε}
  {settle : ο → π}
  (settles : ∀ outcome, conclude (settle outcome) = (attemptEnd outcome).conclude)
  (options : FallbackChainOptions)

/-- An unanswered hook has granted nothing, which is fatal. -/
theorem fatal_of_unanswered
    {options : FallbackChainOptions} {chain : FallbackChain} {entry : FallbackPlanEntry}
    {error : LlmError ε} (asks : asksCredential options chain entry error = true) (now : Nat) :
    (afterFailure options chain entry error false now).1 = .fatal := by
  simp only [asksCredential, Bool.and_eq_true, Bool.not_eq_true', decide_eq_true_eq] at asks
  obtain ⟨⟨⟨notCommitted, isAuth⟩, refreshes⟩, isNew⟩ := asks
  simp [afterFailure, notCommitted, isAuth, refreshes, isNew]

include settles in
/-- The attempts of an entry are those of `runEntry`. -/
theorem runEntry_of_attemptEntry
    (index : Nat) (entry : FallbackPlanEntry) (request : LlmRequest α)
    (turns : List (LoggedTurn ο)) (attempt bonus : Nat) (state : CallState α ε) :
    runEntry conclude options entry request (turns.map (LoggedTurn.plain settle)) attempt
        bonus state.walk =
      ((attemptEntry attemptEnd options index entry request turns attempt bonus state).2.1.isNone,
        (attemptEntry attemptEnd options index entry request turns attempt bonus
          state).2.2.walk) := by
  induction turns generalizing attempt bonus state with
  | nil =>
    unfold runEntry attemptEntry
    split <;> rfl
  | cons turn turns ih =>
    rw [List.map_cons]
    unfold runEntry attemptEntry
    split
    · rfl
    · simp only [LoggedTurn.plain, settles, chain_attempted]
      split
      · rfl
      · cases isEnd : attemptEnd turn.outcome with
        | failed error =>
          simp only [AttemptEnd.conclude]
          have later (chain : FallbackChain) (bonus : Nat) := ih (attempt + 1) bonus
            ((state.failed error).withWalk
              { state.walk.attempted entry request turn.invoked with chain })
          by_cases silent : (asksCredential options state.walk.chain entry error &&
              !turn.answered) = true
          · obtain ⟨asks, isSilent⟩ := (Bool.and_eq_true _ _).mp silent
            rw [if_pos silent, (Bool.not_eq_true' _).mp isSilent, Bool.and_false,
              fatal_of_unanswered asks]
            rfl
          · rw [if_neg silent]
            cases (afterFailure options state.walk.chain entry error
                (turn.refreshed && turn.answered) turn.now).1 with
            | fatal | advance => rfl
            | authRefreshed => exact later _ (bonus + 1)
            | retryable =>
              simp only
              split
              · rfl
              · exact later _ bonus
        | _ => rfl

include settles in
/-- The walk behind the log of a plan is `runPlan`. -/
theorem runPlan_of_walkPlan
    (scrubSecrets : String → String) (streaming : Bool) (index : Nat)
    (plan : List FallbackPlanEntry) (turns : List (PlanTurn ο ε)) (state : CallState α ε) :
    runPlan streaming conclude options plan (turns.map (PlanTurn.plain settle)) state.walk =
      (walkPlan scrubSecrets streaming attemptEnd options index plan turns state).2.2.walk := by
  induction plan generalizing index turns state with
  | nil => cases turns <;> rfl
  | cons entry plan ih =>
    cases turns with
    | nil => rfl
    | cons turn turns =>
      rw [List.map_cons]
      unfold runPlan walkPlan
      simp only [PlanTurn.plain]
      by_cases isAborted : turn.aborted = true
      · simp only [isAborted, if_true]
      · simp only [isAborted]
        obtain isSkip | ⟨reason, isSkip⟩ := Option.eq_none_or_eq_some
          (skipReason state.walk.chain entry turn.now turn.unsupported streaming)
        · obtain isSelected | ⟨refusal, isRefused⟩ := Option.eq_none_or_eq_some turn.refusal
          · simp only [isSkip, isSelected, Option.isSome_none, Bool.false_eq_true, if_false]
            generalize state.walk.run.beginEntry options.acceptedTiers entry = begun
            obtain ⟨request, run⟩ := begun
            simp only
            generalize materializeMedia options _ request _ = materialized
            obtain ⟨⟨⟩ | request, egress⟩ := materialized
            · exact ih _ _ ((state.failed _).withWalk
                ((state.walk.begun entry run).withSidecar egress.sidecar))
            · have attempts := runEntry_of_attemptEntry settles options index entry
                request turn.attempts 1 0
                (state.withWalk ((state.walk.begun entry run).withSidecar egress.sidecar))
              simp only [CallState.withWalk] at attempts ⊢
              rw [attempts]
              generalize attemptEntry attemptEnd options index entry request _ 1 0 _ = attempted
              obtain ⟨events, _ | ending, later⟩ := attempted
              · exact ih _ _ later
              · rfl
          · simp only [isSkip, isRefused, Option.isSome_none, Option.isSome_some,
              Bool.false_eq_true, if_false, if_true]
            rfl
        · simp only [isSkip, Option.isSome_some, if_true]
          exact ih _ _ (state.skip reason)

end Walk

/-- The walk behind the log of a call is that of the chain: both leave the same chain. -/
theorem chain_log
    (scrubSecrets : String → String) (options : FallbackChainOptions) (chain : FallbackChain)
    (call : LoggedCall α ε) :
    (call.plain.run options chain).1 = (call.log scrubSecrets options chain).chain := by
  cases call with
  | generate request captureFailure turns =>
    cases captureFailure with
    | some error => rfl
    | none =>
      have walk := runPlan_of_walkPlan GenerateEnd.conclude_attempt options
        scrubSecrets false 0 options.plan turns (.start chain request)
      exact congrArg (fun walk => (ChainWalk.finish walk request.messages).1) walk
  | stream request captureFailure turns =>
    cases captureFailure with
    | some error => rfl
    | none =>
      have walk := runPlan_of_walkPlan StreamEnd.conclude_attempt options
        scrubSecrets true 0 options.plan turns (.start chain request)
      exact congrArg (fun walk => (ChainWalk.finish walk request.messages).1) walk

end Relavium.Llm
