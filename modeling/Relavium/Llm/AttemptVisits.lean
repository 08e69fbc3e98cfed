import Relavium.Llm.AttemptLog

/-!
# How a call goes through its plan

The attempts of an entry, the entries of a plan and the calls of a chain, as relations
between what a call carries before and after and what is seen of it.  The loops of the
log go as the relations say, so that what holds of a log is shown by one case for each
way an attempt or an entry can go.
-/

namespace Relavium.Llm

open Library

variable {α ε ο : Type}

/-! ## The verdict table -/

/-- What a failure means, once it is known whether a credential was refreshed for it. -/
def verdictOf (error : LlmError ε)
    (renewed : Bool) : Verdict :=
  if error.contentCommitted then .fatal
  else
    match error.kind with
    | .auth => if renewed then .authRefreshed else .fatal
    | .protocol => .advance
    | kind => if isRetryable kind then .retryable else .fatal

/-- The hook is asked at most once for a provider. -/
theorem not_mem_of_asksCredential
    {options : FallbackChainOptions} {chain : FallbackChain} {entry : FallbackPlanEntry}
    {error : LlmError ε} (asks : asksCredential options chain entry error = true) :
    entry.provider.id ∉ chain.authRefreshed := by
  simp only [asksCredential, Bool.and_eq_true, decide_eq_true_eq] at asks
  exact asks.2

/-- `#afterFailure` judges by the table, and spends the refresh it asks for. -/
theorem afterFailure_eq
    (options : FallbackChainOptions) (chain : FallbackChain) (entry : FallbackPlanEntry)
    (error : LlmError ε) (granted : Bool) (now : Nat) :
    (afterFailure options chain entry error granted now).1 =
        verdictOf error (asksCredential options chain entry error && granted) ∧
      (afterFailure options chain entry error granted now).2.authRefreshed =
        if asksCredential options chain entry error then
          chain.authRefreshed.add entry.provider.id
        else chain.authRefreshed := by
  by_cases isCommitted : error.contentCommitted = true
  · simp [asksCredential, afterFailure, verdictOf, isCommitted]
  · by_cases isAuth : error.kind = .auth
    · by_cases asks : options.refreshesCredentials = true ∧
          entry.provider.id ∉ chain.authRefreshed
      · simp [asksCredential, afterFailure, verdictOf, isCommitted, isAuth, asks]
      · have notAsked : asksCredential options chain entry error = false := by
          simpa [asksCredential, isCommitted, isAuth] using asks
        simp [notAsked, afterFailure, verdictOf, isCommitted, isAuth, asks]
    · have notAsked : asksCredential options chain entry error = false := by
        simp [asksCredential, isAuth]
      cases isKind : error.kind <;> simp_all [afterFailure, verdictOf, isRetryable]

/-! ## The attempts of an entry -/

/-- The error that a call surfaces. -/
def CallEnding.error : CallEnding ε → Option (LlmError ε)
  | .returned surfaced => surfaced
  | .fatal error => some error
  | .refused error => some error
  | .exhausted error => some error
  | _ => none

/-- A call that ends between two attempts, cut short by the caller or the host. -/
def CallEnding.cutShort : CallEnding ε → Bool
  | .cancelled _ => true
  | .unanswered => true
  | _ => false

/-- A call that ends with an attempt that leaves the record. -/
def CallEnding.StopsAt (record : AttemptRecord ε) : CallEnding ε → Prop
  | .returned surfaced => record.outcome = .of surfaced
  | .thrown => ∃ observed, record.outcome = .of observed
  | .abandoned => ∃ observed, record.outcome = .failed observed
  | _ => False

/-- What a call carries from entry to entry: the providers refreshed on the chain, the
last failure, the reasons of the skipped entries and the entries given a request. -/
@[ext]
structure CallView (ε : Type) where
  refreshed : OrderedSet ProviderId
  lastError : Option (LlmError ε)
  skipped : List String
  reached : List FallbackPlanEntry

def CallState.view (state : CallState α ε) : CallView ε where
  refreshed := state.walk.chain.authRefreshed
  lastError := state.lastError
  skipped := state.skipped
  reached := state.walk.reached

/-- After an attempt. -/
def CallView.attempted (view : CallView ε) (entry : FallbackPlanEntry)
    (invoked : Bool) : CallView ε :=
  { view with reached := view.reached ++ if invoked then [entry] else [] }

/-- A failed attempt, and whether it asks for a credential and is granted one. -/
structure Failure (ε : Type) (entry : FallbackPlanEntry)
    (refreshed : OrderedSet ProviderId) where
  invoked : Bool
  asks : Bool
  granted : Bool
  record : AttemptRecord ε
  error : LlmError ε
  isFailed : record.outcome = .failed error
  asksOnce : asks = true → entry.provider.id ∉ refreshed

namespace Failure

variable
  {entry : FallbackPlanEntry}
  {view : CallView ε}

def verdict (failure : Failure ε entry view.refreshed) : Verdict :=
  verdictOf failure.error (failure.asks && failure.granted)

/-- What is seen of it up to the call of the hook. -/
def asked (failure : Failure ε entry view.refreshed)
    (index : Nat) : List (ChainEvent ε) :=
  attemptEvents index failure.invoked failure.record ++ [.refreshed index entry.provider.id false]

def events (failure : Failure ε entry view.refreshed)
    (index : Nat) : List (ChainEvent ε) :=
  attemptEvents index failure.invoked failure.record ++
    verdictEvents index entry.provider.id failure.asks failure.granted failure.error
      failure.verdict

/-- What the call carries after it. -/
def after (failure : Failure ε entry view.refreshed) : CallView ε :=
  { view.attempted entry failure.invoked with
    refreshed :=
      if failure.asks then view.refreshed.add entry.provider.id else view.refreshed
    lastError := some failure.error }

end Failure

/-- How a verdict ends the attempts of an entry, if it does. -/
def Verdict.closes (error : LlmError ε) : Verdict → Option (Option (CallEnding ε))
  | .fatal => some (some (.fatal error))
  | .advance => some none
  | _ => none

/-- How many attempts are left after one with the verdict, if the entry goes on. -/
def Verdict.leaves (left : Nat) : Verdict → Option Nat
  | .retryable => some left
  | .authRefreshed => some (left + 1)
  | _ => none

/-- How the attempts of one entry go with so many left: the events, and the ending unless
the walk goes on. -/
inductive Attempts (entry : FallbackPlanEntry) (index : Nat) :
    Nat → CallView ε → List (ChainEvent ε) → Option (CallEnding ε) → CallView ε → Prop
  | spent {view : CallView ε} : Attempts entry index 0 view [] none view
  | cutShort {left : Nat} {view : CallView ε} {ending : CallEnding ε} :
      ending.cutShort = true →
      Attempts entry index left view [] (some ending) view
  | silent {left : Nat} {view : CallView ε} {invoked : Bool} :
      Attempts entry index (left + 1) view (invocationEvents index invoked) (some .unanswered)
        (view.attempted entry invoked)
  | stopped
      {left : Nat}
      {view : CallView ε}
      {invoked : Bool}
      {record : AttemptRecord ε}
      {ending : CallEnding ε} :
      ending.StopsAt record →
      Attempts entry index (left + 1) view (attemptEvents index invoked record) (some ending)
        (view.attempted entry invoked)
  | unrefreshed {left : Nat} {view : CallView ε} (failure : Failure ε entry view.refreshed) :
      failure.asks = true →
      Attempts entry index (left + 1) view (failure.asked index) (some .unanswered) failure.after
  | closed
      {left : Nat}
      {view : CallView ε}
      {ending : Option (CallEnding ε)}
      (failure : Failure ε entry view.refreshed) :
      failure.verdict.closes failure.error = some ending →
      Attempts entry index (left + 1) view (failure.events index) ending failure.after
  | again
      {left more : Nat}
      {view final : CallView ε}
      {rest : List (ChainEvent ε)}
      {ending : Option (CallEnding ε)}
      (failure : Failure ε entry view.refreshed) :
      failure.verdict.leaves left = some more →
      Attempts entry index more failure.after rest ending final →
      Attempts entry index (left + 1) view (failure.events index ++ rest) ending final

@[simp] theorem reached_attempted
    (walk : ChainWalk α) (entry : FallbackPlanEntry) (request : LlmRequest α) (invoked : Bool) :
    (walk.attempted entry request invoked).reached =
      walk.reached ++ if invoked then [entry] else [] := by
  cases invoked <;> simp [ChainWalk.attempted, ChainWalk.reached]

/-- What the call carries after an attempt that ends it. -/
theorem view_delivered
    (state : CallState α ε) (entry : FallbackPlanEntry) (request : LlmRequest α) (invoked : Bool)
    (content : List (ContentPart α)) :
    (state.next.withWalk
        ((state.walk.attempted entry request invoked).delivered entry content)).view =
      state.view.attempted entry invoked := by
  apply CallView.ext
  · exact congrArg FallbackChain.authRefreshed (chain_attempted ..)
  · rfl
  · rfl
  · exact reached_attempted ..

/-- The failure of an attempt. -/
def failureOf
    (options : FallbackChainOptions) (state : CallState α ε) (entry : FallbackPlanEntry)
    (turn : LoggedTurn ο)
    (error : LlmError ε) : Failure ε entry state.view.refreshed where
  invoked := turn.invoked
  asks := asksCredential options state.walk.chain entry error
  granted := turn.refreshed && turn.answered
  record := state.record entry (.failed error)
  error
  isFailed := rfl
  asksOnce := not_mem_of_asksCredential

/-- The loop over the attempts of an entry goes as `Attempts` says. -/
theorem attempts_attemptEntry
    (attemptEnd : ο → AttemptEnd α ε) (options : FallbackChainOptions) (index : Nat)
    (entry : FallbackPlanEntry) (request : LlmRequest α) (turns : List (LoggedTurn ο))
    (attempt : Nat) (bonus : Nat) (state : CallState α ε) :
    Attempts entry index (entry.maxAttempts + bonus + 1 - attempt) state.view
      (attemptEntry attemptEnd options index entry request turns attempt bonus state).1
      (attemptEntry attemptEnd options index entry request turns attempt bonus state).2.1
      (attemptEntry attemptEnd options index entry request turns attempt bonus
        state).2.2.view := by
  induction turns generalizing attempt bonus state with
  | nil =>
    unfold attemptEntry
    split
    · rename_i isSpent
      rw [show entry.maxAttempts + bonus + 1 - attempt = 0 by omega]
      exact .spent
    · exact .cutShort rfl
  | cons turn turns ih =>
    unfold attemptEntry
    split
    · rename_i isSpent
      rw [show entry.maxAttempts + bonus + 1 - attempt = 0 by omega]
      exact .spent
    · rename_i isLeft
      simp only
      split
      · exact .cutShort rfl
      · obtain ⟨left, hasLeft⟩ : ∃ left, entry.maxAttempts + bonus + 1 - attempt = left + 1 :=
          ⟨_, show _ = entry.maxAttempts + bonus - attempt + 1 by omega⟩
        rw [hasLeft]
        cases isEnd : attemptEnd turn.outcome with
        | returned content surfaced =>
          simp only [view_delivered]
          exact .stopped rfl
        | thrown content observed | abandoned content observed =>
          simp only [view_delivered]
          exact .stopped ⟨observed, rfl⟩
        | unanswered content =>
          simp only [view_delivered]
          exact .silent
        | failed error =>
          have isVerdict := afterFailure_eq options state.walk.chain entry error
            (turn.refreshed && turn.answered) turn.now
          simp only [chain_attempted]
          generalize afterFailure options state.walk.chain entry error
            (turn.refreshed && turn.answered) turn.now = outcome at isVerdict
          obtain ⟨verdict, chain⟩ := outcome
          obtain ⟨isVerdict, isChain⟩ := isVerdict
          let failure := failureOf options state entry turn error
          obtain rfl : verdict = failure.verdict := isVerdict
          have isAfter : ((state.failed error).withWalk
              { state.walk.attempted entry request turn.invoked with chain }).view =
                failure.after := by
            apply CallView.ext
            · exact isChain
            · rfl
            · rfl
            · exact reached_attempted ..
          have more (bonus : Nat) := ih (attempt + 1) bonus ((state.failed error).withWalk
            { state.walk.attempted entry request turn.invoked with chain })
          simp only [isAfter] at more
          split
          · rename_i silent
            simp only [isAfter]
            exact .unrefreshed failure ((Bool.and_eq_true _ _).mp silent).1
          · split
            · rename_i isFatal
              change failure.verdict = _ at isFatal
              simp only [isAfter]
              exact .closed failure (by rw [isFatal]; rfl)
            · rename_i isAdvance
              change failure.verdict = _ at isAdvance
              simp only [isAfter]
              exact .closed failure (by rw [isAdvance]; rfl)
            · rename_i isRefreshed
              change failure.verdict = _ at isRefreshed
              refine .again failure ?_ (more (bonus + 1))
              rw [isRefreshed, Verdict.leaves]
              congr 1
              omega
            · rename_i isRetryable
              change failure.verdict = _ at isRetryable
              have isLeft : failure.verdict.leaves left =
                  some (entry.maxAttempts + bonus + 1 - (attempt + 1)) := by
                rw [isRetryable, Verdict.leaves]
                congr 1
                omega
              split
              · rw [← List.append_nil (_ ++ verdictEvents ..), isAfter]
                exact .again failure isLeft (.cutShort rfl)
              · exact .again failure isLeft (more bonus)

/-! ## The entries of a plan -/

/-- How a call deals with one entry. -/
inductive Visit (entry : FallbackPlanEntry) (index : Nat) :
    CallView ε → List (ChainEvent ε) → Option (CallEnding ε) → CallView ε → Prop
  | cutShort {view : CallView ε} {ending : CallEnding ε} :
      ending.cutShort = true →
      Visit entry index view [] (some ending) view
  | skipped {view : CallView ε} {record : AttemptRecord ε} {reason : String} :
      record.outcome = .skipped reason →
      Visit entry index view [.recorded index record] none
        { view with skipped := view.skipped ++ [reason] }
  | refused {view : CallView ε} {record : AttemptRecord ε} {error : LlmError ε} :
      record.outcome = .failed error →
      Visit entry index view [.recorded index record] (some (.refused error)) view
  | unmaterialized {view : CallView ε} {record : AttemptRecord ε} {error : LlmError ε} :
      record.outcome = .failed error →
      Visit entry index view [.recorded index record] none { view with lastError := some error }
  | attempted
      {view later : CallView ε}
      {events : List (ChainEvent ε)}
      {ending : Option (CallEnding ε)} :
      Attempts entry index entry.maxAttempts view events ending later →
      Visit entry index view events ending later

/-- How a call goes through the entries from `index` on. -/
inductive Visits (exhausted : List String → LlmError ε) :
    Nat → List FallbackPlanEntry → CallView ε → List (ChainEvent ε) → CallEnding ε →
      CallView ε → Prop
  | exhausted {index : Nat} {view : CallView ε} :
      Visits exhausted index [] view []
        (.exhausted (view.lastError.getD (exhausted view.skipped))) view
  | last
      {index : Nat}
      {entry : FallbackPlanEntry}
      {plan : List FallbackPlanEntry}
      {view later : CallView ε}
      {events : List (ChainEvent ε)}
      {ending : CallEnding ε} :
      Visit entry index view events (some ending) later →
      Visits exhausted index (entry :: plan) view events ending later
  | next
      {index : Nat}
      {entry : FallbackPlanEntry}
      {plan : List FallbackPlanEntry}
      {view middle later : CallView ε}
      {events rest : List (ChainEvent ε)}
      {ending : CallEnding ε} :
      Visit entry index view events none middle →
      Visits exhausted (index + 1) plan middle rest ending later →
      Visits exhausted index (entry :: plan) view (events ++ rest) ending later

/-- The loop over the plan goes as `Visits` says. -/
theorem visits_walkPlan
    (scrubSecrets : String → String) (streaming : Bool) (attemptEnd : ο → AttemptEnd α ε)
    (options : FallbackChainOptions) (index : Nat) (plan : List FallbackPlanEntry)
    (turns : List (PlanTurn ο ε)) (state : CallState α ε) :
    Visits (exhaustedError scrubSecrets options) index plan state.view
      (walkPlan scrubSecrets streaming attemptEnd options index plan turns state).1
      (walkPlan scrubSecrets streaming attemptEnd options index plan turns state).2.1
      (walkPlan scrubSecrets streaming attemptEnd options index plan turns
        state).2.2.view := by
  induction plan generalizing index turns state with
  | nil =>
    unfold walkPlan
    exact .exhausted
  | cons entry plan ih =>
    cases turns with
    | nil => exact .last (.cutShort rfl)
    | cons turn turns =>
      unfold walkPlan
      split
      · exact .last (.cutShort rfl)
      · split
        · next reason _ => exact .next (.skipped rfl) (ih _ _ (state.skip reason))
        · split
          · exact .last (.refused rfl)
          · generalize state.walk.run.beginEntry options.acceptedTiers entry = begun
            obtain ⟨request, run⟩ := begun
            simp only
            generalize materializeMedia options _ request _ = materialized
            obtain ⟨⟨⟩ | request, egress⟩ := materialized
            · exact .next (.unmaterialized rfl) (ih _ _
                ((state.failed (materializationError scrubSecrets entry)).withWalk
                  ((state.walk.begun entry run).withSidecar egress.sidecar)))
            · have attempts := attempts_attemptEntry attemptEnd options index entry request
                turn.attempts 1 0 (state.withWalk
                  ((state.walk.begun entry run).withSidecar egress.sidecar))
              simp only
              generalize attemptEntry attemptEnd options index entry request _ 1 0 _ =
                attempted at attempts ⊢
              obtain ⟨events, _ | ending, later⟩ := attempted
              · exact .next (.attempted attempts) (ih _ _ _)
              · exact .last (.attempted attempts)

/-! ## Calls -/

/-- What a call carries before its first entry. -/
def CallView.start (chain : FallbackChain) : CallView ε where
  refreshed := chain.authRefreshed
  lastError := none
  skipped := []
  reached := []

/-- A call goes through its plan as `Visits` says, and hands out the requests and leaves
the refreshed providers that the relation does. -/
theorem LoggedCall.visits
    (scrubSecrets : String → String) (options : FallbackChainOptions) (chain : FallbackChain)
    (call : LoggedCall α ε) :
    ∃ later : CallView ε,
      Visits (exhaustedError scrubSecrets options) 0 options.plan (.start chain)
        (call.log scrubSecrets options chain).events
        (call.log scrubSecrets options chain).ending later ∧
      later.refreshed = (call.log scrubSecrets options chain).chain.authRefreshed ∧
      later.reached = (call.plain.run options chain).2.dispatches.map Dispatch.entry := by
  have refused (error : LlmError ε) : Visits (exhaustedError scrubSecrets options) 0 options.plan
      (.start chain) [.recorded 0 (captureFailureRecord options error)] (.refused error)
      (.start chain) := by
    rw [← List.cons_head_tail options.plan_nonempty]
    exact .last (.refused rfl)
  cases call with
  | generate request captureFailure turns =>
    cases captureFailure with
    | some error => exact ⟨_, refused error, rfl, rfl⟩
    | none =>
      have walk := runPlan_of_walkPlan GenerateEnd.conclude_attempt options scrubSecrets
        false 0 options.plan turns (.start chain request)
      exact ⟨_, visits_walkPlan _ _ _ _ _ _ turns (.start chain request), rfl,
        (congrArg ChainWalk.reached walk).symm⟩
  | stream request captureFailure turns =>
    cases captureFailure with
    | some error => exact ⟨_, refused error, rfl, rfl⟩
    | none =>
      have walk := runPlan_of_walkPlan StreamEnd.conclude_attempt options scrubSecrets
        true 0 options.plan turns (.start chain request)
      exact ⟨_, visits_walkPlan _ _ _ _ _ _ turns (.start chain request), rfl,
        (congrArg ChainWalk.reached walk).symm⟩

end Relavium.Llm
