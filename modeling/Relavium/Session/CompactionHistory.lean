import Relavium.Library.StatementTriple
import Relavium.Session.Compaction

/-!
# What a compaction does to the history

While a compaction waits, the calls of the host leave the history alone, because the
session is not idle.  The passes take the foldable messages in order, and the history
is replaced when they have succeeded, or it is as it was.
-/

namespace Relavium.Session

open Library Llm Shared Statements

/-- The session is in an operation, and the history is the given one. -/
structure Undisturbed (history : SessionHistory)
    (state : CompactionState) : Prop where
  engaged : state.session.status = .running ∨ state.session.status = .cancelled
  history_eq : state.session.history = history

/-- The compaction has handed out the given requests and nothing else. -/
structure Waiting (history : SessionHistory) (sent : List PreparedRequest)
    (state : CompactionState) : Prop extends Undisturbed history state where
  sent_eq : state.sent = sent

/-- A pass that succeeded: the summary before it, the messages it took, its prepared
request, how often that was handed to a provider, the requests of later rounds, and the
summary after it. -/
structure Pass where
  prior : Option JsString
  taken : List (LlmMessage JsValue)
  prepared : PreparedRequest
  attempts : Nat
  later : List PreparedRequest
  summary : JsString

/-- The requests of a pass. -/
def Pass.requests (pass : Pass) : List PreparedRequest :=
  List.replicate pass.attempts pass.prepared ++ pass.later

/-- Passes that fold messages one after another into a summary, each from the summary
of the one before, with prepared requests that fit. -/
inductive Folds (factory : RequestFactory) (windows : CompactionWindows) :
    Option JsString → List (LlmMessage JsValue) → List Pass → Option JsString → Prop
  | done
      {running : Option JsString} :
      Folds factory windows running [] [] running
  | pass
      {pass : Pass}
      {folded : List (LlmMessage JsValue)}
      {passes : List Pass}
      {final : Option JsString}
      (nonempty : pass.taken ≠ [])
      (renders : Renders factory windows pass.prior pass.taken pass.prepared)
      (fits : compactionRequestFits factory windows pass.prepared = .ok true)
      (rest : Folds factory windows (some pass.summary) folded passes final) :
      Folds factory windows pass.prior (pass.taken ++ folded) (pass :: passes) final

/-- What some passes have done: they fold messages, and handed out their requests. -/
structure PassesDone
    (setup : CompactionSetup) (windows : CompactionWindows) (script : CompactionScript)
    (history : SessionHistory) (sent : List PreparedRequest) (running final : Option JsString)
    (folded : List (LlmMessage JsValue)) (passes : List Pass)
    (state : CompactionState) : Prop where
  folds : Folds setup.factory windows running folded passes final
  stays : (∀ pass, Compacting.StaysInRound setup (script.turns pass)) →
    ∀ pass ∈ passes, pass.later = []
  waiting : Waiting history (sent ++ passes.flatMap Pass.requests) state

/-- The session is in an operation that began with a given session. -/
structure AgentSession.InOperation (begun session : AgentSession) : Prop where
  engaged : session.status = .running ∨ session.status = .cancelled
  history_eq : session.history = begun.history
  pendingUser_eq : session.pendingUser = begun.pendingUser

/-- A call leaves an operation, its history and its pending user alone. -/
theorem AgentSession.InOperation.call
    {begun session : AgentSession} (inOperation : begun.InOperation session)
    (call : SessionCall) :
    begun.InOperation (session.call call) := by
  obtain ⟨engaged, sameHistory, samePending⟩ := inOperation
  cases call with
  | cancel =>
    rw [AgentSession.call]
    split
    · exact ⟨engaged, sameHistory, samePending⟩
    · exact ⟨.inr rfl, sameHistory, samePending⟩
  | abort =>
    rw [AgentSession.call]
    split
    · exact ⟨engaged, sameHistory, samePending⟩
    · exact ⟨engaged, sameHistory, samePending⟩
  | guarded operation =>
    have notIdle : session.status ≠ .idle := by
      obtain running | cancelled := engaged
      · simp [running]
      · simp [cancelled]
    rw [AgentSession.call, if_neg notIdle]
    exact ⟨engaged, sameHistory, samePending⟩

theorem AgentSession.InOperation.calls
    {begun session : AgentSession} (inOperation : begun.InOperation session)
    (calls : List SessionCall) :
    begun.InOperation (calls.foldl AgentSession.call session) := by
  induction calls generalizing session with
  | nil => exact inOperation
  | cons call rest ih => exact ih (inOperation.call call)

/-- What is foldable depends on the history and the pending user only. -/
theorem AgentSession.InOperation.splitFoldable
    {begun session : AgentSession} (inOperation : begun.InOperation session) :
    session.splitFoldable = begun.splitFoldable := by
  unfold AgentSession.splitFoldable AgentSession.keptStart AgentSession.lastUserBefore
    AgentSession.pendingIndex
  rw [inOperation.history_eq, inOperation.pendingUser_eq]

namespace Compacting

variable
  {history : SessionHistory}
  {sent : List PreparedRequest}

theorem waiting_hostRuns {refused : Thrown → CompactionState → Prop} (calls : List SessionCall) :
    Triple (Waiting history sent) (hostRuns calls) (fun _ => Waiting history sent) refused := by
  refine .update fun state waiting => ?_
  have after := AgentSession.InOperation.calls ⟨waiting.engaged, rfl, rfl⟩ calls
  exact ⟨⟨after.engaged, after.history_eq.trans waiting.history_eq⟩, waiting.sent_eq⟩

theorem undisturbed_hostRuns
    {refused : Thrown → CompactionState → Prop} (calls : List SessionCall) :
    Triple (Undisturbed history) (hostRuns calls) (fun _ => Undisturbed history) refused := by
  refine .update fun state undisturbed => ?_
  have after := AgentSession.InOperation.calls ⟨undisturbed.engaged, rfl, rfl⟩ calls
  exact ⟨after.engaged, after.history_eq.trans undisturbed.history_eq⟩

theorem waiting_hostMoves (move : HostMove) :
    Preserves (Waiting history sent) (hostMoves move) := by
  refine .bind (waiting_hostRuns move.calls) fun _ => ?_
  cases move.thrown with
  | none => exact .pure
  | some thrown => exact .refuse

theorem waiting_observe (move : HostMove) :
    Preserves (Waiting history sent) (observe move) := by
  refine .bind (waiting_hostRuns move.calls) fun _ => ?_
  cases move.thrown with
  | none => exact .pure
  | some original => exact .refuse

theorem waiting_observeEvent (event : CompactionEvent) (move : HostMove) :
    Preserves (Waiting history sent) (observeEvent event move) :=
  .bind (.update fun _ waiting => ⟨⟨waiting.engaged, waiting.history_eq⟩, waiting.sent_eq⟩)
    fun _ => waiting_observe move

theorem waiting_checkCancelled : Preserves (Waiting history sent) checkCancelled :=
  .select_bind fun _ => .require

theorem waiting_throwIfAborted : Preserves (Waiting history sent) throwIfAborted :=
  .select_bind fun _ => .require

theorem waiting_awaitCompactionDisclosure (disclosed : HostMove) :
    Preserves (Waiting history sent) (awaitCompactionDisclosure disclosed) := by
  refine .select_bind fun _ => .bind .require fun _ =>
    .bind (waiting_hostRuns disclosed.calls) fun _ =>
      .select_bind fun _ => .bind .require fun _ => ?_
  cases disclosed.thrown with
  | none => exact .pure
  | some original => exact .refuse

theorem waiting_openMoment (windows : CompactionWindows) (attempt : Attempt) :
    Preserves (Waiting history sent) (openMoment windows attempt) := by
  refine .select_bind fun opened => ?_
  cases opened with
  | true => exact .pure
  | false =>
    refine .bind (waiting_observeEvent _ attempt.opening) fun _ => .bind ?_ fun _ =>
      waiting_awaitCompactionDisclosure attempt.disclosed
    exact .update fun _ waiting =>
      ⟨⟨waiting.engaged, waiting.history_eq⟩, waiting.sent_eq⟩

theorem waiting_preEgress (windows : CompactionWindows) (attempt : Attempt) :
    Preserves (Waiting history sent) (preEgress windows attempt) :=
  .bind (waiting_hostMoves attempt.admitted) fun _ =>
    .bind waiting_checkCancelled fun _ =>
      .bind (waiting_openMoment windows attempt) fun _ => waiting_checkCancelled

/-- What is left alone by a part of the compaction is undisturbed where it refuses. -/
theorem undisturbed_of_preserves
    {part : Compacting α} (preserves : Preserves (Waiting history sent) part) :
    Triple (Waiting history sent) part
      (fun _ => Waiting history sent) (fun _ => Undisturbed history) :=
  preserves.weaken (fun _ waiting => waiting) (fun _ _ waiting => waiting)
    fun _ _ waiting => waiting.toUndisturbed

/-- After a requirement its condition holds. -/
theorem waiting_require (condition : Prop) [Decidable condition] (thrown : Thrown) :
    Triple (Waiting history sent) (Statements.require condition thrown)
      (fun _ state => condition ∧ Waiting history sent state)
      (fun _ => Undisturbed history) :=
  .require (fun _ waiting isMet => ⟨isMet, waiting⟩) fun _ waiting => waiting.toUndisturbed

theorem waiting_ofExcept (checked : Except Thrown α) :
    Triple (Waiting history sent) (Statements.ofExcept checked)
      (fun answer state => checked = .ok answer ∧ Waiting history sent state)
      (fun _ => Undisturbed history) :=
  .ofExcept (fun _ _ waiting isAnswer => ⟨isAnswer, waiting⟩) fun _ _ waiting =>
    waiting.toUndisturbed

theorem waiting_attemptRequest
    (windows : CompactionWindows) (round : PreparedRequest) (attempt : Attempt) :
    Triple (Waiting history sent) (attemptRequest windows round attempt)
      (fun _ state => ∃ count, Waiting history (sent ++ List.replicate count round) state)
      (fun _ => Undisturbed history) := by
  refine .bind (undisturbed_of_preserves (waiting_hostMoves attempt.joined)) fun _ =>
    .bind (undisturbed_of_preserves waiting_throwIfAborted) fun _ =>
      .bind (undisturbed_of_preserves (waiting_preEgress windows attempt)) fun _ =>
        .bind (undisturbed_of_preserves waiting_throwIfAborted) fun _ => ?_
  cases attempt.sends with
  | true =>
    refine .via (fun _ => Waiting history (sent ++ List.replicate 1 round))
      (.update fun state waiting => ?_) fun _ => ?_
    · exact ⟨⟨waiting.engaged, waiting.history_eq⟩, by rw [waiting.sent_eq]; rfl⟩
    · exact (waiting_hostRuns attempt.engaged).weaken
        (fun _ waiting => waiting) (fun _ _ waiting => ⟨1, waiting⟩) fun _ _ kept => kept
  | false =>
    exact (waiting_hostRuns attempt.engaged).weaken (fun _ waiting => waiting)
      (fun _ _ waiting => ⟨0, by rwa [List.replicate_zero, List.append_nil]⟩)
      fun _ _ kept => kept

theorem waiting_attemptAll
    (windows : CompactionWindows) (round : PreparedRequest) (attempts : List Attempt) :
    Triple (Waiting history sent) (attemptAll windows round attempts)
      (fun _ state => ∃ count, Waiting history (sent ++ List.replicate count round) state)
      (fun _ => Undisturbed history) := by
  induction attempts generalizing sent with
  | nil =>
    exact .pure fun _ waiting =>
      ⟨0, by rwa [List.replicate_zero, List.append_nil]⟩
  | cons attempt rest ih =>
    refine .bind (waiting_attemptRequest windows round attempt) fun _ =>
      .exists_pre fun count => ih.weaken (fun _ waiting => waiting) ?_ fun _ _ kept => kept
    rintro _ state ⟨more, waiting⟩
    exact ⟨count + more, by rwa [List.replicate_add, ← List.append_assoc]⟩

theorem waiting_streamRound
    (windows : CompactionWindows) (round : PreparedRequest) (attempts : List Attempt) :
    Triple (Waiting history sent) (streamRound windows round attempts)
      (fun _ state => ∃ count, Waiting history (sent ++ List.replicate count round) state)
      (fun _ => Undisturbed history) :=
  .bind (undisturbed_of_preserves waiting_throwIfAborted) fun _ =>
    waiting_attemptAll windows round attempts

section Rounds

variable (setup : CompactionSetup)

theorem waiting_enterRound (toolTurn : Nat) :
    Triple (Waiting history sent) (enterRound setup toolTurn)
      (fun _ state => toolTurn ≤ setup.maxToolTurns ∧ Waiting history sent state)
      (fun _ => Undisturbed history) :=
  .bind (undisturbed_of_preserves waiting_throwIfAborted) fun _ => waiting_require _ _

theorem answerCall_eq_ok
    {id name : JsString} {providerExecuted : Option Bool} {answer : LlmMessage JsValue}
    (answered : answerCall setup id name providerExecuted = .ok answer) :
    providerExecuted ≠ some true ∧ name ∉ setup.registeredTools := by
  unfold answerCall at answered
  split at answered
  · cases answered
  · next notProvider =>
    split at answered
    · cases answered
    · next unknown => exact ⟨notProvider, unknown⟩

theorem waiting_dispatchToolCalls
    (dispatching : Nat → List SessionCall) (slot : Nat) (content : List (ContentPart JsValue)) :
    Triple (Waiting history sent) (dispatchToolCalls setup dispatching slot content)
      (fun _ state =>
        (∀ part ∈ content, isAnswered setup part = true) ∧ Waiting history sent state)
      (fun _ => Undisturbed history) := by
  induction slot, content using dispatchToolCalls.induct with
  | case1 => exact .pure fun _ waiting => ⟨by simp, waiting⟩
  | case2 slot id name args providerExecuted signature rest ih =>
    refine .bind (undisturbed_of_preserves waiting_throwIfAborted) fun _ =>
      .bind (waiting_hostRuns _) fun _ => ?_
    refine .via
      (fun _ state =>
        (providerExecuted ≠ some true ∧ name ∉ setup.registeredTools) ∧
          Waiting history sent state)
      (.ofExcept (fun _ _ waiting answered => ⟨answerCall_eq_ok setup answered, waiting⟩)
        fun _ _ waiting => waiting.toUndisturbed)
      fun _ => ?_
    refine .of_imp fun isOpen => .bind ih fun _ =>
      .pure fun state others => ⟨?_, others.2⟩
    intro part member
    obtain rfl | later := List.mem_cons.mp member
    · simpa [isAnswered] using isOpen
    · exact others.1 part later
  | case3 slot part rest notCall ih =>
    rw [dispatchToolCalls]
    · refine ih.weaken (fun _ waiting => waiting) ?_ fun _ _ kept => kept
      rintro _ state ⟨others, waiting⟩
      refine ⟨fun other member => ?_, waiting⟩
      obtain rfl | later := List.mem_cons.mp member
      · cases other with
        | toolCall => exact absurd rfl (notCall _ _ _ _ _)
        | _ => rfl
      · exact others other later
    · exact notCall

theorem waiting_dispatchToolUseTurn
    (round : PreparedRequest) (corrections : Nat) (content : List (ContentPart JsValue))
    (joined : HostMove) (dispatching : Nat → List SessionCall) :
    Triple (Waiting history sent)
      (dispatchToolUseTurn setup round corrections content joined dispatching)
      (fun _ state =>
        (1 ≤ setup.maxToolTurns → LeadsOn setup content) ∧ Waiting history sent state)
      (fun _ => Undisturbed history) := by
  refine .bind (waiting_require _ _) fun _ => .of_imp fun nonempty =>
    .bind (undisturbed_of_preserves (waiting_hostMoves joined)) fun _ =>
      .bind (waiting_require _ _) fun _ => .of_imp fun few =>
        .bind (waiting_dispatchToolCalls setup dispatching 0 content) fun answers =>
          .of_imp fun answered =>
            .bind (waiting_require _ _) fun _ => .of_imp fun within => ?_
  exact .pure fun _ waiting =>
    ⟨fun turns => ⟨turns, by omega, nonempty, few, answered⟩, waiting⟩

variable (windows : CompactionWindows)

theorem waiting_runRounds
    (script : TurnScript) (toolTurn corrections : Nat) (round : PreparedRequest) :
    Triple (Waiting history sent) (runRounds setup windows script toolTurn corrections round)
      (fun _ state => ∃ count later,
        Waiting history (sent ++ (List.replicate count round ++ later)) state)
      (fun _ => Undisturbed history) := by
  induction script generalizing toolTurn corrections round sent with
  | fails attempts thrown =>
    exact .bind (waiting_streamRound windows round attempts) fun _ =>
      .exists_pre fun count => .refuse fun _ waiting => waiting.toUndisturbed
  | answers attempts joined text usage =>
    exact .bind (waiting_streamRound windows round attempts) fun _ =>
      .exists_pre fun count =>
        .bind (undisturbed_of_preserves waiting_throwIfAborted) fun _ =>
          .bind (undisturbed_of_preserves (waiting_hostMoves joined)) fun _ =>
            .pure fun _ waiting => ⟨count, [], by rwa [List.append_nil]⟩
  | callsTools attempts content joined dispatching later ih =>
    refine .bind (waiting_streamRound windows round attempts) fun _ =>
      .exists_pre fun count =>
        .bind (undisturbed_of_preserves waiting_throwIfAborted) fun _ =>
          .bind (waiting_dispatchToolUseTurn setup round corrections content joined
              dispatching) fun messages => .of_imp fun _ =>
            .bind (waiting_enterRound setup (toolTurn + 1)) fun _ => .of_imp fun _ =>
              .bind (waiting_ofExcept _) fun next => .of_imp fun _ => ?_
    refine (ih _ _ _).weaken (fun _ waiting => waiting) ?_ fun _ _ kept => kept
    rintro _ state ⟨more, others, waiting⟩
    exact ⟨count, List.replicate more next ++ others, by rwa [← List.append_assoc]⟩

theorem waiting_summarise (script : TurnScript) (prepared : PreparedRequest) :
    Triple (Waiting history sent) (summarise setup windows script prepared)
      (fun _ state => ∃ count later,
        (StaysInRound setup script → later = []) ∧
          Waiting history (sent ++ (List.replicate count prepared ++ later)) state)
      (fun _ => Undisturbed history) := by
  refine .bind (waiting_enterRound setup 0) fun _ => .of_imp fun _ => ?_
  by_cases stays : StaysInRound setup script
  · cases script with
    | fails attempts thrown =>
      exact .bind (waiting_streamRound windows prepared attempts) fun _ =>
        .exists_pre fun count => .refuse fun _ waiting => waiting.toUndisturbed
    | answers attempts joined text usage =>
      exact .bind (waiting_streamRound windows prepared attempts) fun _ =>
        .exists_pre fun count =>
          .bind (undisturbed_of_preserves waiting_throwIfAborted) fun _ =>
            .bind (undisturbed_of_preserves (waiting_hostMoves joined)) fun _ =>
              .pure fun _ waiting => ⟨count, [], fun _ => rfl, by rwa [List.append_nil]⟩
    | callsTools attempts content joined dispatching later =>
      exact .bind (waiting_streamRound windows prepared attempts) fun _ =>
        .exists_pre fun count =>
          .bind (undisturbed_of_preserves waiting_throwIfAborted) fun _ =>
            .bind (waiting_dispatchToolUseTurn setup prepared 0 content joined
                dispatching) fun messages => .of_imp fun leadsOn =>
              .bind (waiting_enterRound setup 1) fun _ => .of_imp fun within =>
                absurd (leadsOn within) stays
  · exact (waiting_runRounds setup windows script 0 0 prepared).weaken (fun _ waiting => waiting)
      (fun _ _ ⟨count, later, waiting⟩ => ⟨count, later, fun stay => absurd stay stays, waiting⟩)
      fun _ _ kept => kept

/-- The passes take the messages from an offset on, up to the next one. -/
theorem waiting_foldPasses
    (script : CompactionScript) (foldable : List (LlmMessage JsValue))
    (passesLeft pass offset : Nat) (running : Option JsString) (usage : TurnUsage) :
    Triple (Waiting history sent)
      (foldPasses setup windows script foldable passesLeft pass offset running usage)
      (fun answer state => ∃ passes folded,
        foldable.drop offset = folded ++ foldable.drop answer.2.1 ∧
          passes.length ≤ passesLeft ∧
          PassesDone setup windows script history sent running answer.1 folded passes state)
      (fun _ => Undisturbed history) := by
  induction passesLeft generalizing pass offset running usage sent with
  | zero =>
    exact .pure fun state waiting => ⟨[], [], rfl, Nat.le_refl 0, .done, by simp, by simpa⟩
  | succ passesLeft ih =>
    rw [foldPasses]
    split
    · refine .bind (waiting_hostRuns _) fun _ => ?_
      refine .bind (waiting_ofExcept _) fun chunk => .of_imp fun isChunk => ?_
      obtain ⟨prepared, stop⟩ := chunk
      obtain ⟨taken, rest, nonempty, isPart, rfl, renders, fits⟩ :=
        prepareCompactionChunk_spec setup.factory windows running isChunk
      have isRest : foldable.drop (offset + taken.length) = rest := by
        rw [← List.drop_drop, isPart, List.drop_left]
      refine .bind (undisturbed_of_preserves waiting_checkCancelled) fun _ =>
        .bind (waiting_summarise setup windows (script.turns pass) prepared) fun answer =>
          .exists_pre fun count => .exists_pre fun later => .of_imp fun stays =>
            .bind (undisturbed_of_preserves waiting_checkCancelled) fun _ =>
              .bind (waiting_require _ _) fun _ => .of_imp fun _ =>
                (ih _ _ _ _).weaken (fun _ waiting => waiting) ?_ fun _ _ kept => kept
      rintro ⟨final, next, total⟩ state ⟨passes, folded, isFolded, few, done⟩
      let first : Pass := {
        prior := running, taken, prepared, attempts := count, later,
        summary := JsText.trim answer.1 }
      refine ⟨first :: passes, taken ++ folded, ?_, Nat.succ_le_succ few, ?_, ?_, ?_⟩
      · rw [isPart, List.append_assoc, ← isFolded, isRest]
      · exact @Folds.pass _ _ first _ _ _ nonempty renders fits done.folds
      · rintro stay other member
        obtain rfl | isLater := List.mem_cons.mp member
        · exact stays (stay pass)
        · exact done.stays stay other isLater
      · have waiting := done.waiting
        rwa [List.append_assoc] at waiting
    · exact .pure fun state waiting =>
        ⟨[], [], rfl, Nat.zero_le _, .done, by simp, by simpa⟩

end Rounds

end Compacting

/-- Every request that the passes handed to a provider fits the windows. -/
def AllFit (factory : RequestFactory) (windows : CompactionWindows)
    (passes : List Pass) : Prop :=
  ∀ pass ∈ passes, ∀ request ∈ pass.requests,
    compactionRequestFits factory windows request = .ok true

/-- Passes have folded every foldable message, four at most, and the history holds their
summary with the kept messages.  Each request sent satisfies the fit test if `tested`. -/
def Replaced
    (setup : CompactionSetup) (tested : Prop) (split : FoldableSplit) (history : SessionHistory)
    (sent : List PreparedRequest) (summary : JsString)
    (state : CompactionState) : Prop :=
  ∃ measured windows passes,
    setup.factory.prepare (renderConversationToSummarise none []) = .ok measured ∧
    compactionWindows measured = .ok windows ∧
    Folds setup.factory windows history.compactionSummary
      (split.foldable.map HeldMessage.message) passes (some summary) ∧
    passes.length ≤ compactionMaxPasses ∧
    state.sent = sent ++ passes.flatMap Pass.requests ∧
    (tested → AllFit setup.factory windows passes) ∧
    state.session.history = history.install summary split.kept

/-- A compaction that compacted has replaced the history, and any other has kept it. -/
def Settled
    (setup : CompactionSetup) (tested : Prop) (split : FoldableSplit) (history : SessionHistory)
    (sent : List PreparedRequest) : CompactionResult → CompactionState → Prop
  | .compacted data, state => Replaced setup tested split history sent data.summary state
  | _, state => state.session.history = history

theorem Folds.prepared_fits
    {factory : RequestFactory} {windows : CompactionWindows} {running final : Option JsString}
    {folded : List (LlmMessage JsValue)} {passes : List Pass}
    (folds : Folds factory windows running folded passes final) :
    ∀ pass ∈ passes, compactionRequestFits factory windows pass.prepared = .ok true := by
  induction folds with
  | done => simp
  | pass _ _ fits _ ih =>
    intro pass member
    obtain rfl | later := List.mem_cons.mp member
    · exact fits
    · exact ih pass later

theorem Folds.allFit
    {factory : RequestFactory} {windows : CompactionWindows} {running final : Option JsString}
    {folded : List (LlmMessage JsValue)} {passes : List Pass}
    (folds : Folds factory windows running folded passes final)
    (noLater : ∀ pass ∈ passes, pass.later = []) :
    AllFit factory windows passes := by
  intro pass member request isRequest
  rw [Pass.requests, noLater pass member, List.append_nil] at isRequest
  rw [List.eq_of_mem_replicate isRequest]
  exact folds.prepared_fits pass member

namespace Compacting

variable
  {history : SessionHistory}
  {sent : List PreparedRequest}

section Settle

variable
  (setup : CompactionSetup)
  (script : CompactionScript)
  (split : FoldableSplit)

/-- What the passes have done when every one of them has succeeded. -/
def Foldable (sent : List PreparedRequest) (history : SessionHistory) :
    Folding → CompactionState → Prop
  | .nothingToCompact, state => Undisturbed history state
  | .folded summary _ _, state =>
    ∃ measured windows passes,
      setup.factory.prepare (renderConversationToSummarise none []) = .ok measured ∧
      compactionWindows measured = .ok windows ∧
      passes.length ≤ compactionMaxPasses ∧
      PassesDone setup windows script history sent history.compactionSummary (some summary)
        (split.foldable.map HeldMessage.message) passes state

theorem waiting_foldHistory :
    Triple (Waiting history sent) (foldHistory setup script split)
      (Foldable setup script split sent history) (fun _ => Undisturbed history) := by
  refine .bind (undisturbed_of_preserves waiting_checkCancelled) fun _ =>
    .bind (waiting_hostRuns script.measuring) fun _ =>
      .bind (waiting_ofExcept _) fun measured => .of_imp fun isMeasured =>
        .bind (waiting_ofExcept _) fun windows => .of_imp fun isWindows =>
          .bind (undisturbed_of_preserves waiting_checkCancelled) fun _ => ?_
  split
  · exact .pure fun _ waiting => waiting.toUndisturbed
  · refine .select_bind fun session => ?_
    refine .via (fun _ => Waiting history sent)
      ((waiting_hostRuns script.estimating).weaken
        (fun _ given => given.1) (fun _ _ waiting => waiting) fun _ _ kept => kept)
      fun _ => ?_
    refine .bind (undisturbed_of_preserves waiting_checkCancelled) fun _ =>
      .via (fun running state => running = history.compactionSummary ∧
          Waiting history sent state)
        (.select fun _ waiting => ⟨by rw [waiting.history_eq], waiting⟩)
        fun running => .of_imp fun isRunning => ?_
    subst isRunning
    refine .bind (waiting_foldPasses setup windows script _ compactionMaxPasses 0 0 _ .zero)
      fun folded => .exists_pre fun passes => .exists_pre fun taken => ?_
    obtain ⟨running, offset, usage⟩ := folded
    cases running with
    | none => exact .refuse fun _ given => given.2.2.waiting.toUndisturbed
    | some summary =>
      dsimp only
      split
      · exact .refuse fun _ given => given.2.2.waiting.toUndisturbed
      · next reached =>
        refine .pure fun state ⟨isPart, few, done⟩ => ?_
        rw [List.drop_zero, List.drop_eq_nil_of_le (Nat.le_of_not_lt reached),
          List.append_nil] at isPart
        subst isPart
        exact ⟨measured, windows, passes, isMeasured, isWindows, few, done⟩

/-- The sink accepts the replacement, or the history is as it was. -/
theorem waiting_installSummary (kept : List HeldMessage) (data : CompactedData) :
    Triple (Waiting history sent) (installSummary script kept data)
      (fun _ => Waiting (history.install data.summary kept) sent)
      (fun _ => Undisturbed history) := by
  refine .via (fun prior state => prior = history ∧ Waiting history sent state)
    (.select fun _ waiting => ⟨waiting.history_eq, waiting⟩) fun prior =>
      .of_imp fun isPrior => ?_
  subst isPrior
  refine .via (fun _ => Waiting (prior.install data.summary kept) sent)
    (.update fun _ waiting => ⟨⟨waiting.engaged, rfl⟩, waiting.sent_eq⟩) fun _ => ?_
  have accepted : Triple (Waiting (prior.install data.summary kept) sent)
      (do
        observeEvent (.compacted data) script.accepting
        Statements.update fun state => { state with closed := true })
      (fun _ => Waiting (prior.install data.summary kept) sent)
      (fun _ => Undisturbed (prior.install data.summary kept)) :=
    .bind (undisturbed_of_preserves (waiting_observeEvent _ script.accepting)) fun _ =>
      .update fun _ waiting => ⟨⟨waiting.engaged, waiting.history_eq⟩, waiting.sent_eq⟩
  -- what the sink throws undoes the replacement
  have undone (thrown : Thrown) : Triple (Undisturbed (prior.install data.summary kept))
      (do setHistory prior; Statements.refuse thrown)
      (fun _ : Unit => Waiting (prior.install data.summary kept) sent)
      (fun _ => Undisturbed prior) :=
    .via (fun _ => Undisturbed prior)
      (.update fun _ undisturbed => ⟨undisturbed.engaged, rfl⟩) fun _ =>
        .refuse fun _ undisturbed => undisturbed
  exact .bind (.tryCatch accepted undone) fun _ => waiting_hostRuns script.settling

/-- No pass of the script has a round after its first. -/
def AllStay : Prop :=
  ∀ pass, StaysInRound setup (script.turns pass)

theorem waiting_compactHistory :
    Triple (Waiting history sent) (compactHistory setup script split)
      (Settled setup (AllStay setup script) split history sent)
      (fun _ => Undisturbed history) := by
  refine .bind (waiting_foldHistory setup script split) fun folding => ?_
  cases folding with
  | nothingToCompact => exact .pure fun _ undisturbed => undisturbed.history_eq
  | folded summary tokensBefore usage =>
    refine .exists_pre fun measured => .exists_pre fun windows => .exists_pre fun passes =>
      .of_imp fun isMeasured => .of_imp fun isWindows => .of_imp fun few => ?_
    refine .known (fun _ done => done.folds) fun folds =>
      .known (fun _ done => done.stays) fun stays =>
        .weaken ?_ (fun _ done => done.waiting) (fun _ _ holds => holds) fun _ _ kept => kept
    refine .via (fun _ => Waiting history (sent ++ passes.flatMap Pass.requests))
      (.select fun _ waiting => waiting) fun session => ?_
    refine .bind (waiting_hostRuns script.projecting) fun _ =>
      .bind (undisturbed_of_preserves waiting_checkCancelled) fun _ =>
        .bind (waiting_installSummary script split.kept _) fun _ =>
          .pure fun state waiting => ?_
    exact ⟨measured, windows, passes, isMeasured, isWindows, folds, few, waiting.sent_eq,
      fun stay => folds.allFit (stays stay), waiting.history_eq⟩

/-- The result of a compaction that has not compacted. -/
def Kept (history : SessionHistory) : CompactionResult → CompactionState → Prop
  | .compacted _, _ => False
  | _, state => state.session.history = history

theorem undisturbed_settleObserver (original : Thrown) :
    Triple (Undisturbed history) (settleObserver setup original)
      (Kept history) (fun _ state => state.session.history = history) := by
  unfold settleObserver
  split
  · exact .pure fun _ undisturbed => undisturbed.history_eq
  · exact .refuse fun _ undisturbed => undisturbed.history_eq

theorem undisturbed_classifyFailure (thrown : Thrown) (cancelled opened : Bool) :
    Triple (Undisturbed history) (classifyFailure setup thrown cancelled opened)
      (Kept history) (fun _ state => state.session.history = history) := by
  unfold classifyFailure
  split
  · exact undisturbed_settleObserver setup _
  · split
    · exact .pure fun _ undisturbed => undisturbed.history_eq
    · split
      · exact .pure fun _ undisturbed => undisturbed.history_eq
      · split
        · exact .pure fun _ undisturbed => undisturbed.history_eq
        · exact .refuse fun _ undisturbed => undisturbed.history_eq

/-- The settlement of a failure keeps the history, whatever the sink does. -/
theorem undisturbed_settleFailure (thrown : Thrown) :
    Triple (Undisturbed history) (settleFailure setup script thrown)
      (Kept history) (fun _ state => state.session.history = history) := by
  refine .via (fun _ => Undisturbed history) (.select fun _ undisturbed => undisturbed)
    fun state => ?_
  dsimp only
  split
  · refine .via (fun _ => Undisturbed history)
      (.update fun _ undisturbed => ⟨undisturbed.engaged, undisturbed.history_eq⟩) fun _ => ?_
    refine .bind (undisturbed_hostRuns script.refusing.calls) fun _ => ?_
    split
    · exact undisturbed_settleObserver setup _
    · exact undisturbed_classifyFailure setup thrown _ _
  · exact undisturbed_classifyFailure setup thrown _ _

end Settle

end Compacting

/-- What a compaction of a session has done when it gives a result: everything that is
foldable is folded once, or the history is as it was. -/
def Concluded (setup : CompactionSetup) (tested : Prop) (session : AgentSession)
    (sent : List PreparedRequest) : CompactionResult → CompactionState → Prop
  | .compacted data, after =>
    ∃ split, session.splitFoldable = some split ∧
      session.history.messages = split.foldable ++ split.kept ∧
      Replaced setup tested split session.history sent data.summary after
  | _, after => after.session.history = session.history

/-- A compaction folds everything once or changes nothing of the history. -/
structure FoldsOrKeeps (setup : CompactionSetup) (tested : Prop) (before : CompactionState)
    (ended : Except Thrown CompactionResult × CompactionState) : Prop where
  of_result : ∀ result, ended.1 = .ok result →
    Concluded setup tested before.session before.sent result ended.2
  of_throw : ∀ thrown, ended.1 = .error thrown →
    ended.2.session.history = before.session.history

/-- The two parts of a split are the transcript. -/
theorem AgentSession.splitFoldable_append
    {session : AgentSession} {split : FoldableSplit}
    (isSplit : session.splitFoldable = some split) :
    session.history.messages = split.foldable ++ split.kept := by
  unfold AgentSession.splitFoldable at isSplit
  split at isSplit
  · cases isSplit
  · cases isSplit
  · cases isSplit
    exact (List.take_append_drop _ _).symm

namespace Concluded

variable
  {setup : CompactionSetup}
  {tested : Prop}
  {session : AgentSession}
  {sent : List PreparedRequest}
  {result : CompactionResult}
  {state : CompactionState}

theorem of_settled
    {split : FoldableSplit} (isSplit : session.splitFoldable = some split)
    (settled : Settled setup tested split session.history sent result state) :
    Concluded setup tested session sent result state := by
  cases result with
  | compacted data => exact ⟨split, isSplit, session.splitFoldable_append isSplit, settled⟩
  | _ => exact settled

theorem of_begun
    {begun : AgentSession} (inOperation : begun.InOperation session)
    (concluded : Concluded setup tested session sent result state) :
    Concluded setup tested begun sent result state := by
  cases result with
  | compacted data =>
    obtain ⟨split, isSplit, isParts, replaced⟩ := concluded
    rw [inOperation.splitFoldable] at isSplit
    rw [inOperation.history_eq] at isParts replaced
    exact ⟨split, isSplit, isParts, replaced⟩
  | _ => exact Eq.trans concluded inOperation.history_eq

theorem of_kept (kept : Compacting.Kept session.history result state) :
    Concluded setup tested session sent result state := by
  cases result with
  | compacted data => exact kept.elim
  | _ => exact kept

end Concluded

namespace Compacting

variable
  (setup : CompactionSetup)
  (script : CompactionScript)

/-- `#compactInner` in an operation folds everything once, or keeps the history. -/
theorem compactInner_concluded
    {session : AgentSession} (engaged : session.status = .running ∨ session.status = .cancelled)
    (sent : List PreparedRequest) :
    Triple (fun state => state.session = session ∧ state.sent = sent) (compactInner setup script)
      (Concluded setup (AllStay setup script) session sent)
      (fun _ state => state.session.history = session.history) := by
  refine .via (fun given state => given = session ∧ state.session = session ∧ state.sent = sent)
    (.select fun _ holds => ⟨holds.1, holds⟩) fun given => .of_imp fun isGiven => ?_
  subst isGiven
  have unchanged (state : CompactionState) (holds : state.session = given ∧ state.sent = sent) :
      state.session.history = given.history :=
    congrArg AgentSession.history holds.1
  cases isRefused : given.compactionRefusal with
  | some memory => exact .pure unchanged
  | none =>
    cases isSplit : given.splitFoldable with
    | none => exact .pure unchanged
    | some split =>
      cases isPlan : setup.planFailure with
      | some message => exact .pure unchanged
      | none =>
        refine .via (fun _ => Waiting given.history sent)
          (.update fun state holds =>
            ⟨⟨by rw [holds.1]; exact engaged, unchanged state holds⟩, holds.2⟩) fun _ => ?_
        refine .tryCatch
          ((waiting_compactHistory setup script split).weaken (fun _ waiting => waiting)
            (fun _ _ settled => .of_settled isSplit settled)
            fun _ _ kept => kept)
          fun thrown => ?_
        exact (undisturbed_settleFailure setup script thrown).weaken
          (fun _ undisturbed => undisturbed) (fun _ _ kept => .of_kept kept)
          fun _ _ kept => kept

/-- Releasing the controller leaves the history and what was sent alone. -/
theorem release_concluded
    {tested : Prop} {session : AgentSession} {sent : List PreparedRequest}
    {result : CompactionResult} {state : CompactionState}
    (concluded : Concluded setup tested session sent result state) :
    Concluded setup tested session sent result (releaseTurnController state) := by
  cases result with
  | compacted data =>
    obtain ⟨split, isSplit, isParts, replaced⟩ := concluded
    exact ⟨split, isSplit, isParts, replaced⟩
  | _ => exact concluded

theorem inOperation_armTurnController
    {session : AgentSession} {sent : List PreparedRequest} (arming : HostMove) :
    Triple (fun state => state.session = session ∧ state.sent = sent) (armTurnController arming)
      (fun _ state => session.InOperation state.session ∧ state.sent = sent)
      (fun _ state => state.session.history = session.history) := by
  refine .via (fun _ state => session.InOperation state.session ∧ state.sent = sent)
    (.update fun state holds => ?_) fun _ => ?_
  · obtain ⟨rfl, rfl⟩ := holds
    exact ⟨⟨.inl rfl, rfl, rfl⟩, rfl⟩
  have armed : Triple (fun state => session.InOperation state.session ∧ state.sent = sent)
      (hostMoves arming)
      (fun _ state => session.InOperation state.session ∧ state.sent = sent)
      (fun _ state => session.InOperation state.session) := by
    refine .via (fun _ state => session.InOperation state.session ∧ state.sent = sent)
      (.update fun state holds => ⟨holds.1.calls arming.calls, holds.2⟩) fun _ => ?_
    cases arming.thrown with
    | none => exact .pure fun _ holds => holds
    | some thrown => exact .refuse fun _ holds => holds.1
  refine .bind (.tryCatch armed fun thrown => ?_) fun _ => ?_
  · exact .via (fun _ state => state.session.history = session.history)
      (.update fun _ holds => holds.history_eq) fun _ => .refuse fun _ kept => kept
  · exact .update fun _ holds =>
      ⟨⟨holds.1.engaged, holds.1.history_eq, holds.1.pendingUser_eq⟩, holds.2⟩

/-- After the lookup of the providers an idle session is as it was, or cancelled. -/
theorem resolved_resolvePlan
    {session : AgentSession} {sent : List PreparedRequest} (lookup : ProviderLookup) :
    Triple (fun state => state.session = session ∧ state.sent = sent) (resolvePlan lookup)
      (fun _ state => (state.session = session ∨ state.session.status = .cancelled ∧
        state.session.history = session.history) ∧ state.sent = sent)
      (fun _ state => state.session.history = session.history) := by
  refine .via (fun _ state => (state.session = session ∨ state.session.status = .cancelled ∧
    state.session.history = session.history) ∧ state.sent = sent)
    (.update fun state holds => ⟨?_, holds.2⟩) fun _ => ?_
  · obtain ⟨rfl, -⟩ := holds
    cases lookup.cancels with
    | false => exact .inl rfl
    | true =>
      right
      by_cases wasCancelled : state.session.status = .cancelled
      · simp [AgentSession.call, wasCancelled]
      · simp [AgentSession.call, wasCancelled]
  · cases lookup.thrown with
    | none => exact .pure fun _ holds => holds
    | some thrown =>
      exact .refuse fun _ holds => holds.1.elim (congrArg AgentSession.history) And.right

/-- `compact` folds everything once, or keeps the history. -/
theorem compact_concluded (session : AgentSession) (sent : List PreparedRequest) :
    Triple (fun state => state.session = session ∧ state.sent = sent) (compact setup script)
      (Concluded setup (AllStay setup script) session sent)
      (fun _ state => state.session.history = session.history) := by
  have unchanged (state : CompactionState) (holds : state.session = session ∧ state.sent = sent) :
      state.session.history = session.history :=
    congrArg AgentSession.history holds.1
  refine .via (fun given state => given = session ∧ state.session = session ∧ state.sent = sent)
    (.select fun _ holds => ⟨holds.1, holds⟩) fun given => .of_imp fun isGiven => ?_
  subst isGiven
  refine .via (fun _ state => state.session = given ∧ state.sent = sent)
    (.require (fun _ holds _ => holds) unchanged) fun _ => ?_
  cases isRefused : given.compactionRefusal with
  | some memory => exact .pure unchanged
  | none =>
    cases isSplit : given.splitFoldable with
    | none => exact .pure unchanged
    | some split =>
      refine .bind (resolved_resolvePlan script.resolving) fun _ => ?_
      refine .via (fun resolved state => resolved = state.session ∧
        (state.session = given ∨ state.session.status = .cancelled ∧
          state.session.history = given.history) ∧ state.sent = sent)
        (.select fun _ holds => ⟨rfl, holds⟩) fun resolved => ?_
      split
      · refine .pure fun state holds => ?_
        exact holds.2.1.elim (congrArg AgentSession.history) And.right
      rename_i notCancelled
      refine .via (fun _ state => state.session = given ∧ state.sent = sent)
        (.require (fun state holds _ => ⟨?_, holds.2.2⟩) fun _ holds =>
          holds.2.1.elim (congrArg AgentSession.history) And.right) fun _ => ?_
      · obtain ⟨rfl, same | ⟨cancelled, -⟩, -⟩ := holds
        · exact same
        · exact absurd cancelled notCancelled
      cases isPlan : setup.planFailure with
      | some message => exact .pure unchanged
      | none =>
        refine .bind (inOperation_armTurnController script.arming) fun _ =>
          .ensuring ?_
        intro before holds
        have inner := compactInner_concluded setup script holds.1.engaged sent before
          ⟨rfl, holds.2⟩
        cases ran : compactInner setup script before with
        | mk outcome after =>
          rw [ran] at inner
          cases outcome with
          | ok result => exact release_concluded setup (inner.of_begun holds.1)
          | error thrown => exact inner.trans holds.1.history_eq

end Compacting

/-- Less of the requests may be promised. -/
theorem Concluded.mono
    {setup : CompactionSetup} {tested tested' : Prop} {session : AgentSession}
    {sent : List PreparedRequest} {result : CompactionResult} {state : CompactionState}
    (concluded : Concluded setup tested session sent result state) (weaker : tested' → tested) :
    Concluded setup tested' session sent result state := by
  cases result with
  | compacted data =>
    obtain ⟨split, isSplit, isParts, measured, windows, passes, isMeasured, isWindows,
      isFolded, few, isSent, fits, replaced⟩ := concluded
    exact ⟨split, isSplit, isParts, measured, windows, passes, isMeasured, isWindows,
      isFolded, few, isSent, fun holds => fits (weaker holds), replaced⟩
  | _ => exact concluded

theorem FoldsOrKeeps.mono
    {setup : CompactionSetup} {tested tested' : Prop} {before : CompactionState}
    {ended : Except Thrown CompactionResult × CompactionState}
    (folds : FoldsOrKeeps setup tested before ended) (weaker : tested' → tested) :
    FoldsOrKeeps setup tested' before ended where
  of_result := fun result isResult => (folds.of_result result isResult).mono weaker
  of_throw := folds.of_throw

theorem FoldsOrKeeps.of_triple
    {setup : CompactionSetup} {tested : Prop} {before : CompactionState}
    {compaction : Compacting CompactionResult}
    (triple : Triple
      (fun state => state.session = before.session ∧ state.sent = before.sent) compaction
      (Concluded setup tested before.session before.sent)
      (fun _ state => state.session.history = before.session.history)) :
    FoldsOrKeeps setup tested before (compaction before) where
  of_result := fun _ isResult => triple.of_ok ⟨rfl, rfl⟩ (Prod.ext isResult rfl)
  of_throw := fun _ isThrown => triple.of_error ⟨rfl, rfl⟩ (Prod.ext isThrown rfl)

section Runs

variable
  (setup : CompactionSetup)
  (script : CompactionScript)
  (before : CompactionState)

/-- Whatever happens, an idle compaction folds everything once or keeps the history; the
requests fit if every turn stays in its first round. -/
theorem compact_foldsOrKeeps :
    FoldsOrKeeps setup (Compacting.AllStay setup script) before (compact setup script before) :=
  .of_triple (Compacting.compact_concluded setup script before.session before.sent)

/-- So does a compaction within a turn. -/
theorem compactInner_foldsOrKeeps
    (engaged : before.session.status = .running ∨ before.session.status = .cancelled) :
    FoldsOrKeeps setup (Compacting.AllStay setup script) before
      (compactInner setup script before) :=
  .of_triple (Compacting.compactInner_concluded setup script engaged before.sent)

/-- When the turn of every pass stays in its first round, a compaction folds everything
once with requests that all fit, or changes nothing of the history. -/
theorem compaction_folds_once_or_keeps (stays : Compacting.AllStay setup script) :
    FoldsOrKeeps setup True before (compact setup script before) ∧
      (before.session.status = .running ∨ before.session.status = .cancelled →
        FoldsOrKeeps setup True before (compactInner setup script before)) :=
  ⟨(compact_foldsOrKeeps setup script before).mono fun _ => stays,
    fun engaged => (compactInner_foldsOrKeeps setup script before engaged).mono fun _ => stays⟩

end Runs

/-! ## A tool call that was not offered -/

namespace UnofferedCall

/-- A text message, held as an object. -/
def held (reference : Nat) (role : LlmRole) (text : String) : HeldMessage where
  reference
  message := { role, content := [.text (jsText text)] }

/-- The only entry of the plan, whose window holds the first request exactly. -/
def entry : FallbackPlanEntry where
  identity := 0
  customEndpoint := false
  contextLimit := .answers (some (.integer 4236))

theorem systemTokens_eq : tokensOfLength compactionSystemPrompt.length = 126 := by
  have lengths : compactionSystemPromptLines.map (fun line => (jsText line).length) =
      [103, 103, 103, 105, 87] := by
    simp only [compactionSystemPromptLines, List.map_cons, List.map_nil]
    rw [length_jsText_ofList, length_jsText_ofList, length_jsText_ofList,
      length_jsText_ofList, length_jsText_ofList]
    rfl
  have total : compactionSystemPrompt.length = [103, 103, 103, 105, 87].sum := by
    rw [compactionSystemPrompt, List.length_flatten, List.map_map, ← lengths]
    rfl
  rw [total]
  rfl

def setup : CompactionSetup where
  reason := .manual
  active := false
  planFailure := none
  factory := {
    configuredFallback := none
    exoticText := none
    systemTokens := 126
    systemTokens_eq := systemTokens_eq.symm
    attemptable := fun _ => .ok [entry]
    outputCapPlan := fun _ _ => .ok { effectiveCap := some 4096, outputCeiling := none }
  }
  nodeId := jsText "assistant"
  registeredTools := [jsText "read_file"]
  maxToolTurns := 16
  maxToolCorrections := 3
  estimateTokens := fun history _ => history.messages.length

/-- An attempt at which nothing but the provider acts. -/
def attempt : Attempt where
  joined := .quiet
  admitted := .quiet
  opening := .quiet
  disclosed := .quiet
  sends := true
  engaged := []

/-- The summary that the provider gives. -/
def summary : TurnScript :=
  .answers [attempt] .quiet (jsText "Notes.") { input := 20, output := 5, unknownCalls := 0 }

/-- The provider calls a tool that does not exist before it gives the summary. -/
def call : TurnScript :=
  .callsTools [attempt] [.toolCall (jsText "call-1") (jsText "search") (.object []) none none]
    .quiet (fun _ => []) summary

def script (turn : TurnScript) : CompactionScript where
  resolving := { cancels := false, thrown := none }
  arming := .quiet
  measuring := []
  estimating := []
  preparing := fun _ => []
  turns := fun _ => turn
  projecting := []
  accepting := .quiet
  settling := []
  refusing := .quiet

/-- Two exchanges, of which one is foldable. -/
def before (status : SessionStatus) : CompactionState where
  session := {
    history := {
      messages := [held 0 .user "a", held 1 .assistant "b", held 2 .user "c",
        held 3 .assistant "d"]
      completedTurnSpans := [{ start := 0, stop := 2 }, { start := 2, stop := 4 }]
      compactionSummary := none
    }
    pendingUser := none
    memory := none
    status
    armed := true
    aborted := false
    abortingTurn := false
  }
  opened := false
  closed := false
  sent := []
  emitted := []

/-- The compaction gives a summary. -/
def isCompacted : Except Thrown CompactionResult → Bool
  | .ok (.compacted _) => true
  | _ => false

/-- Whether the requests that a compaction sent fit the windows of its plan. -/
def sentFits (ended : Except Thrown CompactionResult × CompactionState) :
    Option (List (Option Bool)) := do
  let measured ← (setup.factory.prepare (renderConversationToSummarise none [])).toOption
  let windows ← (compactionWindows measured).toOption
  pure (ended.2.sent.map fun request =>
    (compactionRequestFits setup.factory windows request).toOption)

end UnofferedCall

open UnofferedCall in
/-- A summary at once, idle and within a turn. -/
theorem compaction_folds_once_or_keeps_answered :
    isCompacted (compact setup (script summary) (before .idle)).1 = true ∧
      FoldsOrKeeps setup True (before .idle) (compact setup (script summary) (before .idle)) ∧
      FoldsOrKeeps setup True (before .running)
        (compactInner setup (script summary) (before .running)) :=
  ⟨by decide +kernel,
    (compaction_folds_once_or_keeps setup (script summary) (before .idle) fun _ => trivial).1,
    (compaction_folds_once_or_keeps setup (script summary) (before .running)
      fun _ => trivial).2 (.inl rfl)⟩

open UnofferedCall in
/-- After a call of an unknown tool the next request leaves without the fit test, and
it does not fit. -/
theorem compaction_sends_request_that_does_not_fit :
    ¬FoldsOrKeeps setup True (before .idle) (compact setup (script call) (before .idle)) := by
  have compacted : isCompacted (compact setup (script call) (before .idle)).1 = true := by
    decide +kernel
  have fits : sentFits (compact setup (script call) (before .idle)) =
      some [some true, some false] := by
    decide +kernel
  intro folds
  cases ran : compact setup (script call) (before .idle) with
  | mk outcome after =>
    rw [ran] at compacted fits folds
    cases outcome with
    | error thrown => cases compacted
    | ok result =>
      cases result with
      | compacted data =>
        obtain ⟨split, -, -, measured, windows, passes, isMeasured, isWindows, -, -,
          isSent, allFit, -⟩ := folds.of_result _ rfl
        have sentFit : after.sent.map (fun request =>
            (compactionRequestFits setup.factory windows request).toOption) =
              [some true, some false] := by
          simpa [sentFits, isMeasured, isWindows, Except.toOption] using fits
        have isLast : some false ∈ after.sent.map (fun request =>
            (compactionRequestFits setup.factory windows request).toOption) := by
          rw [sentFit]
          simp
        obtain ⟨request, wasSent, isFalse⟩ := List.mem_map.mp isLast
        rw [isSent] at wasSent
        obtain ⟨pass, member, isRequest⟩ := List.mem_flatMap.mp wasSent
        rw [allFit trivial pass member request isRequest] at isFalse
        cases isFalse
      | _ => cases compacted

end Relavium.Session
