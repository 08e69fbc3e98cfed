import Relavium.Budget.CostLedger
import Relavium.Library.Trace

/-!
# The chain of commitment writes

Model of `#persistCommitment` and `flushCommitments` in
`packages/core/src/engine/budget-governor.ts`.  Every commitment adds a link to
a promise chain.  A link hands its draft to the emit hook once the link before
it has resolved; when the write has settled, its catch clause records a failure
and its finally clause lowers the pending counter.
-/

namespace Relavium.Budget

open Library

/-- `CommitmentDurabilityError`. -/
structure CommitmentDurabilityError where
  nodeId : Option String
  deriving DecidableEq

/-- How far the first unresolved link has come. -/
inductive LinkStage
  | queued
  | emitting
  | written (acknowledged : Bool)
  | caught
  | released
  deriving DecidableEq

/-- The links ever chained, how many of them have resolved, and the stage of
the next.  The tail of the chain is the promise of the last link. -/
structure CommitmentChain where
  links : List CommitmentDraft
  resolved : Nat
  stage : LinkStage
  pendingCommitments : Nat
  commitmentFailure : Option CommitmentDurabilityError
  durabilityBroken : Bool

inductive WriteProgress
  | emitted (draft : CommitmentDraft)
  | wrote (draft : CommitmentDraft) (acknowledged : Bool)
  | progressed
  | unavailable
  deriving DecidableEq

inductive FlushProgress
  | blocked
  /-- A later link was chained meanwhile. -/
  | rejoined (observedTail : Nat)
  | returned
  | threw (failure : CommitmentDurabilityError)

namespace CommitmentChain

def fresh : CommitmentChain where
  links := []
  resolved := 0
  stage := .queued
  pendingCommitments := 0
  commitmentFailure := none
  durabilityBroken := false

/-- The promise that `#commitmentsInFlight` holds. -/
def commitmentsInFlight (chain : CommitmentChain) : Nat :=
  chain.links.length

def persistCommitment (chain : CommitmentChain)
    (draft : CommitmentDraft) : CommitmentChain :=
  { chain with
    links := chain.links ++ [draft]
    pendingCommitments := chain.pendingCommitments + 1 }

/-- The catch clause of a link. -/
def catchWrite (chain : CommitmentChain) (draft : CommitmentDraft)
    (acknowledged : Bool) : CommitmentChain :=
  if acknowledged then { chain with stage := .caught }
  else
    { chain with
      stage := .caught
      commitmentFailure :=
        chain.commitmentFailure.or (some { nodeId := draft.origin.nodeId })
      durabilityBroken := true }

/-- The next callback of the first unresolved link. -/
def advance (chain : CommitmentChain) : WriteProgress × CommitmentChain :=
  match chain.links[chain.resolved]? with
  | none => (.unavailable, chain)
  | some draft =>
    match chain.stage with
    | .queued => (.emitted draft, { chain with stage := .emitting })
    | .emitting => (.unavailable, chain)
    | .written acknowledged =>
      (.progressed, chain.catchWrite draft acknowledged)
    | .caught =>
      (.progressed,
        { chain with
          pendingCommitments := chain.pendingCommitments - 1
          stage := .released })
    | .released =>
      (.progressed,
        { chain with
          resolved := chain.resolved + 1
          stage := .queued })

/-- The emit hook settles. -/
def write (chain : CommitmentChain)
    (acknowledged : Bool) : WriteProgress × CommitmentChain :=
  match chain.links[chain.resolved]?, chain.stage with
  | some draft, .emitting =>
    (.wrote draft acknowledged, { chain with stage := .written acknowledged })
  | _, _ => (.unavailable, chain)

/-- A turn of `flushCommitments`, awaiting the tail it observed. -/
def flush (chain : CommitmentChain)
    (observedTail : Nat) : FlushProgress × CommitmentChain :=
  if chain.resolved < observedTail then (.blocked, chain)
  else if observedTail ≠ chain.commitmentsInFlight then
    (.rejoined chain.commitmentsInFlight, chain)
  else
    match chain.commitmentFailure with
    | none => (.returned, chain)
    | some failure => (.threw failure, { chain with commitmentFailure := none })

end CommitmentChain

/-! ## Runs of the chain -/

/-- What can be seen of the chain. -/
inductive ChainEvent
  | committed (draft : CommitmentDraft)
  | emitted (draft : CommitmentDraft)
  | wrote (draft : CommitmentDraft) (acknowledged : Bool)
  | progressed
  | flushed
  | flushThrew (failure : CommitmentDurabilityError)

inductive ChainStep :
    CommitmentChain → ChainEvent → CommitmentChain → Prop
  | committed (chain : CommitmentChain) (draft : CommitmentDraft) :
      ChainStep chain (.committed draft) (chain.persistCommitment draft)
  | emitted {chain next : CommitmentChain} {draft : CommitmentDraft} :
      chain.advance = (.emitted draft, next) →
      ChainStep chain (.emitted draft) next
  | progressed {chain next : CommitmentChain} :
      chain.advance = (.progressed, next) →
      ChainStep chain .progressed next
  | wrote {chain next : CommitmentChain} {draft : CommitmentDraft}
      {given acknowledged : Bool} :
      chain.write given = (.wrote draft acknowledged, next) →
      ChainStep chain (.wrote draft acknowledged) next
  | flushed {chain next : CommitmentChain} {observedTail : Nat} :
      chain.flush observedTail = (.returned, next) →
      ChainStep chain .flushed next
  | flushThrew {chain next : CommitmentChain} {observedTail : Nat}
      {failure : CommitmentDurabilityError} :
      chain.flush observedTail = (.threw failure, next) →
      ChainStep chain (.flushThrew failure) next

/-- What a callback of a link shows. -/
def WriteProgress.event : WriteProgress → Option ChainEvent
  | .emitted draft => some (.emitted draft)
  | .wrote draft acknowledged => some (.wrote draft acknowledged)
  | .progressed => some .progressed
  | .unavailable => none

/-- A callback of a link is a step, or does nothing. -/
theorem chainStep_of_advance
    {chain next : CommitmentChain} {progress : WriteProgress}
    (advanced : chain.advance = (progress, next)) :
    StepOrStay ChainStep progress.event chain next := by
  cases progress with
  | emitted draft => exact .emitted advanced
  | progressed => exact .progressed advanced
  | wrote draft acknowledged =>
    unfold CommitmentChain.advance at advanced
    split at advanced
    · simp at advanced
    · split at advanced <;> simp at advanced
  | unavailable =>
    unfold CommitmentChain.advance at advanced
    split at advanced
    · exact (Prod.mk.inj advanced).2.symm
    · split at advanced <;> simp at advanced
      exact advanced.symm

/-- A write is a step of the chain, or leaves it alone. -/
theorem chainStep_of_write
    {chain next : CommitmentChain} {given : Bool} {progress : WriteProgress}
    (written : chain.write given = (progress, next)) :
    StepOrStay ChainStep progress.event chain next := by
  have cases' := written
  unfold CommitmentChain.write at cases'
  split at cases'
  · obtain ⟨rfl, -⟩ := Prod.mk.inj cases'
    exact .wrote written
  · cases cases'
    rfl

/-- The commitments made, in order. -/
def committedIn (events : List ChainEvent) : List CommitmentDraft :=
  events.filterMap fun
    | .committed draft => some draft
    | _ => none

/-- The drafts handed to the emit hook, in order. -/
def emittedIn (events : List ChainEvent) : List CommitmentDraft :=
  events.filterMap fun
    | .emitted draft => some draft
    | _ => none

/-- The drafts whose write has settled, and whether it was acknowledged. -/
def wroteIn (events : List ChainEvent) : List (CommitmentDraft × Bool) :=
  events.filterMap fun
    | .wrote draft acknowledged => some (draft, acknowledged)
    | _ => none

/-- The drafts acknowledged so far. -/
def acknowledgedIn (events : List ChainEvent) : List CommitmentDraft :=
  ((wroteIn events).filter Prod.snd).map Prod.fst

/-- Whether some write has failed since the last flush that threw. -/
def failedSinceThrow (events : List ChainEvent) : Bool :=
  events.foldl
    (fun failed event =>
      match event with
      | .wrote _ false => true
      | .flushThrew _ => false
      | _ => failed)
    false

namespace CommitmentChain

/-- How many drafts have been handed to the emit hook. -/
def emittedCount (chain : CommitmentChain) : Nat :=
  match chain.stage with
  | .queued => chain.resolved
  | _ => chain.resolved + 1

/-- How many writes have settled. -/
def writtenCount (chain : CommitmentChain) : Nat :=
  match chain.stage with
  | .queued | .emitting => chain.resolved
  | _ => chain.resolved + 1

/-- A failed write whose catch clause has not run. -/
def uncaught (chain : CommitmentChain) : Bool :=
  match chain.stage with
  | .written false => true
  | _ => false

/-- The chain is what the events so far say. -/
structure Records (events : List ChainEvent)
    (chain : CommitmentChain) : Prop where
  resolvedLe : chain.resolved ≤ chain.links.length
  inProgress : chain.stage ≠ .queued → chain.resolved < chain.links.length
  committed : committedIn events = chain.links
  emitted : emittedIn events = chain.links.take chain.emittedCount
  wrote : (wroteIn events).map Prod.fst = chain.links.take chain.writtenCount
  failed : failedSinceThrow events = (chain.commitmentFailure.isSome || chain.uncaught)

theorem records_fresh : Records [] fresh where
  resolvedLe := le_refl 0
  inProgress := fun moved => absurd rfl moved
  committed := rfl
  emitted := rfl
  wrote := rfl
  failed := rfl

section Steps

variable (events : List ChainEvent) (event : ChainEvent)

theorem committedIn_snoc :
    committedIn (events ++ [event]) = committedIn events ++ committedIn [event] :=
  List.filterMap_append

theorem emittedIn_snoc :
    emittedIn (events ++ [event]) = emittedIn events ++ emittedIn [event] :=
  List.filterMap_append

theorem wroteIn_snoc :
    wroteIn (events ++ [event]) = wroteIn events ++ wroteIn [event] :=
  List.filterMap_append

/-- A failed write counts until a flush has thrown. -/
theorem failedSinceThrow_snoc :
    failedSinceThrow (events ++ [event]) =
      match event with
      | .wrote _ false => true
      | .flushThrew _ => false
      | _ => failedSinceThrow events := by
  unfold failedSinceThrow
  rw [List.foldl_append]
  rfl

variable {events event} {chain next : CommitmentChain}

/-- At most one draft is out and unsettled. -/
theorem Records.counts_le (records : Records events chain) :
    chain.emittedCount ≤ chain.links.length ∧
      chain.writtenCount ≤ chain.links.length := by
  have bound := records.resolvedLe
  have progress := records.inProgress
  unfold emittedCount writtenCount
  cases stage : chain.stage with
  | queued => exact ⟨bound, bound⟩
  | emitting => exact ⟨progress (by simp [stage]), bound⟩
  | written | caught | released => exact ⟨progress (by simp [stage]), progress (by simp [stage])⟩

/-- A commitment joins the chain as its last link. -/
theorem Records.persist (records : Records events chain) (draft : CommitmentDraft) :
    Records (events ++ [.committed draft]) (chain.persistCommitment draft) where
  resolvedLe := by
    have bound := records.resolvedLe
    simp only [persistCommitment, List.length_append, List.length_singleton]
    omega
  inProgress := by
    intro moved
    have bound := records.inProgress moved
    simp only [persistCommitment, List.length_append, List.length_singleton]
    omega
  committed := by
    rw [committedIn_snoc, records.committed]
    rfl
  emitted := by
    rw [emittedIn_snoc, records.emitted]
    exact (List.append_nil _).trans (List.take_append_of_le_length records.counts_le.1).symm
  wrote := by
    rw [wroteIn_snoc, List.map_append, records.wrote]
    exact (List.append_nil _).trans (List.take_append_of_le_length records.counts_le.2).symm
  failed := by
    rw [failedSinceThrow_snoc]
    exact records.failed

variable {draft : CommitmentDraft} {observedTail : Nat}

/-- The first unresolved link moves on, and the events tell how. -/
theorem Records.move
    (records : Records events chain) (link : chain.links[chain.resolved]? = some draft)
    (sameLinks : next.links = chain.links) (resolvedLe : next.resolved ≤ chain.links.length)
    (inProgress : next.stage ≠ .queued → next.resolved < chain.links.length)
    (uncommitted : committedIn [event] = [])
    (emits : emittedIn [event] = [] ∧ next.emittedCount = chain.emittedCount ∨
      emittedIn [event] = [draft] ∧ chain.emittedCount = chain.resolved ∧
        next.emittedCount = chain.resolved + 1)
    (writes : wroteIn [event] = [] ∧ next.writtenCount = chain.writtenCount ∨
      (wroteIn [event]).map Prod.fst = [draft] ∧
        chain.writtenCount = chain.resolved ∧
        next.writtenCount = chain.resolved + 1)
    (failed : failedSinceThrow (events ++ [event]) =
      (next.commitmentFailure.isSome || next.uncaught)) :
    Records (events ++ [event]) next where
  resolvedLe := by
    rw [sameLinks]
    exact resolvedLe
  inProgress := by
    rw [sameLinks]
    exact inProgress
  committed := by
    rw [committedIn_snoc, uncommitted, List.append_nil, sameLinks]
    exact records.committed
  emitted := by
    rw [emittedIn_snoc, records.emitted, sameLinks]
    rcases emits with ⟨quiet, same⟩ | ⟨emitted, before, after⟩
    · rw [quiet, same, List.append_nil]
    · rw [emitted, before, after, List.take_add_one, link]
      rfl
  wrote := by
    rw [wroteIn_snoc, List.map_append, records.wrote, sameLinks]
    rcases writes with ⟨quiet, same⟩ | ⟨wrote, before, after⟩
    · rw [quiet, same, List.map_nil, List.append_nil]
    · rw [wrote, before, after, List.take_add_one, link]
      rfl
  failed := failed

/-- Advancing emits the warning of the next link, or passes over a link without one. -/
theorem Records.advance
    (records : Records events chain) {progress : WriteProgress}
    (advanced : chain.advance = (progress, next)) :
    (∀ draft, progress = .emitted draft →
      Records (events ++ [.emitted draft]) next) ∧
    (progress = .progressed → Records (events ++ [.progressed]) next) := by
  have failedBefore := records.failed
  unfold CommitmentChain.advance at advanced
  cases link : chain.links[chain.resolved]? with
  | none =>
    simp only [link, Prod.mk.injEq] at advanced
    obtain ⟨rfl, rfl⟩ := advanced
    simp
  | some draft =>
    have within : chain.resolved < chain.links.length :=
      (List.getElem?_eq_some_iff.mp link).1
    simp only [link] at advanced
    cases stage : chain.stage with
    | queued =>
      simp only [stage, Prod.mk.injEq] at advanced
      obtain ⟨rfl, rfl⟩ := advanced
      refine ⟨?_, by simp⟩
      rintro _ ⟨⟩
      refine records.move link rfl within.le (fun _ => within) rfl
        (Or.inr ⟨rfl, by simp [emittedCount, stage], rfl⟩)
        (Or.inl ⟨rfl, by simp [writtenCount, stage]⟩) ?_
      rw [failedSinceThrow_snoc, failedBefore]
      simp [uncaught, stage]
    | emitting =>
      simp only [stage, Prod.mk.injEq] at advanced
      obtain ⟨rfl, rfl⟩ := advanced
      simp
    | written acknowledged =>
      simp only [stage, Prod.mk.injEq] at advanced
      obtain ⟨rfl, rfl⟩ := advanced
      refine ⟨by simp, fun _ => ?_⟩
      cases acknowledged with
      | true | false =>
        refine records.move link rfl within.le (fun _ => within) rfl
          (Or.inl ⟨rfl, by simp [emittedCount, stage, catchWrite]⟩)
          (Or.inl ⟨rfl, by simp [writtenCount, stage, catchWrite]⟩) ?_
        rw [failedSinceThrow_snoc, failedBefore]
        simp [uncaught, stage, catchWrite]
    | caught =>
      simp only [stage, Prod.mk.injEq] at advanced
      obtain ⟨rfl, rfl⟩ := advanced
      refine ⟨by simp, fun _ => ?_⟩
      refine records.move link rfl within.le (fun _ => within) rfl
        (Or.inl ⟨rfl, by simp [emittedCount, stage]⟩)
        (Or.inl ⟨rfl, by simp [writtenCount, stage]⟩) ?_
      rw [failedSinceThrow_snoc, failedBefore]
      simp [uncaught, stage]
    | released =>
      simp only [stage, Prod.mk.injEq] at advanced
      obtain ⟨rfl, rfl⟩ := advanced
      refine ⟨by simp, fun _ => ?_⟩
      refine records.move link rfl within (fun moved => absurd rfl moved) rfl
        (Or.inl ⟨rfl, by simp [emittedCount, stage]⟩)
        (Or.inl ⟨rfl, by simp [writtenCount, stage]⟩) ?_
      rw [failedSinceThrow_snoc, failedBefore]
      simp [uncaught, stage]

/-- The answer of the sink resolves the link that was emitted. -/
theorem Records.write
    (records : Records events chain) {given acknowledged : Bool}
    (written : chain.write given = (.wrote draft acknowledged, next)) :
    Records (events ++ [.wrote draft acknowledged]) next := by
  have failedBefore := records.failed
  unfold CommitmentChain.write at written
  split at written
  · rename_i link stage
    simp only [Prod.mk.injEq, WriteProgress.wrote.injEq] at written
    obtain ⟨⟨rfl, rfl⟩, rfl⟩ := written
    have within : chain.resolved < chain.links.length :=
      (List.getElem?_eq_some_iff.mp link).1
    refine records.move link rfl within.le (fun _ => within) rfl
      (Or.inl ⟨rfl, by simp [emittedCount, stage]⟩)
      (Or.inr ⟨rfl, by simp [writtenCount, stage], rfl⟩) ?_
    rw [failedSinceThrow_snoc]
    cases given with
    | true => simp [failedBefore, uncaught, stage]
    | false => simp [uncaught]
  · simp at written

/-- A flush that gets through has every link of the chain resolved. -/
theorem resolved_of_flush
    (records : Records events chain) (through : ¬chain.resolved < observedTail)
    (isTail : observedTail = chain.commitmentsInFlight) :
    chain.resolved = chain.links.length ∧ chain.stage = .queued := by
  have bound := records.resolvedLe
  unfold commitmentsInFlight at isTail
  have all : chain.resolved = chain.links.length := by omega
  refine ⟨all, ?_⟩
  by_contra moved
  have progress := records.inProgress moved
  omega

/-- What a flush that finishes sees: no write is out, and it throws exactly if
one has failed since the last flush that threw. -/
theorem flush_finishes
    (records : Records events chain) {progress : FlushProgress}
    (flushed : chain.flush observedTail = (progress, next))
    (finishes : progress = .returned ∨ ∃ failure, progress = .threw failure) :
    (wroteIn events).map Prod.fst = chain.links ∧
      (progress = .returned ↔ failedSinceThrow events = false) ∧
      chain.stage = .queued ∧
      next = { chain with commitmentFailure := none } := by
  unfold CommitmentChain.flush at flushed
  split at flushed
  · cases flushed
    simp at finishes
  · rename_i through
    split at flushed
    · cases flushed
      simp at finishes
    · rename_i isTail
      obtain ⟨all, stage⟩ := resolved_of_flush records through (not_not.mp isTail)
      have wrote := records.wrote
      have failed := records.failed
      simp only [writtenCount, stage, all, List.take_length] at wrote
      refine ⟨wrote, ?_⟩
      cases failure : chain.commitmentFailure with
      | none =>
        simp only [failure, Prod.mk.injEq] at flushed
        obtain ⟨rfl, rfl⟩ := flushed
        refine ⟨by simp [failed, failure, uncaught, stage], stage, ?_⟩
        rw [← failure]
      | some failure' =>
        simp only [failure, Prod.mk.injEq] at flushed
        obtain ⟨rfl, rfl⟩ := flushed
        simp [failed, failure, uncaught, stage]

/-- A warning is emitted when every one before it has been answered. -/
theorem settled_of_emitted
    (records : Records events chain) (taken : ChainStep chain (.emitted draft) next) :
    (wroteIn events).map Prod.fst = emittedIn events := by
  cases taken with
  | emitted advanced =>
    have queued : chain.stage = .queued := by
      unfold CommitmentChain.advance at advanced
      split at advanced
      · simp at advanced
      · split at advanced
        · assumption
        all_goals simp at advanced
    rw [records.wrote, records.emitted]
    simp [writtenCount, emittedCount, queued]

/-- Where no write failed, the settled drafts were acknowledged. -/
theorem acknowledged_of_no_failure (noFailure : ∀ written ∈ wroteIn events, written.2 = true) :
    acknowledgedIn events = (wroteIn events).map Prod.fst := by
  unfold acknowledgedIn
  rw [List.filter_eq_self.mpr noFailure]

/-- A flush returns or throws without touching the links. -/
theorem Records.flush
    (records : Records events chain) {progress : FlushProgress}
    (flushed : chain.flush observedTail = (progress, next)) :
    (progress = .returned → Records (events ++ [.flushed]) next) ∧
    (∀ failure, progress = .threw failure →
      Records (events ++ [.flushThrew failure]) next) := by
  have keep {event : ChainEvent} (stage : chain.stage = .queued)
      (uncommitted : committedIn [event] = [])
      (unemitted : emittedIn [event] = [])
      (unwritten : wroteIn [event] = [])
      (failed : failedSinceThrow (events ++ [event]) = false) :
      Records (events ++ [event]) { chain with commitmentFailure := none } :=
    { resolvedLe := records.resolvedLe
      inProgress := records.inProgress
      committed := by
        rw [committedIn_snoc, uncommitted, List.append_nil]
        exact records.committed
      emitted := by
        rw [emittedIn_snoc, unemitted, List.append_nil]
        exact records.emitted
      wrote := by
        rw [wroteIn_snoc, unwritten, List.append_nil]
        exact records.wrote
      failed := by simp [failed, uncaught, stage] }
  constructor
  · rintro rfl
    obtain ⟨-, verdict, stage, rfl⟩ := flush_finishes records flushed (Or.inl rfl)
    refine keep stage rfl rfl rfl ?_
    rw [failedSinceThrow_snoc]
    exact verdict.mp rfl
  · rintro failure rfl
    obtain ⟨-, -, stage, rfl⟩ :=
      flush_finishes records flushed (Or.inr ⟨failure, rfl⟩)
    refine keep stage rfl rfl rfl ?_
    rw [failedSinceThrow_snoc]

/-- Every step of the chain keeps its records. -/
theorem Records.step (records : Records events chain) (taken : ChainStep chain event next) :
    Records (events ++ [event]) next := by
  cases taken with
  | committed draft => exact records.persist draft
  | emitted advanced => exact (records.advance advanced).1 _ rfl
  | progressed advanced => exact (records.advance advanced).2 rfl
  | wrote written => exact records.write written
  | flushed flushed => exact (records.flush flushed).1 rfl
  | flushThrew flushed => exact (records.flush flushed).2 _ rfl

/-- The chain agrees with its events along every run. -/
theorem records_of_run (run : Run ChainStep fresh events chain) :
    Records events chain :=
  run.invariant Records records_fresh fun _ _ _ _ _ records taken =>
    records.step taken

end Steps

end CommitmentChain

end Relavium.Budget
