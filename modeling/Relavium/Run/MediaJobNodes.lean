import Relavium.Run.MediaJobBooks

/-!
# Media jobs and their nodes

A node that waits on a media job waits on one job only: while a dispatch is
under way the node runs, and a node that was parked on a job runs no more.  So
what the pending map holds for the node of a job is that very job.
-/

namespace Relavium.Run
namespace MediaJobs

open Library

/-- The registration of the job began. -/
def Stage.Registered (stage : Stage) : Prop :=
  stage = .parked ∨ stage = .refused

namespace Engine

/-- The node is done for good. -/
def Settled (engine : Engine) (nodeId : JsString) : Prop :=
  engine.nodeSettled nodeId = true

/-- The node is parked on a media job, or done. -/
def Parked (engine : Engine) (nodeId : JsString) : Prop :=
  engine.states.get nodeId = some .paused ∧ nodeId ∉ engine.gated ∨
    engine.Settled nodeId

/-- Where the dispatches, the jobs and the polls of a run stand to its
nodes. -/
structure Nodes (engine : Engine) : Prop where
  running : ∀ (dispatch : Nat) (loop : DispatchLoop),
    engine.dispatches[dispatch]? = some loop → loop.phase ≠ .done →
    engine.states.get loop.nodeId = some .running ∨
      engine.Settled loop.nodeId
  alone : ∀ (first second : Nat) (loop other : DispatchLoop),
    engine.dispatches[first]? = some loop → loop.phase ≠ .done →
    engine.dispatches[second]? = some other → other.phase ≠ .done →
    loop.nodeId = other.nodeId →
    first = second ∨ engine.Settled loop.nodeId
  gated : ∀ nodeId ∈ engine.gated,
    engine.states.get nodeId = some .paused ∨ engine.Settled nodeId
  registered : ∀ (job : Nat) (record : MediaJob),
    engine.jobs[job]? = some record → record.stage.Registered →
    engine.Parked record.nodeId
  unique : ∀ (first second : Nat) (record other : MediaJob),
    engine.jobs[first]? = some record → record.stage = .parked →
    engine.jobs[second]? = some other → other.stage = .parked →
    record.nodeId = other.nodeId →
    first = second
  carried : ∀ (dispatch : Nat) (loop : DispatchLoop) (job : Nat),
    engine.dispatches[dispatch]? = some loop → loop.phase = .carrying job →
    ∃ record, engine.jobs[job]? = some record ∧ record.nodeId = loop.nodeId
  polled : ∀ job ∈ engine.polls, ∃ record,
    engine.jobs[job]? = some record ∧ record.stage = .parked

/-- A pending map gets no larger, and a run that ends empties it or owes a
sweep. -/
structure Drains (before after : Engine) : Prop where
  ends : after.settled = true → after.sweepDue = false →
    before.settled = true ∧ before.sweepDue = false ∨
      after.pendingMediaJobs = .empty
  emptied : before.pendingMediaJobs = .empty →
    after.pendingMediaJobs = .empty

namespace Drains

variable {before middle after : Engine}

theorem of_same
    (settled : after.settled = before.settled) (sweepDue : after.sweepDue = before.sweepDue)
    (pending : after.pendingMediaJobs = before.pendingMediaJobs) :
    Drains before after where
  ends ended due := .inl ⟨settled ▸ ended, sweepDue ▸ due⟩
  emptied empty := pending.trans empty

theorem trans (first : Drains before middle) (second : Drains middle after) :
    Drains before after where
  ends := by
    intro ended due
    rcases second.ends ended due with ⟨earlier, stillDue⟩ | empty
    · rcases first.ends earlier stillDue with origin | empty
      · exact .inl origin
      · exact .inr (second.emptied empty)
    · exact .inr empty
  emptied empty := second.emptied (first.emptied empty)

variable (engine : Engine)

theorem refl : Drains engine engine :=
  of_same rfl rfl rfl

theorem closeAttached (attached : Bool) (job : Nat) (how : Closing) :
    Drains engine (engine.closeAttached attached job how) := by
  unfold Engine.closeAttached Engine.closeAdmission
  split
  · split
    · exact refl engine
    · split
      · exact of_same rfl rfl rfl
      · exact refl engine
  · exact refl engine

theorem account
    (attached : Bool) (job costMicrocents : Nat) (priced sinkFails : Bool)
    (onSink : Engine → Engine) (sink : ∀ engine, Drains engine (onSink engine)) :
    Drains engine (engine.account attached job costMicrocents priced sinkFails
      onSink).2 := by
  have closes := closeAttached engine attached job
    (if priced then .settle costMicrocents else .settleAtReservedEstimate)
  have observed : ∀ (engine : Engine) (fact : Fact),
      Drains engine (engine.observe fact) := fun _ _ => of_same rfl rfl rfl
  have sunk := closes.trans ((observed _ (.addend job costMicrocents priced)).trans (sink _))
  unfold Engine.account
  dsimp only
  split
  · exact sunk.trans (closeAttached _ attached job .settleAtReservedEstimate)
  · exact sunk

theorem emit
    (onPrice onSink : Engine → Engine) (pricing : Pricing) (job : Nat)
    (price : ∀ engine, Drains engine (onPrice engine))
    (sink : ∀ engine, Drains engine (onSink engine)) :
    Drains engine (engine.emitMediaJobCost onPrice onSink pricing job).2 := by
  unfold Engine.emitMediaJobCost
  split
  · exact refl engine
  case h_2 record _ =>
    split
    · exact refl engine
    · have detached : Drains engine { engine.detach job with
          mediaAccountingDepth :=
            (engine.detach job).mediaAccountingDepth + 1 } :=
        of_same rfl rfl rfl
      have observed : ∀ (engine : Engine) (fact : Fact),
          Drains engine (engine.observe fact) := fun _ _ => of_same rfl rfl rfl
      have priced := detached.trans ((price _).trans (observed _ (.priced job pricing.answer)))
      have finished : ∀ (before after : Engine) (depth : Nat),
          Drains before after →
          Drains before { after with mediaAccountingDepth := depth } :=
        fun _ _ _ drains => drains.trans (of_same rfl rfl rfl)
      cases answer : pricing.answer with
      | priced costMicrocents =>
        rw [answer] at priced
        exact finished _ _ _ (priced.trans (account _ record.attached job
          costMicrocents true pricing.sinkFails onSink sink))
      | unpriced costMicrocents =>
        rw [answer] at priced
        exact finished _ _ _ (priced.trans (account _ record.attached job
          costMicrocents false pricing.sinkFails onSink sink))
      | fault =>
        rw [answer] at priced
        exact finished _ _ _ (priced.trans (closeAttached _ record.attached
          job .settleAtReservedEstimate))

theorem sweep (pricings : Nat → Pricing) :
    Drains engine (engine.sweep pricings) where
  ends _ _ := .inr rfl
  emptied _ := rfl

theorem settle (pricings : Nat → Pricing) :
    Drains engine (engine.settle pricings) := by
  unfold Engine.settle
  split
  · exact refl engine
  · dsimp only
    split
    · exact ⟨fun _ due => Bool.noConfusion due, id⟩
    · exact ⟨fun _ _ => .inr rfl, fun _ => rfl⟩

theorem enter (callback : Callback) :
    Drains engine (engine.enter callback) := by
  unfold Engine.enter
  split
  · exact refl engine
  · exact settle engine _

theorem clearMediaJob (nodeId : JsString) :
    Drains engine (engine.clearMediaJob nodeId) where
  ends ended due := .inl ⟨ended, due⟩
  emptied empty := by
    simp only [Engine.clearMediaJob, empty]
    rfl

end Drains

/-- Nothing is dispatched, parked or polled from one state to the other; nodes
may settle and jobs be dropped. -/
structure Follows (before after : Engine) : Prop where
  states : ∀ nodeId, after.states.get nodeId = before.states.get nodeId ∨
    after.Settled nodeId
  gated : after.gated = before.gated
  dispatches : ∀ (dispatch : Nat) (loop : DispatchLoop),
    after.dispatches[dispatch]? = some loop → loop.phase ≠ .done →
    before.dispatches[dispatch]? = some loop
  jobs : ∀ (job : Nat) (record : MediaJob),
    after.jobs[job]? = some record →
    ∃ given, before.jobs[job]? = some given ∧
      given.nodeId = record.nodeId ∧
      (record.stage = given.stage ∨ ¬record.stage.Registered)
  kept : ∀ (job : Nat) (given : MediaJob),
    before.jobs[job]? = some given →
    ∃ record, after.jobs[job]? = some record ∧
      record.nodeId = given.nodeId ∧
      (given.stage = .parked → record.stage = .parked)
  polls : ∀ job ∈ after.polls, job ∈ before.polls ∨
    ∃ given, before.jobs[job]? = some given ∧ given.stage = .parked
  depth : after.mediaAccountingDepth = before.mediaAccountingDepth
  drains : Drains before after

theorem nodeSettled_eq
    {engine : Engine} {nodeId : JsString} {status : VertexStatus}
    (known : engine.states.get nodeId = some status) :
    engine.nodeSettled nodeId = status.settled := by
  rw [nodeSettled, known]
  rfl

namespace Follows

variable {before middle after : Engine}

theorem settled
    (follows : Follows before after) {nodeId : JsString} (settled : before.Settled nodeId) :
    after.Settled nodeId := by
  rcases follows.states nodeId with same | now
  · unfold Settled nodeSettled at settled ⊢
    rw [same]
    exact settled
  · exact now

theorem status (follows : Follows before after) {nodeId : JsString} {status : VertexStatus}
    (known : before.states.get nodeId = some status ∨
      before.Settled nodeId) :
    after.states.get nodeId = some status ∨ after.Settled nodeId := by
  rcases known with known | settled
  · rcases follows.states nodeId with same | now
    · exact .inl (same.trans known)
    · exact .inr now
  · exact .inr (follows.settled settled)

theorem parked
    (follows : Follows before after) {nodeId : JsString} (parked : before.Parked nodeId) :
    after.Parked nodeId := by
  unfold Parked at parked ⊢
  rw [follows.gated]
  rcases parked with ⟨paused, ungated⟩ | settled
  · rcases follows.status (.inl paused) with paused | settled
    · exact .inl ⟨paused, ungated⟩
    · exact .inr settled
  · exact .inr (follows.settled settled)

theorem refl (engine : Engine) : Follows engine engine where
  states _ := .inl rfl
  gated := rfl
  dispatches _ _ found _ := found
  jobs _ record found := ⟨record, found, rfl, .inl rfl⟩
  kept _ given found := ⟨given, found, rfl, id⟩
  polls _ polled := .inl polled
  depth := rfl
  drains := .of_same rfl rfl rfl

theorem trans (first : Follows before middle) (second : Follows middle after) :
    Follows before after where
  states := by
    intro nodeId
    rcases second.states nodeId with same | settled
    · rcases first.states nodeId with also | settled
      · exact .inl (same.trans also)
      · exact .inr (second.settled settled)
    · exact .inr settled
  gated := second.gated.trans first.gated
  dispatches := by
    intro dispatch loop found undone
    exact first.dispatches dispatch loop (second.dispatches dispatch loop found undone) undone
  jobs := by
    intro job record found
    obtain ⟨next, there, sameNode, stage⟩ := second.jobs job record found
    obtain ⟨given, origin, alsoNode, earlier⟩ := first.jobs job next there
    refine ⟨given, origin, alsoNode.trans sameNode, ?_⟩
    rcases stage with same | unregistered
    · rw [same]
      exact earlier
    · exact .inr unregistered
  kept := by
    intro job given found
    obtain ⟨next, there, sameNode, stage⟩ := first.kept job given found
    obtain ⟨record, last, alsoNode, later⟩ := second.kept job next there
    exact ⟨record, last, alsoNode.trans sameNode, later ∘ stage⟩
  polls := by
    intro job polled
    rcases second.polls job polled with earlier | ⟨next, there, parked⟩
    · exact first.polls job earlier
    · obtain ⟨given, found, _, stage⟩ := first.jobs job next there
      rcases stage with same | unregistered
      · exact .inr ⟨given, found, same.symm.trans parked⟩
      · exact absurd (.inl parked) unregistered
  depth := second.depth.trans first.depth
  drains := first.drains.trans second.drains

/-- The invariant is kept. -/
theorem nodes (follows : Follows before after) (nodes : before.Nodes) :
    after.Nodes where
  running := by
    intro dispatch loop found undone
    exact follows.status (nodes.running dispatch loop
      (follows.dispatches dispatch loop found undone) undone)
  alone := by
    intro first second loop other found undone otherFound otherUndone sameNode
    rcases nodes.alone first second loop other (follows.dispatches first loop found undone) undone
        (follows.dispatches second other otherFound otherUndone) otherUndone
        sameNode with same | settled
    · exact .inl same
    · exact .inr (follows.settled settled)
  gated := by
    intro nodeId gated
    rw [follows.gated] at gated
    exact follows.status (nodes.gated nodeId gated)
  registered := by
    intro job record found registered
    obtain ⟨given, there, sameNode, stage⟩ := follows.jobs job record found
    rcases stage with same | unregistered
    · rw [← sameNode]
      exact follows.parked (nodes.registered job given there (same ▸ registered))
    · exact absurd registered unregistered
  unique := by
    intro first second record other found parked otherFound otherParked same
    obtain ⟨given, there, sameNode, stage⟩ := follows.jobs first record found
    obtain ⟨mate, mateThere, mateNode, mateStage⟩ :=
      follows.jobs second other otherFound
    have givenParked : given.stage = .parked := by
      rcases stage with same | unregistered
      · exact same.symm.trans parked
      · exact absurd (.inl parked) unregistered
    have mateParked : mate.stage = .parked := by
      rcases mateStage with same | unregistered
      · exact same.symm.trans otherParked
      · exact absurd (.inl otherParked) unregistered
    exact nodes.unique first second given mate there givenParked mateThere
      mateParked (sameNode.trans (same.trans mateNode.symm))
  carried := by
    intro dispatch loop job found carrying
    obtain ⟨given, there, sameNode⟩ := nodes.carried dispatch loop job
      (follows.dispatches dispatch loop found (by simp [carrying])) carrying
    obtain ⟨record, last, alsoNode, _⟩ := follows.kept job given there
    exact ⟨record, last, alsoNode.trans sameNode⟩
  polled := by
    intro job polled
    have parked : ∃ given, before.jobs[job]? = some given ∧
        given.stage = .parked := by
      rcases follows.polls job polled with earlier | parked
      · exact nodes.polled job earlier
      · exact parked
    obtain ⟨given, there, stage⟩ := parked
    obtain ⟨record, last, _, stays⟩ := follows.kept job given there
    exact ⟨record, last, stays stage⟩

theorem of_modify
    {job : Nat} {change : MediaJob → MediaJob} (jobs : after.jobs = before.jobs.modify job change)
    (sameNode : ∀ record, (change record).nodeId = record.nodeId)
    (sameStage : ∀ record, (change record).stage = record.stage)
    (states : after.states = before.states) (gated : after.gated = before.gated)
    (dispatches : after.dispatches = before.dispatches) (polls : after.polls = before.polls)
    (depth : after.mediaAccountingDepth = before.mediaAccountingDepth)
    (drains : Drains before after) :
    Follows before after where
  states nodeId := .inl (by rw [states])
  gated := gated
  dispatches dispatch loop found _ := by rwa [← dispatches]
  jobs := by
    intro other record found
    rw [jobs, List.getElem?_modify] at found
    obtain ⟨given, there, rfl⟩ := Option.map_eq_some_iff.mp found
    refine ⟨given, there, ?_, .inl ?_⟩ <;> split <;> simp [sameNode, sameStage]
  kept := by
    intro other given there
    refine ⟨if job = other then change given else given, ?_, ?_, ?_⟩
    · rw [jobs, List.getElem?_modify, there]
      split <;> rfl
    · split <;> simp [sameNode]
    · split <;> simp [sameStage]
  polls other polled := .inl (polls ▸ polled)
  depth := depth
  drains := drains

/-- Nothing these conditions read changes, but for statuses. -/
theorem of_states
    (states : ∀ nodeId, after.states.get nodeId = before.states.get nodeId ∨
      after.Settled nodeId)
    (gated : after.gated = before.gated)
    (dispatches : after.dispatches = before.dispatches)
    (jobs : after.jobs = before.jobs)
    (polls : ∀ job ∈ after.polls, job ∈ before.polls)
    (depth : after.mediaAccountingDepth = before.mediaAccountingDepth)
    (drains : Drains before after) :
    Follows before after where
  states := states
  gated := gated
  dispatches dispatch loop found _ := by rwa [← dispatches]
  jobs job record found := ⟨record, jobs ▸ found, rfl, .inl rfl⟩
  kept job given found := ⟨given, jobs ▸ found, rfl, id⟩
  polls job polled := .inl (polls job polled)
  depth := depth
  drains := drains

/-- Nothing these conditions read changes. -/
theorem of_same
    (states : after.states = before.states) (gated : after.gated = before.gated)
    (dispatches : after.dispatches = before.dispatches) (jobs : after.jobs = before.jobs)
    (polls : ∀ job ∈ after.polls, job ∈ before.polls)
    (depth : after.mediaAccountingDepth = before.mediaAccountingDepth)
    (drains : Drains before after) :
    Follows before after :=
  of_states (fun _ => .inl (by rw [states])) gated dispatches jobs polls depth
    drains

theorem of_accounts
    {answers : Nat → Option PriceAnswer} (accounts : Accounts answers before after)
    (drains : Drains before after) :
    Follows before after where
  states _ := by
    obtain ⟨_, _, _, _, _, _, frame⟩ := accounts.frame
    exact .inl (by rw [frame])
  gated := by
    obtain ⟨_, _, _, _, _, _, frame⟩ := accounts.frame
    rw [frame]
  dispatches _ _ found _ := by
    obtain ⟨_, _, _, _, _, _, frame⟩ := accounts.frame
    rwa [frame] at found
  jobs := by
    intro job record found
    rw [accounts.jobs] at found
    split at found
    · obtain ⟨given, there, rfl⟩ := Option.map_eq_some_iff.mp found
      exact ⟨given, there, by simp, .inl (by simp)⟩
    · exact ⟨record, found, rfl, .inl rfl⟩
  kept := by
    intro job given there
    rw [accounts.jobs, there]
    split
    · exact ⟨given.accounted, rfl, by simp, by simp⟩
    · exact ⟨given, rfl, rfl, id⟩
  polls _ polled := by
    obtain ⟨_, _, _, _, _, _, frame⟩ := accounts.frame
    rw [frame] at polled
    exact .inl polled
  depth := by
    obtain ⟨_, _, _, _, _, _, frame⟩ := accounts.frame
    rw [frame]
  drains := drains

end Follows

namespace Follows

variable (engine : Engine)

theorem setStatus (nodeId : JsString) (status : VertexStatus) (settled : status.settled = true) :
    Follows engine (engine.setStatus nodeId status) := by
  refine of_states ?_ rfl rfl rfl (fun _ polled => polled) rfl (.of_same rfl rfl rfl)
  intro other
  by_cases same : other = nodeId
  · right
    unfold Settled
    rw [nodeSettled_eq]
    · exact settled
    · simp [Engine.setStatus, same]
  · left
    simp [Engine.setStatus, OrderedMap.get_set_of_ne _ same]

theorem failNodeInternal (nodeId : JsString) :
    Follows engine (engine.failNodeInternal nodeId) := by
  have failed := setStatus engine nodeId .failed rfl
  unfold Engine.failNodeInternal
  dsimp only
  split <;> split
  · exact failed
  · exact failed.trans
      (of_same rfl rfl rfl rfl (fun _ polled => polled) rfl (.of_same rfl rfl rfl))
  · exact refl engine
  · exact of_same rfl rfl rfl rfl (fun _ polled => polled) rfl (.of_same rfl rfl rfl)

theorem failNode (nodeId : JsString) :
    Follows engine (engine.failNode nodeId) := by
  unfold Engine.failNode
  split
  · exact refl engine
  · exact (setStatus engine nodeId .failed rfl).trans
      (of_same rfl rfl rfl rfl (fun _ polled => polled) rfl (.of_same rfl rfl rfl))

theorem completeNode (nodeId : JsString) :
    Follows engine (engine.completeNode nodeId) := by
  unfold Engine.completeNode
  split
  · exact refl engine
  · exact setStatus engine nodeId .completed rfl

theorem settle (pricings : Nat → Pricing) :
    Follows engine (engine.settle pricings) := by
  unfold Engine.settle
  split
  · exact refl engine
  · dsimp only
    split
    · exact of_same rfl rfl rfl rfl (fun _ polled => polled) rfl
        ⟨fun _ due => Bool.noConfusion due, id⟩
    · exact of_accounts
        (Accounts.sweep { engine with settled := true, aborted := true }
          pricings).of_flags
        ⟨fun _ _ => .inr rfl, fun _ => rfl⟩

theorem enter (callback : Callback) :
    Follows engine (engine.enter callback) := by
  unfold Engine.enter
  split
  · exact refl engine
  · exact settle engine _

theorem closeAttached (attached : Bool) (job : Nat) (how : Closing) :
    Follows engine (engine.closeAttached attached job how) := by
  cases found : engine.jobs[job]? with
  | none =>
    have same : engine.closeAttached attached job how = engine := by
      unfold Engine.closeAttached Engine.closeAdmission
      simp [found]
    rw [same]
    exact refl engine
  | some record =>
    have drains := Drains.closeAttached engine attached job how
    rw [closeAttached_eq found] at drains ⊢
    exact of_modify rfl (·.close_nodeId attached) (·.close_stage attached)
      rfl rfl rfl rfl rfl drains

theorem pollBackstop (nodeId : JsString) (job : Nat) :
    Follows engine (engine.pollBackstop nodeId job) := by
  unfold Engine.pollBackstop
  split
  · exact refl engine
  · split
    · exact refl engine
    case h_2 record _ =>
      have detached : Follows engine (engine.detach job) :=
        of_modify rfl (fun _ => rfl) (fun _ => rfl) rfl rfl rfl rfl rfl (.of_same rfl rfl rfl)
      refine detached.trans ((closeAttached _ record.attached job
        .settleAtReservedEstimate).trans (.trans ?_ (failNodeInternal _ nodeId)))
      exact of_same rfl rfl rfl rfl (fun _ polled => polled) rfl (.clearMediaJob _ nodeId)

theorem clearAndEmit (settling : Settling) (nodeId : JsString) (job : Nat) :
    Follows engine (engine.clearAndEmit settling nodeId job).2 := by
  refine .trans ?_ (of_accounts (Accounts.emit (engine.clearMediaJob nodeId)
    _ _ settling.pricing job
    (fun _ accounting => enter_flagged accounting settling.pricingCalls)
    (fun _ accounting => enter_flagged accounting settling.sinkCalls))
    (.emit _ _ _ settling.pricing job (fun engine => .enter engine settling.pricingCalls)
      (fun engine => .enter engine settling.sinkCalls)))
  exact of_same rfl rfl rfl rfl (fun _ polled => polled) rfl (.clearMediaJob engine nodeId)

theorem settleMediaJobFailed (settling : Settling) (nodeId : JsString) (job : Nat) :
    Follows engine (engine.settleMediaJobFailed settling nodeId job).2 := by
  have emitted := clearAndEmit engine settling nodeId job
  unfold Engine.settleMediaJobFailed
  dsimp only
  split
  · exact emitted.trans (failNode _ nodeId)
  · exact emitted

theorem settleMediaJobDone (settling : Settling) (nodeId : JsString) (job : Nat) :
    Follows engine (engine.settleMediaJobDone settling nodeId job).2 := by
  have emitted := clearAndEmit engine settling nodeId job
  unfold Engine.settleMediaJobDone
  dsimp only
  split
  · exact emitted.trans (of_same rfl rfl rfl rfl (fun _ polled => polled) rfl
        (.of_same rfl rfl rfl))
  · exact emitted

theorem guarded
    {engine : Engine} {settlement : Bool × Engine} (follows : Follows engine settlement.2)
    (nodeId : JsString) (job : Nat) :
    Follows engine (Engine.guarded nodeId job settlement) := by
  unfold Engine.guarded
  split
  · exact follows
  · exact follows.trans (pollBackstop _ nodeId job)

theorem pollMediaJob
    {lossy : Prop} (books : engine.Books lossy) (clock : ClockRead) (canPoll opensDeadline : Bool)
    (settling : Settling) (nodeId : JsString) :
    Follows engine
      (engine.pollMediaJob clock canPoll opensDeadline settling nodeId) := by
  have entered := enter engine clock.callback
  unfold Engine.pollMediaJob
  split
  · exact refl engine
  case h_2 job held =>
    split
    · exact refl engine
    case h_2 record found =>
      split
      · exact refl engine
      dsimp only
      split
      · exact entered.trans (pollBackstop _ nodeId job)
      split
      · exact entered.trans (guarded (settleMediaJobFailed _ settling nodeId job) nodeId job)
      split
      · exact entered.trans (pollBackstop _ nodeId job)
      · refine ⟨entered.states, entered.gated, entered.dispatches,
          entered.jobs, entered.kept, ?_, entered.depth,
          entered.drains.trans (.of_same rfl rfl rfl)⟩
        intro other polled
        rcases List.mem_append.mp polled with earlier | new
        · exact entered.polls other earlier
        · obtain rfl : other = job := List.mem_singleton.mp new
          obtain ⟨given, there, sameNode⟩ := books.named nodeId other held
          have shape := books.shape other given there
          have isHeld : engine.holds other given = true := by
            simpa [holds, sameNode] using held
          rw [isHeld] at shape
          exact .inr ⟨given, there, shape.of_held.1⟩

theorem answerPoll
    (answer : PollAnswer) (timer : Callback) (arms : Bool) (settling : Settling) (job : Nat) :
    Follows engine (engine.answerPoll answer timer arms settling job) := by
  unfold Engine.answerPoll
  split
  · exact refl engine
  case h_2 record _ =>
    have failed := fun engine => guarded (settleMediaJobFailed engine settling record.nodeId job)
      record.nodeId job
    dsimp only
    split
    · exact refl engine
    split
    · have backedOff : Follows engine (engine.backOff job) :=
        of_modify rfl (fun _ => rfl) (fun _ => rfl) rfl rfl rfl rfl rfl (.of_same rfl rfl rfl)
      split
      · exact backedOff
      split
      · exact backedOff.trans (enter _ timer)
      · exact backedOff.trans ((enter _ timer).trans (failed _))
    · exact guarded (settleMediaJobDone engine settling record.nodeId job) record.nodeId job
    · exact failed engine

theorem expireDepartureMedia (settling : Settling) (job : Nat) :
    Follows engine (engine.expireDepartureMedia settling job) := by
  unfold Engine.expireDepartureMedia
  split
  · exact refl engine
  case h_2 record _ =>
    have failed := settleMediaJobFailed engine settling record.nodeId job
    split
    · exact refl engine
    dsimp only
    split
    · exact failed
    · exact failed.trans (of_same rfl rfl rfl rfl (fun _ polled => polled) rfl
        (.of_same rfl rfl rfl))

theorem publishJob (written : Bool) (timer : Callback) (arms : Bool) (job : Nat) :
    Follows engine (engine.publishJob written timer arms job) := by
  unfold Engine.publishJob
  split
  · exact refl engine
  case h_2 record _ =>
    split
    · exact failNodeInternal engine record.nodeId
    split
    · exact refl engine
    dsimp only
    split
    · exact enter engine timer
    · exact (enter engine timer).trans (failNodeInternal _ record.nodeId)

theorem pinJob (succeeded delivers : Bool) (job : Nat) :
    Follows engine (engine.pinJob succeeded delivers job) := by
  unfold Engine.pinJob
  split
  · exact refl engine
  case h_2 record _ =>
    have outcome : Follows engine (if succeeded then
        engine.completeNode record.nodeId
        else engine.failNode record.nodeId) := by
      split
      · exact completeNode engine record.nodeId
      · exact failNode engine record.nodeId
    split
    · exact refl engine
    dsimp only
    split
    · exact outcome
    · exact outcome.trans (failNodeInternal _ record.nodeId)

theorem onNodeDeadline (nodeId : JsString) :
    Follows engine (engine.onNodeDeadline nodeId) := by
  unfold Engine.onNodeDeadline
  split
  · exact refl engine
  · refine .trans ?_ (failNode _ nodeId)
    exact of_same rfl rfl rfl rfl (fun _ polled => polled) rfl (.of_same rfl rfl rfl)

theorem onGraceElapsed : Follows engine engine.onGraceElapsed := by
  unfold Engine.onGraceElapsed
  split
  · exact refl engine
  · refine of_states ?_ rfl rfl rfl (fun _ polled => polled) rfl (.of_same rfl rfl rfl)
    intro nodeId
    by_cases ran : engine.states.get nodeId = some .running
    · right
      unfold Settled nodeSettled
      simp [ran, VertexStatus.settled]
    · left
      simp only [OrderedMap.get_mapValues]
      cases known : engine.states.get nodeId with
      | none => rfl
      | some status =>
        have other : status ≠ .running := by
          rintro rfl
          exact ran known
        simp [other]

theorem settleFenced : Follows engine engine.settleFenced :=
  of_same rfl rfl rfl rfl (fun _ polled => polled) rfl ⟨fun _ _ => .inr rfl, fun _ => rfl⟩

theorem setPhase_done (dispatch : Nat) :
    Follows engine (engine.setPhase dispatch .done) where
  states _ := .inl rfl
  gated := rfl
  dispatches := by
    intro other loop found undone
    simp only [Engine.setPhase, List.getElem?_modify] at found
    obtain ⟨given, there, rfl⟩ := Option.map_eq_some_iff.mp found
    split at undone
    · exact absurd rfl undone
    case isFalse different => simpa [different] using there
  jobs _ record found := ⟨record, found, rfl, .inl rfl⟩
  kept _ given found := ⟨given, found, rfl, id⟩
  polls _ polled := .inl polled
  depth := rfl
  drains := .of_same rfl rfl rfl

theorem of_stage
    {job : Nat} {record : MediaJob} {stage : Stage} (found : engine.jobs[job]? = some record)
    (unparked : record.stage ≠ .parked) (unregistered : ¬stage.Registered) :
    Follows engine
      { engine with
        jobs := engine.jobs.modify job fun record =>
          { record with stage } } where
  states _ := .inl rfl
  gated := rfl
  dispatches _ _ found _ := found
  jobs := by
    intro other next there
    rw [List.getElem?_modify] at there
    obtain ⟨given, origin, rfl⟩ := Option.map_eq_some_iff.mp there
    refine ⟨given, origin, ?_, ?_⟩
    · split <;> rfl
    · split
      · exact .inr unregistered
      · exact .inl rfl
  kept := by
    intro other given there
    by_cases same : job = other
    · subst same
      obtain rfl : record = given := by simpa [found] using there
      exact ⟨{ record with stage }, by simp [found], rfl,
        fun parked => absurd parked unparked⟩
    · exact ⟨given, by simpa [List.getElem?_modify, same] using there, rfl,
        id⟩
  polls _ polled := .inl polled
  depth := rfl
  drains := .of_same rfl rfl rfl

end Follows

namespace Nodes

variable {engine : Engine}

variable {dispatch : Nat} {nodeId : JsString}

/-- While a dispatch is under way at a node that is not done, nothing else
is. -/
theorem no_other
    (nodes : engine.Nodes) {loop : DispatchLoop}
    (found : engine.dispatches[dispatch]? = some loop) (undone : loop.phase ≠ .done)
    (unsettled : ¬engine.Settled loop.nodeId) :
    engine.states.get loop.nodeId = some .running ∧
      loop.nodeId ∉ engine.gated ∧
      ∀ (job : Nat) (record : MediaJob), engine.jobs[job]? = some record →
        record.nodeId = loop.nodeId → ¬record.stage.Registered := by
  have running : engine.states.get loop.nodeId = some .running := by
    rcases nodes.running dispatch loop found undone with running | settled
    · exact running
    · exact absurd settled unsettled
  refine ⟨running, ?_, ?_⟩
  · intro gated
    rcases nodes.gated loop.nodeId gated with paused | settled
    · rw [running] at paused
      cases paused
    · exact unsettled settled
  · intro job record there sameNode registered
    rcases nodes.registered job record there registered with
      ⟨paused, _⟩ | settled
    · rw [sameNode, running] at paused
      cases paused
    · exact unsettled (sameNode ▸ settled)

theorem undispatched
    (nodes : engine.Nodes) {status : VertexStatus}
    (known : engine.states.get nodeId = some status) (idle : status ≠ .running)
    (unsettled : status.settled = false) {loop : DispatchLoop}
    (found : engine.dispatches[dispatch]? = some loop) (undone : loop.phase ≠ .done) :
    loop.nodeId ≠ nodeId := by
  rintro rfl
  rcases nodes.running dispatch loop found undone with running | settled
  · exact idle (Option.some.inj (known.symm.trans running))
  · unfold Settled at settled
    rw [nodeSettled_eq known, unsettled] at settled
    cases settled

/-- A vertex is claimed, or dispatched again after its gate. -/
theorem startDispatch
    (nodes : engine.Nodes)
    (ready : engine.states.get nodeId = some .pending ∨
      engine.states.get nodeId = some .paused ∧ nodeId ∈ engine.gated) :
    (engine.startDispatch nodeId).Nodes := by
  have unsettled : ∀ other, other ≠ nodeId → engine.Settled other →
      (engine.startDispatch nodeId).Settled other := by
    intro other different settled
    unfold Settled nodeSettled at settled ⊢
    simpa [Engine.startDispatch, setStatus, OrderedMap.get_set_of_ne _ different] using settled
  have status : ∀ other, other ≠ nodeId →
      (engine.startDispatch nodeId).states.get other =
        engine.states.get other := by
    intro other different
    simp [Engine.startDispatch, setStatus, OrderedMap.get_set_of_ne _ different]
  have idle : ∀ (dispatch : Nat) (loop : DispatchLoop),
      engine.dispatches[dispatch]? = some loop → loop.phase ≠ .done →
      loop.nodeId ≠ nodeId := by
    intro dispatch loop found undone
    rcases ready with pending | ⟨paused, _⟩
    · exact nodes.undispatched pending (by decide) rfl found undone
    · exact nodes.undispatched paused (by decide) rfl found undone
  have started : ∀ (dispatch : Nat) (loop : DispatchLoop),
      (engine.startDispatch nodeId).dispatches[dispatch]? = some loop →
      engine.dispatches[dispatch]? = some loop ∨
        dispatch = engine.dispatches.length ∧
          loop = { nodeId, phase := .executing } := by
    intro dispatch loop found
    have appended : (engine.startDispatch nodeId).dispatches =
        engine.dispatches ++ [{ nodeId, phase := .executing }] := rfl
    rw [appended, List.getElem?_append] at found
    split at found
    · exact .inl found
    case isFalse beyond =>
      right
      rw [List.getElem?_singleton] at found
      split at found
      · exact ⟨by omega, (Option.some.inj found).symm⟩
      · cases found
  constructor
  · intro dispatch loop found undone
    rcases started dispatch loop found with old | ⟨_, rfl⟩
    · have different := idle dispatch loop old undone
      rw [status loop.nodeId different]
      rcases nodes.running dispatch loop old undone with running | settled
      · exact .inl running
      · exact .inr (unsettled loop.nodeId different settled)
    · left
      simp [Engine.startDispatch, setStatus]
  · intro first second loop other found undone otherFound otherUndone same
    rcases started first loop found with old | ⟨firstNew, rfl⟩
    · rcases started second other otherFound with otherOld | ⟨_, rfl⟩
      · rcases nodes.alone first second loop other old undone otherOld
            otherUndone same with equal | settled
        · exact .inl equal
        · exact .inr (unsettled loop.nodeId (idle first loop old undone) settled)
      · exact absurd same (idle first loop old undone)
    · rcases started second other otherFound with otherOld | ⟨secondNew, _⟩
      · exact absurd same.symm (idle second other otherOld otherUndone)
      · exact .inl (firstNew.trans secondNew.symm)
  · intro other gated
    obtain ⟨earlier, kept⟩ := List.mem_filter.mp gated
    have different := of_decide_eq_true kept
    rw [status other different]
    rcases nodes.gated other earlier with paused | settled
    · exact .inl paused
    · exact .inr (unsettled other different settled)
  · intro job record found registered
    have parked := nodes.registered job record found registered
    have different : record.nodeId ≠ nodeId := by
      rintro rfl
      rcases parked with ⟨paused, ungated⟩ | settled
      · rcases ready with pending | ⟨_, gated⟩
        · rw [paused] at pending
          cases pending
        · exact ungated gated
      · unfold Settled at settled
        rcases ready with pending | ⟨paused, _⟩
        · rw [nodeSettled_eq pending] at settled
          cases settled
        · rw [nodeSettled_eq paused] at settled
          cases settled
    rcases parked with ⟨paused, ungated⟩ | settled
    · refine .inl ⟨(status record.nodeId different).trans paused, ?_⟩
      intro gated
      simp only [Engine.startDispatch, List.mem_filter] at gated
      exact ungated gated.1
    · exact .inr (unsettled record.nodeId different settled)
  · exact nodes.unique
  · intro dispatch loop job found carrying
    rcases started dispatch loop found with old | ⟨_, rfl⟩
    · exact nodes.carried dispatch loop job old carrying
    · cases carrying
  · exact nodes.polled

/-- The executor returns a submission. -/
theorem submitJob
    (nodes : engine.Nodes)
    (found : engine.dispatches[dispatch]? = some { nodeId, phase := .executing })
    (admission : Bool) :
    (engine.submitJob nodeId dispatch admission).Nodes := by
  have loops : ∀ (other : Nat) (loop : DispatchLoop),
      (engine.submitJob nodeId dispatch admission).dispatches[other]? =
        some loop →
      ∃ given, engine.dispatches[other]? = some given ∧
        given.nodeId = loop.nodeId ∧
        (loop = given ∨ other = dispatch ∧
          given.phase = .executing ∧
          loop.phase = .carrying engine.jobs.length) := by
    intro other loop there
    simp only [Engine.submitJob, setPhase, List.getElem?_modify] at there
    obtain ⟨given, origin, rfl⟩ := Option.map_eq_some_iff.mp there
    refine ⟨given, origin, ?_, ?_⟩
    · split <;> rfl
    · split
      case isTrue same =>
        subst same
        obtain rfl : _ = given := by simpa [found] using origin
        exact .inr ⟨rfl, rfl, rfl⟩
      case isFalse => exact .inl rfl
  have undone : ∀ (loop given : DispatchLoop) (other : Nat),
      (loop = given ∨ other = dispatch ∧ given.phase = .executing ∧
        loop.phase = .carrying engine.jobs.length) →
      loop.phase ≠ .done → given.phase ≠ .done := by
    rintro loop given other (rfl | ⟨_, executing, _⟩) undone
    · exact undone
    · simp [executing]
  have jobs : ∀ (job : Nat) (record : MediaJob),
      (engine.submitJob nodeId dispatch admission).jobs[job]? =
        some record →
      engine.jobs[job]? = some record ∨
        job = engine.jobs.length ∧ record.nodeId = nodeId ∧
          record.stage = .returned := by
    intro job record there
    simp only [Engine.submitJob, List.getElem?_append] at there
    split at there
    · exact .inl there
    case isFalse beyond =>
      right
      rw [List.getElem?_singleton] at there
      split at there
      · cases there
        exact ⟨by omega, rfl, rfl⟩
      · cases there
  have old : ∀ (job : Nat) (record : MediaJob),
      engine.jobs[job]? = some record →
      (engine.submitJob nodeId dispatch admission).jobs[job]? =
        some record := by
    intro job record there
    exact (List.getElem?_append_left (List.getElem?_eq_some_iff.mp there).1).trans there
  constructor
  · intro other loop there notDone
    obtain ⟨given, origin, sameNode, phase⟩ := loops other loop there
    rw [← sameNode]
    exact nodes.running other given origin (undone loop given other phase notDone)
  · intro first second loop mate there notDone mateThere mateNotDone same
    obtain ⟨given, origin, sameNode, phase⟩ := loops first loop there
    obtain ⟨other, otherOrigin, otherNode, otherPhase⟩ :=
      loops second mate mateThere
    rw [← sameNode]
    exact nodes.alone first second given other origin
      (undone loop given first phase notDone) otherOrigin
      (undone mate other second otherPhase mateNotDone)
      (sameNode.trans (same.trans otherNode.symm))
  · exact nodes.gated
  · intro job record there registered
    rcases jobs job record there with origin | ⟨_, _, returned⟩
    · exact nodes.registered job record origin registered
    · rcases registered with parked | refused
      · rw [returned] at parked
        cases parked
      · rw [returned] at refused
        cases refused
  · intro first second record mate there parked mateThere mateParked same
    rcases jobs first record there with origin | ⟨_, _, returned⟩
    · rcases jobs second mate mateThere with mateOrigin | ⟨_, _, returned⟩
      · exact nodes.unique first second record mate origin parked mateOrigin mateParked same
      · rw [returned] at mateParked
        cases mateParked
    · rw [returned] at parked
      cases parked
  · intro other loop job there carrying
    obtain ⟨given, origin, sameNode, phase⟩ := loops other loop there
    rcases phase with rfl | ⟨rfl, _, newest⟩
    · obtain ⟨record, recorded, recordNode⟩ :=
        nodes.carried other loop job origin carrying
      exact ⟨record, old job record recorded, recordNode⟩
    · obtain rfl : engine.jobs.length = job := by
        simpa [newest] using carrying
      have node : given.nodeId = nodeId := by
        rw [found] at origin
        rw [← Option.some.inj origin]
      exact ⟨_, List.getElem?_concat_length, node.symm.trans sameNode⟩
  · intro job polled
    obtain ⟨record, there, parked⟩ := nodes.polled job polled
    exact ⟨record, old job record there, parked⟩

/-- A node nothing is under way at is parked, at a gate or on a media job. -/
theorem pause
    (nodes : engine.Nodes)
    (idle : ∀ (dispatch : Nat) (loop : DispatchLoop),
      engine.dispatches[dispatch]? = some loop → loop.phase ≠ .done →
      loop.nodeId ≠ nodeId)
    (free : ∀ (job : Nat) (record : MediaJob),
      engine.jobs[job]? = some record → record.nodeId = nodeId →
      ¬record.stage.Registered)
    (gated : List JsString) (others : ∀ other ∈ gated, other = nodeId ∨ other ∈ engine.gated) :
    Engine.Nodes { engine.setStatus nodeId .paused with gated } := by
  have status : ∀ other, other ≠ nodeId →
      (engine.states.set nodeId .paused).get other =
        engine.states.get other :=
    fun other different => OrderedMap.get_set_of_ne _ different _
  have settled : ∀ other, other ≠ nodeId → engine.Settled other →
      Engine.Settled { engine.setStatus nodeId .paused with gated } other := by
    intro other different settled
    unfold Settled nodeSettled at settled ⊢
    simpa [setStatus, status other different] using settled
  have apart : ∀ (job : Nat) (record : MediaJob),
      engine.jobs[job]? = some record → record.stage.Registered →
      record.nodeId ≠ nodeId :=
    fun job record found registered same =>
      free job record found same registered
  constructor
  · intro dispatch loop found undone
    have different := idle dispatch loop found undone
    rcases nodes.running dispatch loop found undone with running | done
    · exact .inl ((status loop.nodeId different).trans running)
    · exact .inr (settled loop.nodeId different done)
  · intro first second loop other found undone otherFound otherUndone same
    rcases nodes.alone first second loop other found undone otherFound
        otherUndone same with equal | done
    · exact .inl equal
    · exact .inr (settled loop.nodeId (idle first loop found undone) done)
  · intro other member
    by_cases same : other = nodeId
    · left
      simp [setStatus, same]
    · have earlier : other ∈ engine.gated :=
        (others other member).resolve_left same
      rcases nodes.gated other earlier with paused | done
      · exact .inl ((status other same).trans paused)
      · exact .inr (settled other same done)
  · intro job record found registered
    have different := apart job record found registered
    rcases nodes.registered job record found registered with
      ⟨paused, ungated⟩ | done
    · refine .inl ⟨(status record.nodeId different).trans paused, ?_⟩
      intro member
      exact ungated ((others record.nodeId member).resolve_left different)
    · exact .inr (settled record.nodeId different done)
  · exact nodes.unique
  · exact nodes.carried
  · exact nodes.polled

/-- The registration of a job ends, at a node it is alone at. -/
theorem register
    (nodes : engine.Nodes) {job : Nat} {record : MediaJob}
    (found : engine.jobs[job]? = some record) (parked : engine.Parked record.nodeId)
    (free : ∀ (other : Nat) (given : MediaJob),
      engine.jobs[other]? = some given → given.nodeId = record.nodeId →
      ¬given.stage.Registered)
    (change : MediaJob → MediaJob)
    (sameNode : (change record).nodeId = record.nodeId) :
    Engine.Nodes
      { engine with jobs := engine.jobs.modify job change } := by
  have changes : ∀ (other : Nat) (next : MediaJob),
      (engine.jobs.modify job change)[other]? = some next →
      other = job ∧ next = change record ∨
        other ≠ job ∧ engine.jobs[other]? = some next := by
    intro other next there
    by_cases same : other = job
    · subst same
      exact .inl ⟨rfl, by simpa [found] using there.symm⟩
    · refine .inr ⟨same, ?_⟩
      rwa [List.getElem?_modify_ne _ _ (Ne.symm same)] at there
  constructor
  · exact nodes.running
  · exact nodes.alone
  · exact nodes.gated
  · intro other next there registered
    rcases changes other next there with ⟨rfl, rfl⟩ | ⟨_, origin⟩
    · rw [sameNode]
      exact parked
    · exact nodes.registered other next origin registered
  · intro first second next mate there nextParked mateThere mateParked same
    rcases changes first next there with ⟨rfl, rfl⟩ | ⟨_, origin⟩
    · rcases changes second mate mateThere with ⟨rfl, _⟩ | ⟨_, mateOrigin⟩
      · rfl
      · exact absurd (.inl mateParked) (free second mate mateOrigin (same.symm.trans sameNode))
    · rcases changes second mate mateThere with ⟨rfl, rfl⟩ | ⟨_, mateOrigin⟩
      · exact absurd (.inl nextParked) (free first next origin (same.trans sameNode))
      · exact nodes.unique first second next mate origin nextParked mateOrigin mateParked same
  · intro dispatch loop carriedJob there carrying
    obtain ⟨given, origin, node⟩ :=
      nodes.carried dispatch loop carriedJob there carrying
    by_cases same : carriedJob = job
    · subst same
      obtain rfl : record = given := by simpa [found] using origin
      exact ⟨change record, by simp [found], sameNode.trans node⟩
    · exact ⟨given, (List.getElem?_modify_ne _ _ (Ne.symm same)).trans origin, node⟩
  · intro other polled
    obtain ⟨given, origin, given_parked⟩ := nodes.polled other polled
    have different : other ≠ job := by
      rintro rfl
      obtain rfl : record = given := by simpa [found] using origin
      exact free other record found rfl (.inl given_parked)
    exact ⟨given, (List.getElem?_modify_ne _ _ (Ne.symm different)).trans origin, given_parked⟩

/-- The registration of a submission, at a node nothing is under way at. -/
theorem settleMediaJobParked
    (nodes : engine.Nodes) (clock : ClockRead) (deadlineMs : Option Nat) {job : Nat}
    {record : MediaJob} (found : engine.jobs[job]? = some record)
    (idle : ∀ (dispatch : Nat) (loop : DispatchLoop),
      engine.dispatches[dispatch]? = some loop → loop.phase ≠ .done →
      loop.nodeId ≠ record.nodeId)
    (free : ∀ (other : Nat) (given : MediaJob),
      engine.jobs[other]? = some given → given.nodeId = record.nodeId →
      ¬given.stage.Registered)
    (ungated : record.nodeId ∉ engine.gated) :
    (engine.settleMediaJobParked clock deadlineMs job).Nodes := by
  unfold Engine.settleMediaJobParked
  rw [found]
  dsimp only
  have paused : (engine.setStatus record.nodeId .paused).Nodes :=
    nodes.pause idle free engine.gated (fun _ => .inr)
  have taken : Follows (engine.setStatus record.nodeId .paused)
      ((engine.setStatus record.nodeId .paused).takeMediaJobAdmission job) :=
    .of_modify rfl (fun _ => rfl) (fun _ => rfl) rfl rfl rfl rfl rfl (.of_same rfl rfl rfl)
  have follows := taken.trans (.enter _ clock.callback)
  revert follows
  generalize ((engine.setStatus record.nodeId .paused).takeMediaJobAdmission
    job).enter clock.callback = after
  intro follows
  have next := follows.nodes paused
  have parked : after.Parked record.nodeId := by
    refine follows.parked (.inl ⟨?_, ungated⟩)
    simp [setStatus]
  obtain ⟨last, there, sameNode, _⟩ := follows.kept job record found
  have vacant : ∀ (other : Nat) (given : MediaJob),
      after.jobs[other]? = some given → given.nodeId = last.nodeId →
      ¬given.stage.Registered := by
    intro other given found same registered
    obtain ⟨origin, was, node, stage⟩ := follows.jobs other given found
    rcases stage with same_stage | unregistered
    · exact free other origin was (node.trans (same.trans sameNode)) (same_stage ▸ registered)
    · exact unregistered registered
  rw [← sameNode] at parked ⊢
  have refused : (after.refuseJob record.attached job).Nodes :=
    (Follows.closeAttached _ record.attached job
      .settleAtReservedEstimate).nodes
        (next.register there parked vacant (fun given => { given with stage := .refused }) rfl)
  split
  · exact (Follows.failNodeInternal _ last.nodeId).nodes refused
  case h_2 startedAt _ =>
    split
    · exact refused
    · have last := next.register there parked vacant
        (fun given =>
          { given with
            stage := .parked
            attached := record.attached
            deadlineAt := startedAt + deadlineMs.getD defaultDeadlineMs
            backoffMs := pollInitialMs }) rfl
      exact ⟨last.running, last.alone, last.gated, last.registered,
        last.unique, last.carried, last.polled⟩

end Nodes

end Engine

end MediaJobs
end Relavium.Run
