import Relavium.Run.MediaJobMoney

/-!
# The books of media jobs

What stands in the log about a job says where the job is.  A job that is still
travelling or pending has cost nothing yet; one that has left the pending map
was accounted for, or conserved at its estimate, exactly once.  Two more ends
are possible, and leave an admission open: an outcome the engine ignored, and
a pending map dropped with the ownership of the run.  The books say whether
they allow for these.
-/

namespace Relavium.Run
namespace MediaJobs

open Library

/-- Nothing has closed the admission of the job, and it still refers to it. -/
structure Unpaid (record : MediaJob) : Prop where
  costAccounted : record.costAccounted = false
  unclosed : record.lease ≠ .closed
  attached : record.lease = .opened → record.attached = true

namespace MediaJob

/-- The job after a registration the map did not take it in. -/
def unregistered (record : MediaJob) : MediaJob :=
  { record.close record.attached with stage := .refused, attached := false }

end MediaJob

/-- Where a job is, whether the pending map holds it, and what the log says of
it. -/
inductive Shape (lossy : Prop) (job : Nat) :
    MediaJob → Bool → List Fact → Prop
  | travelling {record : MediaJob} :
      record.stage = .returned ∨ record.stage = .arriving →
      Unpaid record →
      Shape lossy job record false []
  | parked {record : MediaJob} :
      record.stage = .parked →
      Unpaid record →
      Shape lossy job record true []
  | accounted {given : MediaJob} {answer : PriceAnswer} :
      given.stage = .parked →
      Unpaid given →
      Shape lossy job given.accounted false (given.settlement job answer)
  | conserved {given : MediaJob} :
      given.stage = .parked →
      Unpaid given →
      Shape lossy job given.accounted false
        (given.closing given.attached job .settleAtReservedEstimate)
  | refused {given : MediaJob} :
      Unpaid given →
      Shape lossy job given.unregistered false
        (given.closing given.attached job .settleAtReservedEstimate)
  | dropped {record : MediaJob} :
      lossy →
      record.stage = .dropped →
      Unpaid record →
      Shape lossy job record false []
  | lost {record : MediaJob} :
      lossy →
      record.stage = .parked →
      Unpaid record →
      Shape lossy job record false []

namespace Shape

variable
  {lossy : Prop}
  {job : Nat}
  {record : MediaJob}
  {held : Bool}
  {facts : List Fact}

theorem of_held (shape : Shape lossy job record true facts) :
    record.stage = .parked ∧ Unpaid record ∧ facts = [] := by
  cases shape with
  | parked stage unpaid => exact ⟨stage, unpaid, rfl⟩

theorem of_travelling
    (shape : Shape lossy job record held facts)
    (stage : record.stage = .returned ∨ record.stage = .arriving) :
    held = false ∧ Unpaid record ∧ facts = [] := by
  cases shape with
  | travelling _ unpaid => exact ⟨rfl, unpaid, rfl⟩
  | parked parked | accounted parked | conserved parked => simp [parked] at stage
  | refused => simp [MediaJob.unregistered] at stage
  | dropped _ dropped => simp [dropped] at stage
  | lost _ parked => simp [parked] at stage

/-- A job that is due is pending and unpaid, or is accounted for already. -/
theorem pending_or_accounted
    (shape : Shape lossy job record held facts)
    (due : held = true ∨ record.costAccounted = true) :
    (record.stage = .parked ∧ Unpaid record ∧ facts = []) ∨
      (record.costAccounted = true ∧ Shape lossy job record.accounted false facts) := by
  cases shape with
  | parked stage unpaid => exact .inl ⟨stage, unpaid, rfl⟩
  | accounted stage unpaid => exact .inr ⟨by simp, by simpa using .accounted stage unpaid⟩
  | conserved stage unpaid => exact .inr ⟨by simp, by simpa using .conserved stage unpaid⟩
  | travelling _ unpaid | dropped _ _ unpaid | lost _ _ unpaid =>
    simp [unpaid.costAccounted] at due
  | refused unpaid =>
    simp only [Bool.false_eq_true, false_or] at due
    unfold MediaJob.unregistered MediaJob.close at due
    split at due <;> simp [unpaid.costAccounted] at due

theorem account
    (shape : Shape lossy job record held facts) (due : held = true ∨ record.costAccounted = true)
    (answer : PriceAnswer) :
    Shape lossy job record.accounted false
      (facts ++ record.settlement job answer) := by
  obtain ⟨stage, unpaid, rfl⟩ | ⟨accounted, done⟩ := shape.pending_or_accounted due
  · exact .accounted stage unpaid
  · simpa [MediaJob.settlement, accounted] using done

/-- A job accounted for has given up its admission. -/
theorem released
    (shape : Shape lossy job record held facts) (accounted : record.costAccounted = true) :
    record.attached = false := by
  cases shape with
  | travelling _ unpaid | parked _ unpaid | dropped _ _ unpaid | lost _ _ unpaid =>
    simp [unpaid.costAccounted] at accounted
  | refused => rfl
  | accounted _ unpaid | conserved _ unpaid => simp [MediaJob.accounted, unpaid.costAccounted]

/-- Conserving a pending job, or nothing for one accounted for. -/
theorem conserve
    (shape : Shape lossy job record held facts)
    (due : held = true ∨ record.costAccounted = true) :
    Shape lossy job record.accounted false
      (facts ++ if record.costAccounted then []
        else record.closing record.attached job
          .settleAtReservedEstimate) := by
  obtain ⟨stage, unpaid, rfl⟩ | ⟨accounted, done⟩ := shape.pending_or_accounted due
  · rw [unpaid.costAccounted]
    exact .conserved stage unpaid
  · simpa [accounted] using done

end Shape

namespace Engine

/-- The pending map holds the job. -/
def holds (engine : Engine) (job : Nat) (record : MediaJob) : Bool :=
  decide (engine.pendingMediaJobs.get record.nodeId = some job)

/-- The log agrees with where every job is. -/
structure Books (engine : Engine) (lossy : Prop) : Prop where
  shape : ∀ job record, engine.jobs[job]? = some record →
    Shape lossy job record (engine.holds job record) (factsOf job engine.log)
  named : ∀ nodeId job, engine.pendingMediaJobs.get nodeId = some job →
    ∃ record, engine.jobs[job]? = some record ∧ record.nodeId = nodeId
  silent : ∀ job, engine.jobs[job]? = none → factsOf job engine.log = []

namespace Books

variable {before after : Engine} {lossy : Prop}

/-- Statuses, flags and the frames of suspended calls do not matter. -/
theorem of_same
    (books : before.Books lossy) (jobs : after.jobs = before.jobs)
    (pending : after.pendingMediaJobs = before.pendingMediaJobs) (log : after.log = before.log) :
    after.Books lossy := by
  constructor
  · intro job record found
    rw [jobs] at found
    have shape := books.shape job record found
    unfold holds at shape ⊢
    rw [pending, log]
    exact shape
  · intro nodeId job found
    rw [pending] at found
    rw [jobs]
    exact books.named nodeId job found
  · intro job missing
    rw [jobs] at missing
    rw [log]
    exact books.silent job missing

/-- Accounting for pending jobs keeps the books, as long as the map lets go of
these and of no others. -/
theorem of_accounts
    (books : before.Books lossy) {answers : Nat → Option PriceAnswer}
    (accounts : Accounts answers before after)
    (fewer : ∀ nodeId job, after.pendingMediaJobs.get nodeId = some job →
      before.pendingMediaJobs.get nodeId = some job)
    (answered : ∀ job record, before.jobs[job]? = some record →
      (answers job).isSome →
      (before.holds job record = true ∨ record.costAccounted = true) ∧
        after.pendingMediaJobs.get record.nodeId ≠ some job)
    (unanswered : ∀ job record, before.jobs[job]? = some record →
      answers job = none →
      before.pendingMediaJobs.get record.nodeId = some job →
      after.pendingMediaJobs.get record.nodeId = some job) :
    after.Books lossy := by
  have found_before : ∀ job record, after.jobs[job]? = some record →
      ∃ given, before.jobs[job]? = some given ∧
        record.nodeId = given.nodeId ∧
        record = if (answers job).isSome then given.accounted else given := by
    intro job record found
    rw [accounts.jobs] at found
    split at found
    case isTrue isAnswered =>
      obtain ⟨given, there, rfl⟩ := Option.map_eq_some_iff.mp found
      exact ⟨given, there, given.accounted_nodeId, by simp [isAnswered]⟩
    case isFalse notAnswered =>
      exact ⟨record, found, rfl, by simp [notAnswered]⟩
  constructor
  · intro job record found
    obtain ⟨given, there, sameNode, record_eq⟩ := found_before job record found
    have shape := books.shape job given there
    rw [accounts.facts]
    cases answer : answers job with
    | none =>
      rw [answer] at record_eq
      obtain rfl : record = given := by simpa using record_eq
      have sameHeld : after.holds job record = before.holds job record := by
        unfold holds
        refine decide_eq_decide.mpr ⟨fewer record.nodeId job, ?_⟩
        exact unanswered job record there answer
      rw [sameHeld]
      simpa using shape
    | some price =>
      rw [answer] at record_eq
      obtain rfl : record = given.accounted := by simpa using record_eq
      obtain ⟨due, released⟩ :=
        answered job given there (by simp [answer])
      have unheld : after.holds job given.accounted = false := by
        unfold holds
        simpa using released
      rw [unheld]
      unfold settlementOf
      simpa [there] using shape.account due price
  · intro nodeId job found
    obtain ⟨record, there, sameNode⟩ :=
      books.named nodeId job (fewer nodeId job found)
    have now := accounts.jobs job
    rw [there] at now
    split at now
    · exact ⟨record.accounted, now, by simpa using sameNode⟩
    · exact ⟨record, now, sameNode⟩
  · intro job missing
    have gone : before.jobs[job]? = none := by
      have now := accounts.jobs job
      rw [missing] at now
      split at now
      · simpa using now.symm
      · exact now.symm
    rw [accounts.facts, books.silent job gone]
    unfold settlementOf
    cases answers job <;> simp [gone]

theorem of_change
    (books : before.Books lossy) {job : Nat} {record : MediaJob} (next : MediaJob)
    {facts : List Fact} (found : before.jobs[job]? = some record)
    (changed : after.jobs[job]? = some next)
    (unchanged : ∀ other, other ≠ job →
      after.jobs[other]? = before.jobs[other]?)
    (sameNode : next.nodeId = record.nodeId)
    (log : after.log = before.log ++ facts)
    (about : ∀ fact ∈ facts, fact.job = job)
    (shape : Shape lossy job next (after.holds job next)
      (factsOf job before.log ++ facts))
    (others : ∀ other given, other ≠ job →
      before.jobs[other]? = some given →
      (after.pendingMediaJobs.get given.nodeId = some other ↔
        before.pendingMediaJobs.get given.nodeId = some other))
    (named : ∀ nodeId other,
      after.pendingMediaJobs.get nodeId = some other →
      (other = job ∧ nodeId = record.nodeId) ∨
        before.pendingMediaJobs.get nodeId = some other) :
    after.Books lossy := by
  have logged : ∀ other, factsOf other after.log =
      factsOf other before.log ++ if other = job then facts else [] := by
    intro other
    rw [log, factsOf_append, factsOf_of_forall about]
  constructor
  · intro other given there
    by_cases same : other = job
    · subst same
      obtain rfl : given = next := by simpa [changed] using there.symm
      rw [logged, if_pos rfl]
      exact shape
    · rw [unchanged other same] at there
      have kept : after.holds other given = before.holds other given := by
        unfold holds
        exact decide_eq_decide.mpr (others other given same there)
      rw [logged, if_neg same, kept, List.append_nil]
      exact books.shape other given there
  · intro nodeId other there
    rcases named nodeId other there with ⟨rfl, rfl⟩ | held
    · exact ⟨next, changed, sameNode⟩
    · obtain ⟨given, before_found, given_node⟩ := books.named nodeId other held
      by_cases same : other = job
      · subst same
        obtain rfl : given = record := by
          simpa [found] using before_found.symm
        exact ⟨next, changed, sameNode.trans given_node⟩
      · exact ⟨given, (unchanged other same).trans before_found, given_node⟩
  · intro other missing
    by_cases same : other = job
    · subst same
      rw [changed] at missing
      cases missing
    · rw [unchanged other same] at missing
      rw [logged, if_neg same, List.append_nil]
      exact books.silent other missing

theorem sweep (books : before.Books lossy) (pricings : Nat → Pricing) :
    (before.sweep pricings).Books lossy := by
  refine books.of_accounts (Accounts.sweep before pricings) ?_ ?_ ?_
  · intro nodeId job found
    simp [Engine.sweep] at found
  · intro job record found answered
    refine ⟨.inl ?_, by simp [Engine.sweep]⟩
    have pending : job ∈ before.pendingMediaJobs.values := by
      by_contra absent
      simp [absent] at answered
    obtain ⟨nodeId, there⟩ :=
      (before.pendingMediaJobs.mem_values_iff job).mp pending
    obtain ⟨other, otherFound, sameNode⟩ := books.named nodeId job there
    obtain rfl : other = record := by
      simpa [found] using otherFound.symm
    simpa [holds, sameNode] using there
  · intro job record found unanswered there
    have pending : job ∈ before.pendingMediaJobs.values :=
      (before.pendingMediaJobs.mem_values_iff job).mpr ⟨_, there⟩
    simp [pending] at unanswered

end Books

/-- What a call of the host may have done to the jobs: nothing, or the sweep of
everything that was pending. -/
inductive Entered (before after : Engine) : Prop
  | kept :
      Accounts (fun _ => none) before after →
      after.pendingMediaJobs = before.pendingMediaJobs →
      Entered before after
  | swept (pricings : Nat → Pricing) :
      Accounts
        (fun job =>
          if job ∈ before.pendingMediaJobs.values then
            some (pricings job).answer
          else none)
        before after →
      after.pendingMediaJobs = .empty →
      Entered before after

/-- With no job being accounted for, a terminal sweeps at once. -/
theorem entered_settle
    (engine : Engine) (pricings : Nat → Pricing) (idle : engine.mediaAccountingDepth = 0) :
    Entered engine (engine.settle pricings) := by
  unfold settle
  split
  · exact .kept (.refl engine) rfl
  · dsimp only
    rw [if_neg (by omega)]
    exact .swept pricings
      (Accounts.sweep { engine with settled := true, aborted := true }
        pricings).of_flags rfl

theorem entered_enter
    (engine : Engine) (callback : Callback) (idle : engine.mediaAccountingDepth = 0) :
    Entered engine (engine.enter callback) := by
  unfold enter
  split
  · exact .kept (.refl engine) rfl
  · exact entered_settle engine _ idle

namespace Entered

variable {before after : Engine} {lossy : Prop}

theorem books (entered : Entered before after) (books : before.Books lossy) :
    after.Books lossy := by
  cases entered with
  | kept accounts pending =>
    refine books.of_accounts accounts ?_ (by simp) ?_
    · intro nodeId job found
      rwa [pending] at found
    · intro job record found _ there
      rwa [pending]
  | swept pricings accounts pending =>
    have swept := books.sweep pricings
    refine books.of_accounts accounts ?_ ?_ ?_
    · intro nodeId job found
      simp [pending] at found
    · intro job record found answered
      refine ⟨.inl ?_, by simp [pending]⟩
      have inside : job ∈ before.pendingMediaJobs.values := by
        by_contra absent
        simp [absent] at answered
      obtain ⟨nodeId, there⟩ :=
        (before.pendingMediaJobs.mem_values_iff job).mp inside
      obtain ⟨other, otherFound, sameNode⟩ := books.named nodeId job there
      obtain rfl : other = record := by
        simpa [found] using otherFound.symm
      simpa [holds, sameNode] using there
    · intro job record found unanswered there
      have inside : job ∈ before.pendingMediaJobs.values :=
        (before.pendingMediaJobs.mem_values_iff job).mpr ⟨_, there⟩
      simp [inside] at unanswered

theorem vacant
    (entered : Entered before after) {nodeId : JsString}
    (vacant : before.pendingMediaJobs.get nodeId = none) :
    after.pendingMediaJobs.get nodeId = none := by
  cases entered with
  | kept accounts pending => rw [pending, vacant]
  | swept pricings accounts pending => rw [pending, OrderedMap.get_empty]

theorem untouched
    (entered : Entered before after) {job : Nat}
    (unpending : job ∉ before.pendingMediaJobs.values) :
    after.jobs[job]? = before.jobs[job]? := by
  cases entered with
  | kept accounts => simp [accounts.jobs]
  | swept pricings accounts => simp [accounts.jobs, unpending]

end Entered

/-- The job is the one the pending map holds for the node, or the map holds
none and the job is accounted for. -/
def Tied (engine : Engine) (nodeId : JsString) (job : Nat) : Prop :=
  ∃ record, engine.jobs[job]? = some record ∧ record.nodeId = nodeId ∧
    (engine.pendingMediaJobs.get nodeId = some job ∨
      engine.pendingMediaJobs.get nodeId = none ∧
        record.costAccounted = true)

theorem Entered.tied
    {before after : Engine} (entered : Entered before after) {nodeId : JsString} {job : Nat}
    (tied : before.Tied nodeId job) :
    after.Tied nodeId job := by
  obtain ⟨record, found, sameNode, pending⟩ := tied
  cases entered with
  | kept accounts same =>
    have now := accounts.jobs job
    rw [found] at now
    refine ⟨record, by simpa using now, sameNode, ?_⟩
    rwa [same]
  | swept pricings accounts empty =>
    have now := accounts.jobs job
    rw [found] at now
    rcases pending with held | ⟨absent, accounted⟩
    · have inside : job ∈ before.pendingMediaJobs.values :=
        (before.pendingMediaJobs.mem_values_iff job).mpr ⟨_, held⟩
      exact ⟨record.accounted, by simpa [inside] using now,
        by simpa using sameNode, .inr ⟨by simp [empty], by simp⟩⟩
    · split at now
      · exact ⟨record.accounted, now, by simpa using sameNode,
          .inr ⟨by simp [empty], by simp⟩⟩
      · exact ⟨record, now, sameNode, .inr ⟨by simp [empty], accounted⟩⟩

section

variable {engine : Engine} {lossy : Prop}

variable
  {job : Nat}
  {nodeId : JsString}

theorem clearAndEmit_spec
    (books : engine.Books lossy) (tied : engine.Tied nodeId job) (settling : Settling) :
    (engine.clearAndEmit settling nodeId job).2.Books lossy ∧
      (engine.clearAndEmit settling nodeId job).2.Tied nodeId job ∧
      Accounts
        (fun other =>
          if other = job then some settling.pricing.answer else none)
        engine (engine.clearAndEmit settling nodeId job).2 := by
  obtain ⟨record, found, sameNode, pending⟩ := tied
  have accounts : Accounts
      (fun other =>
        if other = job then some settling.pricing.answer else none)
      (engine.clearMediaJob nodeId)
      (engine.clearAndEmit settling nodeId job).2 :=
    Accounts.emit _ _ _ _ _ (fun _ accounting => enter_flagged accounting _)
      (fun _ accounting => enter_flagged accounting _)
  have flagged := (engine.clearMediaJob nodeId).emit_flagged
    (·.enter settling.pricingCalls) (·.enter settling.sinkCalls)
    settling.pricing job
    (fun _ accounting => enter_flagged accounting _)
    (fun _ accounting => enter_flagged accounting _)
  have cleared : (engine.clearAndEmit settling nodeId job).2.pendingMediaJobs =
      engine.pendingMediaJobs.delete nodeId := by
    obtain ⟨_, _, _, frame⟩ := flagged
    unfold clearAndEmit
    rw [frame]
    rfl
  have whole : Accounts
      (fun other =>
        if other = job then some settling.pricing.answer else none)
      engine (engine.clearAndEmit settling nodeId job).2 := by
    refine ⟨?_, accounts.jobs, accounts.facts⟩
    obtain ⟨_, _, _, _, _, _, frame⟩ := accounts.frame
    rw [frame]
    exact ⟨_, _, _, _, _, _, rfl⟩
  refine ⟨?_, ?_, whole⟩
  · refine books.of_accounts whole ?_ ?_ ?_
    · intro other held there
      rw [cleared, OrderedMap.get_delete] at there
      split at there
      · cases there
      · exact there
    · intro other given there answered
      have same : other = job := by
        by_contra different
        simp [different] at answered
      subst same
      obtain rfl : record = given := by simpa [found] using there
      rw [cleared, sameNode]
      refine ⟨?_, by simp⟩
      rcases pending with held | ⟨absent, accounted⟩
      · exact .inl (by simpa [holds, sameNode] using held)
      · exact .inr accounted
    · intro other given there unanswered held
      have different : other ≠ job := by
        rintro rfl
        simp at unanswered
      have otherNode : given.nodeId ≠ nodeId := by
        intro same
        rw [same] at held
        rcases pending with mine | ⟨absent, _⟩
        · exact different (Option.some.inj (held.symm.trans mine))
        · rw [absent] at held
          cases held
      rw [cleared, OrderedMap.get_delete_of_ne _ otherNode]
      exact held
  · have now := whole.jobs job
    rw [found] at now
    exact ⟨record.accounted, by simpa using now, by simpa using sameNode,
      .inr ⟨by simp [cleared], by simp⟩⟩

variable
  {record : MediaJob}

/-- Conserving the reservation of a job, as the poll loop does with a fault. -/
theorem detach_close_eq
    (found : engine.jobs[job]? = some record)
    (released : record.costAccounted = true → record.attached = false) :
    (engine.detach job).closeAttached record.attached job .settleAtReservedEstimate =
      { engine with
        jobs := engine.jobs.modify job MediaJob.accounted
        log := engine.log ++ if record.costAccounted then []
          else record.closing record.attached job
            .settleAtReservedEstimate } := by
  have detached : (engine.detach job).jobs[job]? =
      some { record with costAccounted := true, attached := false } := by
    simp [detach, found]
  rw [closeAttached_eq detached]
  unfold detach
  cases accounted : record.costAccounted with
  | true =>
    have attached := released accounted
    have kept : (engine.jobs.modify job fun record =>
          { record with costAccounted := true, attached := false }).modify
            job (·.close record.attached) =
        engine.jobs.modify job MediaJob.accounted := by
      rw [List.modify_modify_eq]
      refine modify_congr found ?_
      rw [Function.comp_apply, MediaJob.accounted, if_pos accounted,
        attached, MediaJob.close_false]
      cases record
      simp_all
    simp only [kept]
    simp [attached, MediaJob.closing]
  | false =>
    have closes : (engine.jobs.modify job fun record =>
          { record with costAccounted := true, attached := false }).modify
            job (·.close record.attached) =
        engine.jobs.modify job MediaJob.accounted := by
      rw [List.modify_modify_eq]
      refine modify_congr found ?_
      rw [MediaJob.accounted, if_neg (by simp [accounted]),
        Function.comp_apply]
      unfold MediaJob.close
      dsimp only
      split <;> rfl
    simp only [closes, MediaJob.closing]
    simp

theorem Books.failNodeInternal (books : engine.Books lossy) (nodeId : JsString) :
    (engine.failNodeInternal nodeId).Books lossy := by
  unfold Engine.failNodeInternal
  dsimp only
  split <;> split <;> exact books.of_same rfl rfl rfl

theorem Books.failNode (books : engine.Books lossy) (nodeId : JsString) :
    (engine.failNode nodeId).Books lossy := by
  unfold Engine.failNode
  split <;> exact books.of_same rfl rfl rfl

theorem Books.completeNode (books : engine.Books lossy) (nodeId : JsString) :
    (engine.completeNode nodeId).Books lossy := by
  unfold Engine.completeNode
  split <;> exact books.of_same rfl rfl rfl

/-- What the poll loop does with a fault keeps the books. -/
theorem Books.pollBackstop (books : engine.Books lossy) (tied : engine.Tied nodeId job) :
    (engine.pollBackstop nodeId job).Books lossy := by
  obtain ⟨record, found, sameNode, pending⟩ := tied
  have due : engine.holds job record = true ∨ record.costAccounted = true := by
    rcases pending with held | ⟨_, accounted⟩
    · exact .inl (by simpa [holds, sameNode] using held)
    · exact .inr accounted
  unfold Engine.pollBackstop
  split
  · exact books
  · rw [found]
    refine Books.failNodeInternal ?_ nodeId
    rw [detach_close_eq found (books.shape job record found).released]
    refine books.of_change record.accounted found ?_ ?_ record.accounted_nodeId rfl ?_ ?_ ?_ ?_
    · simp [Engine.clearMediaJob, found]
    · intro other different
      simp [Engine.clearMediaJob, List.getElem?_modify_ne _ _ (Ne.symm different)]
    · intro fact member
      split at member
      · cases member
      · exact MediaJob.job_of_mem_closing member
    · have unheld : ∀ engine : Engine,
          (engine.clearMediaJob nodeId).holds job record.accounted =
            false := by
        intro engine
        simp [holds, clearMediaJob, sameNode]
      rw [unheld]
      exact (books.shape job record found).conserve due
    · intro other given different there
      by_cases otherNode : given.nodeId = nodeId
      · have absent : engine.pendingMediaJobs.get given.nodeId ≠
            some other := by
          rw [otherNode]
          rcases pending with held | ⟨absent, _⟩
          · rw [held]
            exact fun same => different (Option.some.inj same).symm
          · rw [absent]
            exact Option.some_ne_none other |>.symm
        simp [clearMediaJob, otherNode]
        rw [← otherNode]
        exact absent
      · simp [clearMediaJob, OrderedMap.get_delete_of_ne _ otherNode]
    · intro other otherJob held
      right
      simp only [clearMediaJob, OrderedMap.get_delete] at held
      split at held
      · cases held
      · exact held

/-- A settlement inside the poll loop keeps the books. -/
theorem Books.guarded
    {settlement : Bool × Engine} (books : settlement.2.Books lossy)
    (tied : settlement.1 = false → settlement.2.Tied nodeId job) :
    (Engine.guarded nodeId job settlement).Books lossy := by
  unfold Engine.guarded
  split
  case isTrue => exact books
  case isFalse threw => exact books.pollBackstop (tied (by simpa using threw))

theorem Books.settleMediaJobFailed
    (books : engine.Books lossy) (tied : engine.Tied nodeId job) (settling : Settling) :
    (Engine.guarded nodeId job
      (engine.settleMediaJobFailed settling nodeId job)).Books lossy := by
  obtain ⟨next, still, _⟩ := clearAndEmit_spec books tied settling
  unfold Engine.settleMediaJobFailed
  refine Books.guarded ?_ ?_
  · dsimp only
    split
    · exact next.failNode nodeId
    · exact next
  · intro threw
    dsimp only at threw ⊢
    rw [if_neg (by simp [threw])]
    exact still

theorem Books.settleMediaJobDone
    (books : engine.Books lossy) (tied : engine.Tied nodeId job) (settling : Settling) :
    (Engine.guarded nodeId job
      (engine.settleMediaJobDone settling nodeId job)).Books lossy := by
  obtain ⟨next, still, _⟩ := clearAndEmit_spec books tied settling
  unfold Engine.settleMediaJobDone
  refine Books.guarded ?_ ?_
  · dsimp only
    split
    · exact next.of_same rfl rfl rfl
    · exact next
  · intro threw
    dsimp only at threw ⊢
    rw [if_neg (by simp [threw])]
    exact still

/-- A poll, up to the answer of the executor, keeps the books. -/
theorem Books.pollMediaJob
    (books : engine.Books lossy) (idle : engine.mediaAccountingDepth = 0) (clock : ClockRead)
    (canPoll opensDeadline : Bool) (settling : Settling) (nodeId : JsString) :
    (engine.pollMediaJob clock canPoll opensDeadline settling
      nodeId).Books lossy := by
  unfold Engine.pollMediaJob
  cases held : engine.pendingMediaJobs.get nodeId with
  | none => exact books
  | some job =>
    obtain ⟨record, found, sameNode⟩ := books.named nodeId job held
    have tied : engine.Tied nodeId job :=
      ⟨record, found, sameNode, .inl held⟩
    have entered := entered_enter engine clock.callback idle
    have next := entered.books books
    have still := entered.tied tied
    dsimp only
    rw [found]
    dsimp only
    split
    · exact books
    · split
      · exact next.pollBackstop still
      · split
        · exact next.settleMediaJobFailed still settling
        · split
          · exact next.pollBackstop still
          · exact next.of_same rfl rfl rfl

/-- The terminal of the run keeps the books. -/
theorem Books.settle
    (books : engine.Books lossy) (idle : engine.mediaAccountingDepth = 0)
    (pricings : Nat → Pricing) :
    (engine.settle pricings).Books lossy :=
  (entered_settle engine pricings idle).books books

theorem Books.answerPoll
    (books : engine.Books lossy) (idle : engine.mediaAccountingDepth = 0) (answer : PollAnswer)
    (timer : Callback) (arms : Bool) (settling : Settling)
    (mine : ∀ record, engine.jobs[job]? = some record →
      engine.pendingMediaJobs.has record.nodeId = true →
      engine.pendingMediaJobs.get record.nodeId = some job) :
    (engine.answerPoll answer timer arms settling job).Books lossy := by
  unfold Engine.answerPoll
  cases found : engine.jobs[job]? with
  | none => exact books
  | some record =>
    dsimp only
    split
    case isTrue => exact books
    case isFalse awaited =>
      have pending : engine.pendingMediaJobs.has record.nodeId = true := by
        simp only [not_or, Bool.not_eq_false] at awaited
        exact awaited.2.2
      have held := mine record found pending
      have tied : engine.Tied record.nodeId job :=
        ⟨record, found, rfl, .inl held⟩
      split
      · -- A pending answer only changes the backoff of the job.
        have slower : (engine.backOff job).jobs[job]? = some { record with
            backoffMs := min (record.backoffMs * 2) pollMaxMs } := by
          simp [Engine.backOff, found]
        have backedOff : (engine.backOff job).Books lossy := by
          have shape := books.shape job record found
          have isHeld : engine.holds job record = true := by
            simpa [holds] using held
          rw [isHeld] at shape
          obtain ⟨parked, unpaid, quiet⟩ := shape.of_held
          refine books.of_change _ found slower ?_ rfl (List.append_nil _).symm (by simp) ?_ ?_ ?_
          · intro other different
            simp [Engine.backOff, List.getElem?_modify_ne _ _ (Ne.symm different)]
          · have stillHeld : (engine.backOff job).holds job { record with
                backoffMs := min (record.backoffMs * 2) pollMaxMs } =
                true := isHeld
            rw [stillHeld, quiet]
            exact .parked parked ⟨unpaid.costAccounted, unpaid.unclosed, unpaid.attached⟩
          · intro other given _ _
            exact Iff.rfl
          · intro nodeId other there
            exact .inr there
        have stillTied : (engine.backOff job).Tied record.nodeId job :=
          ⟨_, slower, rfl, .inl held⟩
        have entered := entered_enter (engine.backOff job) timer idle
        split
        · exact backedOff
        · split
          · exact entered.books backedOff
          · exact (entered.books backedOff).settleMediaJobFailed (entered.tied stillTied) settling
      · exact books.settleMediaJobDone tied settling
      · exact books.settleMediaJobFailed tied settling

/-- A departing host keeps the books. -/
theorem Books.expireDepartureMedia
    (books : engine.Books lossy) (settling : Settling) (job : Nat) :
    (engine.expireDepartureMedia settling job).Books lossy := by
  unfold Engine.expireDepartureMedia
  cases found : engine.jobs[job]? with
  | none => exact books
  | some record =>
    dsimp only
    split
    case isTrue => exact books
    case isFalse awaited =>
      simp only [not_or, not_not] at awaited
      have tied : engine.Tied record.nodeId job :=
        ⟨record, found, rfl, .inl awaited.2.2⟩
      obtain ⟨next, _, _⟩ := clearAndEmit_spec books tied settling
      have settled :
          (engine.settleMediaJobFailed settling record.nodeId
            job).2.Books lossy := by
        unfold Engine.settleMediaJobFailed
        dsimp only
        split
        · exact next.failNode record.nodeId
        · exact next
      split
      · exact settled
      · exact settled.of_same rfl rfl rfl

/-- The write of the submission keeps the books. -/
theorem Books.publishJob
    (books : engine.Books lossy) (idle : engine.mediaAccountingDepth = 0) (written : Bool)
    (timer : Callback) (arms : Bool) (job : Nat) :
    (engine.publishJob written timer arms job).Books lossy := by
  unfold Engine.publishJob
  cases engine.jobs[job]? with
  | none => exact books
  | some record =>
    have entered := (entered_enter engine timer idle).books books
    dsimp only
    split
    · exact books.failNodeInternal record.nodeId
    · split
      · exact books
      · split
        · exact entered
        · exact entered.failNodeInternal record.nodeId

/-- The outcome of a pinning keeps the books. -/
theorem Books.pinJob (books : engine.Books lossy) (succeeded delivers : Bool) (job : Nat) :
    (engine.pinJob succeeded delivers job).Books lossy := by
  unfold Engine.pinJob
  cases engine.jobs[job]? with
  | none => exact books
  | some record =>
    have outcome : (if succeeded then engine.completeNode record.nodeId
        else engine.failNode record.nodeId).Books lossy := by
      split
      · exact books.completeNode record.nodeId
      · exact books.failNode record.nodeId
    dsimp only
    split
    · exact books
    · split
      · exact outcome
      · exact outcome.failNodeInternal record.nodeId

/-- A job that is in nobody's books yet: it travels, or its registration has
its admission. -/
theorem Entered.restore
    {before after : Engine} (found : before.jobs[job]? = some record)
    (unpending : job ∉ before.pendingMediaJobs.values)
    (entered : Entered (before.takeMediaJobAdmission job) after) :
    Entered before
      { after with jobs := after.jobs.modify job fun _ => record } := by
  have move : ∀ answers : Nat → Option PriceAnswer,
      answers job = none →
      Accounts answers (before.takeMediaJobAdmission job) after →
      Accounts answers before
        { after with jobs := after.jobs.modify job fun _ => record } := by
    intro answers unanswered accounts
    have taken : ∀ other, other ≠ job →
        (before.takeMediaJobAdmission job).jobs[other]? =
          before.jobs[other]? := by
      intro other different
      simp [takeMediaJobAdmission, List.getElem?_modify_ne _ _ (Ne.symm different)]
    constructor
    · obtain ⟨_, _, _, _, _, _, frame⟩ := accounts.frame
      rw [frame]
      exact ⟨_, _, _, _, _, _, rfl⟩
    · intro other
      by_cases same : other = job
      · subst same
        have now := accounts.jobs other
        rw [unanswered] at now ⊢
        simp [takeMediaJobAdmission, found] at now
        simp [now, found]
      · rw [List.getElem?_modify_ne _ _ (Ne.symm same), accounts.jobs, taken other same]
    · intro other
      rw [accounts.facts]
      by_cases same : other = job
      · subst same
        simp [unanswered, takeMediaJobAdmission]
      · unfold settlementOf
        rw [taken other same]
        rfl
  cases entered with
  | kept accounts pending => exact .kept (move _ rfl accounts) pending
  | swept pricings accounts pending =>
    refine .swept pricings (move _ ?_ accounts) pending
    exact if_neg unpending

/-- The registration keeps the admission of a job it hands to nobody, and
closes it. -/
theorem Books.refuseJob
    (books : Engine.Books
      { engine with jobs := engine.jobs.modify job fun _ => record } lossy)
    (found : engine.jobs[job]? = some { record with attached := false })
    (arriving : record.stage = .arriving) :
    (engine.refuseJob record.attached job).Books lossy := by
  have restored : (engine.jobs.modify job fun _ => record)[job]? =
      some record := by
    simp [found]
  obtain ⟨unheld, unpaid, quiet⟩ :=
    (books.shape job record restored).of_travelling (.inr arriving)
  have refused : ({ engine with
      jobs := engine.jobs.modify job fun record =>
        { record with stage := .refused } } : Engine).jobs[job]? =
      some { record with attached := false, stage := .refused } := by
    simp [found]
  have last : MediaJob.close record.attached
      { record with attached := false, stage := .refused } =
        record.unregistered := by
    unfold MediaJob.unregistered MediaJob.close
    dsimp only
    split <;> rfl
  have sameNode : record.unregistered.nodeId = record.nodeId :=
    record.close_nodeId record.attached
  unfold Engine.refuseJob
  rw [closeAttached_eq refused]
  refine books.of_change record.unregistered restored ?_ ?_ sameNode rfl
    (fun fact => MediaJob.job_of_mem_closing) ?_ ?_ ?_
  · simp [found, last]
  · intro other different
    simp [List.getElem?_modify_ne _ _ (Ne.symm different)]
  · have stillUnheld : decide (engine.pendingMediaJobs.get
        record.unregistered.nodeId = some job) = false := by
      rw [sameNode]
      exact unheld
    rw [quiet, List.nil_append, holds, stillUnheld]
    exact .refused unpaid
  · intro other given _ _
    exact Iff.rfl
  · intro nodeId other there
    exact .inr there

/-- The pending map takes the job, with its admission. -/
theorem Books.parkJob
    (books : Engine.Books
      { engine with jobs := engine.jobs.modify job fun _ => record } lossy)
    (found : engine.jobs[job]? = some { record with attached := false })
    (arriving : record.stage = .arriving)
    (vacant : engine.pendingMediaJobs.get record.nodeId = none)
    (deadlineAt : Nat) :
    (engine.parkJob record.attached record.nodeId deadlineAt
      job).Books lossy := by
  have restored : (engine.jobs.modify job fun _ => record)[job]? =
      some record := by
    simp [found]
  obtain ⟨_, unpaid, quiet⟩ :=
    (books.shape job record restored).of_travelling (.inr arriving)
  unfold Engine.parkJob
  refine books.of_change
    { record with
      stage := .parked
      deadlineAt
      backoffMs := pollInitialMs }
    restored ?_ ?_ rfl (List.append_nil _).symm (by simp) ?_ ?_ ?_
  · simp [found]
  · intro other different
    simp [List.getElem?_modify_ne _ _ (Ne.symm different)]
  · have isHeld : ((engine.pendingMediaJobs.set record.nodeId job).get
        record.nodeId) = some job := OrderedMap.get_set_self ..
    rw [quiet, List.nil_append, holds, decide_eq_true isHeld]
    exact .parked rfl ⟨unpaid.costAccounted, unpaid.unclosed, unpaid.attached⟩
  · intro other given different there
    by_cases sameNode : given.nodeId = record.nodeId
    · simp [sameNode, vacant, Ne.symm different]
    · simp [OrderedMap.get_set_of_ne _ sameNode]
  · intro nodeId other there
    by_cases sameNode : nodeId = record.nodeId
    · left
      rw [sameNode, OrderedMap.get_set_self] at there
      exact ⟨(Option.some.inj there).symm, sameNode⟩
    · right
      simpa [OrderedMap.get_set_of_ne _ sameNode] using there

/-- The registration of a submission keeps the books: the pending map takes
the job, or its admission is closed at its estimate. -/
theorem Books.settleMediaJobParked
    (books : engine.Books lossy) (idle : engine.mediaAccountingDepth = 0) (clock : ClockRead)
    (deadlineMs : Option Nat) (found : engine.jobs[job]? = some record)
    (arriving : record.stage = .arriving)
    (vacant : engine.pendingMediaJobs.get record.nodeId = none) :
    (engine.settleMediaJobParked clock deadlineMs job).Books lossy := by
  obtain ⟨_, unpaid, _⟩ :=
    (books.shape job record found).of_travelling (.inr arriving)
  have paused : (engine.setStatus record.nodeId .paused).Books lossy :=
    books.of_same rfl rfl rfl
  have unpending : job ∉ engine.pendingMediaJobs.values := by
    intro inside
    obtain ⟨nodeId, there⟩ :=
      (engine.pendingMediaJobs.mem_values_iff job).mp inside
    obtain ⟨other, otherFound, sameNode⟩ := books.named nodeId job there
    obtain rfl : other = record := by simpa [found] using otherFound.symm
    rw [sameNode, there] at vacant
    cases vacant
  unfold Engine.settleMediaJobParked
  rw [found]
  dsimp only
  have entered := entered_enter
    ((engine.setStatus record.nodeId .paused).takeMediaJobAdmission job)
    clock.callback idle
  revert entered
  generalize ((engine.setStatus record.nodeId .paused).takeMediaJobAdmission
    job).enter clock.callback = after
  intro entered
  have there : after.jobs[job]? = some { record with attached := false } := by
    rw [entered.untouched unpending]
    simp [setStatus, takeMediaJobAdmission, found]
  have restored : Entered (engine.setStatus record.nodeId .paused)
      { after with jobs := after.jobs.modify job fun _ => record } :=
    .restore found unpending entered
  have next := restored.books paused
  split
  · exact (next.refuseJob there arriving).failNodeInternal record.nodeId
  · split
    · exact next.refuseJob there arriving
    · exact next.parkJob there arriving (entered.vacant vacant) _

end

end Engine

end MediaJobs
end Relavium.Run
