import Relavium.Library.Counting
import Relavium.Run.MediaJobs

/-!
# What accounting for a media job does

Whatever enters the engine while a job is accounted for, the accounting does
one thing to the money of the run: it closes the admission of the job, if the
job still has it, and records what it observed.  A second accounting of the
same job does nothing, so the sweep of the terminal may come in between.
-/

namespace Relavium.Run
namespace MediaJobs

open Library

/-- The closing a price calls for. -/
def PriceAnswer.closing : PriceAnswer → Closing
  | .priced costMicrocents => .settle costMicrocents
  | _ => .settleAtReservedEstimate

/-- The addend a price leads to. -/
def PriceAnswer.addends (job : Nat) : PriceAnswer → List Fact
  | .priced costMicrocents => [.addend job costMicrocents true]
  | .unpriced costMicrocents => [.addend job costMicrocents false]
  | .fault => []

namespace MediaJob

/-- The job after a closing through a reference to its admission. -/
def close (attached : Bool) (record : MediaJob) : MediaJob :=
  if attached = true ∧ record.lease = .opened then
    { record with lease := .closed }
  else record

/-- The closing that counts, if one does. -/
def closing (record : MediaJob) (attached : Bool) (job : Nat)
    (how : Closing) : List Fact :=
  if attached = true ∧ record.lease = .opened then [.closed job how] else []

/-- The job after its accounting. -/
def accounted (record : MediaJob) : MediaJob :=
  if record.costAccounted then record
  else
    { record.close record.attached with
      costAccounted := true
      attached := false }

/-- What the accounting of a job records. -/
def settlement (record : MediaJob) (job : Nat)
    (answer : PriceAnswer) : List Fact :=
  if record.costAccounted then []
  else
    .priced job answer ::
      (record.closing record.attached job answer.closing ++ answer.addends job)

@[simp] theorem accounted_costAccounted (record : MediaJob) :
    record.accounted.costAccounted = true := by
  unfold accounted
  split
  case isTrue accounted => exact accounted
  case isFalse => rfl

@[simp] theorem accounted_accounted (record : MediaJob) :
    record.accounted.accounted = record.accounted := by
  rw [accounted, if_pos record.accounted_costAccounted]

@[simp] theorem settlement_accounted (record : MediaJob) (job : Nat) (answer : PriceAnswer) :
    record.accounted.settlement job answer = [] := by
  rw [settlement.eq_def, if_pos record.accounted_costAccounted]

@[simp] theorem close_nodeId (attached : Bool) (record : MediaJob) :
    (record.close attached).nodeId = record.nodeId := by
  unfold close
  split <;> rfl

@[simp] theorem close_stage (attached : Bool) (record : MediaJob) :
    (record.close attached).stage = record.stage := by
  unfold close
  split <;> rfl

@[simp] theorem accounted_nodeId (record : MediaJob) :
    record.accounted.nodeId = record.nodeId := by
  unfold accounted
  split <;> simp

@[simp] theorem accounted_stage (record : MediaJob) :
    record.accounted.stage = record.stage := by
  unfold accounted
  split <;> simp

theorem close_false (record : MediaJob) : record.close false = record := by
  simp [close]

theorem job_of_mem_closing
    {record : MediaJob} {attached : Bool} {job : Nat} {how : Closing} {fact : Fact}
    (member : fact ∈ record.closing attached job how) :
    fact.job = job := by
  unfold closing at member
  split at member
  · rw [List.mem_singleton.mp member]
    rfl
  · cases member

theorem job_of_mem_settlement
    {record : MediaJob} {job : Nat} {answer : PriceAnswer} {fact : Fact}
    (member : fact ∈ record.settlement job answer) :
    fact.job = job := by
  unfold settlement at member
  split at member
  · cases member
  · rcases List.mem_cons.mp member with rfl | member
    · rfl
    · rcases List.mem_append.mp member with closes | adds
      · exact job_of_mem_closing closes
      · cases answer with
        | fault => cases adds
        | priced costMicrocents | unpriced costMicrocents => rw [List.mem_singleton.mp adds]; rfl

end MediaJob

/-- The facts about one job. -/
def factsOf (job : Nat) (log : List Fact) : List Fact :=
  log.filter fun fact => decide (fact.job = job)

theorem factsOf_append (job : Nat) (first second : List Fact) :
    factsOf job (first ++ second) = factsOf job first ++ factsOf job second :=
  List.filter_append ..

theorem factsOf_of_forall
    {job : Nat} {facts : List Fact} (all : ∀ fact ∈ facts, fact.job = job) (other : Nat) :
    factsOf other facts = if other = job then facts else [] := by
  by_cases same : other = job
  · rw [if_pos same, factsOf, List.filter_eq_self]
    intro fact member
    exact decide_eq_true ((all fact member).trans same.symm)
  · rw [if_neg same, factsOf, List.filter_eq_nil_iff]
    intro fact member
    have different : fact.job ≠ other := fun equal =>
      same (equal.symm.trans (all fact member))
    simpa using different

namespace Engine

/-- What the accounting of a job would record now. -/
def settlementOf (engine : Engine) (job : Nat)
    (answer : PriceAnswer) : List Fact :=
  (engine.jobs[job]?).elim [] fun record => record.settlement job answer

/-- Nothing but the flags of the terminal differs. -/
def Flagged (before after : Engine) : Prop :=
  ∃ settled aborted sweepDue,
    after = { before with settled, aborted, sweepDue }

theorem Flagged.refl (engine : Engine) : Flagged engine engine :=
  ⟨engine.settled, engine.aborted, engine.sweepDue, rfl⟩

/-- While a job is accounted for, a terminal only raises its flags. -/
theorem enter_flagged
    {engine : Engine} (accounting : 0 < engine.mediaAccountingDepth) (callback : Callback) :
    Flagged engine (engine.enter callback) := by
  unfold enter
  split
  · exact .refl engine
  · unfold settle
    split
    · exact .refl engine
    · rw [if_pos accounting]
      exact ⟨true, true, true, rfl⟩

variable
  {record : MediaJob}
  {job : Nat}

theorem closeAttached_eq
    {engine : Engine} (found : engine.jobs[job]? = some record) (attached : Bool)
    (how : Closing) :
    engine.closeAttached attached job how =
      { engine with
        jobs := engine.jobs.modify job (·.close attached)
        log := engine.log ++ record.closing attached job how } := by
  cases attached with
  | false =>
    have same : engine.jobs.modify job (·.close false) = engine.jobs :=
      modify_eq_self_of_eq found record.close_false
    rw [same]
    simp [closeAttached, MediaJob.closing]
  | true =>
    simp only [closeAttached, if_true, closeAdmission, found, MediaJob.closing, true_and]
    by_cases opened : record.lease = .opened
    · have same : engine.jobs.modify job (fun record => { record with lease := Lease.closed }) =
          engine.jobs.modify job (·.close true) :=
        modify_congr found (by rw [MediaJob.close, if_pos ⟨rfl, opened⟩])
      rw [if_pos opened, if_pos opened, same]
    · have same : engine.jobs.modify job (·.close true) = engine.jobs :=
        modify_eq_self_of_eq found (by simp [MediaJob.close, opened])
      rw [if_neg opened, if_neg opened, same]
      simp

/-- A closing through a reference the job no longer has. -/
theorem closeAttached_of_closed
    (engine : Engine) (found : engine.jobs[job]? = some record) (attached : Bool)
    (closed : attached = true → record.lease ≠ .opened) (how : Closing) :
    engine.closeAttached attached job how = engine := by
  have kept : ¬(attached = true ∧ record.lease = .opened) :=
    fun both => closed both.1 both.2
  have same : engine.jobs.modify job (·.close attached) = engine.jobs :=
    modify_eq_self_of_eq found (by rw [MediaJob.close, if_neg kept])
  rw [closeAttached_eq found, same, MediaJob.closing, if_neg kept]
  simp

/-- A first closing leaves nothing for a second one. -/
theorem lease_close {attached : Bool} (open_ : attached = true) :
    (record.close attached).lease ≠ .opened := by
  unfold MediaJob.close
  split
  case isTrue => simp
  case isFalse kept => exact fun opened => kept ⟨open_, opened⟩

theorem account_eq
    (engine : Engine) (found : engine.jobs[job]? = some record) (attached : Bool)
    (costMicrocents : Nat) (priced : Bool) (sinkFails : Bool) (onSink : Engine → Engine)
    (accounting : 0 < engine.mediaAccountingDepth)
    (flags : ∀ engine : Engine, 0 < engine.mediaAccountingDepth →
      Flagged engine (onSink engine)) :
    Flagged
      { engine with
        jobs := engine.jobs.modify job (·.close attached)
        log := engine.log ++
          (record.closing attached job
            (if priced then .settle costMicrocents
              else .settleAtReservedEstimate) ++
            [.addend job costMicrocents priced]) }
      (engine.account attached job costMicrocents priced sinkFails
        onSink).2 := by
  unfold account
  rw [closeAttached_eq found]
  simp only [observe]
  obtain ⟨settled, aborted, sweepDue, flagged⟩ := flags
    { engine with
      jobs := engine.jobs.modify job (·.close attached)
      log := engine.log ++ record.closing attached job
        (if priced then .settle costMicrocents
          else .settleAtReservedEstimate) ++
        [.addend job costMicrocents priced] } accounting
  rw [flagged]
  cases sinkFails with
  | false =>
    refine ⟨settled, aborted, sweepDue, ?_⟩
    simp
  | true =>
    have closed : (engine.jobs.modify job (·.close attached))[job]? =
        some (record.close attached) := by
      simp [found]
    simp only [if_true]
    rw [closeAttached_of_closed
      { engine with
        settled
        aborted
        sweepDue
        jobs := engine.jobs.modify job (·.close attached)
        log := _ } closed attached lease_close]
    exact ⟨settled, aborted, sweepDue, by simp⟩

/-- The engine once a job has been accounted for. -/
def afterAccounting (engine : Engine) (job : Nat)
    (answer : PriceAnswer) : Engine :=
  { engine with
    jobs := engine.jobs.modify job MediaJob.accounted
    log := engine.log ++ engine.settlementOf job answer }

theorem emit_flagged
    (engine : Engine) (onPrice onSink : Engine → Engine) (pricing : Pricing) (job : Nat)
    (priceFlags : ∀ engine : Engine, 0 < engine.mediaAccountingDepth →
      Flagged engine (onPrice engine))
    (sinkFlags : ∀ engine : Engine, 0 < engine.mediaAccountingDepth →
      Flagged engine (onSink engine)) :
    Flagged (engine.afterAccounting job pricing.answer)
      (engine.emitMediaJobCost onPrice onSink pricing job).2 := by
  unfold emitMediaJobCost afterAccounting settlementOf
  cases found : engine.jobs[job]? with
  | none =>
    have outside : engine.jobs.length ≤ job :=
      List.getElem?_eq_none_iff.mp found
    rw [List.modify_eq_self outside]
    simpa using Flagged.refl engine
  | some record =>
    dsimp only [Option.elim_some]
    by_cases accounted : record.costAccounted = true
    · have same : engine.jobs.modify job MediaJob.accounted = engine.jobs :=
        modify_eq_self_of_eq found (by rw [MediaJob.accounted, if_pos accounted])
      rw [if_pos accounted, same, MediaJob.settlement, if_pos accounted]
      simpa using Flagged.refl engine
    · rw [if_neg accounted, MediaJob.settlement, if_neg accounted]
      obtain ⟨settled, aborted, sweepDue, entered⟩ := priceFlags
        { engine.detach job with
          mediaAccountingDepth :=
            (engine.detach job).mediaAccountingDepth + 1 }
        (Nat.succ_pos _)
      rw [entered]
      -- The record after the detachment keeps its lease.
      have detached : (engine.jobs.modify job fun record =>
          { record with costAccounted := true, attached := false })[job]? =
          some { record with costAccounted := true, attached := false } := by
        simp [found]
      have closes : ∀ attached : Bool, attached = record.attached →
          (engine.jobs.modify job fun record =>
            { record with costAccounted := true, attached := false }).modify
              job (·.close attached) =
          engine.jobs.modify job MediaJob.accounted := by
        rintro attached rfl
        rw [List.modify_modify_eq]
        refine modify_congr found ?_
        rw [MediaJob.accounted, if_neg accounted, Function.comp_apply]
        unfold MediaJob.close
        dsimp only
        split <;> rfl
      cases answer : pricing.answer with
      | fault =>
        dsimp only
        rw [closeAttached_eq detached]
        refine ⟨settled, aborted, sweepDue, ?_⟩
        simp only [detach, observe, closes record.attached rfl]
        simp [PriceAnswer.closing, PriceAnswer.addends, MediaJob.closing]
      | priced costMicrocents =>
        obtain ⟨settled', aborted', sweepDue', ends⟩ := account_eq
          { engine.detach job with
            settled
            aborted
            sweepDue
            mediaAccountingDepth :=
              (engine.detach job).mediaAccountingDepth + 1
            log := engine.log ++ [.priced job (.priced costMicrocents)] }
          detached record.attached costMicrocents true pricing.sinkFails
          onSink (Nat.succ_pos _) sinkFlags
        refine ⟨settled', aborted', sweepDue', ?_⟩
        simp only [observe, detach] at ends ⊢
        rw [ends]
        simp [closes record.attached rfl, PriceAnswer.closing,
          PriceAnswer.addends, MediaJob.closing]
      | unpriced costMicrocents =>
        obtain ⟨settled', aborted', sweepDue', ends⟩ := account_eq
          { engine.detach job with
            settled
            aborted
            sweepDue
            mediaAccountingDepth :=
              (engine.detach job).mediaAccountingDepth + 1
            log := engine.log ++ [.priced job (.unpriced costMicrocents)] }
          detached record.attached costMicrocents false pricing.sinkFails
          onSink (Nat.succ_pos _) sinkFlags
        refine ⟨settled', aborted', sweepDue', ?_⟩
        simp only [observe, detach] at ends ⊢
        rw [ends]
        simp [closes record.attached rfl, PriceAnswer.closing,
          PriceAnswer.addends, MediaJob.closing]

end Engine

/-- From one state to the other the answered jobs were accounted for, once
each, and nothing but the flags and the pending map changed besides. -/
structure Accounts (answers : Nat → Option PriceAnswer)
    (before after : Engine) : Prop where
  frame : ∃ settled aborted sweepDue pendingMediaJobs jobs log,
    after = { before with
      settled, aborted, sweepDue, pendingMediaJobs, jobs, log }
  jobs : ∀ job, after.jobs[job]? =
    if (answers job).isSome then (before.jobs[job]?).map MediaJob.accounted
    else before.jobs[job]?
  facts : ∀ job, factsOf job after.log =
    factsOf job before.log ++ (answers job).elim [] (before.settlementOf job)

namespace Accounts

theorem refl (engine : Engine) : Accounts (fun _ => none) engine engine where
  frame := ⟨_, _, _, _, _, _, rfl⟩
  jobs := by simp
  facts := by simp

/-- What is accounted for twice counts once. -/
theorem trans
    {first second : Nat → Option PriceAnswer} {before middle after : Engine}
    (earlier : Accounts first before middle) (later : Accounts second middle after) :
    Accounts (fun job => first job <|> second job) before after where
  frame := by
    obtain ⟨_, _, _, _, _, _, middle_eq⟩ := earlier.frame
    obtain ⟨_, _, _, _, _, _, after_eq⟩ := later.frame
    rw [middle_eq] at after_eq
    exact ⟨_, _, _, _, _, _, after_eq⟩
  jobs := by
    intro job
    rw [later.jobs, earlier.jobs]
    cases first job <;> cases second job <;> simp [Function.comp_def]
  facts := by
    intro job
    rw [later.facts, earlier.facts, List.append_assoc]
    congr 1
    have found := earlier.jobs job
    unfold Engine.settlementOf
    rw [found]
    cases first job <;> cases second job <;>
      cases before.jobs[job]? <;> simp

variable
  {answers : Nat → Option PriceAnswer}

/-- Flags do not matter. -/
theorem of_flagged
    {before middle after : Engine} (accounts : Accounts answers before middle)
    (flagged : Engine.Flagged middle after) :
    Accounts answers before after := by
  obtain ⟨settled, aborted, sweepDue, rfl⟩ := flagged
  obtain ⟨_, _, _, _, _, _, frame⟩ := accounts.frame
  refine ⟨?_, accounts.jobs, accounts.facts⟩
  rw [frame]
  exact ⟨_, _, _, _, _, _, rfl⟩

/-- Flags at the start do not matter either. -/
theorem of_flags
    {before after : Engine} {settled aborted : Bool}
    (accounts : Accounts answers { before with settled, aborted } after) :
    Accounts answers before after := by
  obtain ⟨_, _, _, _, _, _, frame⟩ := accounts.frame
  refine ⟨?_, accounts.jobs, accounts.facts⟩
  rw [frame]
  exact ⟨_, _, _, _, _, _, rfl⟩

theorem withPending
    {before after : Engine} (accounts : Accounts answers before after)
    (pendingMediaJobs : OrderedMap JsString Nat) (sweepDue : Bool) :
    Accounts answers before { after with pendingMediaJobs, sweepDue } := by
  obtain ⟨_, _, _, _, _, _, frame⟩ := accounts.frame
  refine ⟨?_, accounts.jobs, accounts.facts⟩
  rw [frame]
  exact ⟨_, _, _, _, _, _, rfl⟩

theorem afterAccounting (engine : Engine) (job : Nat) (answer : PriceAnswer) :
    Accounts (fun other => if other = job then some answer else none)
      engine (engine.afterAccounting job answer) where
  frame := ⟨_, _, _, _, _, _, rfl⟩
  jobs := by
    intro other
    unfold Engine.afterAccounting
    by_cases same : other = job
    · simp [same]
    · rw [List.getElem?_modify_ne _ _ (Ne.symm same)]
      simp [same]
  facts := by
    intro other
    unfold Engine.afterAccounting
    rw [factsOf_append]
    congr 1
    have about : ∀ fact ∈ engine.settlementOf job answer, fact.job = job := by
      intro fact member
      unfold Engine.settlementOf at member
      cases found : engine.jobs[job]? with
      | none => simp [found] at member
      | some record =>
        simp only [found, Option.elim_some] at member
        exact MediaJob.job_of_mem_settlement member
    rw [factsOf_of_forall about]
    by_cases same : other = job <;> simp [same]

/-- Accounting for one job, whatever the host does in between. -/
theorem emit (engine : Engine) (onPrice onSink : Engine → Engine) (pricing : Pricing) (job : Nat)
    (priceFlags : ∀ engine : Engine, 0 < engine.mediaAccountingDepth →
      Engine.Flagged engine (onPrice engine))
    (sinkFlags : ∀ engine : Engine, 0 < engine.mediaAccountingDepth →
      Engine.Flagged engine (onSink engine)) :
    Accounts (fun other => if other = job then some pricing.answer else none)
      engine (engine.emitMediaJobCost onPrice onSink pricing job).2 :=
  (afterAccounting engine job pricing.answer).of_flagged
    (engine.emit_flagged onPrice onSink pricing job priceFlags sinkFlags)

theorem foldl_emit (pricings : Nat → Pricing) (jobs : List Nat) (engine : Engine) :
    Accounts (fun job => if job ∈ jobs then some (pricings job).answer else none) engine
      (jobs.foldl
        (fun engine job =>
          (engine.emitMediaJobCost (fun engine => engine)
            (fun engine => engine) (pricings job) job).2)
        engine) := by
  induction jobs generalizing engine with
  | nil => simpa using refl engine
  | cons job jobs ih =>
    have first := emit engine (fun engine => engine) (fun engine => engine)
      (pricings job) job (fun engine _ => .refl engine)
      (fun engine _ => .refl engine)
    have both := first.trans (ih _)
    have answers : (fun other =>
        (if other = job then some (pricings job).answer else none) <|>
          if other ∈ jobs then some (pricings other).answer else none) =
        fun other =>
          if other ∈ job :: jobs then some (pricings other).answer
          else none := by
      funext other
      by_cases same : other = job
      · simp [same]
      · simp [same]
    rw [answers] at both
    exact both

theorem sweep (engine : Engine) (pricings : Nat → Pricing) :
    Accounts
      (fun job =>
        if job ∈ engine.pendingMediaJobs.values then
          some (pricings job).answer
        else none)
      engine (engine.sweep pricings) :=
  (foldl_emit pricings engine.pendingMediaJobs.values engine).withPending .empty false

end Accounts

end MediaJobs
end Relavium.Run
