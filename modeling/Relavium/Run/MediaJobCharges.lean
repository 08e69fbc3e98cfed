import Relavium.Library.Trace
import Relavium.Run.MediaJobNodes

/-!
# Every media job is charged once

The books and the nodes of a run are kept by every event.  The admission of a
submission is closed once, at the price the job came to, and after a job has
left the pending map a poll of it changes nothing.  Two events lose an
admission: an ignored outcome of a dispatch that carries a submission, and the
loss of the ownership of the run while jobs are pending.
-/

namespace Relavium.Run
namespace MediaJobs

open Library

namespace Fact

/-- The closing a fact records. -/
def closing? : Fact → Option Closing
  | .closed _ how => some how
  | _ => none

/-- The price a fact records. -/
def price? : Fact → Option PriceAnswer
  | .priced _ answer => some answer
  | _ => none

/-- The addend a fact records. -/
def addend? : Fact → Option Nat
  | .addend _ costMicrocents _ => some costMicrocents
  | _ => none

end Fact

/-- How the admission of a job was closed. -/
def closings (job : Nat) (log : List Fact) : List Closing :=
  (factsOf job log).filterMap Fact.closing?

/-- What the job was priced at. -/
def prices (job : Nat) (log : List Fact) : List PriceAnswer :=
  (factsOf job log).filterMap Fact.price?

/-- The `cost:updated` addends of the job. -/
def addends (job : Nat) (log : List Fact) : List Nat :=
  (factsOf job log).filterMap Fact.addend?

/-- The closing the prices of a job call for. -/
def closingOf : List PriceAnswer → Closing
  | [answer] => answer.closing
  | _ => .settleAtReservedEstimate

namespace Engine

/-- The job is on its way from the executor no more, and not pending. -/
def Finished (engine : Engine) (job : Nat) (record : MediaJob) : Prop :=
  record.stage ≠ .returned ∧ record.stage ≠ .arriving ∧
    engine.pendingMediaJobs.get record.nodeId ≠ some job

/-- Every admission is closed when its job is finished, once, at its price. -/
structure ChargedOnce (engine : Engine) : Prop where
  unfinished : ∀ (job : Nat) (record : MediaJob),
    engine.jobs[job]? = some record → ¬engine.Finished job record →
    closings job engine.log = []
  finished : ∀ (job : Nat) (record : MediaJob),
    engine.jobs[job]? = some record → engine.Finished job record →
    record.lease ≠ .absent →
    closings job engine.log = [closingOf (prices job engine.log)]
  unadmitted : ∀ (job : Nat) (record : MediaJob),
    engine.jobs[job]? = some record → record.lease = .absent →
    closings job engine.log = []
  addend : ∀ job, (addends job engine.log).length ≤ 1
  /-- Once the terminal has swept, nothing is pending any more. -/
  ended : engine.settled = true → engine.sweepDue = false →
    ∀ nodeId, engine.pendingMediaJobs.get nodeId = none

/-- A poll of the job: a tick of the node, or an answer for the job. -/
def IsPoll (job : Nat) (nodeId : JsString) : Event → Prop
  | .polled polled _ _ _ _ => polled = nodeId
  | .answered answered _ _ _ _ => answered = job
  | _ => False

/-- A poll of a job that has left the pending map changes neither its node nor
the ledger. -/
def PollsEnd (engine : Engine) : Prop :=
  ∀ (job : Nat) (record : MediaJob),
    engine.jobs[job]? = some record → record.stage = .parked →
    engine.pendingMediaJobs.get record.nodeId ≠ some job →
    ∀ (event : Event) (after : Engine), IsPoll job record.nodeId event →
      MediaStep engine event after →
      after.states = engine.states ∧ after.log = engine.log

/-- The event loses no admission: a dispatch that carries a submission is not
ignored, and the ownership of the run is not lost while jobs are pending. -/
def meets (engine : Engine) : Event → Bool
  | .attempted dispatch =>
    (engine.dispatches[dispatch]?).all fun loop =>
      engine.isLive loop.nodeId dispatch
  | .arrived dispatch _ _ =>
    (engine.dispatches[dispatch]?).all fun loop =>
      !engine.settled && !engine.nodeSettled loop.nodeId
  | .fenced => engine.pendingMediaJobs.values.isEmpty
  | _ => true

end Engine

/-- What a shape says about the charges of its job. -/
structure Charges (record : MediaJob) (held : Bool) (facts : List Fact) :
    Prop where
  unfinished :
    record.stage = .returned ∨ record.stage = .arriving ∨ held = true →
    facts.filterMap Fact.closing? = []
  finished :
    record.stage ≠ .returned → record.stage ≠ .arriving → held = false →
    record.lease ≠ .absent →
    facts.filterMap Fact.closing? = [closingOf (facts.filterMap Fact.price?)]
  unadmitted : record.lease = .absent → facts.filterMap Fact.closing? = []
  addend : (facts.filterMap Fact.addend?).length ≤ 1

namespace Unpaid

variable {given : MediaJob}

theorem closing_eq (unpaid : Unpaid given) (job : Nat) (how : Closing) :
    given.closing given.attached job how =
      if given.lease = .absent then [] else [.closed job how] := by
  unfold MediaJob.closing
  cases lease : given.lease with
  | absent => simp
  | opened => simp [unpaid.attached lease]
  | closed => exact absurd lease unpaid.unclosed

/-- A closing takes no admission away. -/
theorem close_lease (unpaid : Unpaid given) :
    (given.close given.attached).lease = .absent ↔ given.lease = .absent := by
  unfold MediaJob.close
  cases lease : given.lease with
  | absent => simp [lease]
  | opened => simp [unpaid.attached lease]
  | closed => exact absurd lease unpaid.unclosed

theorem accounted_lease (unpaid : Unpaid given) :
    given.accounted.lease = .absent ↔ given.lease = .absent := by
  rw [← unpaid.close_lease]
  unfold MediaJob.accounted
  rw [if_neg (by simp [unpaid.costAccounted])]

end Unpaid

theorem Shape.charges
    {job : Nat} {record : MediaJob} {held : Bool} {facts : List Fact}
    (shape : Shape False job record held facts) :
    Charges record held facts := by
  cases shape with
  | travelling stage unpaid =>
    refine ⟨fun _ => rfl, ?_, fun _ => rfl, Nat.zero_le 1⟩
    intro unreturned unarrived
    rcases stage with returned | arriving
    · exact absurd returned unreturned
    · exact absurd arriving unarrived
  | parked stage unpaid =>
    exact ⟨fun _ => rfl, fun _ _ held => Bool.noConfusion held, fun _ => rfl, Nat.zero_le 1⟩
  | accounted stage unpaid =>
    rename_i given answer
    have closes : given.settlement job answer = .priced job answer ::
        ((if given.lease = .absent then []
          else [.closed job answer.closing]) ++ answer.addends job) := by
      unfold MediaJob.settlement
      rw [if_neg (by simp [unpaid.costAccounted]), unpaid.closing_eq]
    rw [closes]
    refine ⟨?_, ?_, ?_, ?_⟩
    · simp [stage]
    · intro _ _ _ admitted
      have present : given.lease ≠ .absent :=
        fun absent => admitted (unpaid.accounted_lease.mpr absent)
      rw [if_neg present]
      cases answer <;> rfl
    · intro unadmitted
      have absent := unpaid.accounted_lease.mp unadmitted
      rw [if_pos absent]
      cases answer <;> rfl
    · split <;> cases answer <;> exact Nat.le_of_ble_eq_true rfl
  | conserved stage unpaid =>
    rename_i given
    rw [unpaid.closing_eq]
    refine ⟨?_, ?_, ?_, ?_⟩
    · simp [stage]
    · intro _ _ _ admitted
      have present : given.lease ≠ .absent :=
        fun absent => admitted (unpaid.accounted_lease.mpr absent)
      rw [if_neg present]
      rfl
    · intro unadmitted
      have absent := unpaid.accounted_lease.mp unadmitted
      rw [if_pos absent]
      rfl
    · split <;> exact Nat.le_of_ble_eq_true rfl
  | refused unpaid =>
    rename_i given
    rw [unpaid.closing_eq]
    refine ⟨?_, ?_, ?_, ?_⟩
    · simp [MediaJob.unregistered]
    · intro _ _ _ admitted
      have present : given.lease ≠ .absent :=
        fun absent => admitted (unpaid.close_lease.mpr absent)
      rw [if_neg present]
      rfl
    · intro unadmitted
      have absent := unpaid.close_lease.mp unadmitted
      rw [if_pos absent]
      rfl
    · split <;> exact Nat.le_of_ble_eq_true rfl
  | dropped lossy | lost lossy => exact lossy.elim

namespace Engine

/-- What every event of a run keeps. -/
structure Sound (engine : Engine) (lossy : Prop) : Prop where
  books : engine.Books lossy
  nodes : engine.Nodes
  idle : engine.mediaAccountingDepth = 0
  drained : engine.settled = true → engine.sweepDue = false →
    engine.pendingMediaJobs = .empty

namespace Sound

variable {before after engine : Engine} {lossy : Prop}

theorem start (nodeIds : List JsString) :
    (Engine.start nodeIds).Sound lossy where
  books := by
    refine ⟨?_, ?_, fun _ _ => rfl⟩
    · simp [Engine.start]
    · simp [Engine.start]
  nodes := by
    constructor <;> simp [Engine.start]
  idle := rfl
  drained _ _ := rfl

theorem follow
    (sound : before.Sound lossy) (follows : Follows before after) (books : after.Books lossy) :
    after.Sound lossy where
  books := books
  nodes := follows.nodes sound.nodes
  idle := follows.depth.trans sound.idle
  drained ended due := by
    rcases follows.drains.ends ended due with ⟨earlier, stillDue⟩ | empty
    · exact follows.drains.emptied (sound.drained earlier stillDue)
    · exact empty

end Sound

namespace Books

variable {engine : Engine} {lossy : Prop}

/-- The executor returns a submission. -/
theorem submitJob
    (books : engine.Books lossy) (nodeId : JsString) (dispatch : Nat) (admission : Bool) :
    (engine.submitJob nodeId dispatch admission).Books lossy := by
  have newest : engine.jobs[engine.jobs.length]? = none := by simp
  have cases_of : ∀ (job : Nat) (record : MediaJob),
      (engine.submitJob nodeId dispatch admission).jobs[job]? =
        some record →
      engine.jobs[job]? = some record ∨
        job = engine.jobs.length ∧ record.stage = .returned ∧
          Unpaid record := by
    intro job record there
    simp only [Engine.submitJob, List.getElem?_append] at there
    split at there
    · exact .inl there
    case isFalse beyond =>
      right
      rw [List.getElem?_singleton] at there
      split at there
      · cases there
        refine ⟨by omega, rfl, rfl, ?_, ?_⟩
        · cases admission <;> simp
        · cases admission <;> simp
      · cases there
  constructor
  · intro job record there
    rcases cases_of job record there with old | ⟨rfl, returned, unpaid⟩
    · exact books.shape job record old
    · have unheld : (engine.submitJob nodeId dispatch admission).holds
          engine.jobs.length record = false := by
        refine decide_eq_false ?_
        intro held
        obtain ⟨other, found, _⟩ := books.named _ _ held
        rw [newest] at found
        cases found
      have quiet : factsOf engine.jobs.length
          (engine.submitJob nodeId dispatch admission).log = [] :=
        books.silent _ newest
      rw [unheld, quiet]
      exact .travelling (.inl returned) unpaid
  · intro other job held
    obtain ⟨record, found, sameNode⟩ := books.named other job held
    exact ⟨record, (List.getElem?_append_left
      (List.getElem?_eq_some_iff.mp found).1).trans found, sameNode⟩
  · intro job missing
    refine books.silent job ?_
    simp only [Engine.submitJob, List.getElem?_eq_none_iff, List.length_append] at missing ⊢
    omega

theorem stageJob
    (books : engine.Books lossy) {job : Nat} {record : MediaJob}
    (found : engine.jobs[job]? = some record)
    (travelling : record.stage = .returned ∨ record.stage = .arriving) (stage : Stage)
    (shape : ∀ next : MediaJob, next.stage = stage → Unpaid next →
      Shape lossy job next false []) :
    Engine.Books { engine with
      jobs := engine.jobs.modify job fun record =>
        { record with stage } } lossy := by
  obtain ⟨unheld, unpaid, quiet⟩ :=
    (books.shape job record found).of_travelling travelling
  refine books.of_change { record with stage } found ?_ ?_ rfl
    (List.append_nil _).symm (by simp) ?_ ?_ ?_
  · simp [found]
  · intro other different
    simp [List.getElem?_modify_ne _ _ (Ne.symm different)]
  · have stillUnheld : Engine.holds { engine with
        jobs := engine.jobs.modify job fun record =>
          { record with stage } } job { record with stage } = false := unheld
    rw [stillUnheld, quiet]
    exact shape _ rfl ⟨unpaid.costAccounted, unpaid.unclosed, unpaid.attached⟩
  · intro other given _ _
    exact Iff.rfl
  · intro nodeId other there
    exact .inr there

/-- The ownership of the run is lost. -/
theorem settleFenced
    (books : engine.Books lossy) (allowed : lossy ∨ engine.meets .fenced = true) :
    engine.settleFenced.Books lossy := by
  constructor
  · intro job record found
    have shape := books.shape job record found
    have unheld : engine.settleFenced.holds job record = false := by
      simp [holds, Engine.settleFenced]
    rw [unheld]
    cases held : engine.holds job record with
    | false => exact held ▸ shape
    | true =>
      rw [held] at shape
      obtain ⟨parked, unpaid, quiet⟩ := shape.of_held
      have silent : factsOf job engine.settleFenced.log = [] := quiet
      rw [silent]
      rcases allowed with lossy | empty
      · exact .lost lossy parked unpaid
      · have inside : job ∈ engine.pendingMediaJobs.values :=
          (engine.pendingMediaJobs.mem_values_iff job).mpr ⟨_, of_decide_eq_true held⟩
        rw [List.isEmpty_iff.mp empty] at inside
        cases inside
  · intro nodeId job held
    simp [Engine.settleFenced] at held
  · exact books.silent

end Books

/-- A registration ends with no accounting under way, and parks nothing once
the run has settled. -/
theorem settleMediaJobParked_rest
    {engine : Engine} {job : Nat} {record : MediaJob} (found : engine.jobs[job]? = some record)
    (clock : ClockRead) (deadlineMs : Option Nat) :
    (engine.settleMediaJobParked clock deadlineMs job).mediaAccountingDepth =
        engine.mediaAccountingDepth ∧
      ((engine.settled = true → engine.sweepDue = false →
          engine.pendingMediaJobs = .empty) →
        (engine.settleMediaJobParked clock deadlineMs job).settled = true →
        (engine.settleMediaJobParked clock deadlineMs job).sweepDue = false →
        (engine.settleMediaJobParked clock deadlineMs
          job).pendingMediaJobs = .empty) := by
  -- Up to the reading of the clock, and wherever the map does not take the
  -- job, the pending map gets no larger.
  have rest : ∀ after : Engine, Drains engine after →
      after.mediaAccountingDepth = engine.mediaAccountingDepth →
      after.mediaAccountingDepth = engine.mediaAccountingDepth ∧
        ((engine.settled = true → engine.sweepDue = false →
            engine.pendingMediaJobs = .empty) →
          after.settled = true → after.sweepDue = false →
          after.pendingMediaJobs = .empty) := by
    intro after drains depth
    refine ⟨depth, fun drained ended due => ?_⟩
    rcases drains.ends ended due with ⟨earlier, stillDue⟩ | empty
    · exact drains.emptied (drained earlier stillDue)
    · exact empty
  have entered := Follows.enter
    ((engine.setStatus record.nodeId .paused).takeMediaJobAdmission job)
    clock.callback
  have started : Drains engine
      ((engine.setStatus record.nodeId .paused).takeMediaJobAdmission job) :=
    .of_same rfl rfl rfl
  have drains := started.trans entered.drains
  have depth := entered.depth
  unfold Engine.settleMediaJobParked
  rw [found]
  dsimp only
  revert drains depth
  generalize ((engine.setStatus record.nodeId .paused).takeMediaJobAdmission
    job).enter clock.callback = after
  intro drains depth
  have staged : Drains after { after with
      jobs := after.jobs.modify job fun record =>
        { record with stage := .refused } } := .of_same rfl rfl rfl
  have closed := Follows.closeAttached { after with
      jobs := after.jobs.modify job fun record =>
        { record with stage := .refused } } record.attached job
    .settleAtReservedEstimate
  have refused := (drains.trans staged).trans closed.drains
  have refusedDepth := closed.depth.trans depth
  split
  · have failed := Follows.failNodeInternal (after.refuseJob record.attached job) record.nodeId
    exact rest _ (refused.trans failed.drains) (failed.depth.trans refusedDepth)
  · split
    · exact rest _ refused refusedDepth
    case isFalse unended =>
      refine ⟨depth, fun _ ended => ?_⟩
      exact absurd ended unended

theorem job_of_any {engine : Engine} {job : Nat} {stage : Stage}
    (staged : (engine.jobs[job]?).any (fun record => decide (record.stage = stage)) = true) :
    ∃ record, engine.jobs[job]? = some record ∧ record.stage = stage := by
  obtain ⟨record, found, decided⟩ := (Option.any_eq_true _ _).mp staged
  exact ⟨record, found, of_decide_eq_true decided⟩

theorem attempted_cases
    {engine after : Engine} {dispatch : Nat}
    (step : engine.apply (.attempted dispatch) = some after) :
    ∃ nodeId job record,
      engine.dispatches[dispatch]? =
        some { nodeId, phase := .carrying job } ∧
      engine.jobs[job]? = some record ∧ record.stage = .returned ∧
      (after = { engine with
          jobs := engine.jobs.modify job fun record =>
            { record with stage := .arriving } } ∨
        engine.isLive nodeId dispatch = false ∧
          after = (engine.setPhase dispatch .done).dropJob job) := by
  simp only [apply] at step
  split at step
  case h_1 nodeId job loop =>
    split at step
    case isTrue staged =>
      obtain ⟨record, found, returned⟩ := job_of_any staged
      refine ⟨nodeId, job, record, loop, found, returned, ?_⟩
      split at step
      · exact .inl (Option.some.inj step).symm
      case isFalse ignored =>
        exact .inr ⟨by simpa using ignored, (Option.some.inj step).symm⟩
    case isFalse => cases step
  · cases step

/-- What an outcome with a submission needs, and does. -/
theorem arrived_cases
    {engine after : Engine} {dispatch : Nat} {clock : ClockRead} {deadlineMs : Option Nat}
    (step : engine.apply (.arrived dispatch clock deadlineMs) = some after) :
    ∃ nodeId job record,
      engine.dispatches[dispatch]? =
        some { nodeId, phase := .carrying job } ∧
      engine.jobs[job]? = some record ∧ record.stage = .arriving ∧
      ((engine.settled = true ∨ engine.nodeSettled nodeId = true) ∧
          after = (engine.setPhase dispatch .done).dropJob job ∨
        ¬engine.Settled nodeId ∧
          after = (engine.setPhase dispatch .done).settleMediaJobParked clock
            deadlineMs job) := by
  simp only [apply] at step
  split at step
  case h_1 nodeId job loop =>
    split at step
    case isTrue staged =>
      obtain ⟨record, found, arriving⟩ := job_of_any staged
      refine ⟨nodeId, job, record, loop, found, arriving, ?_⟩
      split at step
      case isTrue ignored => exact .inl ⟨ignored, (Option.some.inj step).symm⟩
      case isFalse awaited =>
        exact .inr ⟨fun settled => awaited (.inr settled), (Option.some.inj step).symm⟩
    case isFalse => cases step
  · cases step

namespace Sound

variable {engine after : Engine} {lossy : Prop}

theorem polled_mine
    (sound : engine.Sound lossy) {job : Nat} {record : MediaJob}
    (found : engine.jobs[job]? = some record) (parked : record.stage = .parked) {other : Nat}
    (held : engine.pendingMediaJobs.get record.nodeId = some other) :
    other = job := by
  obtain ⟨given, there, sameNode⟩ := sound.books.named record.nodeId other held
  have shape := sound.books.shape other given there
  have isHeld : engine.holds other given = true := by
    simpa [holds, sameNode] using held
  rw [isHeld] at shape
  exact sound.nodes.unique other job given record there shape.of_held.1 found parked sameNode

theorem drop
    (sound : engine.Sound lossy) (allowed : lossy) (dispatch : Nat) {job : Nat}
    {record : MediaJob} (found : engine.jobs[job]? = some record)
    (travelling : record.stage = .returned ∨ record.stage = .arriving) :
    ((engine.setPhase dispatch .done).dropJob job).Sound lossy := by
  have ended : (engine.setPhase dispatch .done).Books lossy :=
    sound.books.of_same rfl rfl rfl
  have unparked : record.stage ≠ .parked := by
    rcases travelling with returned | arriving
    · simp [returned]
    · simp [arriving]
  refine sound.follow ((Follows.setPhase_done engine dispatch).trans
    (Follows.of_stage _ found unparked ?_)) ?_
  · simp [Stage.Registered]
  · exact ended.stageJob found travelling .dropped (fun _ => Shape.dropped allowed)

/-- An attempt goes on with its submission, or its outcome is ignored. -/
theorem attempted
    (sound : engine.Sound lossy) {dispatch : Nat}
    (allowed : lossy ∨ engine.meets (.attempted dispatch) = true)
    (step : engine.apply (.attempted dispatch) = some after) :
    after.Sound lossy := by
  obtain ⟨nodeId, job, record, loop, found, returned, rfl | ⟨ignored, rfl⟩⟩ :=
    attempted_cases step
  · refine sound.follow (Follows.of_stage _ found (by simp [returned]) ?_) ?_
    · simp [Stage.Registered]
    · exact sound.books.stageJob found (.inl returned) .arriving
        (fun _ stage => Shape.travelling (.inr stage))
  · rcases allowed with allowed | meets
    · exact sound.drop allowed dispatch found (.inl returned)
    · simp [Engine.meets, loop, ignored] at meets

/-- Once a dispatch has ended, its node has none. -/
theorem idle_after
    (sound : engine.Sound lossy) {dispatch : Nat} {loop : DispatchLoop}
    (found : engine.dispatches[dispatch]? = some loop) (undone : loop.phase ≠ .done)
    (unsettled : ¬engine.Settled loop.nodeId) (other : Nat) (mate : DispatchLoop)
    (there : (engine.setPhase dispatch .done).dispatches[other]? = some mate)
    (mateUndone : mate.phase ≠ .done) :
    mate.nodeId ≠ loop.nodeId := by
  intro same
  have origin := (Follows.setPhase_done engine dispatch).dispatches other mate there mateUndone
  rcases sound.nodes.alone other dispatch mate loop origin mateUndone found
      undone same with rfl | settled
  · simp only [setPhase, List.getElem?_modify_eq, found] at there
    cases there
    exact mateUndone rfl
  · exact unsettled (same ▸ settled)

theorem concluded (sound : engine.Sound lossy) {dispatch : Nat} {nodeId : JsString}
    (loop : engine.dispatches[dispatch]? = some { nodeId, phase := .executing })
    (outcome : OtherOutcome) :
    ((engine.setPhase dispatch .done).concludeNode nodeId
      outcome).Sound lossy := by
  have ended := sound.follow (Follows.setPhase_done engine dispatch)
    (sound.books.of_same rfl rfl rfl)
  cases outcome with
  | completed =>
    exact ended.follow (.completeNode _ nodeId) (ended.books.completeNode nodeId)
  | failed =>
    exact ended.follow (.failNode _ nodeId) (ended.books.failNode nodeId)
  | gate =>
    simp only [concludeNode]
    split
    case isTrue => exact ended
    case isFalse awaited =>
      have unsettled : ¬engine.Settled nodeId :=
        fun settled => awaited (.inr settled)
      have executing : DispatchPhase.executing ≠ .done := by simp
      obtain ⟨_, _, free⟩ := sound.nodes.no_other loop executing unsettled
      refine ⟨ended.books.of_same rfl rfl rfl,
        ended.nodes.pause (sound.idle_after loop executing unsettled) free _
          ?_, ended.idle, ended.drained⟩
      intro other member
      rcases List.mem_append.mp member with earlier | new
      · exact .inr earlier
      · exact .inl (List.mem_singleton.mp new)

/-- The outcome is ignored, or its submission registered. -/
theorem arrived
    (sound : engine.Sound lossy) {dispatch : Nat} {clock : ClockRead} {deadlineMs : Option Nat}
    (allowed : lossy ∨ engine.meets (.arrived dispatch clock deadlineMs) = true)
    (step : engine.apply (.arrived dispatch clock deadlineMs) = some after) :
    after.Sound lossy := by
  obtain ⟨nodeId, job, record, loop, found, arriving,
    ⟨ignored, rfl⟩ | ⟨unsettled, rfl⟩⟩ := arrived_cases step
  · rcases allowed with allowed | meets
    · exact sound.drop allowed dispatch found (.inr arriving)
    · obtain ⟨unended, undone⟩ : engine.settled = false ∧
          engine.nodeSettled nodeId = false := by
        simpa [Engine.meets, loop] using meets
      rcases ignored with ended | done
      · rw [unended] at ended
        cases ended
      · rw [undone] at done
        cases done
  · obtain ⟨other, otherFound, sameNode⟩ :=
      sound.nodes.carried dispatch _ job loop rfl
    obtain rfl : record = other := by simpa [found] using otherFound
    obtain rfl : record.nodeId = nodeId := sameNode
    have carrying : DispatchPhase.carrying job ≠ .done := by simp
    obtain ⟨running, ungated, free⟩ :=
      sound.nodes.no_other loop carrying unsettled
    have ended := sound.follow (Follows.setPhase_done engine dispatch)
      (sound.books.of_same rfl rfl rfl)
    have idle := sound.idle_after loop carrying unsettled
    have vacant : engine.pendingMediaJobs.get record.nodeId = none := by
      cases held : engine.pendingMediaJobs.get record.nodeId with
      | none => rfl
      | some pending =>
        obtain ⟨given, there, node⟩ :=
          sound.books.named record.nodeId pending held
        have shape := sound.books.shape pending given there
        have isHeld : engine.holds pending given = true := by
          simpa [holds, node] using held
        rw [isHeld] at shape
        exact absurd (.inl shape.of_held.1) (free pending given there node)
    have rest := settleMediaJobParked_rest
      (show (engine.setPhase dispatch .done).jobs[job]? = some record from found) clock deadlineMs
    refine ⟨?_, ?_, ?_, ?_⟩
    · exact ended.books.settleMediaJobParked ended.idle clock deadlineMs found arriving vacant
    · exact ended.nodes.settleMediaJobParked clock deadlineMs found idle free ungated
    · exact rest.1.trans ended.idle
    · exact rest.2 ended.drained

/-- What the invariant does not read may change, and polls may be taken. -/
theorem quiet
    (sound : engine.Sound lossy) {aborted retiringHost : Bool} {active : OrderedMap JsString Nat}
    {publishing polls pinning : List Nat} (taken : ∀ job ∈ polls, job ∈ engine.polls) :
    Sound { engine with
      aborted, retiringHost, activeDispatchByVertex := active, publishing, polls, pinning } lossy :=
  sound.follow (.of_same rfl rfl rfl rfl taken rfl (.of_same rfl rfl rfl))
    (sound.books.of_same rfl rfl rfl)

/-- The write of a registration returns. -/
theorem published
    (sound : engine.Sound lossy) (written : Bool) (timer : Callback) (arms : Bool) (job : Nat) :
    Sound ({ engine with publishing := engine.publishing.erase job }.publishJob
      written timer arms job) lossy := by
  have taken : Sound { engine with publishing := engine.publishing.erase job } lossy :=
    sound.quiet fun _ polled => polled
  exact taken.follow (.publishJob _ written timer arms job)
    (taken.books.publishJob taken.idle written timer arms job)

/-- The answer of a poll settles the job that its node waits on, if it waits on one. -/
theorem answered
    (sound : engine.Sound lossy) (answer : PollAnswer) (timer : Callback) (arms : Bool)
    (settling : Settling) {job : Nat} (polled : job ∈ engine.polls) :
    Sound ({ engine with polls := engine.polls.erase job }.answerPoll
      answer timer arms settling job) lossy := by
  have taken : Sound { engine with polls := engine.polls.erase job } lossy :=
    sound.quiet fun _ => List.mem_of_mem_erase
  refine taken.follow (.answerPoll _ answer timer arms settling job)
    (taken.books.answerPoll taken.idle answer timer arms settling ?_)
  intro record found pending
  obtain ⟨given, there, parked⟩ := sound.nodes.polled job polled
  obtain rfl : record = given := by
    simpa [show engine.jobs[job]? = some record from found] using there
  obtain ⟨other, held⟩ := (OrderedMap.has_iff _ _).mp pending
  obtain rfl := sound.polled_mine found parked held
  exact held

/-- The media of a finished job is pinned. -/
theorem pinned (sound : engine.Sound lossy) (succeeded delivers : Bool) (job : Nat) :
    Sound ({ engine with pinning := engine.pinning.erase job }.pinJob
      succeeded delivers job) lossy := by
  have taken : Sound { engine with pinning := engine.pinning.erase job } lossy :=
    sound.quiet fun _ polled => polled
  exact taken.follow (.pinJob _ succeeded delivers job)
    (taken.books.pinJob succeeded delivers job)

theorem nodeDeadline (sound : engine.Sound lossy) (nodeId : JsString) :
    (engine.onNodeDeadline nodeId).Sound lossy := by
  refine sound.follow (.onNodeDeadline engine nodeId) ?_
  unfold onNodeDeadline
  split
  · exact sound.books
  · have superseded : Engine.Books
        { engine with
          activeDispatchByVertex := engine.activeDispatchByVertex.delete nodeId } lossy :=
      sound.books.of_same rfl rfl rfl
    exact superseded.failNode nodeId

theorem graceElapsed (sound : engine.Sound lossy) : engine.onGraceElapsed.Sound lossy := by
  refine sound.follow (.onGraceElapsed engine) ?_
  unfold onGraceElapsed
  split
  · exact sound.books
  · exact sound.books.of_same rfl rfl rfl

/-- Every event keeps the books and the nodes; one that loses no admission
keeps them without loss. -/
theorem step
    (sound : engine.Sound lossy) {event : Event} (allowed : lossy ∨ engine.meets event = true)
    (step : MediaStep engine event after) :
    after.Sound lossy := by
  have applied : engine.apply event = some after := step
  cases event with
  | attempted dispatch => exact sound.attempted allowed applied
  | arrived dispatch clock deadlineMs => exact sound.arrived allowed applied
  | dispatched nodeId =>
    simp only [apply] at applied
    split at applied
    case isTrue ready =>
      cases applied
      exact ⟨sound.books.of_same rfl rfl rfl,
        sound.nodes.startDispatch ready.2, sound.idle, sound.drained⟩
    case isFalse => cases applied
  | submitted dispatch admission =>
    simp only [apply] at applied
    split at applied
    case h_1 nodeId loop =>
      cases applied
      exact ⟨sound.books.submitJob nodeId dispatch admission,
        sound.nodes.submitJob loop admission, sound.idle, sound.drained⟩
    case h_2 => cases applied
  | concluded dispatch outcome =>
    simp only [apply] at applied
    split at applied
    case h_1 nodeId loop =>
      cases applied
      exact sound.concluded loop outcome
    case h_2 => cases applied
  | published job written timer arms =>
    simp only [apply] at applied
    split at applied
    case isTrue =>
      cases applied
      exact sound.published written timer arms job
    case isFalse => cases applied
  | polled nodeId clock canPoll opensDeadline settling =>
    simp only [apply] at applied
    split at applied
    case isTrue => cases applied
    case isFalse =>
      cases applied
      exact sound.follow
        (.pollMediaJob engine sound.books clock canPoll opensDeadline settling nodeId)
        (sound.books.pollMediaJob sound.idle clock canPoll opensDeadline settling nodeId)
  | answered job answer timer arms settling =>
    simp only [apply] at applied
    split at applied
    case isTrue polled =>
      cases applied
      exact sound.answered answer timer arms settling polled
    case isFalse => cases applied
  | pinned job succeeded delivers =>
    simp only [apply] at applied
    split at applied
    case isTrue =>
      cases applied
      exact sound.pinned succeeded delivers job
    case isFalse => cases applied
  | expired job settling =>
    cases applied
    exact sound.follow (.expireDepartureMedia engine settling job)
      (sound.books.expireDepartureMedia settling job)
  | nodeDeadline nodeId =>
    cases applied
    exact sound.nodeDeadline nodeId
  | graceElapsed =>
    cases applied
    exact sound.graceElapsed
  | cancelled =>
    cases applied
    exact sound.quiet fun _ polled => polled
  | terminal pricings =>
    cases applied
    exact sound.follow (.settle engine pricings) (sound.books.settle sound.idle pricings)
  | swept pricings =>
    simp only [apply] at applied
    split at applied
    case isTrue =>
      cases applied
      exact sound.follow (.of_accounts (.sweep engine pricings) (.sweep engine pricings))
        (sound.books.sweep pricings)
    case isFalse => cases applied
  | detached =>
    cases applied
    exact sound.quiet fun _ polled => polled
  | fenced =>
    cases applied
    exact sound.follow (.settleFenced engine) (sound.books.settleFenced allowed)

/-- Sound books without loss charge every job once. -/
theorem chargedOnce (sound : engine.Sound False) : engine.ChargedOnce where
  unfinished := by
    intro job record found unfinished
    refine (sound.books.shape job record found).charges.unfinished ?_
    by_contra travelling
    simp only [not_or] at travelling
    exact unfinished ⟨travelling.1, travelling.2.1,
      fun held => travelling.2.2 (decide_eq_true held)⟩
  finished := by
    intro job record found finished admitted
    exact (sound.books.shape job record found).charges.finished finished.1
      finished.2.1 (decide_eq_false finished.2.2) admitted
  unadmitted := by
    intro job record found unadmitted
    exact (sound.books.shape job record found).charges.unadmitted unadmitted
  addend := by
    intro job
    unfold addends
    cases found : engine.jobs[job]? with
    | none =>
      rw [sound.books.silent job found]
      exact Nat.zero_le 1
    | some record => exact (sound.books.shape job record found).charges.addend
  ended := by
    intro ended due nodeId
    rw [sound.drained ended due]
    exact OrderedMap.get_empty nodeId

/-- Polls of a job that has left the pending map do nothing. -/
theorem pollsEnd (sound : engine.Sound lossy) : engine.PollsEnd := by
  intro job record found parked released event after poll step
  have applied : engine.apply event = some after := step
  have vacant : engine.pendingMediaJobs.get record.nodeId = none := by
    cases held : engine.pendingMediaJobs.get record.nodeId with
    | none => rfl
    | some other =>
      obtain rfl := sound.polled_mine found parked held
      exact absurd held released
  cases event with
  | polled nodeId clock canPoll opensDeadline settling =>
    obtain rfl : nodeId = record.nodeId := poll
    simp only [apply, pollMediaJob, vacant] at applied
    split at applied
    · cases applied
    · cases applied
      exact ⟨rfl, rfl⟩
  | answered answered answer timer arms settling =>
    obtain rfl : answered = job := poll
    have lacks : engine.pendingMediaJobs.has record.nodeId = false := by
      unfold OrderedMap.has
      rw [vacant]
      rfl
    simp only [apply, answerPoll, found, lacks, or_true, if_true] at applied
    split at applied
    · cases applied
      exact ⟨rfl, rfl⟩
    · cases applied
  | dispatched | submitted | concluded | attempted | arrived | published | pinned | expired
  | nodeDeadline | graceElapsed | cancelled | terminal | swept | detached | fenced =>
    exact poll.elim

end Sound

end Engine

/-- In a run that ignores no submission, and keeps its ownership while jobs are
pending, every admission is closed exactly once: with the realized price where
the job was priced, and at its reserved estimate otherwise.  No job has two
addends, and polls of a job that is no longer pending do nothing. -/
theorem media_job_charged_once {nodeIds : List JsString} {events : List Event} {engine : Engine}
    (run : Library.Run
      (fun before event after =>
        MediaStep before event after ∧ before.meets event = true)
      (Engine.start nodeIds) events engine) :
    engine.ChargedOnce ∧ engine.PollsEnd := by
  have sound : engine.Sound False := by
    refine run.invariant (fun _ state => state.Sound False) (.start nodeIds) ?_
    intro _ before event after _ sound taken
    exact sound.step (.inr taken.2) taken.1
  exact ⟨sound.chargedOnce, sound.pollsEnd⟩

/-- Events that all lose no admission, and can all happen. -/
theorem run_of_meets (nodeIds : List JsString) (events : List Event) {engine : Engine}
    (taken : events.foldlM
      (fun engine event =>
        if engine.meets event then engine.apply event else none)
      (Engine.start nodeIds) = some engine) :
    Library.Run
      (fun before event after =>
        MediaStep before event after ∧ before.meets event = true)
      (Engine.start nodeIds) events engine := by
  refine (Run.of_foldlM taken).imp ?_
  intro before event after step
  split at step
  case isTrue meets => exact ⟨step, meets⟩
  case isFalse => cases step

/-- A clock at zero. -/
def ClockRead.zero : ClockRead where
  callback := .quiet
  reading := some 0

/-- A job of seven units, priced without a fault. -/
def Settling.ofSeven : Settling where
  pricing := { answer := .priced 7, sinkFails := false }
  pricingCalls := .quiet
  sinkCalls := .quiet

/-- A job that is submitted, parked, polled and found finished. -/
def finishedJob : List Event :=
  [.dispatched [], .submitted 0 true, .attempted 0, .arrived 0 .zero none,
    .published 0 true .quiet true, .polled [] .zero true true .ofSeven,
    .answered 0 .finished .quiet true .ofSeven]

theorem media_job_charged_once_finished :
    ∃ engine : Engine, closings 0 engine.log = [.settle 7] ∧
      addends 0 engine.log = [7] ∧ engine.ChargedOnce ∧ engine.PollsEnd :=
  ⟨_, rfl, rfl, media_job_charged_once (run_of_meets [[]] finishedJob rfl)⟩

/-- The deadline of the node passes during the money join of its outcome. -/
def ignoredJob : List Event :=
  [.dispatched [], .submitted 0 true, .attempted 0, .nodeDeadline [], .arrived 0 .zero none]

/-- A submission whose outcome is ignored is never closed. -/
theorem ignored_job_unclosed :
    ¬ ∀ (nodeIds : List JsString) (events : List Event) (engine : Engine),
      Library.Run MediaStep (Engine.start nodeIds) events engine →
      engine.ChargedOnce := by
  intro charged
  have once := charged [[]] ignoredJob _ (Run.of_foldlM rfl)
  have closed := once.finished 0 _ rfl
    ⟨Stage.noConfusion, Stage.noConfusion, nofun⟩ Lease.noConfusion
  cases closed

end MediaJobs
end Relavium.Run
