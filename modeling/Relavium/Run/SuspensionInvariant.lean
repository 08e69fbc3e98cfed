import Relavium.Library.Trace
import Relavium.Run.GateEffect

/-!
# The invariant of the suspension reducer

What one accepted event does to the reducer: it touches one gate, records a
media job, or retires a node.  Gates are kept under their own ids, and nothing
is pending on a node that has ended.
-/

namespace Relavium.Run

open Library

namespace EventBody

/-- The gate that an event names. -/
def namedGate : EventBody → Option String
  | .budgetAuthorization event => some event.gateId
  | .budgetPaused event => some event.gateId
  | .humanGatePaused event => some event.gateId
  | .humanGateResumed event => event.gateId
  | _ => none

end EventBody

namespace RunSuspensionReducer

/-- The history of a gate. -/
def gate (reducer : RunSuspensionReducer)
    (runId gateId : String) : Option GateHistory :=
  (reducer.gatesOf runId).get gateId

/-! ## Reading the stores -/

section Stores

variable (reducer : RunSuspensionReducer)

theorem gate_putGate (history : GateHistory) (runId gateId : String) :
    (reducer.putGate history).gate runId gateId =
      if runId = history.runId ∧ gateId = history.gateId then some history
      else reducer.gate runId gateId := by
  unfold gate gatesOf putGate
  rw [OrderedMap.get_set]
  by_cases sameRun : runId = history.runId
  · simp only [sameRun, if_true, Option.getD_some, OrderedMap.get_set, true_and]
    rfl
  · simp only [sameRun, if_false, false_and]

@[simp] theorem terminalNodesOf_putGate (history : GateHistory) (runId : String) :
    (reducer.putGate history).terminalNodesOf runId = reducer.terminalNodesOf runId := rfl

@[simp] theorem mediaOf_putGate (history : GateHistory) (runId : String) :
    (reducer.putGate history).mediaOf runId = reducer.mediaOf runId := rfl

theorem gate_retireNode (endedRun nodeId runId gateId : String) :
    (reducer.retireNode endedRun nodeId).gate runId gateId =
      (reducer.gate runId gateId).map fun history =>
        if runId = endedRun then deactivate nodeId gateId history
        else history := by
  unfold gate gatesOf retireNode
  simp only [OrderedMap.get_mapValues]
  cases reducer.gates.get runId with
  | none => simp
  | some gates =>
    by_cases sameRun : runId = endedRun
    · simp [sameRun]
    · simp [sameRun]

theorem mem_terminalNodesOf_retireNode (endedRun nodeId runId other : String) :
    other ∈ (reducer.retireNode endedRun nodeId).terminalNodesOf runId ↔
      other ∈ reducer.terminalNodesOf runId ∨
        runId = endedRun ∧ other = nodeId := by
  unfold terminalNodesOf retireNode
  simp only [OrderedMap.get_set]
  by_cases sameRun : runId = endedRun
  · simp only [sameRun, if_true, Option.getD_some, true_and]
    unfold terminalNodesOf
    split
    · next present => exact ⟨Or.inl, fun either => either.elim id fun same => same ▸ present⟩
    · simp
  · simp only [sameRun, if_false, false_and, or_false]

theorem media_retireNode (endedRun nodeId runId other : String) :
    ((reducer.retireNode endedRun nodeId).mediaOf runId).get other =
      if runId = endedRun ∧ other = nodeId then none
      else (reducer.mediaOf runId).get other := by
  unfold mediaOf retireNode
  simp only [OrderedMap.get_mapValues]
  cases reducer.media.get runId with
  | none => simp
  | some jobs =>
    by_cases sameRun : runId = endedRun
    · simp [sameRun, OrderedMap.get_delete]
    · simp [sameRun]

theorem gate_submitMedia
    (jobRun : String) (job : MediaJobSubmittedEvent) (runId gateId : String) :
    (reducer.submitMedia jobRun job).gate runId gateId =
      reducer.gate runId gateId := by
  unfold submitMedia
  split <;> rfl

theorem terminalNodesOf_submitMedia
    (jobRun : String) (job : MediaJobSubmittedEvent) (runId : String) :
    (reducer.submitMedia jobRun job).terminalNodesOf runId =
      reducer.terminalNodesOf runId := by
  unfold submitMedia
  split <;> rfl

theorem media_submitMedia
    (jobRun : String) (job : MediaJobSubmittedEvent) (runId nodeId : String) :
    ((reducer.submitMedia jobRun job).mediaOf runId).get nodeId =
      if job.nodeId ∉ reducer.terminalNodesOf jobRun ∧ runId = jobRun ∧
          nodeId = job.nodeId then some job
      else (reducer.mediaOf runId).get nodeId := by
  unfold submitMedia
  split
  · next ended => simp [ended]
  · rename_i live
    unfold mediaOf
    by_cases sameRun : runId = jobRun
    · simp only [sameRun, OrderedMap.get_set_self, Option.getD_some,
        OrderedMap.get_set, live, not_false_eq_true, true_and]
    · simp only [sameRun, OrderedMap.get_set, if_false, false_and, and_false]

theorem gate_endRun (endedRun runId gateId : String) :
    (reducer.endRun endedRun).gate runId gateId = reducer.gate runId gateId := by
  unfold endRun
  split <;> rfl

theorem terminalNodesOf_endRun (endedRun runId : String) :
    (reducer.endRun endedRun).terminalNodesOf runId =
      reducer.terminalNodesOf runId := by
  unfold endRun
  split <;> rfl

theorem mediaOf_endRun (endedRun runId : String) :
    (reducer.endRun endedRun).mediaOf runId = reducer.mediaOf runId := by
  unfold endRun
  split <;> rfl

end Stores

/-! ## The invariant -/

/-- What holds of a reducer that accepted every event so far. -/
structure Sound (reducer : RunSuspensionReducer) : Prop where
  runId : ∀ runId gateId history, reducer.gate runId gateId = some history →
    history.runId = runId
  gateId : ∀ runId gateId history, reducer.gate runId gateId = some history →
    history.gateId = gateId
  coherent : ∀ runId gateId history, reducer.gate runId gateId = some history →
    history.Coherent
  /-- No gate of an ended node is active. -/
  retired : ∀ runId gateId history, reducer.gate runId gateId = some history →
    history.nodeId ∈ reducer.terminalNodesOf runId → history.active = false
  jobNode : ∀ runId nodeId job,
    (reducer.mediaOf runId).get nodeId = some job → job.nodeId = nodeId
  /-- No media job of an ended node is in flight. -/
  jobLive : ∀ runId nodeId job,
    (reducer.mediaOf runId).get nodeId = some job →
    nodeId ∉ reducer.terminalNodesOf runId

theorem sound_fresh : Sound fresh where
  runId := by simp [fresh, gate, gatesOf]
  gateId := by simp [fresh, gate, gatesOf]
  coherent := by simp [fresh, gate, gatesOf]
  retired := by simp [fresh, gate, gatesOf]
  jobNode := by simp [fresh, mediaOf]
  jobLive := by simp [fresh, mediaOf]

/-! ## Inversion of an accepted event -/

/-- Everything that an accepted event can do. -/
inductive Effect
    (reducer : RunSuspensionReducer) (event : RunEvent) (transition : Option GateTransition)
    (next : RunSuspensionReducer) : Prop
  /-- One gate, found or created, advances. -/
  | gate (before : GateHistory) (step : GateStep) :
      (reducer.gate event.runId before.gateId = some before ∨
        reducer.gate event.runId before.gateId = none ∧
          before = .created event.runId before.nodeId before.gateId ∧
          before.nodeId ∉ reducer.terminalNodesOf event.runId) →
      (∀ gateId, event.body.namedGate = some gateId →
        before.gateId = gateId) →
      event.body.terminalNode = none →
      (before.Coherent → Advances before
        (fun budget => event.body.stated budget) step) →
      (transition, next) = reducer.commit step →
      Effect reducer event transition next
  /-- A media job is recorded. -/
  | media (job : MediaJobSubmittedEvent) :
      event.body = .mediaJobSubmitted job →
      transition = none →
      next = reducer.submitMedia event.runId job →
      Effect reducer event transition next
  /-- A node is retired, or only the run is marked. -/
  | life (retired : RunSuspensionReducer) :
      event.body.namedGate = none →
      (∀ budget, event.body.stated budget = none) →
      transition = none →
      (event.body.terminalNode = none ∧ retired = reducer ∨
        ∃ nodeId, event.body.terminalNode = some nodeId ∧
          retired = reducer.retireNode event.runId nodeId) →
      (next = retired ∨ next = retired.endRun event.runId) →
      Effect reducer event transition next

section Inversion

variable {reducer next : RunSuspensionReducer} {event : RunEvent}
  {transition : Option GateTransition}

theorem findOrCreate_eq_ok
    {runId nodeId gateId : String} {history : GateHistory}
    (found : reducer.findOrCreate runId nodeId gateId = .ok history)
    (keyed : ∀ present, reducer.gate runId gateId = some present →
      present.gateId = gateId) :
    history.gateId = gateId ∧
      (reducer.gate runId history.gateId = some history ∨
        reducer.gate runId history.gateId = none ∧
          history = .created runId history.nodeId history.gateId ∧
          history.nodeId ∉ reducer.terminalNodesOf runId) := by
  simp only [findOrCreate, find, uncorrupted, bind_eq_ok] at found
  obtain ⟨existing, lookup, chosen⟩ := found
  rw [← gate] at lookup
  cases present : reducer.gate runId gateId with
  | none =>
    rw [present] at lookup
    obtain rfl : none = existing := by simpa using lookup
    simp only [bind_eq_ok, require_eq_ok, pure_eq_ok] at chosen
    obtain ⟨-, live, rfl⟩ := chosen
    exact ⟨rfl, Or.inr ⟨present, rfl, live⟩⟩
  | some history' =>
    rw [present] at lookup
    simp only at lookup
    split at lookup
    · obtain rfl : some history' = existing := by simpa using lookup
      obtain rfl : history' = history := by simpa using chosen
      have key := keyed history' present
      exact ⟨key, Or.inl (key ▸ present)⟩
    · simp at lookup

theorem resumedGate_eq_ok
    (sound : Sound reducer) {runId : String} {given : HumanGateResumedEvent}
    {history : GateHistory} (found : reducer.resumedGate runId given = .ok history) :
    (∀ gateId, given.gateId = some gateId → history.gateId = gateId) ∧
      reducer.gate runId history.gateId = some history := by
  unfold resumedGate at found
  cases named : given.gateId with
  | some gateId =>
    simp only [named, bind_eq_ok] at found
    obtain ⟨existing, lookup, chosen⟩ := found
    unfold find at lookup
    cases present : reducer.gate runId gateId with
    | none =>
      unfold gate at present
      rw [present] at lookup
      obtain rfl : none = existing := by simpa using lookup
      simp at chosen
    | some history' =>
      have found' := present
      unfold gate at found'
      rw [found'] at lookup
      simp only at lookup
      split at lookup
      · obtain rfl : some history' = existing := by simpa using lookup
        obtain rfl : history' = history := by simpa using chosen
        have key := sound.gateId runId gateId history' present
        refine ⟨?_, key ▸ present⟩
        intro other isOther
        exact key.trans (Option.some.inj isOther)
      · simp at lookup
  | none =>
    simp only [named] at found
    refine ⟨by simp, ?_⟩
    have member : history ∈ reducer.outstanding runId given.nodeId := by
      split at found
      · simp at found
      · rename_i only outstandingIs
        obtain rfl : only = history := by simpa using found
        simp [outstandingIs]
      · simp at found
    unfold outstanding at member
    obtain ⟨key, present⟩ :=
      (OrderedMap.mem_values_iff _ _).mp (List.mem_filter.mp member).1
    have keyIs := sound.gateId runId key history present
    rw [keyIs]
    exact present

theorem effect_apply
    (sound : Sound reducer) (accepted : reducer.apply event = .ok (transition, next)) :
    Effect reducer event transition next := by
  have gated {nodeId gateId : String} {before : GateHistory} {step : GateStep}
      (named : event.body.namedGate = some gateId)
      (lives : event.body.terminalNode = none)
      (found : reducer.findOrCreate event.runId nodeId gateId = .ok before)
      (advances : before.Coherent → Advances before (fun budget => event.body.stated budget) step)
      (committed : reducer.commit step = (transition, next)) :
      Effect reducer event transition next := by
    obtain ⟨key, origin⟩ := findOrCreate_eq_ok found
      (fun present isPresent => sound.gateId _ _ present isPresent)
    refine .gate before step origin ?_ lives advances committed.symm
    intro other isNamed
    exact key.trans (Option.some.inj (named.symm.trans isNamed))
  unfold apply at accepted
  cases body : event.body with
  | budgetAuthorization given =>
    simp only [body, bind_eq_ok, pure_eq_ok] at accepted
    obtain ⟨before, found, step, applied, committed⟩ := accepted
    refine gated (by rw [body]; rfl) (by rw [body]; rfl) found ?_ committed
    rw [body]
    exact fun coherent => GateHistory.advances_authorize coherent applied
  | budgetPaused given =>
    simp only [body, bind_eq_ok, pure_eq_ok] at accepted
    obtain ⟨before, found, step, applied, committed⟩ := accepted
    refine gated (by rw [body]; rfl) (by rw [body]; rfl) found ?_ committed
    rw [body]
    exact fun coherent => GateHistory.advances_budgetPauses coherent applied
  | humanGatePaused given =>
    simp only [body, bind_eq_ok, pure_eq_ok] at accepted
    obtain ⟨before, found, step, applied, committed⟩ := accepted
    refine gated (by rw [body]; rfl) (by rw [body]; rfl) found ?_ committed
    rw [body]
    exact fun coherent => GateHistory.advances_humanPauses coherent applied
  | humanGateResumed given =>
    simp only [body, bind_eq_ok, pure_eq_ok] at accepted
    obtain ⟨before, found, step, applied, committed⟩ := accepted
    obtain ⟨named, present⟩ := resumedGate_eq_ok sound found
    refine .gate before step (Or.inl present) ?_ (by rw [body]; rfl) ?_
      committed.symm
    · rw [body]
      exact named
    · rw [body]
      exact fun coherent => GateHistory.advances_resume coherent applied
  | mediaJobSubmitted job =>
    simp only [body, pure_eq_ok, Prod.mk.injEq] at accepted
    exact .media job body accepted.1.symm accepted.2.symm
  | _ =>
    simp only [body, pure_eq_ok, Prod.mk.injEq] at accepted
    obtain ⟨rfl, rfl⟩ := accepted
    refine .life _ (by rw [body]; rfl) (fun _ => by rw [body]; rfl) rfl ?_
      (by split; exacts [Or.inr rfl, Or.inl rfl])
    rw [body]
    first
      | exact Or.inl ⟨rfl, rfl⟩
      | exact Or.inr ⟨_, rfl, rfl⟩

end Inversion

end RunSuspensionReducer

/-! ## What every effect preserves -/

namespace GateHistory

/-- A gate later in the log: it keeps its node, stays inactive once inactive,
and once resolved keeps its decision. -/
structure Ages (before after : GateHistory) : Prop where
  nodeId : after.nodeId = before.nodeId
  inactive : before.active = false → after.active = false
  resolved : before.isResolved = true →
    after.isResolved = true ∧ after.budget = before.budget ∧
      after.recorded = before.recorded

theorem Ages.refl (history : GateHistory) : history.Ages history :=
  ⟨rfl, id, fun resolved => ⟨resolved, rfl, rfl⟩⟩

theorem Ages.trans
    {first second third : GateHistory} (earlier : first.Ages second) (later : second.Ages third) :
    first.Ages third where
  nodeId := later.nodeId.trans earlier.nodeId
  inactive := later.inactive ∘ earlier.inactive
  resolved := by
    intro resolved
    obtain ⟨stillResolved, budget, recorded⟩ := earlier.resolved resolved
    obtain ⟨lastly, budget', recorded'⟩ := later.resolved stillResolved
    exact ⟨lastly, budget'.trans budget, recorded'.trans recorded⟩

theorem created_coherent (runId nodeId gateId : String) :
    (created runId nodeId gateId).Coherent :=
  ⟨by simp [created], by simp [created]⟩

end GateHistory

theorem Advances.ages
    {before : GateHistory} {stated : Bool → Option Verdict} {step : GateStep}
    (advances : Advances before stated step) :
    before.Ages step.history where
  nodeId := advances.nodeId
  inactive := advances.inactive
  resolved := fun resolved =>
    have kept := advances.resolved resolved
    ⟨kept.2.1, kept.2.2.1, kept.2.2.2.1⟩

namespace RunSuspensionReducer

/-- Deactivation touches nothing but the activity of a gate. -/
theorem deactivate_eq (nodeId gateId : String) (history : GateHistory) :
    deactivate nodeId gateId history =
      { history with active := (deactivate nodeId gateId history).active } := by
  unfold deactivate
  split <;> rfl

theorem deactivate_inactive (gateId : String) (history : GateHistory) :
    (deactivate history.nodeId gateId history).active = false := by
  simp [deactivate]

theorem deactivate_ages (nodeId gateId : String) (history : GateHistory) :
    history.Ages (deactivate nodeId gateId history) where
  nodeId := by rw [deactivate_eq]
  inactive := by
    intro inactive
    unfold deactivate
    split
    · rfl
    · exact inactive
  resolved := by
    intro resolved
    rw [deactivate_eq]
    exact ⟨resolved, rfl, rfl⟩

section Preservation

variable {reducer next : RunSuspensionReducer} {event : RunEvent}
  {transition : Option GateTransition}

/-- Recording a gate that is inactive if its node has ended. -/
theorem Sound.putGate
    (sound : Sound reducer) {history : GateHistory} (coherent : history.Coherent)
    (retired : history.nodeId ∈ reducer.terminalNodesOf history.runId →
      history.active = false) :
    Sound (reducer.putGate history) := by
  have either {runId gateId : String} {found : GateHistory}
      (present : (reducer.putGate history).gate runId gateId = some found) :
      (runId = history.runId ∧ gateId = history.gateId ∧ history = found) ∨
        reducer.gate runId gateId = some found := by
    rw [gate_putGate] at present
    split at present
    · next same => exact Or.inl ⟨same.1, same.2, Option.some.inj present⟩
    · exact Or.inr present
  refine ⟨?_, ?_, ?_, ?_, sound.jobNode, sound.jobLive⟩
  · intro runId gateId found present
    rcases either present with ⟨same, -, rfl⟩ | present
    · exact same.symm
    · exact sound.runId runId gateId found present
  · intro runId gateId found present
    rcases either present with ⟨-, same, rfl⟩ | present
    · exact same.symm
    · exact sound.gateId runId gateId found present
  · intro runId gateId found present
    rcases either present with ⟨-, -, rfl⟩ | present
    · exact coherent
    · exact sound.coherent runId gateId found present
  · intro runId gateId found present ended
    rcases either present with ⟨rfl, -, rfl⟩ | present
    · exact retired ended
    · exact sound.retired runId gateId found present ended

theorem Sound.retireNode (sound : Sound reducer) (endedRun nodeId : String) :
    Sound (reducer.retireNode endedRun nodeId) := by
  have origin {runId gateId : String} {found : GateHistory}
      (present : (reducer.retireNode endedRun nodeId).gate runId gateId = some found) :
      ∃ before, reducer.gate runId gateId = some before ∧
        found = { before with active := found.active } ∧
        (before.active = false → found.active = false) ∧
        (runId = endedRun → found.nodeId = nodeId → found.active = false) := by
    rw [gate_retireNode] at present
    obtain ⟨before, isBefore, rfl⟩ := Option.map_eq_some_iff.mp present
    refine ⟨before, isBefore, ?_⟩
    split
    · refine ⟨deactivate_eq _ _ _, (deactivate_ages _ _ _).inactive, ?_⟩
      intro _ sameNode
      rw [(deactivate_ages _ _ _).nodeId] at sameNode
      subst sameNode
      exact deactivate_inactive gateId before
    · next otherRun => exact ⟨rfl, id, fun same => absurd same otherRun⟩
  refine ⟨?_, ?_, ?_, ?_, ?_, ?_⟩
  · intro runId gateId found present
    obtain ⟨before, isBefore, same, -⟩ := origin present
    rw [same]
    exact sound.runId runId gateId before isBefore
  · intro runId gateId found present
    obtain ⟨before, isBefore, same, -⟩ := origin present
    rw [same]
    exact sound.gateId runId gateId before isBefore
  · intro runId gateId found present
    obtain ⟨before, isBefore, same, -⟩ := origin present
    rw [same]
    have coherent := sound.coherent runId gateId before isBefore
    exact ⟨coherent.agree, coherent.budget⟩
  · intro runId gateId found present ended
    obtain ⟨before, isBefore, same, inactive, retired⟩ := origin present
    rw [mem_terminalNodesOf_retireNode] at ended
    rcases ended with earlier | ⟨sameRun, sameNode⟩
    · rw [same] at earlier
      exact inactive (sound.retired runId gateId before isBefore earlier)
    · exact retired sameRun sameNode
  · intro runId other job present
    rw [media_retireNode] at present
    split at present
    · simp at present
    · exact sound.jobNode runId other job present
  · intro runId other job present ended
    rw [media_retireNode] at present
    split at present
    · simp at present
    · rename_i different
      rw [mem_terminalNodesOf_retireNode] at ended
      rcases ended with earlier | now
      · exact sound.jobLive runId other job present earlier
      · exact different now

theorem Sound.submitMedia
    (sound : Sound reducer) (jobRun : String) (job : MediaJobSubmittedEvent) :
    Sound (reducer.submitMedia jobRun job) := by
  refine ⟨?_, ?_, ?_, ?_, ?_, ?_⟩
  · simpa only [gate_submitMedia] using sound.runId
  · simpa only [gate_submitMedia] using sound.gateId
  · simpa only [gate_submitMedia] using sound.coherent
  · simpa only [gate_submitMedia, terminalNodesOf_submitMedia] using sound.retired
  · intro runId nodeId found present
    rw [media_submitMedia] at present
    split at present
    · rename_i recorded
      cases present
      exact recorded.2.2.symm
    · exact sound.jobNode runId nodeId found present
  · intro runId nodeId found present
    rw [media_submitMedia] at present
    rw [terminalNodesOf_submitMedia]
    split at present
    · rename_i recorded
      obtain ⟨live, rfl, rfl⟩ := recorded
      exact live
    · exact sound.jobLive runId nodeId found present

theorem Sound.endRun (sound : Sound reducer) (endedRun : String) :
    Sound (reducer.endRun endedRun) := by
  refine ⟨?_, ?_, ?_, ?_, ?_, ?_⟩
  · simpa only [gate_endRun] using sound.runId
  · simpa only [gate_endRun] using sound.gateId
  · simpa only [gate_endRun] using sound.coherent
  · simpa only [gate_endRun, terminalNodesOf_endRun] using sound.retired
  · simpa only [mediaOf_endRun] using sound.jobNode
  · simpa only [mediaOf_endRun, terminalNodesOf_endRun] using sound.jobLive

theorem Sound.touched (sound : Sound reducer) {before : GateHistory}
    (origin : reducer.gate event.runId before.gateId = some before ∨
      reducer.gate event.runId before.gateId = none ∧
        before = .created event.runId before.nodeId before.gateId ∧
        before.nodeId ∉ reducer.terminalNodesOf event.runId) :
    before.runId = event.runId ∧ before.Coherent ∧
      (before.nodeId ∈ reducer.terminalNodesOf event.runId →
        before.active = false) := by
  rcases origin with present | ⟨-, new, live⟩
  · exact ⟨sound.runId _ _ _ present, sound.coherent _ _ _ present, sound.retired _ _ _ present⟩
  · refine ⟨by rw [new]; rfl, ?_, fun ended => absurd ended live⟩
    rw [new]
    exact GateHistory.created_coherent _ _ _

/-- Every accepted event keeps the invariant. -/
theorem Sound.effect (sound : Sound reducer) (taken : Effect reducer event transition next) :
    Sound next := by
  cases taken with
  | gate before step origin _ _ advancesIf committed =>
    obtain ⟨sameRun, coherent, retired⟩ := sound.touched origin
    have advances := advancesIf coherent
    have recorded : Sound (reducer.putGate step.history) := by
      refine sound.putGate advances.coherent ?_
      rw [advances.nodeId, advances.runId, sameRun]
      exact fun ended => advances.inactive (retired ended)
    obtain rfl : next = (reducer.commit step).2 := congrArg Prod.snd committed
    unfold commit
    simp only
    split
    · exact recorded.retireNode _ _
    · exact recorded
  | media job _ _ recorded =>
    rw [recorded]
    exact sound.submitMedia _ _
  | life retired _ _ _ retires ends =>
    have soundRetired : Sound retired := by
      rcases retires with ⟨-, rfl⟩ | ⟨nodeId, -, rfl⟩
      · exact sound
      · exact sound.retireNode _ _
    rcases ends with rfl | rfl
    · exact soundRetired
    · exact soundRetired.endRun _

theorem Effect.ages
    (sound : Sound reducer) (taken : Effect reducer event transition next) {runId gateId : String}
    {history : GateHistory} (present : reducer.gate runId gateId = some history) :
    ∃ later, next.gate runId gateId = some later ∧ history.Ages later := by
  have retire {middle : RunSuspensionReducer} {found : GateHistory} (endedRun nodeId : String)
      (isFound : middle.gate runId gateId = some found) :
      ∃ later, (middle.retireNode endedRun nodeId).gate runId gateId =
        some later ∧ found.Ages later := by
    rw [gate_retireNode, isFound]
    refine ⟨_, rfl, ?_⟩
    split
    · exact deactivate_ages nodeId gateId found
    · exact .refl found
  cases taken with
  | gate before step origin _ _ advancesIf committed =>
    obtain ⟨sameRun, coherent, -⟩ := sound.touched origin
    have advances := advancesIf coherent
    obtain rfl : next = (reducer.commit step).2 := congrArg Prod.snd committed
    have recorded : ∃ later,
        (reducer.putGate step.history).gate runId gateId = some later ∧
          history.Ages later := by
      rw [gate_putGate]
      split
      · rename_i same
        refine ⟨step.history, rfl, ?_⟩
        rw [advances.runId, advances.gateId, sameRun] at same
        obtain ⟨rfl, rfl⟩ := same
        rcases origin with isBefore | ⟨absent, -⟩
        · cases present.symm.trans isBefore
          exact advances.ages
        · simp [absent] at present
      · exact ⟨history, present, .refl history⟩
    obtain ⟨later, isLater, ages⟩ := recorded
    unfold commit
    simp only
    split
    · obtain ⟨lastly, isFinal, ages'⟩ := retire step.history.runId step.history.nodeId isLater
      exact ⟨lastly, isFinal, ages.trans ages'⟩
    · exact ⟨later, isLater, ages⟩
  | media job _ _ recorded =>
    rw [recorded, gate_submitMedia]
    exact ⟨history, present, .refl history⟩
  | life retired _ _ _ retires ends =>
    have aged : ∃ later, retired.gate runId gateId = some later ∧
        history.Ages later := by
      rcases retires with ⟨-, rfl⟩ | ⟨nodeId, -, rfl⟩
      · exact ⟨history, present, .refl history⟩
      · exact retire event.runId nodeId present
    rcases ends with rfl | rfl
    · exact aged
    · rw [gate_endRun]
      exact aged

end Preservation

end RunSuspensionReducer

end Relavium.Run
