import Relavium.Library.LivePath
import Relavium.Plan.PlanOrder
import Relavium.Run.Scheduler

/-!
# Statuses and live paths

The abstract meaning of the statuses of a run: a vertex is on a live path when
completed vertices, each condition selecting the next step, lead to it from a
root.  A status only changes from unsettled to settled, or from pending to
running, so what was decided from settled dependencies stays right.
-/

namespace Relavium.Run

open Library
open Plan

/-! ## Live paths -/

/-- The status of the vertex is final. -/
def Settled (states : VertexStates)
    (id : JsString) : Prop :=
  ∃ state, states.get id = some state ∧ state.status.settled = true

/-- The vertex has completed. -/
def Completed (states : VertexStates)
    (id : JsString) : Prop :=
  ∃ state, states.get id = some state ∧ state.status = .completed

/-- If the producer is a condition, it selected the consumer. -/
def Follows (plan : RunPlan) (states : VertexStates)
    (producer consumer : JsString) : Prop :=
  ∀ vertex,
    plan.vertices.get producer = some vertex →
    vertex.type = .condition →
    ∃ state targets,
      states.get producer = some state ∧
      state.selectedTargets = some targets ∧
      consumer ∈ targets

/-- A path from a root leads to the vertex, all of whose vertices before it have
completed and whose conditions selected the next vertex. -/
def OnLivePath (plan : RunPlan) (states : VertexStates)
    (id : JsString) : Prop :=
  LivePath.Live plan.DependsOn (Completed states) (Follows plan states) id

/-- Everything that the vertex waits for is settled. -/
def DependenciesSettled (plan : RunPlan) (states : VertexStates)
    (id : JsString) : Prop :=
  ∀ producer, plan.DependsOn id producer → Settled states producer

section Edges

variable
  {plan : RunPlan}
  {states : VertexStates}
  {id : JsString}
  {vertex : PlanVertex}

theorem dependsOn_iff (found : plan.vertices.get id = some vertex) (producer : JsString) :
    plan.DependsOn id producer ↔ producer ∈ vertex.dependencies := by
  simp [RunPlan.DependsOn, found]

theorem allDepsSettled_iff (found : plan.vertices.get id = some vertex) :
    allDepsSettled states vertex = true ↔ DependenciesSettled plan states id := by
  simp [allDepsSettled, DependenciesSettled, Settled, dependsOn_iff found, Option.any_eq_true]

theorem letsThrough_iff
    {state : VertexState} {producer : JsString} (stateFound : states.get producer = some state)
    (consumer : JsString) :
    letsThrough plan state producer consumer = true ↔
      Follows plan states producer consumer := by
  unfold letsThrough Follows
  cases vertexFound : plan.vertices.get producer with
  | none => simp
  | some vertex =>
    by_cases condition : vertex.type = .condition
    · cases selected : state.selectedTargets with
      | none | some targets => simp [condition, stateFound, selected]
    · simp [condition]

theorem carriesEdge_iff (producer consumer : JsString) :
    carriesEdge plan states consumer producer = true ↔
      Completed states producer ∧ Follows plan states producer consumer := by
  unfold carriesEdge Completed
  cases stateFound : states.get producer with
  | none => simp
  | some state => simp [letsThrough_iff stateFound]

theorem hasLiveEdge_iff (ordered : plan.Ordered) (found : plan.vertices.get id = some vertex) :
    hasLiveEdge plan states vertex = true ↔
      LivePath.LiveEdge plan.DependsOn (Completed states) (Follows plan states)
        id := by
  unfold hasLiveEdge LivePath.LiveEdge
  rw [ordered.vertexId id vertex found]
  by_cases root : vertex.dependencies = []
  · simp [root, dependsOn_iff found]
  · have notFree : ¬∀ producer, ¬plan.DependsOn id producer := by
      intro free
      refine root (List.eq_nil_iff_forall_not_mem.mpr fun producer member => ?_)
      exact free producer ((dependsOn_iff found producer).mpr member)
    rw [if_neg root, or_iff_right notFree, List.any_eq_true]
    simp only [dependsOn_iff found, carriesEdge_iff]

theorem edges_congr {next : VertexStates}
    (same : ∀ dependency ∈ vertex.dependencies,
      next.get dependency = states.get dependency) :
    allDepsSettled next vertex = allDepsSettled states vertex ∧
      hasLiveEdge plan next vertex = hasLiveEdge plan states vertex := by
  constructor
  · unfold allDepsSettled
    rw [Bool.eq_iff_iff, List.all_eq_true, List.all_eq_true]
    exact forall_congr' fun dependency => forall_congr' fun member => by
      rw [same dependency member]
  · unfold hasLiveEdge
    split
    · rfl
    · rw [Bool.eq_iff_iff, List.any_eq_true, List.any_eq_true]
      refine exists_congr fun dependency => and_congr_right fun member => ?_
      unfold carriesEdge
      rw [same dependency member]

/-- What was decided once all dependencies were settled does not change when
another vertex is. -/
theorem edges_set
    {other : JsString} {state : VertexState} (settled : allDepsSettled states vertex = true)
    (found : states.get other = some state) (unsettled : state.status.settled = false)
    (new : VertexState) :
    allDepsSettled (states.set other new) vertex = true ∧
      hasLiveEdge plan (states.set other new) vertex =
        hasLiveEdge plan states vertex := by
  have same : ∀ dependency ∈ vertex.dependencies,
      (states.set other new).get dependency = states.get dependency := by
    intro dependency member
    refine states.get_set_of_ne (fun equal => ?_) new
    subst equal
    have dependencySettled := List.all_eq_true.mp settled dependency member
    rw [found, Option.any_some, unsettled] at dependencySettled
    exact Bool.false_ne_true dependencySettled
  have congruent := @edges_congr plan _ _ _ same
  exact ⟨congruent.1.trans settled, congruent.2⟩

end Edges

/-! ## What the statuses record -/

/-- The statuses of a run in which nothing failed: what has begun was ready, and
what was skipped was dead. -/
structure StatusesSound (plan : RunPlan)
    (states : VertexStates) : Prop where
  known : ∀ id, (states.get id).isSome ↔ id ∈ plan.order
  unfailed : ∀ id state, states.get id = some state →
    state.status ≠ .failed ∧ state.status ≠ .paused
  begun : ∀ id state vertex,
    states.get id = some state →
    plan.vertices.get id = some vertex →
    state.status = .running ∨ state.status = .completed →
      allDepsSettled states vertex = true ∧ hasLiveEdge plan states vertex = true
  dead : ∀ id state vertex,
    states.get id = some state →
    plan.vertices.get id = some vertex →
    state.status = .skipped →
      allDepsSettled states vertex = true ∧
        hasLiveEdge plan states vertex = false

/-- A change of one status: the vertex is skipped, claimed or completes. -/
inductive StatusMove (plan : RunPlan)
    (states : VertexStates) : VertexStates → Prop
  | skip {id : JsString} {state : VertexState} {vertex : PlanVertex} :
      states.get id = some state →
      plan.vertices.get id = some vertex →
      state.status = .pending →
      allDepsSettled states vertex = true →
      hasLiveEdge plan states vertex = false →
      StatusMove plan states (states.set id { state with status := .skipped })
  | claim {id : JsString} {state : VertexState} {vertex : PlanVertex} :
      states.get id = some state →
      plan.vertices.get id = some vertex →
      state.status = .pending →
      allDepsSettled states vertex = true →
      hasLiveEdge plan states vertex = true →
      StatusMove plan states (states.set id { state with status := .running })
  | complete {id : JsString} {state : VertexState} (selectedTargets : Option (List JsString)) :
      states.get id = some state →
      state.status = .running →
      StatusMove plan states (states.set id { status := .completed, selectedTargets })

section Sound

variable
  {plan : RunPlan}
  {states : VertexStates}

/-- Changing an unsettled status keeps the record right if the new status is. -/
theorem StatusesSound.set
    (sound : StatusesSound plan states) {id : JsString} {state new : VertexState}
    (found : states.get id = some state) (unsettled : state.status.settled = false)
    (unfailed : new.status ≠ .failed ∧ new.status ≠ .paused)
    (begun : ∀ vertex,
      plan.vertices.get id = some vertex →
      new.status = .running ∨ new.status = .completed →
        allDepsSettled states vertex = true ∧ hasLiveEdge plan states vertex = true)
    (dead : ∀ vertex,
      plan.vertices.get id = some vertex →
      new.status = .skipped →
        allDepsSettled states vertex = true ∧
          hasLiveEdge plan states vertex = false) :
    StatusesSound plan (states.set id new) := by
  have member : id ∈ plan.order := (sound.known id).mp (by rw [found]; rfl)
  constructor
  case known =>
    intro other
    rw [OrderedMap.get_set]
    split
    · next same => simpa [same] using member
    · exact sound.known other
  case unfailed =>
    intro other otherState otherFound
    rw [OrderedMap.get_set] at otherFound
    split at otherFound
    · cases otherFound
      exact unfailed
    · exact sound.unfailed other otherState otherFound
  case begun =>
    intro other otherState vertex otherFound vertexFound started
    have before : allDepsSettled states vertex = true ∧
        hasLiveEdge plan states vertex = true := by
      rw [OrderedMap.get_set] at otherFound
      split at otherFound
      · next same =>
        subst same
        cases otherFound
        exact begun vertex vertexFound started
      · exact sound.begun other otherState vertex otherFound vertexFound started
    obtain ⟨settled, edge⟩ := @edges_set plan _ _ _ _ before.1 found unsettled new
    exact ⟨settled, edge.trans before.2⟩
  case dead =>
    intro other otherState vertex otherFound vertexFound skipped
    have before : allDepsSettled states vertex = true ∧
        hasLiveEdge plan states vertex = false := by
      rw [OrderedMap.get_set] at otherFound
      split at otherFound
      · next same =>
        subst same
        cases otherFound
        exact dead vertex vertexFound skipped
      · exact sound.dead other otherState vertex otherFound vertexFound skipped
    obtain ⟨settled, edge⟩ := @edges_set plan _ _ _ _ before.1 found unsettled new
    exact ⟨settled, edge.trans before.2⟩

/-- Every move keeps the record right. -/
theorem StatusesSound.move
    (sound : StatusesSound plan states) {next : VertexStates}
    (moved : StatusMove plan states next) :
    StatusesSound plan next := by
  cases moved with
  | skip found vertexFound pending settled edge =>
    refine sound.set found (by simp [pending, VertexStatus.settled]) (by simp)
      (by simp) fun vertex sameVertex _ => ?_
    cases vertexFound.symm.trans sameVertex
    exact ⟨settled, edge⟩
  | claim found vertexFound pending settled edge =>
    refine sound.set found (by simp [pending, VertexStatus.settled]) (by simp)
      (fun vertex sameVertex _ => ?_) (by simp)
    cases vertexFound.symm.trans sameVertex
    exact ⟨settled, edge⟩
  | complete selectedTargets found running =>
    refine sound.set found (by simp [running, VertexStatus.settled]) (by simp)
      (fun vertex vertexFound _ => ?_) (by simp)
    exact sound.begun _ _ vertex found vertexFound (Or.inl running)

/-- Any number of moves keep the record right. -/
theorem StatusesSound.moves
    (sound : StatusesSound plan states) {next : VertexStates}
    (moved : Relation.ReflTransGen (StatusMove plan) states next) :
    StatusesSound plan next := by
  induction moved with
  | refl => exact sound
  | tail _ last ih => exact ih.move last

/-- While the record is right, a live edge is the end of a live path. -/
theorem StatusesSound.hasLiveEdge_iff
    (sound : StatusesSound plan states) (ordered : plan.Ordered) {id : JsString}
    {vertex : PlanVertex} (found : plan.vertices.get id = some vertex) :
    hasLiveEdge plan states vertex = true ↔ OnLivePath plan states id := by
  rw [Run.hasLiveEdge_iff ordered found]
  refine (LivePath.live_iff_liveEdge ordered.topological ordered.closed ?_
    ((ordered.vertexIds id).mp (by rw [found]; rfl))).symm
  rintro other ⟨state, stateFound, completed⟩
  obtain ⟨otherVertex, vertexFound⟩ := Option.isSome_iff_exists.mp
    ((ordered.vertexIds other).mpr ((sound.known other).mp (by rw [stateFound]; rfl)))
  rw [← Run.hasLiveEdge_iff ordered vertexFound]
  exact (sound.begun other state otherVertex stateFound vertexFound (Or.inr completed)).2

end Sound

section Initial

variable {plan : RunPlan}

theorem get_initialStates (ordered : plan.Ordered) (id : JsString) :
    (initialStates plan).get id =
      if id ∈ plan.order then
        some { status := .pending, selectedTargets := none }
      else none := by
  have keys : ∀ other, other ∈ plan.vertices.keys ↔ other ∈ plan.order := by
    intro other
    rw [← ordered.vertexIds, Option.isSome_iff_exists, OrderedMap.keys, List.mem_map]
    simp [OrderedMap.mem_entries_iff]
  unfold initialStates
  split
  · next member =>
    exact OrderedMap.get_foldl_set_of_mem (fun other => other) _
      (by rw [List.map_id']; exact plan.vertices.nodupKeys)
      ((keys id).mpr member) _
  · next absent =>
    rw [OrderedMap.get_foldl_set_of_not_mem (fun other => other)
      (fun _ => ({ status := .pending, selectedTargets := none } : VertexState)),
      OrderedMap.get_empty]
    rintro other listed rfl
    exact absent ((keys other).mp listed)

/-- The record of a fresh run is right. -/
theorem statusesSound_initial (ordered : plan.Ordered) :
    StatusesSound plan (initialStates plan) := by
  have pending : ∀ id state,
      (initialStates plan).get id = some state → state.status = .pending := by
    intro id state found
    rw [get_initialStates ordered] at found
    split at found
    · cases found
      rfl
    · cases found
  constructor
  case known =>
    intro id
    rw [get_initialStates ordered]
    split
    · next member => simp [member]
    · next absent => simp [absent]
  case unfailed =>
    intro id state found
    simp [pending id state found]
  case begun =>
    intro id state vertex found _ started
    simp [pending id state found] at started
  case dead =>
    intro id state vertex found _ skipped
    simp [pending id state found] at skipped

end Initial

end Relavium.Run
