import Relavium.Run.VertexStatuses

/-!
# What a scheduler pass does

`#propagateSkips` skips exactly the vertices that no live path can reach any
more, and `#claimReady` claims pending vertices that one does reach.  Once skips
have propagated and nothing runs, a vertex is left to claim unless every vertex
is settled.
-/

namespace Relavium.Run

open Library
open Plan

/-- The vertex is pending, everything it waits for is settled and no edge is
live. -/
def Dead (plan : RunPlan) (states : VertexStates)
    (id : JsString) : Prop :=
  ∃ state vertex,
    states.get id = some state ∧
    plan.vertices.get id = some vertex ∧
    state.status = .pending ∧
    allDepsSettled states vertex = true ∧
    hasLiveEdge plan states vertex = false

/-- The vertex is pending, everything it waits for is settled and an edge is
live. -/
def Claimable (plan : RunPlan) (states : VertexStates)
    (id : JsString) : Prop :=
  ∃ state vertex,
    states.get id = some state ∧
    plan.vertices.get id = some vertex ∧
    state.status = .pending ∧
    allDepsSettled states vertex = true ∧
    hasLiveEdge plan states vertex = true

/-! ## Skips -/

section SkipPass

variable
  {plan : RunPlan}

/-- Skips only touch pending vertices, which they leave pending or skip. -/
def OnlySkips (before after : VertexStates) : Prop :=
  ∀ id,
    after.get id = before.get id ∨
      statusOf before id = some .pending ∧ statusOf after id = some .skipped

theorem OnlySkips.trans
    {first second third : VertexStates} (earlier : OnlySkips first second)
    (later : OnlySkips second third) :
    OnlySkips first third := by
  intro id
  obtain same | ⟨pending, skipped⟩ := earlier id
  · obtain again | ⟨pending, skipped⟩ := later id
    · exact Or.inl (again.trans same)
    · refine Or.inr ⟨?_, skipped⟩
      unfold statusOf at pending ⊢
      rwa [same] at pending
  · obtain again | ⟨stillPending, _⟩ := later id
    · refine Or.inr ⟨pending, ?_⟩
      unfold statusOf at skipped ⊢
      rwa [again]
    · simp [skipped] at stillPending

theorem skipVertex_cases (sweep : SkipSweep) (id : JsString) :
    (Dead plan sweep.states id ∧
      StatusMove plan sweep.states (skipVertex plan sweep id).states ∧
      OnlySkips sweep.states (skipVertex plan sweep id).states ∧
      statusOf (skipVertex plan sweep id).states id = some .skipped ∧
      ∃ reason,
        (skipVertex plan sweep id).skipped = sweep.skipped ++ [(id, reason)]) ∨
    (¬Dead plan sweep.states id ∧ skipVertex plan sweep id = sweep) := by
  unfold skipVertex Dead
  cases found : sweep.states.get id with
  | none => exact Or.inr ⟨by simp, rfl⟩
  | some state =>
    cases vertexFound : plan.vertices.get id with
    | none => exact Or.inr ⟨by simp, rfl⟩
    | some vertex =>
      dsimp only
      by_cases dead : state.status = .pending ∧
          allDepsSettled sweep.states vertex ∧
          ¬hasLiveEdge plan sweep.states vertex
      · obtain ⟨pending, settled, edge⟩ := dead
        have noEdge := Bool.eq_false_iff.mpr edge
        rw [if_pos ⟨pending, settled, edge⟩]
        refine Or.inl ⟨⟨state, vertex, rfl, rfl, pending, settled, noEdge⟩,
          .skip found vertexFound pending settled noEdge, ?_, ?_, _, rfl⟩
        · intro other
          by_cases same : other = id
          · subst same
            exact Or.inr ⟨by simp [statusOf, found, pending], by
              simp [statusOf]⟩
          · exact Or.inl (OrderedMap.get_set_of_ne _ same _)
        · simp [statusOf]
      · rw [if_neg dead]
        refine Or.inr ⟨?_, rfl⟩
        rintro ⟨otherState, otherVertex, sameState, sameVertex, pending, settled, edge⟩
        cases sameState
        cases sameVertex
        exact dead ⟨pending, settled, Bool.eq_false_iff.mp edge⟩

/-- The facts about a sweep that goes on from another one. -/
structure SweepExtends (plan : RunPlan)
    (before after : SkipSweep) : Prop where
  moves : Relation.ReflTransGen (StatusMove plan) before.states after.states
  onlySkips : OnlySkips before.states after.states
  /-- Either nothing changed, or another vertex was skipped. -/
  skipped : after = before ∨
    ∃ id,
      statusOf before.states id = some .pending ∧
      statusOf after.states id = some .skipped ∧
      before.skipped.length < after.skipped.length

theorem SweepExtends.refl (sweep : SkipSweep) : SweepExtends plan sweep sweep where
  moves := .refl
  onlySkips _ := Or.inl rfl
  skipped := Or.inl rfl

theorem sweepExtends_skipVertex (sweep : SkipSweep) (id : JsString) :
    SweepExtends plan sweep (skipVertex plan sweep id) := by
  obtain ⟨dead, move, onlySkips, skipped, reason, listed⟩ | ⟨_, same⟩ :=
    @skipVertex_cases plan sweep id
  · obtain ⟨state, vertex, found, _, pending, _, _⟩ := dead
    refine ⟨.single move, onlySkips, Or.inr ⟨id, ?_, skipped, by simp [listed]⟩⟩
    simp [statusOf, found, pending]
  · rw [same]
    exact .refl sweep

variable {id : JsString} {states : VertexStates}

/-- A skipped vertex stays skipped while skips propagate. -/
theorem OnlySkips.skipped
    {before after : VertexStates} (onlySkips : OnlySkips before after)
    (skipped : statusOf before id = some .skipped) :
    statusOf after id = some .skipped := by
  obtain same | ⟨pending, _⟩ := onlySkips id
  · unfold statusOf at skipped ⊢
    rwa [same]
  · simp [skipped] at pending

theorem SweepExtends.trans
    {first second third : SkipSweep} (earlier : SweepExtends plan first second)
    (later : SweepExtends plan second third) :
    SweepExtends plan first third := by
  refine ⟨earlier.moves.trans later.moves, earlier.onlySkips.trans later.onlySkips, ?_⟩
  obtain rfl | ⟨id, pending, skipped, more⟩ := earlier.skipped
  · exact later.skipped
  · refine Or.inr ⟨id, pending, later.onlySkips.skipped skipped, ?_⟩
    obtain rfl | ⟨_, _, _, evenMore⟩ := later.skipped
    · exact more
    · exact more.trans evenMore

theorem sweepExtends_foldl (ids : List JsString) (sweep : SkipSweep) :
    SweepExtends plan sweep (ids.foldl (skipVertex plan) sweep) := by
  induction ids generalizing sweep with
  | nil => exact .refl sweep
  | cons id rest ih =>
    exact (sweepExtends_skipVertex sweep id).trans (ih _)

theorem not_dead_of_foldl_eq
    {ids : List JsString} {sweep : SkipSweep}
    (unchanged : (ids.foldl (skipVertex plan) sweep).skipped.length ≤ sweep.skipped.length)
    (listed : id ∈ ids) :
    ¬Dead plan sweep.states id := by
  induction ids generalizing sweep with
  | nil => simp at listed
  | cons head rest ih =>
    rw [List.foldl_cons] at unchanged
    obtain ⟨_, _, _, _, reason, extended⟩ | ⟨alive, same⟩ :=
      @skipVertex_cases plan sweep head
    · have grown : sweep.skipped.length <
          (skipVertex plan sweep head).skipped.length := by simp [extended]
      have later := @sweepExtends_foldl plan rest (skipVertex plan sweep head)
      obtain stays | ⟨_, _, _, more⟩ := later.skipped
      · rw [stays] at unchanged
        omega
      · omega
    · rw [same] at unchanged
      obtain rfl | later := List.mem_cons.mp listed
      · exact alive
      · exact ih unchanged later

theorem mem_keys_of_get {state : VertexState} (found : states.get id = some state) :
    id ∈ states.keys :=
  List.mem_map.mpr ⟨(id, state), (states.mem_entries_iff id state).mpr found, rfl⟩

/-- The vertices of a plan that are pending. -/
def pendingVertices (plan : RunPlan)
    (states : VertexStates) : List JsString :=
  plan.order.filter fun id => decide (statusOf states id = some .pending)

theorem pendingVertices_lt
    {before after : VertexStates} (onlySkips : OnlySkips before after) (listed : id ∈ plan.order)
    (pending : statusOf before id = some .pending) (skipped : statusOf after id = some .skipped) :
    (pendingVertices plan after).length < (pendingVertices plan before).length := by
  have fewer : pendingVertices plan after =
      (pendingVertices plan before).filter fun other =>
        decide (statusOf after other = some .pending) := by
    unfold pendingVertices
    rw [List.filter_filter]
    refine List.filter_congr fun other _ => ?_
    obtain same | ⟨_, otherSkipped⟩ := onlySkips other
    · simp [statusOf, same]
    · simp [otherSkipped]
  rw [fewer, List.length_filter_lt_length_iff_exists]
  exact ⟨id, List.mem_filter.mpr ⟨listed, decide_eq_true pending⟩, by
    simp [skipped]⟩

theorem propagateSkips_effect
    {fuel : Nat} {sweep : SkipSweep} (returned : propagateSkips plan fuel states = some sweep) :
    Relation.ReflTransGen (StatusMove plan) states sweep.states ∧
      OnlySkips states sweep.states ∧
      ∀ id, ¬Dead plan sweep.states id := by
  induction fuel generalizing states sweep with
  | zero => exact absurd returned (by simp [propagateSkips])
  | succ fuel ih =>
    have pass : SweepExtends plan { states, skipped := [] }
        (skipPass plan states) :=
      sweepExtends_foldl states.keys _
    unfold propagateSkips at returned
    dsimp only at returned
    split at returned
    · next quiet =>
      cases returned
      have unchanged : skipPass plan states = { states, skipped := [] } := by
        obtain same | ⟨_, _, _, more⟩ := pass.skipped
        · exact same
        · rw [quiet] at more
          exact absurd more (Nat.lt_irrefl 0)
      refine ⟨pass.moves, pass.onlySkips, ?_⟩
      rw [unchanged]
      intro id dead
      have listed : id ∈ states.keys := by
        obtain ⟨state, _, found, _⟩ := dead
        exact mem_keys_of_get found
      have noMore : (states.keys.foldl (skipVertex plan)
          { states, skipped := [] }).skipped.length ≤ 0 :=
        (congrArg List.length quiet).le
      exact not_dead_of_foldl_eq noMore listed dead
    · obtain ⟨rest, later, rfl⟩ := Option.map_eq_some_iff.mp returned
      obtain ⟨moves, onlySkips, alive⟩ := ih later
      exact ⟨pass.moves.trans moves, pass.onlySkips.trans onlySkips, alive⟩

/-- Propagating skips stops after at most one pass for each pending vertex and one
more. -/
theorem propagateSkips_returns
    {fuel : Nat} (known : ∀ id, (states.get id).isSome → id ∈ plan.order)
    (enough : (pendingVertices plan states).length < fuel) :
    ∃ sweep, propagateSkips plan fuel states = some sweep := by
  induction fuel generalizing states with
  | zero => omega
  | succ fuel ih =>
    have pass : SweepExtends plan { states, skipped := [] }
        (skipPass plan states) :=
      sweepExtends_foldl states.keys _
    unfold propagateSkips
    by_cases quiet : (skipPass plan states).skipped = []
    · exact ⟨_, if_pos quiet⟩
    · dsimp only
      rw [if_neg quiet]
      obtain same | ⟨id, pending, skipped, _⟩ := pass.skipped
      · exact absurd (congrArg SkipSweep.skipped same) quiet
      have listed : id ∈ plan.order := by
        obtain ⟨state, found, _⟩ := Option.map_eq_some_iff.mp pending
        exact known id (by rw [found]; rfl)
      have fewer := pendingVertices_lt pass.onlySkips listed pending skipped
      have stillKnown : ∀ other,
          ((skipPass plan states).states.get other).isSome →
            other ∈ plan.order := by
        intro other present
        obtain same | ⟨wasPending, _⟩ := pass.onlySkips other
        · exact known other (same ▸ present)
        · obtain ⟨_, found, _⟩ := Option.map_eq_some_iff.mp wasPending
          exact known other (by rw [found]; rfl)
      obtain ⟨sweep, returned⟩ :=
        ih stillKnown (by dsimp only at fewer; omega)
      exact ⟨_, by rw [returned, Option.map_some]⟩

end SkipPass

/-! ## Claims -/

section Claims

variable
  {plan : RunPlan}

theorem claimFrom_moves (cap headroom : Nat) (ids : List JsString) (scan : ClaimScan) :
    Relation.ReflTransGen (StatusMove plan) scan.states
      (claimFrom plan cap headroom ids scan).states := by
  induction ids generalizing scan with
  | nil => exact .refl
  | cons id rest ih =>
    unfold claimFrom
    split
    · exact .refl
    split
    · next vertex state vertexFound found =>
      split
      · next ready =>
        obtain ⟨pending, settled, edge⟩ := ready
        exact Relation.ReflTransGen.trans
          (.single (.claim found vertexFound pending settled edge))
          (ih { scan with
            states := scan.states.set id { state with status := .running }
            claimed := scan.claimed ++ [id]
            running := scan.running + 1 })
      · exact ih _
    · exact ih _

theorem claimFrom_claimed_le (cap headroom : Nat) (ids : List JsString) (scan : ClaimScan) :
    scan.claimed.length ≤ (claimFrom plan cap headroom ids scan).claimed.length := by
  induction ids generalizing scan with
  | nil => exact Nat.le_refl _
  | cons id rest ih =>
    unfold claimFrom
    split
    · exact Nat.le_refl _
    split
    · split
      · refine Nat.le_trans ?_ (ih _)
        simp
      · exact ih _
    · exact ih _

/-- With room for one more, a claimable vertex of the list leads to a claim. -/
theorem claimFrom_claimed_lt
    {cap headroom : Nat} {ids : List JsString} {scan : ClaimScan} (free : scan.running < cap)
    (room : scan.claimed.length < headroom) {id : JsString} (listed : id ∈ ids)
    (claimable : Claimable plan scan.states id) :
    scan.claimed.length < (claimFrom plan cap headroom ids scan).claimed.length := by
  induction ids with
  | nil => simp at listed
  | cons head rest ih =>
    have skipHead : head ≠ id → id ∈ rest := fun different =>
      (List.mem_cons.mp listed).resolve_left (Ne.symm different)
    unfold claimFrom
    rw [if_neg (by omega)]
    split
    · next vertex state vertexFound found =>
      split
      · refine Nat.lt_of_lt_of_le ?_ (claimFrom_claimed_le cap headroom rest _)
        simp
      · next notReady =>
        refine ih (skipHead fun same => notReady ?_)
        subst same
        obtain ⟨otherState, otherVertex, sameState, sameVertex, ready⟩ := claimable
        cases found.symm.trans sameState
        cases vertexFound.symm.trans sameVertex
        exact ready
    · next unknown =>
      refine ih (skipHead fun same => ?_)
      subst same
      obtain ⟨state, vertex, found, vertexFound, _⟩ := claimable
      exact unknown vertex state vertexFound found

theorem claimReady_ne_nil
    (ordered : plan.Ordered) (width : 0 < parallelCap plan) {states : VertexStates}
    {headroom : Nat} (room : 0 < headroom) {id : JsString}
    (claimable : Claimable plan states id) :
    (claimReady plan states 0 headroom).claimed ≠ [] := by
  have listed : id ∈ plan.order := by
    obtain ⟨_, _, _, vertexFound, _⟩ := claimable
    exact (ordered.vertexIds id).mp (by rw [vertexFound]; rfl)
  have claims := @claimFrom_claimed_lt plan _ _ _
    { states, claimed := [], running := 0 } width room _ listed claimable
  intro empty
  unfold claimReady at empty
  rw [empty] at claims
  exact absurd claims (Nat.lt_irrefl 0)

/-- Without a claimable vertex nothing is claimed. -/
theorem claimFrom_of_none
    {cap headroom : Nat} {ids : List JsString} {scan : ClaimScan}
    (none : ∀ id, ¬Claimable plan scan.states id) :
    claimFrom plan cap headroom ids scan = scan := by
  induction ids with
  | nil => rfl
  | cons id rest ih =>
    unfold claimFrom
    split
    · rfl
    split
    · next vertex state vertexFound found =>
      rw [if_neg fun ready => none id ⟨state, vertex, found, vertexFound, ready⟩]
      exact ih
    · exact ih

end Claims

/-! ## Progress -/

section Progress

variable
  {plan : RunPlan}
  {states : VertexStates}

theorem countRunning_eq_zero_iff :
    countRunning states = 0 ↔
      ∀ id state, states.get id = some state → state.status ≠ .running := by
  unfold countRunning
  rw [List.countP_eq_zero]
  constructor
  · intro none id state found running
    have member := (states.mem_values_iff state).mpr ⟨id, found⟩
    exact none state member (decide_eq_true running)
  · intro none state member running
    obtain ⟨id, found⟩ := (states.mem_values_iff state).mp member
    exact none id state found (of_decide_eq_true running)

theorem allSettled_iff :
    allSettled states = true ↔
      ∀ id state, states.get id = some state → state.status.settled = true := by
  unfold allSettled
  rw [List.all_eq_true]
  constructor
  · intro all id state found
    exact all state ((states.mem_values_iff state).mpr ⟨id, found⟩)
  · intro all state member
    obtain ⟨id, found⟩ := (states.mem_values_iff state).mp member
    exact all id state found

/-- Where nothing runs and no vertex is dead, a vertex is left to claim unless
all are settled. -/
theorem StatusesSound.exists_claimable
    (sound : StatusesSound plan states) (ordered : plan.Ordered)
    (alive : ∀ id, ¬Dead plan states id) (idle : countRunning states = 0)
    (unsettled : allSettled states = false) :
    ∃ id, Claimable plan states id := by
  have somewhere : ∃ id ∈ plan.order, ¬Settled states id := by
    by_contra none
    push Not at none
    refine Bool.eq_false_iff.mp unsettled (allSettled_iff.mpr fun id state found => ?_)
    obtain ⟨other, same, settled⟩ :=
      none id ((sound.known id).mp (by rw [found]; rfl))
    cases found.symm.trans same
    exact settled
  obtain ⟨later, laterListed, laterUnsettled⟩ := somewhere
  -- the first unsettled vertex waits for nothing any more
  obtain ⟨id, listed, open', waits⟩ :=
    ordered.topological.exists_first_without ordered.closed laterListed laterUnsettled
  obtain ⟨state, found⟩ := Option.isSome_iff_exists.mp ((sound.known id).mpr listed)
  obtain ⟨vertex, vertexFound⟩ :=
    Option.isSome_iff_exists.mp ((ordered.vertexIds id).mpr listed)
  have pending : state.status = .pending := by
    have notRunning := countRunning_eq_zero_iff.mp idle id state found
    have unfailed := sound.unfailed id state found
    have notSettled : state.status.settled ≠ true := fun settled =>
      open' ⟨state, found, settled⟩
    cases status : state.status <;> simp_all [VertexStatus.settled]
  have settled := (allDepsSettled_iff vertexFound).mpr waits
  refine ⟨id, state, vertex, found, vertexFound, pending, settled, ?_⟩
  by_contra noEdge
  exact alive id ⟨state, vertex, found, vertexFound, pending, settled,
    Bool.eq_false_iff.mpr noEdge⟩

end Progress

/-! ## Verdicts -/

section Verdicts

variable
  {plan : RunPlan}
  {states : VertexStates}
  {control : StepControl}

/-- A pass that claims is neither cancelled nor failing, has vertices left and
claims within the dispatches that are. -/
theorem claimed_of_stepVerdict
    {scan : ClaimScan} (verdict : stepVerdict plan states control = .claimed scan) :
    scan = claimReady plan states (countRunning states)
        (nodeDispatchesPerRun - control.nodeDispatches) ∧
      control.cancelling = false ∧
      control.failing = false ∧
      allSettled states = false ∧
      control.nodeDispatches < nodeDispatchesPerRun := by
  unfold stepVerdict at verdict
  dsimp only at verdict
  split at verdict
  · split at verdict <;> cases verdict
  next uncancelled =>
  split at verdict
  · split at verdict <;> cases verdict
  next unfailing =>
  split at verdict
  · cases verdict
  next unsettled =>
  split at verdict
  · cases verdict
  next left =>
  split at verdict
  · cases verdict
  · exact ⟨(StepVerdict.claimed.inj verdict).symm, by simpa using uncancelled,
      by simpa using unfailing, by simpa using unsettled, Nat.lt_of_not_le left⟩

/-- A pass that is neither cancelled nor failing, with dispatches left and
vertices to settle, claims what is ready or is idle. -/
theorem stepVerdict_open
    (uncancelled : control.cancelling = false) (unfailing : control.failing = false)
    (unsettled : allSettled states = false)
    (left : control.nodeDispatches < nodeDispatchesPerRun) :
    stepVerdict plan states control =
      let scan := claimReady plan states (countRunning states)
        (nodeDispatchesPerRun - control.nodeDispatches)
      if scan.claimed = [] then
        .idle (handleIdle (countRunning states) control.parked)
      else .claimed scan := by
  unfold stepVerdict
  rw [if_neg (by simp [uncancelled]), if_neg (by simp [unfailing]),
    if_neg (by simp [unsettled]), if_neg (by omega)]

/-- A pass only finds the run stalled when nothing runs, vertices are left and
none was claimed. -/
theorem stalled_of_stepVerdict (verdict : stepVerdict plan states control = .idle .stalled) :
    countRunning states = 0 ∧
      allSettled states = false ∧
      control.nodeDispatches < nodeDispatchesPerRun ∧
      (claimReady plan states 0
        (nodeDispatchesPerRun - control.nodeDispatches)).claimed = [] := by
  unfold stepVerdict at verdict
  dsimp only at verdict
  split at verdict
  · split at verdict <;> cases verdict
  split at verdict
  · split at verdict <;> cases verdict
  split at verdict
  · cases verdict
  next unsettled =>
  split at verdict
  · cases verdict
  next left =>
  split at verdict
  · next none =>
    have idle := StepVerdict.idle.inj verdict
    have zero : countRunning states = 0 := by
      unfold handleIdle at idle
      split at idle
      · cases idle
      · omega
    rw [zero] at none
    exact ⟨zero, Bool.eq_false_iff.mpr unsettled, by omega, none⟩
  · cases verdict

end Verdicts
end Relavium.Run
