import Relavium.Library.BinaryHeap
import Relavium.Library.GreedyOrder
import Relavium.Plan.DependencyGraph
import Mathlib.Tactic.Common

/-!
# The topological order of a plan

Each step emits the authored-first ready vertex.  The ready vertices stand in a
binary min-heap by authored position, and a counter for each vertex holds the
number of its dependencies that have not been emitted.
-/

namespace Relavium.Plan

open Library

variable [DecidableEq κ]

/-- The authored position of each node id. -/
def authoredPositions (nodeIds : List κ) : OrderedMap κ Nat :=
  nodeIds.zipIdx.foldl (fun positions entry => positions.set entry.1 entry.2) OrderedMap.empty

/-- Compare two ids by authored position. -/
def byAuthored (authoredIndex : OrderedMap κ Nat)
    (left right : κ) : Int :=
  ((authoredIndex.get left).getD 0 : Int) - (authoredIndex.get right).getD 0

/-- Insert an id into the heap of ready vertices. -/
def pushReady (authoredIndex : OrderedMap κ Nat) (ready : List κ)
    (id : κ) : List κ :=
  BinaryHeap.push (byAuthored authoredIndex) ready id

/-- Remove the authored-first id from the heap of ready vertices. -/
def popReady (authoredIndex : OrderedMap κ Nat)
    (ready : List κ) : Option κ × List κ :=
  BinaryHeap.pop (byAuthored authoredIndex) ready

/-- For each vertex the number of its dependencies. -/
def remainingCounts
    (dependencies : OrderedMap κ (OrderedSet κ)) : OrderedMap κ Int :=
  dependencies.entries.foldl (fun remaining entry => remaining.set entry.1 entry.2.size)
    OrderedMap.empty

/-- The variables of the loop. -/
structure KahnState (κ : Type u) where
  /-- The number of dependencies that each vertex still waits for. -/
  remaining : OrderedMap κ Int
  /-- The heap of ready vertices. -/
  ready : List κ
  /-- The vertices emitted so far. -/
  order : List κ

namespace KahnState

/-- The counters before the first step, with the vertices that wait for
nothing. -/
def initial (nodeIds : List κ) (graph : DependencyGraph κ)
    (authoredIndex : OrderedMap κ Nat) : KahnState κ :=
  let remaining := remainingCounts graph.dependencies
  { remaining := remaining
    ready :=
      nodeIds.foldl
        (fun ready id =>
          if (remaining.get id).getD 0 = 0 then
            pushReady authoredIndex ready id
          else ready)
        []
    order := [] }

/-- One dependency of the consumer has been emitted. -/
def release (authoredIndex : OrderedMap κ Nat) (state : KahnState κ)
    (consumer : κ) : KahnState κ :=
  let next := (state.remaining.get consumer).getD 0 - 1
  { state with
    remaining := state.remaining.set consumer next
    ready :=
      if next = 0 then pushReady authoredIndex state.ready consumer
      else state.ready }

/-- Emit a vertex and release its consumers. -/
def emit (graph : DependencyGraph κ) (authoredIndex : OrderedMap κ Nat) (state : KahnState κ)
    (id : κ) : KahnState κ :=
  (graph.dependentsOf id).elements.foldl (release authoredIndex)
    { state with order := state.order ++ [id] }

end KahnState

/-- Emit ready vertices until none is left, within the given number of
iterations. -/
def kahnLoop (graph : DependencyGraph κ) (authoredIndex : OrderedMap κ Nat) :
    Nat → KahnState κ → Option (List κ)
  | 0, _ => none
  | fuel + 1, state =>
    if 0 < state.ready.length then
      match popReady authoredIndex state.ready with
      | (none, _) => some state.order
      | (some id, ready) =>
        kahnLoop graph authoredIndex fuel
          ({ state with ready := ready }.emit graph authoredIndex id)
    else some state.order

/-- Kahn's algorithm with the authored-first tie-break; `none` when the fuel
runs out. -/
def kahnOrder (fuel : Nat) (nodeIds : List κ) (graph : DependencyGraph κ)
    (authoredIndex : OrderedMap κ Nat) : Option (List κ) :=
  kahnLoop graph authoredIndex fuel (KahnState.initial nodeIds graph authoredIndex)

section Positions

theorem get_foldl_positions
    (nodeIds : List κ) (start : Nat) (positions : OrderedMap κ Nat) (nodup : nodeIds.Nodup)
    (id : κ) :
    ((nodeIds.zipIdx start).foldl (fun positions entry => positions.set entry.1 entry.2)
        positions).get id =
      if id ∈ nodeIds then some (start + nodeIds.idxOf id)
      else positions.get id := by
  induction nodeIds generalizing start positions with
  | nil => simp
  | cons head rest ih =>
    obtain ⟨absent, restNodup⟩ := List.nodup_cons.mp nodup
    rw [List.zipIdx_cons, List.foldl_cons, ih _ _ restNodup, OrderedMap.get_set]
    by_cases atHead : id = head
    · subst atHead
      simp [absent]
    · by_cases later : id ∈ rest
      · simp only [later, if_true, List.mem_cons, or_true, List.idxOf_cons_ne _ (Ne.symm atHead)]
        congr 1
        omega
      · simp [later, atHead]

theorem get_authoredPositions
    {nodeIds : List κ} (nodup : nodeIds.Nodup) {id : κ} (present : id ∈ nodeIds) :
    (authoredPositions nodeIds).get id = some (nodeIds.idxOf id) := by
  rw [authoredPositions, get_foldl_positions nodeIds 0 _ nodup, if_pos present, Nat.zero_add]

theorem byAuthored_consistent (authoredIndex : OrderedMap κ Nat) :
    ConsistentComparator (byAuthored authoredIndex) where
  antisymmetric left right := by
    unfold byAuthored
    omega
  transitive := by
    intro first second third firstLe secondLe
    unfold byAuthored at *
    omega

theorem byAuthored_le_iff
    {nodeIds : List κ} (nodup : nodeIds.Nodup) {left right : κ} (leftPresent : left ∈ nodeIds)
    (rightPresent : right ∈ nodeIds) :
    byAuthored (authoredPositions nodeIds) left right ≤ 0 ↔
      nodeIds.idxOf left ≤ nodeIds.idxOf right := by
  unfold byAuthored
  rw [get_authoredPositions nodup leftPresent,
    get_authoredPositions nodup rightPresent, Option.getD_some,
    Option.getD_some]
  omega

end Positions

section Counts

theorem get_foldl_counts
    {entries : List (κ × OrderedSet κ)} (nodup : (entries.map Prod.fst).Nodup)
    (counts : OrderedMap κ Int) (id : κ) :
    (entries.foldl (fun remaining entry => remaining.set entry.1 (entry.2.size : Int))
        counts).get id =
      match OrderedMap.lookupEntry id entries with
      | some ins => some (ins.size : Int)
      | none => counts.get id := by
  induction entries generalizing counts with
  | nil => rfl
  | cons entry rest ih =>
    rw [List.map_cons, List.nodup_cons] at nodup
    rw [List.foldl_cons, ih nodup.2]
    by_cases same : entry.1 = id
    · have absent : OrderedMap.lookupEntry id rest = none := by
        cases found : OrderedMap.lookupEntry id rest with
        | none => rfl
        | some ins =>
          have member :=
            (OrderedMap.lookupEntry_eq_some_iff nodup.2 id ins).mp found
          exact absurd (List.mem_map_of_mem member) (same ▸ nodup.1)
      simp [OrderedMap.lookupEntry, absent, same]
    · simp only [OrderedMap.lookupEntry, same, if_false]
      rw [OrderedMap.get_set_of_ne counts (Ne.symm same)]

/-- Every vertex starts with the number of its dependencies. -/
theorem get_remainingCounts (dependencies : OrderedMap κ (OrderedSet κ)) (id : κ) :
    (remainingCounts dependencies).get id =
      (dependencies.get id).map fun ins => (ins.size : Int) := by
  rw [remainingCounts, get_foldl_counts dependencies.nodupKeys, OrderedMap.get_empty]
  unfold OrderedMap.get
  cases OrderedMap.lookupEntry id dependencies.entries with
  | none | some ins => rfl

end Counts

section Release

variable (authoredIndex : OrderedMap κ Nat)

/-- The ready vertices stand in heap order. -/
abbrev HeapOrdered (ready : List κ) : Prop :=
  BinaryHeap.Ordered (byAuthored authoredIndex) ready

theorem heapOrdered_pushReady
    {ready : List κ} (ordered : HeapOrdered authoredIndex ready) (id : κ) :
    HeapOrdered authoredIndex (pushReady authoredIndex ready id) :=
  BinaryHeap.ordered_push (byAuthored_consistent authoredIndex) ordered id

theorem pushReady_perm (ready : List κ) (id : κ) :
    (pushReady authoredIndex ready id).Perm (id :: ready) :=
  BinaryHeap.push_perm _ ready id

/-- Releasing the consumers of a vertex does not touch the order. -/
theorem order_foldl_release (consumers : List κ) (state : KahnState κ) :
    (consumers.foldl (KahnState.release authoredIndex) state).order =
      state.order := by
  induction consumers generalizing state with
  | nil => rfl
  | cons consumer rest ih =>
    rw [List.foldl_cons, ih]
    rfl

/-- Each consumer waits for one dependency less. -/
theorem remaining_foldl_release
    {consumers : List κ} (nodup : consumers.Nodup) (state : KahnState κ) (id : κ) :
    (consumers.foldl (KahnState.release authoredIndex) state).remaining.get id =
      if id ∈ consumers then some ((state.remaining.get id).getD 0 - 1)
      else state.remaining.get id := by
  induction consumers generalizing state with
  | nil => simp
  | cons consumer rest ih =>
    obtain ⟨absent, restNodup⟩ := List.nodup_cons.mp nodup
    rw [List.foldl_cons, ih restNodup]
    simp only [KahnState.release, OrderedMap.get_set, List.mem_cons]
    by_cases atConsumer : id = consumer
    · subst atConsumer
      simp [absent]
    · simp [atConsumer]

/-- The consumers that waited for one dependency become ready. -/
theorem ready_foldl_release {consumers : List κ} (nodup : consumers.Nodup) (state : KahnState κ) :
    (consumers.foldl (KahnState.release authoredIndex) state).ready.Perm
      (state.ready ++ consumers.filter fun consumer =>
        decide ((state.remaining.get consumer).getD 0 - 1 = 0)) := by
  induction consumers generalizing state with
  | nil => simp
  | cons consumer rest ih =>
    obtain ⟨absent, restNodup⟩ := List.nodup_cons.mp nodup
    have untouched : ∀ other ∈ rest,
        (state.release authoredIndex consumer).remaining.get other =
          state.remaining.get other := by
      intro other member
      have distinct : other ≠ consumer := fun same => absent (same ▸ member)
      exact OrderedMap.get_set_of_ne state.remaining distinct _
    have later := ih restNodup (state.release authoredIndex consumer)
    rw [List.foldl_cons]
    refine later.trans ?_
    rw [List.filter_congr fun other member => by rw [untouched other member]]
    by_cases freed : (state.remaining.get consumer).getD 0 - 1 = 0
    · rw [List.filter_cons_of_pos (by simpa using freed)]
      simp only [KahnState.release, freed, if_true]
      refine ((pushReady_perm authoredIndex state.ready consumer).append_right _).trans ?_
      exact List.perm_middle.symm
    · rw [List.filter_cons_of_neg (by simpa using freed)]
      simp only [KahnState.release, freed, if_false]
      exact List.Perm.refl _

theorem heapOrdered_foldl_release
    (consumers : List κ) {state : KahnState κ} (ordered : HeapOrdered authoredIndex state.ready) :
    HeapOrdered authoredIndex
      (consumers.foldl (KahnState.release authoredIndex) state).ready := by
  induction consumers generalizing state with
  | nil => exact ordered
  | cons consumer rest ih =>
    apply ih
    unfold KahnState.release
    dsimp only
    split
    · exact heapOrdered_pushReady authoredIndex ordered consumer
    · exact ordered

variable
  (graph : DependencyGraph κ)
  (state : KahnState κ)
  (id : κ)

/-- The consumers of a vertex that wait for nothing else. -/
def freedBy : List κ :=
  (graph.dependentsOf id).elements.filter fun consumer =>
    decide ((state.remaining.get consumer).getD 0 - 1 = 0)

theorem order_emit :
    (state.emit graph authoredIndex id).order = state.order ++ [id] :=
  order_foldl_release authoredIndex _ _

theorem remaining_emit (user : κ) :
    (state.emit graph authoredIndex id).remaining.get user =
      if user ∈ graph.dependentsOf id then
        some ((state.remaining.get user).getD 0 - 1)
      else state.remaining.get user :=
  remaining_foldl_release authoredIndex (graph.dependentsOf id).nodup
    { state with order := state.order ++ [id] } user

theorem ready_emit :
    (state.emit graph authoredIndex id).ready.Perm
      (state.ready ++ freedBy graph state id) :=
  ready_foldl_release authoredIndex (graph.dependentsOf id).nodup
    { state with order := state.order ++ [id] }

theorem heapOrdered_emit (ordered : HeapOrdered authoredIndex state.ready) :
    HeapOrdered authoredIndex (state.emit graph authoredIndex id).ready :=
  heapOrdered_foldl_release authoredIndex _ ordered

end Release

section Invariant

variable
  {nodeIds : List κ}
  {graph : DependencyGraph κ}

/-- The number of dependencies of a vertex that have not been emitted. -/
def waitsFor (graph : DependencyGraph κ) (order : List κ)
    (id : κ) : Nat :=
  (graph.dependenciesOf id).elements.countP fun producer =>
    decide (producer ∉ order)

theorem countP_not_mem_snoc
    {order producers : List κ} {id : κ} (absent : id ∉ order) (nodup : producers.Nodup) :
    producers.countP (fun producer => decide (producer ∉ order)) =
      producers.countP (fun producer => decide (producer ∉ order ++ [id])) +
        if id ∈ producers then 1 else 0 := by
  induction producers with
  | nil => simp
  | cons producer rest ih =>
    obtain ⟨notAgain, restNodup⟩ := List.nodup_cons.mp nodup
    have tail := ih restNodup
    rw [List.countP_cons, List.countP_cons, tail]
    by_cases same : producer = id
    · subst same
      simp [absent, notAgain]
    · have emitted : producer ∉ order ++ [id] ↔ producer ∉ order := by
        simp [same]
      have inRest : id ∈ producer :: rest ↔ id ∈ rest := by
        simp [Ne.symm same]
      simp only [emitted, inRest]
      omega

/-- Emitting a vertex takes one from the counters of its consumers. -/
theorem waitsFor_snoc {order : List κ} {id : κ} (absent : id ∉ order) (user : κ) :
    waitsFor graph order user =
      waitsFor graph (order ++ [id]) user +
        if graph.DependsOn user id then 1 else 0 :=
  countP_not_mem_snoc absent (graph.dependenciesOf user).nodup

theorem ready_iff_waitsFor (wired : graph.WellWired nodeIds) (order : List κ) (id : κ) :
    GreedyOrder.Ready graph.DependsOn nodeIds order id ↔
      id ∉ order ∧ waitsFor graph order id = 0 := by
  unfold GreedyOrder.Ready waitsFor
  rw [List.countP_eq_zero]
  refine and_congr_right fun _ => ⟨?_, ?_⟩
  · intro emitted producer depends
    have member := emitted producer (wired.producer_mem depends) depends
    simpa using member
  · intro emitted producer _ depends
    simpa using emitted producer depends

/-- What holds between two iterations. -/
structure KahnInvariant (nodeIds : List κ) (graph : DependencyGraph κ)
    (state : KahnState κ) : Prop where
  /-- Only nodes are emitted. -/
  orderSubset : state.order ⊆ nodeIds
  /-- No node is emitted twice. -/
  orderNodup : state.order.Nodup
  /-- The dependencies of an emitted node have been emitted. -/
  orderClosed : ∀ id ∈ state.order, waitsFor graph state.order id = 0
  /-- The ready vertices stand in heap order. -/
  heap : HeapOrdered (authoredPositions nodeIds) state.ready
  /-- No vertex is in the heap twice. -/
  readyNodup : state.ready.Nodup
  /-- The heap holds the ready vertices. -/
  readyMem :
    ∀ id,
      id ∈ state.ready ↔
        id ∈ nodeIds ∧
          GreedyOrder.Ready graph.DependsOn nodeIds state.order id
  /-- The counters hold the number of dependencies to be emitted. -/
  counters :
    ∀ id ∈ nodeIds,
      state.remaining.get id = some (waitsFor graph state.order id : Int)

/-- The freed consumers are those that waited for this vertex alone. -/
theorem KahnInvariant.mem_freedBy
    {state : KahnState κ} (wired : graph.WellWired nodeIds)
    (invariant : KahnInvariant nodeIds graph state) (id user : κ) :
    user ∈ freedBy graph state id ↔
      graph.DependsOn user id ∧ waitsFor graph state.order user = 1 := by
  unfold freedBy
  rw [List.mem_filter, OrderedSet.mem_elements, wired.mirrored]
  refine and_congr_right fun depends => ?_
  rw [invariant.counters user (wired.consumer_mem depends)]
  simp only [Option.getD_some, decide_eq_true_eq]
  omega

/-- What the heap's root says about the rest of the state. -/
structure Popped (nodeIds : List κ) (graph : DependencyGraph κ) (state : KahnState κ) (id : κ)
    (rest : List κ) : Prop where
  /-- The popped vertex was in the heap, next to the rest. -/
  permutation : state.ready.Perm (id :: rest)
  /-- The rest stands in heap order. -/
  ordered : HeapOrdered (authoredPositions nodeIds) rest

section Emit

variable
  {state : KahnState κ}
  {id : κ}
  {rest : List κ}

theorem KahnInvariant.popped_ready
    (wired : graph.WellWired nodeIds) (invariant : KahnInvariant nodeIds graph state)
    (popped : Popped nodeIds graph state id rest) :
    id ∈ nodeIds ∧ id ∉ state.order ∧ waitsFor graph state.order id = 0 := by
  have member := popped.permutation.mem_iff.mpr List.mem_cons_self
  obtain ⟨present, ready⟩ := (invariant.readyMem id).mp member
  exact ⟨present, (ready_iff_waitsFor wired state.order id).mp ready⟩

theorem KahnInvariant.rest_nodup
    (invariant : KahnInvariant nodeIds graph state)
    (popped : Popped nodeIds graph state id rest) :
    id ∉ rest ∧ rest.Nodup :=
  List.nodup_cons.mp (popped.permutation.nodup_iff.mp invariant.readyNodup)

theorem KahnInvariant.waiting_in_rest
    (wired : graph.WellWired nodeIds) (invariant : KahnInvariant nodeIds graph state)
    (popped : Popped nodeIds graph state id rest) {user : κ} (waiting : user ∈ rest) :
    user ∈ nodeIds ∧ user ∉ state.order ∧
      waitsFor graph state.order user = 0 := by
  have member := popped.permutation.mem_iff.mpr (List.mem_cons_of_mem id waiting)
  obtain ⟨present, ready⟩ := (invariant.readyMem user).mp member
  exact ⟨present, (ready_iff_waitsFor wired state.order user).mp ready⟩

/-- After the step the heap holds the vertices that have become or stayed
ready. -/
theorem KahnInvariant.readyMem_emit
    (wired : graph.WellWired nodeIds) (invariant : KahnInvariant nodeIds graph state)
    (popped : Popped nodeIds graph state id rest) (user : κ) :
    user ∈ rest ++ freedBy graph state id ↔
      user ∈ nodeIds ∧
        GreedyOrder.Ready graph.DependsOn nodeIds (state.order ++ [id]) user := by
  obtain ⟨_, absent, waitsForNothing⟩ := invariant.popped_ready wired popped
  have change := @waitsFor_snoc _ _ graph _ _ absent user
  rw [List.mem_append, invariant.mem_freedBy wired, ready_iff_waitsFor wired,
    List.mem_append, List.mem_singleton, not_or]
  constructor
  · rintro (waiting | ⟨depends, waitsOne⟩)
    · obtain ⟨member, notEmitted, waitsNone⟩ :=
        invariant.waiting_in_rest wired popped waiting
      refine ⟨member, ⟨notEmitted, fun same => ?_⟩, by omega⟩
      exact (invariant.rest_nodup popped).1 (same ▸ waiting)
    · have notEmitted : user ∉ state.order := fun emitted => by
        have closed := invariant.orderClosed user emitted
        omega
      rw [if_pos depends] at change
      refine ⟨wired.consumer_mem depends, ⟨notEmitted, ?_⟩, by omega⟩
      rintro rfl
      omega
  · rintro ⟨member, ⟨notEmitted, notThis⟩, waitsNone⟩
    by_cases depends : graph.DependsOn user id
    · rw [if_pos depends] at change
      exact Or.inr ⟨depends, by omega⟩
    · rw [if_neg depends] at change
      have wasReady :=
        (ready_iff_waitsFor wired state.order user).mpr ⟨notEmitted, by omega⟩
      have inHeap := (invariant.readyMem user).mpr ⟨member, wasReady⟩
      rw [popped.permutation.mem_iff, List.mem_cons] at inHeap
      exact Or.inl (inHeap.resolve_left notThis)

/-- Emitting a ready vertex keeps the invariant. -/
theorem KahnInvariant.emit
    (wired : graph.WellWired nodeIds) (invariant : KahnInvariant nodeIds graph state)
    (popped : Popped nodeIds graph state id rest) :
    KahnInvariant nodeIds graph
      ({ state with ready := rest }.emit graph (authoredPositions nodeIds)
        id) := by
  obtain ⟨present, absent, waitsForNothing⟩ :=
    invariant.popped_ready wired popped
  have change := @waitsFor_snoc _ _ graph _ _ absent
  have becomes := ready_emit (authoredPositions nodeIds) graph
    { state with ready := rest } id
  refine ⟨?_, ?_, ?_, ?_, ?_, ?_, ?_⟩
  · rw [order_emit]
    exact List.append_subset.mpr ⟨invariant.orderSubset, by simpa using present⟩
  · rw [order_emit]
    exact GreedyOrder.nodup_snoc invariant.orderNodup absent
  · rw [order_emit]
    intro user emitted
    have before : waitsFor graph state.order user = 0 := by
      obtain earlier | last := List.mem_append.mp emitted
      · exact invariant.orderClosed user earlier
      · rw [List.mem_singleton.mp last]
        exact waitsForNothing
    have changed := change user
    dsimp only
    omega
  · exact heapOrdered_emit _ graph _ id popped.ordered
  · refine becomes.nodup_iff.mpr (List.nodup_append.mpr ⟨?_, ?_, ?_⟩)
    · exact (invariant.rest_nodup popped).2
    · exact (graph.dependentsOf id).nodup.filter _
    · intro left leftMember right rightMember same
      subst same
      obtain ⟨_, _, waitsNone⟩ :=
        invariant.waiting_in_rest wired popped leftMember
      obtain ⟨_, waitsOne⟩ :=
        (invariant.mem_freedBy wired id left).mp rightMember
      omega
  · intro user
    rw [becomes.mem_iff, order_emit]
    exact invariant.readyMem_emit wired popped user
  · intro user member
    have changed := change user
    have counter := invariant.counters user member
    rw [order_emit, remaining_emit]
    dsimp only
    rw [counter, Option.getD_some]
    by_cases depends : graph.DependsOn user id
    · rw [if_pos depends] at changed
      rw [if_pos ((wired.mirrored id user).mpr depends), Option.some.injEq]
      omega
    · rw [if_neg depends] at changed
      rw [if_neg (fun consumes => depends ((wired.mirrored id user).mp consumes)),
        Option.some.injEq]
      omega

end Emit

end Invariant

section Run

variable
  {nodeIds : List κ}
  {graph : DependencyGraph κ}

/-- The heap that the loop starts with holds the vertices without
dependencies. -/
theorem initialReady_spec
    (authoredIndex : OrderedMap κ Nat) (remaining : OrderedMap κ Int) (pushed : List κ)
    {ready : List κ} (ordered : HeapOrdered authoredIndex ready) :
    let listed :=
      pushed.foldl
        (fun ready id =>
          if (remaining.get id).getD 0 = 0 then
            pushReady authoredIndex ready id
          else ready)
        ready
    HeapOrdered authoredIndex listed ∧
      listed.Perm
        (ready ++ pushed.filter fun id =>
          decide ((remaining.get id).getD 0 = 0)) := by
  induction pushed generalizing ready with
  | nil => simpa using ordered
  | cons id rest ih =>
    by_cases free : (remaining.get id).getD 0 = 0
    · simp only [List.foldl_cons, free, if_true, decide_true, List.filter_cons_of_pos]
      obtain ⟨laterOrdered, later⟩ :=
        ih (heapOrdered_pushReady authoredIndex ordered id)
      refine ⟨laterOrdered, later.trans ?_⟩
      exact ((pushReady_perm authoredIndex ready id).append_right _).trans List.perm_middle.symm
    · simp only [List.foldl_cons, free, if_false, decide_false,
        Bool.false_eq_true, not_false_eq_true, List.filter_cons_of_neg]
      exact ih ordered

theorem waitsFor_nil (graph : DependencyGraph κ) (id : κ) :
    waitsFor graph [] id = (graph.dependenciesOf id).size := by
  simp [waitsFor, OrderedSet.size]

/-- The counters start with the number of dependencies. -/
theorem remainingCounts_eq_waitsFor
    (wired : graph.WellWired nodeIds) {id : κ} (present : id ∈ nodeIds) :
    (remainingCounts graph.dependencies).get id =
      some (waitsFor graph [] id : Int) := by
  obtain ⟨ins, found⟩ :=
    Option.isSome_iff_exists.mp ((wired.dependenciesKeys id).mpr present)
  rw [get_remainingCounts, found, waitsFor_nil,
    DependencyGraph.dependenciesOf_of_get found, Option.map_some]

/-- The invariant holds before the first iteration. -/
theorem kahnInvariant_initial (wired : graph.WellWired nodeIds) (nodup : nodeIds.Nodup) :
    KahnInvariant nodeIds graph
      (KahnState.initial nodeIds graph (authoredPositions nodeIds)) := by
  have emptyOrdered : HeapOrdered (authoredPositions nodeIds) [] :=
    fun _ _ _ _ _ atChild => by simp at atChild
  obtain ⟨ordered, listed⟩ :=
    initialReady_spec (authoredPositions nodeIds)
      (remainingCounts graph.dependencies) nodeIds emptyOrdered
  refine ⟨List.nil_subset _, List.nodup_nil, ?_, ordered, ?_, ?_, ?_⟩
  · intro id emitted
    exact absurd emitted List.not_mem_nil
  · exact listed.nodup_iff.mpr (nodup.filter _)
  · intro id
    refine listed.mem_iff.trans ?_
    rw [List.nil_append, List.mem_filter, ready_iff_waitsFor wired]
    refine and_congr_right fun present => ?_
    rw [remainingCounts_eq_waitsFor wired present]
    simp [KahnState.initial]
  · intro id present
    exact remainingCounts_eq_waitsFor wired present

/-- Popping the heap gives the next ready vertex of the greedy order. -/
theorem KahnInvariant.popReady
    (nodup : nodeIds.Nodup) {state : KahnState κ} (invariant : KahnInvariant nodeIds graph state)
    (nonempty : 0 < state.ready.length) :
    ∃ id rest,
      Plan.popReady (authoredPositions nodeIds) state.ready = (some id, rest) ∧
      Popped nodeIds graph state id rest ∧
      GreedyOrder.nextReady graph.DependsOn nodeIds state.order = some id := by
  obtain ⟨root, below, shape⟩ := List.exists_cons_of_length_pos nonempty
  have heap := invariant.heap
  have members := invariant.readyMem
  rw [shape] at heap members
  obtain ⟨rest, popped, ordered, permutation, first⟩ :=
    BinaryHeap.pop_cons (byAuthored_consistent _) heap
  obtain ⟨rootPresent, rootReady⟩ := (members root).mp List.mem_cons_self
  refine ⟨root, rest, by rw [Plan.popReady, shape, popped], ⟨?_, ordered⟩, ?_⟩
  · rw [shape]
    exact permutation.symm.cons root
  · apply GreedyOrder.nextReady_of_first rootPresent rootReady
    intro other otherPresent otherReady
    rw [← byAuthored_le_iff nodup rootPresent otherPresent]
    obtain rfl | otherBelow :=
      List.mem_cons.mp ((members other).mpr ⟨otherPresent, otherReady⟩)
    · exact (byAuthored_consistent _).self_le other
    · exact first other otherBelow

theorem KahnInvariant.nextReady_of_empty
    {state : KahnState κ} (invariant : KahnInvariant nodeIds graph state)
    (drained : ¬0 < state.ready.length) :
    GreedyOrder.nextReady graph.DependsOn nodeIds state.order = none := by
  rw [GreedyOrder.nextReady_eq_none]
  intro node present ready
  have member := (invariant.readyMem node).mpr ⟨present, ready⟩
  exact drained (List.length_pos_of_mem member)

theorem kahnLoop_eq_greedyRest
    (wired : graph.WellWired nodeIds) (nodup : nodeIds.Nodup) {steps fuel : Nat}
    {state : KahnState κ} (invariant : KahnInvariant nodeIds graph state)
    (left : nodeIds.length ≤ state.order.length + steps) (enough : steps < fuel) :
    kahnLoop graph (authoredPositions nodeIds) fuel state =
      some (state.order ++
        GreedyOrder.greedyRest graph.DependsOn nodeIds steps state.order) := by
  induction steps generalizing fuel state with
  | zero =>
    obtain ⟨fuel, rfl⟩ := Nat.exists_eq_add_one.mpr enough
    have noneReady :=
      GreedyOrder.nextReady_eq_none_of_complete graph.DependsOn nodeIds
        invariant.orderNodup invariant.orderSubset left
    have drained : ¬0 < state.ready.length := fun nonempty => by
      obtain ⟨id, rest, _, _, next⟩ := invariant.popReady nodup nonempty
      simp [noneReady] at next
    rw [kahnLoop, if_neg drained, GreedyOrder.greedyRest, List.append_nil]
  | succ steps ih =>
    obtain ⟨fuel, rfl⟩ := Nat.exists_eq_add_one.mpr (Nat.zero_lt_of_lt enough)
    unfold GreedyOrder.greedyRest
    by_cases nonempty : 0 < state.ready.length
    · obtain ⟨id, rest, popped, split, next⟩ :=
        invariant.popReady nodup nonempty
      have later := invariant.emit wired split
      have counted := order_emit (authoredPositions nodeIds) graph
        { state with ready := rest } id
      rw [kahnLoop, if_pos nonempty, popped]
      simp only [next]
      rw [ih later (by simp [counted]; omega) (by omega),
        counted]
      simp
    · rw [kahnLoop, if_neg nonempty, invariant.nextReady_of_empty nonempty]
      simp

/-- Kahn's algorithm emits the first ready vertex until none is ready. -/
theorem kahnOrder_eq_greedyOrder
    (wired : graph.WellWired nodeIds) (nodup : nodeIds.Nodup) {fuel : Nat}
    (enough : nodeIds.length < fuel) :
    kahnOrder fuel nodeIds graph (authoredPositions nodeIds) =
      some (GreedyOrder.greedyOrder graph.DependsOn nodeIds) := by
  unfold kahnOrder GreedyOrder.greedyOrder
  rw [kahnLoop_eq_greedyRest wired nodup (kahnInvariant_initial wired nodup)
    (Nat.le_add_left _ _) enough]
  rfl

end Run

end Relavium.Plan
