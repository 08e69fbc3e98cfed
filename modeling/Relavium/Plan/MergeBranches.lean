import Relavium.Library.FirstBest
import Relavium.Plan.ExpressionScope

/-!
# The branches of a merge

A merge takes its branches from what it waits for, less the conditions and the
splits, which carry no value.  The split that supplies the most of them gives
their order; those that it does not supply follow as authored.
-/

namespace Relavium.Plan

open Library
open Shared

/-- The node of the id neither chooses nor splits. -/
def CarriesValue (spec : WorkflowSpec)
    (id : JsString) : Prop :=
  ∃ node ∈ spec.nodes, node.id = id ∧
    (∀ condition, node ≠ .condition condition) ∧
    ∀ split, node ≠ .parallel split

/-- The merge waits for every member of the split but itself. -/
def RunPlan.FedBy (plan : RunPlan) (merge : JsString)
    (split : ParallelNode) : Prop :=
  ∀ member ∈ split.parallelOf, member ≠ merge → plan.DependsOn merge member

/-- The branches that a split supplies, in its own order. -/
def supplied (branches : List JsString)
    (split : ParallelNode) : List JsString :=
  split.parallelOf.filter fun member => member ∈ branches

/-! ## Authored order -/

section Authored

variable
  {κ : Type u}
  [DecidableEq κ]
  {nodeIds : List κ}

theorem pairwise_byAuthored (distinct : nodeIds.Nodup) :
    nodeIds.Pairwise fun left right =>
      byAuthored (authoredPositions nodeIds) left right ≤ 0 := by
  rw [List.pairwise_iff_getElem]
  intro first second firstBound secondBound ordered
  rw [byAuthored_le_iff distinct (List.getElem_mem _) (List.getElem_mem _),
    distinct.idxOf_getElem, distinct.idxOf_getElem]
  exact ordered.le

/-- Sorting some of the authored ids keeps them in their authored order. -/
theorem insertionSort_byAuthored
    {ids : List κ} (distinct : nodeIds.Nodup) (distinctIds : ids.Nodup)
    (authored : ∀ id ∈ ids, id ∈ nodeIds) (listed : κ → Bool)
    (agrees : ∀ id, listed id = true ↔ id ∈ ids) :
    (ids.insertionSort fun left right =>
        byAuthored (authoredPositions nodeIds) left right ≤ 0) =
      nodeIds.filter listed := by
  have total : Std.Total fun left right : κ =>
      byAuthored (authoredPositions nodeIds) left right ≤ 0 :=
    ⟨fun left right => by
      by_cases before : byAuthored (authoredPositions nodeIds) left right ≤ 0
      · exact .inl before
      · exact .inr ((byAuthored_consistent _).le_of_not_le before)⟩
  have transitive : IsTrans κ fun left right =>
      byAuthored (authoredPositions nodeIds) left right ≤ 0 :=
    ⟨fun _ _ _ => (byAuthored_consistent _).transitive⟩
  have rearranged := List.perm_insertionSort (fun left right =>
    byAuthored (authoredPositions nodeIds) left right ≤ 0) ids
  refine List.Perm.eq_of_pairwise ?_ (List.pairwise_insertionSort _ ids)
    ((pairwise_byAuthored distinct).filter _) ?_
  · intro left right leftListed rightListed before after
    have leftAuthored := authored left (rearranged.mem_iff.mp leftListed)
    have rightAuthored := (List.mem_filter.mp rightListed).1
    rw [byAuthored_le_iff distinct leftAuthored rightAuthored] at before
    rw [byAuthored_le_iff distinct rightAuthored leftAuthored] at after
    exact (List.idxOf_inj leftAuthored).mp (Nat.le_antisymm before after)
  · refine (List.perm_ext_iff_of_nodup (rearranged.nodup_iff.mpr distinctIds)
      (distinct.filter _)).mpr fun id => ?_
    rw [rearranged.mem_iff, List.mem_filter, agrees]
    exact ⟨fun inside => ⟨authored id inside, inside⟩, And.right⟩

end Authored

/-! ## The pairing -/

section Pairing

variable
  (nodesById : NodeTable)
  (merge : JsString)
  (preds : OrderedSet JsString)

/-- How many branches of the merge a split supplies; none unless the merge waits
for all its members. -/
def coverage (candidate : ParallelNode) : Nat :=
  if candidate.parallelOf = [] ∨
      ¬candidate.parallelOf.all (fun member =>
        member = merge ∨ member ∈ preds) then 0
  else
    (candidate.parallelOf.filter fun member =>
      member ≠ merge ∧ producing nodesById member).length

theorem pairedParallel_eq (spec : WorkflowSpec) :
    pairedParallel spec nodesById merge preds =
      ((parallels spec.nodes).foldl
        (FirstBest.step (coverage nodesById merge preds)) (none, 0)).1 := by
  unfold pairedParallel
  congr 2
  funext best candidate
  unfold FirstBest.step coverage
  dsimp only
  split
  · rw [if_neg (Nat.not_lt_zero _)]
  · rfl

variable
  {nodesById merge preds}

/-- The merge waits for every member of the split but itself. -/
def Feeds (merge : JsString) (preds : OrderedSet JsString)
    (split : ParallelNode) : Prop :=
  ∀ member ∈ split.parallelOf, member ≠ merge → member ∈ preds

theorem coverage_of_feeds {split : ParallelNode} (feeds : Feeds merge preds split) :
    coverage nodesById merge preds split =
      (split.parallelOf.filter fun member =>
        member ≠ merge ∧ producing nodesById member).length := by
  unfold coverage
  split
  next skipped =>
    rcases skipped with empty | unfed
    · rw [empty]
      rfl
    · refine absurd (List.all_eq_true.mpr fun member listed => ?_) unfed
      by_cases own : member = merge
      · simp [own]
      · simp [feeds member listed own]
  next => rfl

theorem feeds_of_coverage_pos
    {split : ParallelNode} (covers : 0 < coverage nodesById merge preds split) :
    Feeds merge preds split := by
  unfold coverage at covers
  split at covers
  · exact absurd covers (Nat.lt_irrefl 0)
  next fed =>
    intro member listed other
    have within := List.all_eq_true.mp (not_not.mp (not_or.mp fed).2) member listed
    rw [decide_eq_true_eq] at within
    exact within.resolve_left other

end Pairing

/-! ## The branches -/

section Branches

variable
  {spec : WorkflowSpec}
  {graph : DependencyGraph JsString}
  {merge : JsString}

/-- The ids whose output counts. -/
theorem producing_iff {id : JsString} (authored : id ∈ spec.nodeIds) :
    producing (indexNodes spec.nodes) id = true ↔ CarriesValue spec id := by
  obtain ⟨node, listed, rfl⟩ := List.mem_map.mp authored
  have found := (get_indexNodes_iff node.id node).mpr ⟨listed, rfl⟩
  unfold producing CarriesValue
  rw [found]
  constructor
  · intro produces
    refine ⟨node, listed, rfl, ?_, ?_⟩
    · rintro condition rfl
      exact absurd produces Bool.false_ne_true
    · rintro split rfl
      exact absurd produces Bool.false_ne_true
  · rintro ⟨other, present, same, noCondition, noSplit⟩
    obtain rfl : other = node := by
      rw [(get_indexNodes_iff node.id other).mpr ⟨present, same⟩] at found
      exact Option.some.inj found
    cases other with
    | condition condition => exact absurd rfl (noCondition condition)
    | parallel split => exact absurd rfl (noSplit split)
    | _ => rfl

theorem sortAuthored_eq_filter
    {ids : List JsString} (distinctIds : ids.Nodup) (authored : ∀ id ∈ ids, id ∈ spec.nodeIds)
    (listed : JsString → Bool) (agrees : ∀ id, listed id = true ↔ id ∈ ids) :
    sortAuthored (authoredPositions spec.nodeIds) ids =
      spec.nodeIds.filter listed :=
  insertionSort_byAuthored spec.distinctIds distinctIds authored listed agrees

theorem mergeBranches_cases (merge : JsString) (wired : graph.WellWired spec.nodeIds) :
    let nodesById := indexNodes spec.nodes
    let preds := graph.dependenciesOf merge
    let branches := mergeBranches spec nodesById graph (authoredPositions spec.nodeIds) merge
    ((∀ split ∈ parallels spec.nodes, coverage nodesById merge preds split = 0) ∧
        branches = spec.nodeIds.filter fun id =>
          id ∈ preds ∧ producing nodesById id) ∨
      ∃ paired,
        FirstBest.IsFirstBest (coverage nodesById merge preds)
            (parallels spec.nodes) paired ∧
          branches =
            (paired.parallelOf.filter fun member =>
                member ≠ merge ∧ producing nodesById member) ++
              spec.nodeIds.filter fun id =>
                (id ∈ preds ∧ producing nodesById id) ∧
                  id ∉ paired.parallelOf := by
  dsimp only
  have within : ∀ id ∈ (graph.dependenciesOf merge).elements,
      id ∈ spec.nodeIds := fun id depends =>
    @DependencyGraph.WellWired.producer_mem _ _ _ _ wired merge id depends
  have listed : ∀ id, id ∈ (graph.dependenciesOf merge).elements ↔
      id ∈ graph.dependenciesOf merge := fun _ => OrderedSet.mem_elements
  unfold mergeBranches
  dsimp only
  rw [pairedParallel_eq]
  rcases FirstBest.foldl_step
      (coverage (indexNodes spec.nodes) merge (graph.dependenciesOf merge))
      (parallels spec.nodes) with ⟨scanned, empty⟩ | ⟨paired, scanned, first⟩
  · refine .inl ⟨empty, ?_⟩
    rw [scanned]
    dsimp only
    rw [sortAuthored_eq_filter (graph.dependenciesOf merge).nodup within
        (fun id => id ∈ graph.dependenciesOf merge) (by simp [listed]),
      List.filter_filter]
    refine List.filter_congr fun id _ => ?_
    simp only [Bool.decide_and, Bool.decide_eq_true, Bool.and_comm]
  · refine .inr ⟨paired, first, ?_⟩
    rw [scanned]
    dsimp only
    rw [sortAuthored_eq_filter
        ((graph.dependenciesOf merge).nodup.filter fun member =>
          member ∉ paired.parallelOf)
        (fun id inside => within id (List.mem_filter.mp inside).1)
        (fun id => id ∈ graph.dependenciesOf merge ∧ id ∉ paired.parallelOf)
        (by simp [listed]),
      List.filter_append, List.filter_filter, List.filter_filter]
    congr 1
    · refine List.filter_congr fun id _ => ?_
      simp only [Bool.decide_and, Bool.decide_eq_true, Bool.and_comm]
    · refine List.filter_congr fun id _ => ?_
      simp only [Bool.decide_and, Bool.decide_eq_true, Bool.and_left_comm, Bool.and_assoc]

theorem mergeBranches_nodup (wired : graph.WellWired spec.nodeIds) :
    (mergeBranches spec (indexNodes spec.nodes) graph
      (authoredPositions spec.nodeIds) merge).Nodup := by
  rcases mergeBranches_cases merge wired with
    ⟨_, branches⟩ | ⟨paired, _, branches⟩
  · exact branches ▸ spec.distinctIds.filter _
  · rw [branches]
    refine List.nodup_append.mpr ⟨paired.distinctMembers.filter _, spec.distinctIds.filter _, ?_⟩
    rintro id member other extra rfl
    have apart := (List.mem_filter.mp extra).2
    rw [decide_eq_true_eq] at apart
    exact apart.2 (List.mem_filter.mp member).1

variable
  (wired : graph.WellWired spec.nodeIds)
  (noLoop : merge ∉ graph.dependenciesOf merge)

include wired noLoop

theorem mem_mergeBranches (id : JsString) :
    id ∈ mergeBranches spec (indexNodes spec.nodes) graph
        (authoredPositions spec.nodeIds) merge ↔
      id ∈ graph.dependenciesOf merge ∧
        producing (indexNodes spec.nodes) id = true := by
  have within : id ∈ graph.dependenciesOf merge → id ∈ spec.nodeIds :=
    fun depends => wired.producer_mem depends
  rcases mergeBranches_cases merge wired with
    ⟨_, branches⟩ | ⟨paired, first, branches⟩
  · rw [branches, List.mem_filter, decide_eq_true_eq]
    exact ⟨And.right, fun inside => ⟨within inside.1, inside⟩⟩
  · have feeds := feeds_of_coverage_pos first.positive
    rw [branches, List.mem_append, List.mem_filter, List.mem_filter,
      decide_eq_true_eq, decide_eq_true_eq]
    constructor
    · rintro (⟨member, other, produces⟩ | ⟨_, inside, _⟩)
      · exact ⟨feeds id member other, produces⟩
      · exact inside
    · intro inside
      by_cases member : id ∈ paired.parallelOf
      · refine .inl ⟨member, ?_, inside.2⟩
        rintro rfl
        exact noLoop inside.1
      · exact .inr ⟨within inside.1, inside, member⟩

theorem supplied_eq
    {split : ParallelNode} (feeds : Feeds merge (graph.dependenciesOf merge) split) :
    supplied (mergeBranches spec (indexNodes spec.nodes) graph
        (authoredPositions spec.nodeIds) merge) split =
      split.parallelOf.filter fun member =>
        member ≠ merge ∧ producing (indexNodes spec.nodes) member := by
  refine List.filter_congr fun member listed => ?_
  refine decide_eq_decide.mpr ?_
  rw [mem_mergeBranches wired noLoop]
  refine and_congr_left fun _ => ⟨?_, feeds member listed⟩
  rintro depends rfl
  exact noLoop depends

theorem coverage_eq_length_supplied
    {split : ParallelNode} (feeds : Feeds merge (graph.dependenciesOf merge) split) :
    coverage (indexNodes spec.nodes) merge (graph.dependenciesOf merge) split =
      (supplied (mergeBranches spec (indexNodes spec.nodes) graph
        (authoredPositions spec.nodeIds) merge) split).length := by
  rw [coverage_of_feeds feeds, supplied_eq wired noLoop feeds]

end Branches

/-- The branches of a merge: none is lost, none comes twice and none is made
up. -/
structure RunPlan.Merges (plan : RunPlan) (spec : WorkflowSpec) (merge : JsString)
    (branches : List JsString) : Prop where
  nodup : branches.Nodup
  mem_iff : ∀ id, id ∈ branches ↔ plan.DependsOn merge id ∧ CarriesValue spec id
  not_self : merge ∉ branches
  /-- The split that supplies the most, the first of equals, orders what it
  supplies. -/
  paired :
    (∃ split ∈ parallels spec.nodes,
      plan.FedBy merge split ∧ supplied branches split ≠ []) →
    ∃ before split after,
      parallels spec.nodes = before ++ split :: after ∧
      plan.FedBy merge split ∧
      (∀ other ∈ before, plan.FedBy merge other →
        (supplied branches other).length < (supplied branches split).length) ∧
      (∀ other ∈ after, plan.FedBy merge other →
        (supplied branches other).length ≤ (supplied branches split).length) ∧
      branches = supplied branches split ++ spec.nodeIds.filter fun id =>
        id ∈ branches ∧ id ∉ supplied branches split

/-- In every plan the branches of a merge are the dependencies that carry a
value, ordered by the split that supplies the most of them. -/
theorem merge_branches_exact
    (checks : AuthoringChecks) (spec : WorkflowSpec) (registry : Option AgentTable)
    (plan : RunPlan) (built : buildRunPlan checks spec registry = .ok plan) (id : JsString)
    (vertex : PlanVertex) (found : plan.vertices.get id = some vertex) (node : MergeNode)
    (strategy : JoinStrategy) (branches : List JsString)
    (config : vertex.config = .fanIn node strategy branches) :
    plan.Merges spec id branches := by
  have assembled := assembled_of_buildRunPlan built
  have wired := assembled.wired
  have dependsOn := assembled.dependsOn_iff
  obtain ⟨authored, listed, rfl, rfl⟩ :=
    ((assembly_of_buildRunPlan built).vertices id vertex).mp found
  obtain ⟨rfl, rfl⟩ : authored = .merge node ∧
      branches = mergeBranches spec (indexNodes spec.nodes)
        (planGraph checks spec registry) (authoredPositions spec.nodeIds)
        node.id := by
    cases authored with
    | merge merge =>
      obtain ⟨rfl, _, rfl⟩ := PlanConfig.fanIn.inj config
      exact ⟨rfl, rfl⟩
    | _ => exact absurd config (by simp [buildVertex, buildConfig])
  have noLoop :
      node.id ∉ (planGraph checks spec registry).dependenciesOf node.id := by
    intro depends
    exact assembled.acyclic spec.distinctIds node.id
      (.single ((dependsOn node.id node.id).mpr depends))
  have member := mem_mergeBranches wired noLoop
  have fedBy : ∀ split, plan.FedBy node.id split ↔
      Feeds node.id ((planGraph checks spec registry).dependenciesOf node.id)
        split := by
    intro split
    exact forall₂_congr fun other _ => imp_congr_right fun _ =>
      dependsOn node.id other
  have covers : ∀ {split}, plan.FedBy node.id split → _ := fun {split} fed =>
    coverage_eq_length_supplied wired noLoop ((fedBy split).mp fed)
  refine ⟨mergeBranches_nodup wired, fun id => ?_, ?_, ?_⟩
  · rw [member, dependsOn]
    refine and_congr_right fun depends => ?_
    exact producing_iff (wired.producer_mem depends)
  · exact fun own => noLoop ((member node.id).mp own).1
  · rintro ⟨split, among, fed, supplies⟩
    rcases mergeBranches_cases node.id wired with
      ⟨uncovered, _⟩ | ⟨paired, first, branches⟩
    · have nothing := uncovered split among
      rw [covers fed] at nothing
      exact absurd (List.length_eq_zero_iff.mp nothing) supplies
    · have feeds := feeds_of_coverage_pos first.positive
      obtain ⟨before, after, enumerated, earlier, later⟩ := first.split
      have pairedFed := (fedBy paired).mpr feeds
      refine ⟨before, paired, after, enumerated, pairedFed, ?_, ?_, ?_⟩
      · intro other listed otherFed
        rw [← covers otherFed, ← covers pairedFed]
        exact earlier other listed
      · intro other listed otherFed
        rw [← covers otherFed, ← covers pairedFed]
        exact later other listed
      · rw [supplied_eq wired noLoop feeds]
        refine branches.trans (congrArg _ ?_)
        refine List.filter_congr fun id _ => decide_eq_decide.mpr ?_
        rw [member, List.mem_filter, decide_eq_true_eq]
        refine and_congr_right fun inside => not_congr ?_
        refine ⟨fun listed => ⟨listed, ?_, inside.2⟩, And.left⟩
        rintro rfl
        exact noLoop inside.1

/-- A split that names its members against their authored order, the merge among
them, and an input that comes before all. -/
def forkedWorkflow : WorkflowSpec where
  id := jsText "forked"
  inputs := []
  context := []
  agents := []
  nodes := [ .input (jsText "a"),
    .parallel {
      id := jsText "split"
      parallelOf := [jsText "c", jsText "join", jsText "b"]
      distinctMembers := by decide },
    .transform { id := jsText "b", transform := jsText "1" },
    .transform { id := jsText "c", transform := jsText "2" },
    .merge { id := jsText "join", mergeStrategy := .concat, mergeFn := none }]
  edges := [
    { source := jsText "a", target := jsText "join" },
    { source := jsText "b", target := jsText "join" },
    { source := jsText "c", target := jsText "join" }]
  maxParallel := none
  distinctIds := by decide

/-- The branches of the split come first, as it names them. -/
theorem merge_branches_exact_forked :
    ∃ plan vertex node strategy,
      buildRunPlan noChecks forkedWorkflow none = .ok plan ∧
      plan.vertices.get (jsText "join") = some vertex ∧
      vertex.config =
        .fanIn node strategy [jsText "c", jsText "b", jsText "a"] ∧
      plan.Merges forkedWorkflow (jsText "join")
        [jsText "c", jsText "b", jsText "a"] := by
  have evaluated :
      ((buildRunPlan noChecks forkedWorkflow none).toOption.bind
        fun plan => (plan.vertices.get (jsText "join")).map PlanVertex.config) =
          some (.fanIn
            { id := jsText "join", mergeStrategy := .concat, mergeFn := none }
            .waitAll [jsText "c", jsText "b", jsText "a"]) := by
    decide +kernel
  obtain ⟨plan, isPlan, evaluated⟩ := Option.bind_eq_some_iff.mp evaluated
  have built := toOption_eq_some.mp isPlan
  obtain ⟨vertex, found, config⟩ := Option.map_eq_some_iff.mp evaluated
  exact ⟨plan, vertex, _, _, built, found, config,
    merge_branches_exact noChecks forkedWorkflow none plan built _ vertex found _ _ _ config⟩

end Relavium.Plan
