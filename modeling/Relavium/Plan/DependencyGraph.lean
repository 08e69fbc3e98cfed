import Relavium.Library.OrderedMap
import Relavium.Library.OrderedSet

/-!
# The dependency graph over node ids

Out-edges and in-edges are kept in two maps that mirror each other.  An edge
with an endpoint that is not a node is not graphed.
-/

namespace Relavium.Plan

open Library

/-- Out-edges and in-edges by node id. -/
structure DependencyGraph (κ : Type u) where
  /-- The consumers of each node. -/
  dependents : OrderedMap κ (OrderedSet κ)
  /-- The producers each node depends on. -/
  dependencies : OrderedMap κ (OrderedSet κ)

namespace DependencyGraph

variable [DecidableEq κ]

/-- The graph over the given nodes without edges. -/
def ofNodes (nodeIds : List κ) : DependencyGraph κ :=
  nodeIds.foldl
    (fun graph id =>
      { dependents := graph.dependents.set id OrderedSet.empty
        dependencies := graph.dependencies.set id OrderedSet.empty })
    { dependents := OrderedMap.empty
      dependencies := OrderedMap.empty }

/-- Add an edge, unless an endpoint is not a node. -/
def addEdge (graph : DependencyGraph κ)
    (producer consumer : κ) : DependencyGraph κ :=
  match graph.dependents.get producer, graph.dependencies.get consumer with
  | some outs, some ins =>
    { dependents := graph.dependents.set producer (outs.add consumer)
      dependencies := graph.dependencies.set consumer (ins.add producer) }
  | _, _ => graph

/-- Add the edges one after the other, each a producer and its consumer. -/
def addEdges (graph : DependencyGraph κ)
    (edges : List (κ × κ)) : DependencyGraph κ :=
  edges.foldl (fun graph edge => graph.addEdge edge.1 edge.2) graph

/-- The consumers of a node, in the order in which they were wired. -/
def dependentsOf (graph : DependencyGraph κ)
    (id : κ) : OrderedSet κ :=
  (graph.dependents.get id).getD OrderedSet.empty

/-- The producers a node depends on, in the order in which they were wired. -/
def dependenciesOf (graph : DependencyGraph κ)
    (id : κ) : OrderedSet κ :=
  (graph.dependencies.get id).getD OrderedSet.empty

/-- The consumer was wired to the producer. -/
def DependsOn (graph : DependencyGraph κ)
    (consumer producer : κ) : Prop :=
  producer ∈ graph.dependenciesOf consumer

instance (graph : DependencyGraph κ) : DecidableRel graph.DependsOn :=
  fun consumer producer =>
    inferInstanceAs (Decidable (producer ∈ graph.dependenciesOf consumer))

/-- The maps have the nodes as keys and mirror each other. -/
structure WellWired (nodeIds : List κ)
    (graph : DependencyGraph κ) : Prop where
  /-- The out-edge map has the nodes as keys. -/
  dependentsKeys : ∀ id, (graph.dependents.get id).isSome ↔ id ∈ nodeIds
  /-- The in-edge map has the nodes as keys. -/
  dependenciesKeys : ∀ id, (graph.dependencies.get id).isSome ↔ id ∈ nodeIds
  /-- Every edge is in both maps. -/
  mirrored :
    ∀ producer consumer,
      consumer ∈ graph.dependentsOf producer ↔
        producer ∈ graph.dependenciesOf consumer

theorem dependenciesOf_of_get
    {graph : DependencyGraph κ} {id : κ} {ins : OrderedSet κ}
    (found : graph.dependencies.get id = some ins) :
    graph.dependenciesOf id = ins := by
  rw [dependenciesOf, found, Option.getD_some]

theorem WellWired.consumer_mem
    {nodeIds : List κ} {graph : DependencyGraph κ} (wired : graph.WellWired nodeIds)
    {consumer producer : κ} (depends : graph.DependsOn consumer producer) :
    consumer ∈ nodeIds := by
  rw [← wired.dependenciesKeys]
  cases found : graph.dependencies.get consumer with
  | none => simp [DependsOn, dependenciesOf, found] at depends
  | some ins => rfl

theorem WellWired.producer_mem
    {nodeIds : List κ} {graph : DependencyGraph κ} (wired : graph.WellWired nodeIds)
    {consumer producer : κ} (depends : graph.DependsOn consumer producer) :
    producer ∈ nodeIds := by
  have consumes := (wired.mirrored producer consumer).mpr depends
  rw [← wired.dependentsKeys]
  cases found : graph.dependents.get producer with
  | none => simp [dependentsOf, found] at consumes
  | some outs => rfl

/-- What the graph of the nodes looks like while they are being listed. -/
theorem get_foldl_ofNodes (nodeIds : List κ) (graph : DependencyGraph κ) (id : κ) :
    let listed :=
      nodeIds.foldl
        (fun graph id =>
          { dependents := graph.dependents.set id OrderedSet.empty
            dependencies := graph.dependencies.set id OrderedSet.empty })
        graph
    listed.dependents.get id =
        (if id ∈ nodeIds then some OrderedSet.empty
          else graph.dependents.get id) ∧
      listed.dependencies.get id =
        (if id ∈ nodeIds then some OrderedSet.empty
          else graph.dependencies.get id) := by
  induction nodeIds generalizing graph with
  | nil => simp
  | cons head rest ih =>
    simp only [List.foldl_cons, ih, OrderedMap.get_set, List.mem_cons]
    by_cases listed : id ∈ rest
    · simp [listed]
    · by_cases same : id = head
      · simp [same]
      · simp [listed, same]

@[simp] theorem dependents_ofNodes (nodeIds : List κ) (id : κ) :
    (ofNodes nodeIds).dependents.get id =
      if id ∈ nodeIds then some OrderedSet.empty else none :=
  (get_foldl_ofNodes nodeIds _ id).1

@[simp] theorem dependencies_ofNodes (nodeIds : List κ) (id : κ) :
    (ofNodes nodeIds).dependencies.get id =
      if id ∈ nodeIds then some OrderedSet.empty else none :=
  (get_foldl_ofNodes nodeIds _ id).2

theorem not_dependsOn_ofNodes (nodeIds : List κ) (consumer producer : κ) :
    ¬(ofNodes nodeIds).DependsOn consumer producer := by
  unfold DependsOn dependenciesOf
  rw [dependencies_ofNodes]
  split
  · simp
  · simp

/-- Without edges the two maps mirror each other. -/
theorem wellWired_ofNodes (nodeIds : List κ) :
    (ofNodes nodeIds).WellWired nodeIds := by
  refine ⟨fun id => by simp, fun id => by simp, fun producer consumer => ?_⟩
  constructor
  · intro consumes
    unfold dependentsOf at consumes
    rw [dependents_ofNodes] at consumes
    split at consumes
    · simp at consumes
    · simp at consumes
  · intro depends
    exact absurd depends (not_dependsOn_ofNodes nodeIds consumer producer)

section AddEdge

variable
  {nodeIds : List κ}
  {graph : DependencyGraph κ}

/-- An edge between two nodes is wired; any other is dropped. -/
theorem WellWired.addEdge_cases (wired : graph.WellWired nodeIds) (producer consumer : κ) :
    (∃ outs ins,
      producer ∈ nodeIds ∧
      consumer ∈ nodeIds ∧
      graph.dependents.get producer = some outs ∧
      graph.dependencies.get consumer = some ins ∧
      graph.addEdge producer consumer =
        { dependents := graph.dependents.set producer (outs.add consumer)
          dependencies := graph.dependencies.set consumer (ins.add producer) }) ∨
    (¬(producer ∈ nodeIds ∧ consumer ∈ nodeIds) ∧
      graph.addEdge producer consumer = graph) := by
  unfold addEdge
  cases foundOuts : graph.dependents.get producer with
  | none =>
    refine Or.inr ⟨fun both => ?_, rfl⟩
    simpa [foundOuts] using (wired.dependentsKeys producer).mpr both.1
  | some outs =>
    have producerMember := (wired.dependentsKeys producer).mp (by simp [foundOuts])
    cases foundIns : graph.dependencies.get consumer with
    | none =>
      refine Or.inr ⟨fun both => ?_, rfl⟩
      simpa [foundIns] using (wired.dependenciesKeys consumer).mpr both.2
    | some ins =>
      have consumerMember :=
        (wired.dependenciesKeys consumer).mp (by simp [foundIns])
      exact Or.inl ⟨outs, ins, producerMember, consumerMember, rfl, rfl, rfl⟩

theorem WellWired.dependsOn_addEdge
    (wired : graph.WellWired nodeIds) (producer consumer user used : κ) :
    (graph.addEdge producer consumer).DependsOn user used ↔
      graph.DependsOn user used ∨
        (user = consumer ∧ used = producer ∧
          producer ∈ nodeIds ∧ consumer ∈ nodeIds) := by
  obtain ⟨outs, ins, producerMember, consumerMember, _, foundIns, added⟩ |
    ⟨outside, same⟩ := wired.addEdge_cases producer consumer
  · rw [added]
    unfold DependsOn dependenciesOf
    rw [OrderedMap.get_set]
    by_cases atConsumer : user = consumer
    · subst atConsumer
      simp only [if_true, Option.getD_some, OrderedSet.mem_add, foundIns,
        producerMember, consumerMember, and_self, and_true, true_and]
      exact or_comm
    · simp [atConsumer]
  · rw [same]
    tauto

/-- Wiring an edge keeps the two maps mirrored. -/
theorem WellWired.addEdge (wired : graph.WellWired nodeIds) (producer consumer : κ) :
    (graph.addEdge producer consumer).WellWired nodeIds := by
  obtain ⟨outs, ins, producerMember, consumerMember, foundOuts, foundIns, added⟩ |
    ⟨_, same⟩ := wired.addEdge_cases producer consumer
  · have before := wired.mirrored
    rw [added]
    refine ⟨fun id => ?_, fun id => ?_, fun source target => ?_⟩
    · rw [OrderedMap.get_set]
      by_cases atProducer : id = producer
      · simp [atProducer, producerMember]
      · simpa [atProducer] using wired.dependentsKeys id
    · rw [OrderedMap.get_set]
      by_cases atConsumer : id = consumer
      · simp [atConsumer, consumerMember]
      · simpa [atConsumer] using wired.dependenciesKeys id
    · unfold dependentsOf dependenciesOf at before ⊢
      rw [OrderedMap.get_set, OrderedMap.get_set]
      have mirrored := before source target
      by_cases atProducer : source = producer
      · by_cases atConsumer : target = consumer
        · simp [atProducer, atConsumer]
        · simpa [atProducer, atConsumer, foundOuts] using mirrored
      · by_cases atConsumer : target = consumer
        · simpa [atProducer, atConsumer, foundIns] using mirrored
        · simpa [atProducer, atConsumer] using mirrored
  · rw [same]
    exact wired

/-- Wiring edges keeps the two maps mirrored. -/
theorem WellWired.addEdges (wired : graph.WellWired nodeIds) (edges : List (κ × κ)) :
    (graph.addEdges edges).WellWired nodeIds := by
  induction edges generalizing graph with
  | nil => exact wired
  | cons edge rest ih =>
    exact ih (wired.addEdge edge.1 edge.2)

/-- The wired dependencies are the edges between nodes. -/
theorem WellWired.dependsOn_addEdges
    (wired : graph.WellWired nodeIds) (edges : List (κ × κ)) (user used : κ) :
    (graph.addEdges edges).DependsOn user used ↔
      graph.DependsOn user used ∨
        ((used, user) ∈ edges ∧ used ∈ nodeIds ∧ user ∈ nodeIds) := by
  induction edges generalizing graph with
  | nil => simp [DependencyGraph.addEdges]
  | cons edge rest ih =>
    have step := ih (wired.addEdge edge.1 edge.2)
    rw [wired.dependsOn_addEdge] at step
    rw [DependencyGraph.addEdges, List.foldl_cons,
      ← DependencyGraph.addEdges, step, List.mem_cons]
    constructor
    · rintro ((before | ⟨rfl, rfl, producer, consumer⟩) | ⟨later, inside⟩)
      · exact Or.inl before
      · exact Or.inr ⟨Or.inl rfl, producer, consumer⟩
      · exact Or.inr ⟨Or.inr later, inside⟩
    · rintro (before | ⟨rfl | later, producer, consumer⟩)
      · exact Or.inl (Or.inl before)
      · exact Or.inl (Or.inr ⟨rfl, rfl, producer, consumer⟩)
      · exact Or.inr ⟨later, producer, consumer⟩

end AddEdge
end DependencyGraph
end Relavium.Plan
