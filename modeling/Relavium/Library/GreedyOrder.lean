import Mathlib.Data.List.Basic
import Mathlib.Data.List.Find
import Mathlib.Data.List.Lex
import Mathlib.Data.List.Perm.Subperm
import Mathlib.Data.List.Nodup
import Mathlib.Logic.Relation
import Mathlib.Order.Nat

/-!
# Emitting the first ready node

Nodes are listed in a preferred order and may depend on each other.  A node is
ready when it has not been emitted and all of its dependencies have.  Emitting
the first ready node until none is ready gives the greedy order.  Whether or
not the dependencies are cyclic it respects them; when it emits every node, it
is the least order that does, compared by position in the list of nodes.
-/

namespace Relavium.Library
namespace GreedyOrder

/-- Not emitted, while every dependency among the nodes has been. -/
def Ready (dependsOn : κ → κ → Prop) (nodes emitted : List κ)
    (node : κ) : Prop :=
  node ∉ emitted ∧
    ∀ dependency ∈ nodes, dependsOn node dependency → dependency ∈ emitted

/-- Every node of the list comes from `nodes` and is ready when it is emitted. -/
def LegalRest (dependsOn : κ → κ → Prop) (nodes : List κ) :
    List κ → List κ → Prop
  | _, [] => True
  | emitted, node :: rest =>
    node ∈ nodes ∧
      Ready dependsOn nodes emitted node ∧
      LegalRest dependsOn nodes (emitted ++ [node]) rest

/-- Every node comes after all of its dependencies. -/
def Topological (dependsOn : κ → κ → Prop)
    (nodes order : List κ) : Prop :=
  ∀ before node after,
    order = before ++ node :: after →
      ∀ dependency ∈ nodes, dependsOn node dependency → dependency ∈ before

section Legal

variable
  {dependsOn : κ → κ → Prop}
  {nodes emitted : List κ}

theorem nodup_snoc {node : κ} (nodup : emitted.Nodup) (absent : node ∉ emitted) :
    (emitted ++ [node]).Nodup := by
  rw [← List.concat_eq_append]
  exact nodup.concat absent

theorem LegalRest.nodup
    {rest : List κ} (legal : LegalRest dependsOn nodes emitted rest) (nodup : emitted.Nodup) :
    (emitted ++ rest).Nodup := by
  induction rest generalizing emitted with
  | nil => simpa using nodup
  | cons node rest ih =>
    obtain ⟨_, ready, later⟩ := legal
    simpa using ih later (nodup_snoc nodup ready.1)

theorem LegalRest.subset {rest : List κ} (legal : LegalRest dependsOn nodes emitted rest) :
    rest ⊆ nodes := by
  induction rest generalizing emitted with
  | nil => exact List.nil_subset nodes
  | cons node rest ih =>
    obtain ⟨present, _, later⟩ := legal
    exact List.cons_subset.mpr ⟨present, ih later⟩

theorem LegalRest.dependencies_before
    {rest : List κ} (legal : LegalRest dependsOn nodes emitted rest) {before after : List κ}
    {node : κ} (split : rest = before ++ node :: after) {dependency : κ}
    (present : dependency ∈ nodes) (depends : dependsOn node dependency) :
    dependency ∈ emitted ++ before := by
  induction before generalizing emitted rest with
  | nil =>
    subst split
    simpa using legal.2.1.2 dependency present depends
  | cons head before ih =>
    subst split
    simpa using ih legal.2.2 rfl

/-- Legal steps from the start give a topological order. -/
theorem LegalRest.topological {order : List κ} (legal : LegalRest dependsOn nodes [] order) :
    Topological dependsOn nodes order := by
  intro before node after split dependency present depends
  simpa using legal.dependencies_before split present depends

/-- A topological order is made of legal steps. -/
theorem Topological.legalRest
    {rest : List κ} (topological : Topological dependsOn nodes (emitted ++ rest))
    (nodup : (emitted ++ rest).Nodup) (subset : rest ⊆ nodes) :
    LegalRest dependsOn nodes emitted rest := by
  induction rest generalizing emitted with
  | nil => exact trivial
  | cons node rest ih =>
    have shifted : emitted ++ node :: rest = (emitted ++ [node]) ++ rest := by
      simp
    obtain ⟨present, later⟩ := List.cons_subset.mp subset
    refine ⟨present, ⟨?_, ?_⟩, ?_⟩
    · intro earlier
      exact (List.nodup_append.mp nodup).2.2 node earlier node List.mem_cons_self rfl
    · exact topological emitted node rest rfl
    · rw [shifted] at topological nodup
      exact ih topological nodup later

end Legal

variable [DecidableEq κ]

theorem Topological.idxOf_lt
    {dependsOn : κ → κ → Prop} {nodes order : List κ}
    (topological : Topological dependsOn nodes order) {node dependency : κ}
    (listed : node ∈ order) (present : dependency ∈ nodes) (depends : dependsOn node dependency) :
    order.idxOf dependency < order.idxOf node := by
  have position := List.idxOf_lt_length_of_mem listed
  have split : order = order.take (order.idxOf node) ++
      node :: order.drop (order.idxOf node + 1) := by
    conv_lhs => rw [← List.take_append_drop (order.idxOf node) order]
    rw [List.drop_eq_getElem_cons position, List.getElem_idxOf position]
  have earlier := topological _ node _ split dependency present depends
  have inside := List.idxOf_lt_length_of_mem earlier
  rw [List.length_take] at inside
  have same : order.idxOf dependency =
      (order.take (order.idxOf node)).idxOf dependency := by
    conv_lhs => rw [split]
    exact List.idxOf_append_of_mem earlier
  omega

/-- A graph with a topological order has no cycle. -/
theorem Topological.not_transGen
    {dependsOn : κ → κ → Prop} {nodes order : List κ}
    (topological : Topological dependsOn nodes order) (listed : ∀ node ∈ nodes, node ∈ order)
    (closed : ∀ node dependency, dependsOn node dependency →
      node ∈ nodes ∧ dependency ∈ nodes)
    (node : κ) :
    ¬Relation.TransGen dependsOn node node := by
  have before : ∀ first second, Relation.TransGen dependsOn first second →
      order.idxOf second < order.idxOf first := by
    intro first second path
    induction path with
    | single depends =>
      obtain ⟨here, there⟩ := closed _ _ depends
      exact topological.idxOf_lt (listed _ here) there depends
    | tail _ depends ih =>
      obtain ⟨here, there⟩ := closed _ _ depends
      exact (topological.idxOf_lt (listed _ here) there depends).trans ih
  exact fun cycle => lt_irrefl _ (before node node cycle)

/-- Compared by position in the list of nodes, the order comes no later than the
other one. -/
def LexLe (nodes order other : List κ) : Prop :=
  order.map nodes.idxOf ≤ other.map nodes.idxOf

section Greedy

variable
  (dependsOn : κ → κ → Prop)
  [DecidableRel dependsOn]
  (nodes : List κ)

instance Ready.decidable (emitted : List κ) (node : κ) :
    Decidable (Ready dependsOn nodes emitted node) :=
  inferInstanceAs (Decidable (_ ∧ _))

/-- The first ready node in the preferred order. -/
def nextReady (emitted : List κ) : Option κ :=
  nodes.find? fun node => decide (Ready dependsOn nodes emitted node)

/-- Emit the first ready node, at most `fuel` times. -/
def greedyRest : Nat → List κ → List κ
  | 0, _ => []
  | fuel + 1, emitted =>
    match nextReady dependsOn nodes emitted with
    | none => []
    | some node => node :: greedyRest fuel (emitted ++ [node])

/-- Emit the first ready node until none is ready. -/
def greedyOrder : List κ :=
  greedyRest dependsOn nodes nodes.length []

end Greedy

section Congruence

variable
  {dependsOn waitsOn : κ → κ → Prop}
  [DecidableRel dependsOn]
  [DecidableRel waitsOn]
  {nodes : List κ}

theorem nextReady_congr
    (agree : ∀ node ∈ nodes, ∀ dependency ∈ nodes,
      dependsOn node dependency ↔ waitsOn node dependency)
    (emitted : List κ) :
    nextReady dependsOn nodes emitted = nextReady waitsOn nodes emitted := by
  refine List.find?_congr fun node present => ?_
  have ready : Ready dependsOn nodes emitted node ↔
      Ready waitsOn nodes emitted node :=
    and_congr_right fun _ => forall_congr' fun dependency =>
      forall_congr' fun listed =>
        imp_congr_left (agree node present dependency listed)
  rw [decide_eq_decide]
  exact ready

theorem greedyRest_congr
    (agree : ∀ node ∈ nodes, ∀ dependency ∈ nodes,
      dependsOn node dependency ↔ waitsOn node dependency)
    (fuel : Nat)
    (emitted : List κ) :
    greedyRest dependsOn nodes fuel emitted =
      greedyRest waitsOn nodes fuel emitted := by
  induction fuel generalizing emitted with
  | zero => rfl
  | succ fuel ih =>
    simp only [greedyRest, nextReady_congr agree emitted, ih]

theorem greedyOrder_congr
    (agree : ∀ node ∈ nodes, ∀ dependency ∈ nodes,
      dependsOn node dependency ↔ waitsOn node dependency) :
    greedyOrder dependsOn nodes = greedyOrder waitsOn nodes :=
  greedyRest_congr agree nodes.length []

end Congruence

section Choice

variable
  {dependsOn : κ → κ → Prop}
  [DecidableRel dependsOn]
  {nodes emitted : List κ}

theorem nextReady_eq_some {node : κ} (next : nextReady dependsOn nodes emitted = some node) :
    node ∈ nodes ∧ Ready dependsOn nodes emitted node := by
  unfold nextReady at next
  have ready := List.find?_some next
  exact ⟨List.mem_of_find?_eq_some next, of_decide_eq_true ready⟩

theorem nextReady_eq_none :
    nextReady dependsOn nodes emitted = none ↔
      ∀ node ∈ nodes, ¬Ready dependsOn nodes emitted node := by
  simp [nextReady]

/-- What `find?` returns stands before everything else it could return. -/
theorem idxOf_find?_le
    {accepts : κ → Bool} {list : List κ} {found other : κ}
    (first : list.find? accepts = some found) (present : other ∈ list)
    (accepted : accepts other) :
    list.idxOf found ≤ list.idxOf other := by
  induction list with
  | nil => simp at present
  | cons head rest ih =>
    by_cases here : accepts head
    · rw [List.find?_cons_of_pos here, Option.some.injEq] at first
      rw [← first, List.idxOf_cons_self]
      exact Nat.zero_le _
    · rw [List.find?_cons_of_neg here] at first
      have headNotFound : head ≠ found := fun same =>
        here (same ▸ List.find?_some first)
      have headNotOther : head ≠ other := fun same => here (same ▸ accepted)
      rw [List.idxOf_cons_ne _ headNotFound, List.idxOf_cons_ne _ headNotOther]
      have inRest : other ∈ rest := by
        simpa [Ne.symm headNotOther] using present
      exact Nat.succ_le_succ (ih first inRest)

/-- The next node comes first among the ready ones. -/
theorem nextReady_le
    {node other : κ} (next : nextReady dependsOn nodes emitted = some node)
    (present : other ∈ nodes) (ready : Ready dependsOn nodes emitted other) :
    nodes.idxOf node ≤ nodes.idxOf other :=
  idxOf_find?_le next present (decide_eq_true ready)

theorem nextReady_of_first
    {node : κ} (present : node ∈ nodes) (ready : Ready dependsOn nodes emitted node)
    (first :
      ∀ other ∈ nodes,
        Ready dependsOn nodes emitted other →
          nodes.idxOf node ≤ nodes.idxOf other) :
    nextReady dependsOn nodes emitted = some node := by
  cases next : nextReady dependsOn nodes emitted with
  | none => exact absurd ready (nextReady_eq_none.mp next node present)
  | some chosen =>
    obtain ⟨chosenPresent, chosenReady⟩ := nextReady_eq_some next
    have same : nodes.idxOf chosen = nodes.idxOf node :=
      Nat.le_antisymm (nextReady_le next present ready) (first chosen chosenPresent chosenReady)
    rw [(List.idxOf_inj chosenPresent).mp same]

end Choice

section Run

variable
  (dependsOn : κ → κ → Prop)
  [DecidableRel dependsOn]
  (nodes : List κ)

/-- A greedy run only emits ready nodes. -/
theorem legalRest_greedyRest (fuel : Nat) (emitted : List κ) :
    LegalRest dependsOn nodes emitted
      (greedyRest dependsOn nodes fuel emitted) := by
  induction fuel generalizing emitted with
  | zero => exact trivial
  | succ fuel ih =>
    unfold greedyRest
    cases next : nextReady dependsOn nodes emitted with
    | none => exact trivial
    | some node =>
      obtain ⟨present, ready⟩ := nextReady_eq_some next
      exact ⟨present, ready, ih (emitted ++ [node])⟩

theorem nextReady_eq_none_of_complete
    {emitted : List κ} (nodup : emitted.Nodup) (subset : emitted ⊆ nodes)
    (complete : nodes.length ≤ emitted.length) :
    nextReady dependsOn nodes emitted = none := by
  refine nextReady_eq_none.mpr fun node present ready => ?_
  have all := (nodup.subperm subset).perm_of_length_le complete
  exact ready.1 (all.mem_iff.mpr present)

/-- With one unit of fuel for each node left, the run stops when none is ready. -/
theorem nextReady_greedyRest
    (fuel : Nat) (emitted : List κ) (nodup : emitted.Nodup) (subset : emitted ⊆ nodes)
    (enough : nodes.length ≤ emitted.length + fuel) :
    nextReady dependsOn nodes
      (emitted ++ greedyRest dependsOn nodes fuel emitted) = none := by
  induction fuel generalizing emitted with
  | zero =>
    rw [greedyRest, List.append_nil]
    exact nextReady_eq_none_of_complete dependsOn nodes nodup subset enough
  | succ fuel ih =>
    unfold greedyRest
    cases next : nextReady dependsOn nodes emitted with
    | none => simpa using next
    | some node =>
      obtain ⟨present, ready⟩ := nextReady_eq_some next
      have subsetSnoc : emitted ++ [node] ⊆ nodes :=
        List.append_subset.mpr ⟨subset, by simpa using present⟩
      have enoughSnoc : nodes.length ≤ (emitted ++ [node]).length + fuel := by
        rw [List.length_append, List.length_singleton]
        omega
      simpa using ih (emitted ++ [node]) (nodup_snoc nodup ready.1) subsetSnoc enoughSnoc

/-- When the greedy order ends, no node is ready. -/
theorem nextReady_greedyOrder :
    nextReady dependsOn nodes (greedyOrder dependsOn nodes) = none := by
  simpa [greedyOrder] using
    nextReady_greedyRest dependsOn nodes nodes.length [] List.nodup_nil
      (List.nil_subset nodes) (Nat.le_add_left _ _)

theorem greedyOrder_nodup : (greedyOrder dependsOn nodes).Nodup := by
  simpa [greedyOrder] using
    (legalRest_greedyRest dependsOn nodes nodes.length []).nodup List.nodup_nil

theorem greedyOrder_subset : greedyOrder dependsOn nodes ⊆ nodes :=
  (legalRest_greedyRest dependsOn nodes nodes.length []).subset

theorem greedyOrder_topological :
    Topological dependsOn nodes (greedyOrder dependsOn nodes) :=
  (legalRest_greedyRest dependsOn nodes nodes.length []).topological

/-- A greedy order that misses none is a permutation of the nodes. -/
theorem greedyOrder_perm (complete : nodes.length ≤ (greedyOrder dependsOn nodes).length) :
    (greedyOrder dependsOn nodes).Perm nodes :=
  ((greedyOrder_nodup dependsOn nodes).subperm
    (greedyOrder_subset dependsOn nodes)).perm_of_length_le complete

/-- No legal list of at least the same length comes before a greedy run. -/
theorem greedyRest_le
    {fuel : Nat} {emitted other : List κ} (legal : LegalRest dependsOn nodes emitted other)
    (long : (greedyRest dependsOn nodes fuel emitted).length ≤ other.length) :
    (greedyRest dependsOn nodes fuel emitted).map nodes.idxOf ≤
      other.map nodes.idxOf := by
  induction fuel generalizing emitted other with
  | zero => exact not_lt.mp (List.not_lt_nil _)
  | succ fuel ih =>
    unfold greedyRest at long ⊢
    cases next : nextReady dependsOn nodes emitted with
    | none => exact not_lt.mp (List.not_lt_nil _)
    | some node =>
      simp only [next] at long
      cases other with
      | nil => simp at long
      | cons head other =>
        obtain ⟨present, ready, later⟩ := legal
        have first := nextReady_le next present ready
        rw [List.map_cons, List.map_cons]
        obtain before | same := Nat.lt_or_eq_of_le first
        · exact le_of_lt (List.Lex.rel before)
        · have nodePresent := (nextReady_eq_some next).1
          obtain rfl := (List.idxOf_inj nodePresent).mp same
          exact List.cons_le_cons _ (ih later (by simpa using long))

/-- The greedy order is least among the topological ones. -/
theorem greedyOrder_least
    {other : List κ} (nodup : nodes.Nodup) (permutation : other.Perm nodes)
    (topological : Topological dependsOn nodes other) :
    LexLe nodes (greedyOrder dependsOn nodes) other := by
  apply greedyRest_le
  · have fromStart : Topological dependsOn nodes ([] ++ other) := topological
    exact fromStart.legalRest (permutation.nodup_iff.mpr nodup) permutation.subset
  · rw [permutation.length_eq]
    exact ((greedyOrder_nodup dependsOn nodes).subperm
      (greedyOrder_subset dependsOn nodes)).length_le

end Run
end GreedyOrder
end Relavium.Library
