import Mathlib.Algebra.Order.Group.Nat
import Mathlib.Data.List.Basic
import Mathlib.Logic.Relation
import Mathlib.Order.Lattice
import Mathlib.Order.Nat

/-!
# Spans of a list and the chains they form

Two spans overlap when they share a position; spans that are linked by overlaps
form a chain.  A sweep over spans that are ordered by their start merges each
chain into one span.  What the sweep returns is ordered and disjoint, and
consists of the maximal chains.  The slices of one size that a loop over
`i = 0, size, 2 * size, …` takes are spans that touch: put together they are the
list.
-/

namespace Relavium.Library

/-- The positions from a start up to a stop. -/
structure Span where
  start : Nat
  stop : Nat

namespace Span

/-- The position lies in the span. -/
def Covers (span : Span) (position : Nat) : Prop :=
  span.start ≤ position ∧ position < span.stop

instance (span : Span) (position : Nat) : Decidable (span.Covers position) :=
  inferInstanceAs (Decidable (_ ∧ _))

/-- The span has a position. -/
def Proper (span : Span) : Prop :=
  span.start < span.stop

/-- The spans share a position. -/
def Overlaps (first second : Span) : Prop :=
  ∃ position, first.Covers position ∧ second.Covers position

/-- The first span lies in the second. -/
def Within (inner outer : Span) : Prop :=
  outer.start ≤ inner.start ∧ inner.stop ≤ outer.stop

/-- The first span ends before the second one starts. -/
def Before (first second : Span) : Prop :=
  first.stop ≤ second.start

theorem Proper.covers_start {span : Span} (proper : span.Proper) :
    span.Covers span.start :=
  ⟨le_rfl, proper⟩

theorem Within.covers
    {inner outer : Span} (within : inner.Within outer) {position : Nat}
    (covers : inner.Covers position) :
    outer.Covers position :=
  ⟨within.1.trans covers.1, covers.2.trans_le within.2⟩

theorem Overlaps.symm {first second : Span} (overlaps : first.Overlaps second) :
    second.Overlaps first := by
  obtain ⟨position, covered, also⟩ := overlaps
  exact ⟨position, also, covered⟩

theorem eq_of_covers_iff
    {first second : Span} (firstProper : first.Proper) (secondProper : second.Proper)
    (same : ∀ position, first.Covers position ↔ second.Covers position) :
    first = second := by
  unfold Proper at firstProper secondProper
  have starts : first.start = second.start :=
    le_antisymm ((same second.start).mpr ⟨le_rfl, secondProper⟩).1
      ((same first.start).mp ⟨le_rfl, firstProper⟩).1
  have firstLast := ((same (first.stop - 1)).mp ⟨by omega, by omega⟩).2
  have secondLast := ((same (second.stop - 1)).mpr ⟨by omega, by omega⟩).2
  have stops : first.stop = second.stop := by omega
  cases first
  cases second
  simp_all

end Span

/-- Two spans of the list that overlap. -/
def Linked (spans : List Span) (first second : Span) : Prop :=
  first ∈ spans ∧ second ∈ spans ∧ first.Overlaps second

/-- Two spans of one chain: overlaps lead from one to the other. -/
def Chained (spans : List Span) : Span → Span → Prop :=
  Relation.ReflTransGen (Linked spans)

/-- The span is the union of a maximal chain: of everything chained to one of
the spans. -/
def IsMaximalChain (spans : List Span) (chain : Span) : Prop :=
  chain.Proper ∧ ∃ span ∈ spans, ∀ position,
    chain.Covers position ↔
      ∃ other ∈ spans, Chained spans span other ∧ other.Covers position

variable
  {spans : List Span}

theorem Chained.symm {first second : Span} (chained : Chained spans first second) :
    Chained spans second first := by
  induction chained with
  | refl => exact .refl
  | tail _ linked ih =>
    exact ih.head ⟨linked.2.1, linked.1, linked.2.2.symm⟩

namespace Sweep

/-- Merge a span with those that follow it, as long as they overlap. -/
def merge : Span → List Span → List Span
  | current, [] => [current]
  | current, next :: rest =>
    if next.start < current.stop then
      merge { current with stop := max current.stop next.stop } rest
    else current :: merge next rest

/-- The chains of spans that are ordered by their start. -/
def chains : List Span → List Span
  | [] => []
  | first :: rest => merge first rest

/-- Spans in the order of the sweep. -/
def Ordered (spans : List Span) : Prop :=
  spans.Pairwise fun first second => first.start ≤ second.start

variable
  {rest : List Span}

theorem Ordered.grow
    {current next : Span} (ordered : Ordered (current :: next :: rest)) (stop : Nat) :
    Ordered ({ current with stop } :: rest) := by
  obtain ⟨first, later⟩ := List.pairwise_cons.mp ordered
  refine List.pairwise_cons.mpr ⟨?_, (List.pairwise_cons.mp later).2⟩
  exact fun span inside => first span (List.mem_cons_of_mem _ inside)

/-- The sweep returns nothing that starts earlier. -/
theorem start_le_of_mem_merge
    {current chain : Span} (ordered : Ordered (current :: rest))
    (member : chain ∈ merge current rest) :
    current.start ≤ chain.start := by
  induction rest generalizing current with
  | nil =>
    obtain rfl := List.mem_singleton.mp member
    exact le_rfl
  | cons next rest ih =>
    obtain ⟨first, later⟩ := List.pairwise_cons.mp ordered
    unfold merge at member
    split at member
    · have started := ih (ordered.grow (max current.stop next.stop)) member
      exact started
    · rcases List.mem_cons.mp member with rfl | member
      · exact le_rfl
      · exact (first next List.mem_cons_self).trans (ih later member)

/-- What the sweep returns is ordered and disjoint. -/
theorem merge_pairwise {current : Span} (ordered : Ordered (current :: rest)) :
    (merge current rest).Pairwise Span.Before := by
  induction rest generalizing current with
  | nil => exact List.pairwise_singleton _ _
  | cons next rest ih =>
    obtain ⟨first, later⟩ := List.pairwise_cons.mp ordered
    unfold merge
    split
    · exact ih (ordered.grow _)
    case isFalse apart =>
      refine List.pairwise_cons.mpr ⟨?_, ih later⟩
      intro chain member
      exact (Nat.le_of_not_lt apart).trans (start_le_of_mem_merge later member)

/-- Every span lies within a chain. -/
theorem exists_within_merge
    {current : Span} (ordered : Ordered (current :: rest)) {span : Span}
    (member : span ∈ current :: rest) :
    ∃ chain ∈ merge current rest, span.Within chain := by
  induction rest generalizing current span with
  | nil =>
    obtain rfl := List.mem_singleton.mp member
    exact ⟨span, List.mem_singleton_self span, le_rfl, le_rfl⟩
  | cons next rest ih =>
    obtain ⟨first, later⟩ := List.pairwise_cons.mp ordered
    unfold merge
    split
    · have grown := ordered.grow (max current.stop next.stop)
      obtain ⟨chain, there, startsBefore, stopsAfter⟩ :=
        ih grown List.mem_cons_self
      simp only at startsBefore stopsAfter
      rcases List.mem_cons.mp member with rfl | inside
      · exact ⟨chain, there, startsBefore, (le_max_left _ _).trans stopsAfter⟩
      rcases List.mem_cons.mp inside with rfl | inside
      · exact ⟨chain, there, startsBefore.trans (first span List.mem_cons_self),
          (le_max_right _ _).trans stopsAfter⟩
      · exact ih grown (List.mem_cons_of_mem _ inside)
    · rcases List.mem_cons.mp member with rfl | inside
      · exact ⟨span, List.mem_cons_self, le_rfl, le_rfl⟩
      · obtain ⟨chain, there, within⟩ := ih later inside
        exact ⟨chain, List.mem_cons_of_mem _ there, within⟩

/-- The span is proper, and all of it is covered by spans chained to one. -/
def Woven (spans : List Span) (chain : Span) : Prop :=
  chain.Proper ∧ ∃ root ∈ spans, ∀ position, chain.Covers position →
    ∃ other ∈ spans, Chained spans root other ∧ other.Covers position

theorem woven_of_mem
    {spans : List Span} {span : Span} (member : span ∈ spans) (proper : span.Proper) :
    Woven spans span :=
  ⟨proper, span, member, fun _ covers => ⟨span, member, .refl, covers⟩⟩

theorem Woven.grow
    {spans : List Span} {current next : Span} (woven : Woven spans current)
    (member : next ∈ spans) (proper : next.Proper) (after : current.start ≤ next.start)
    (inside : next.start < current.stop) :
    Woven spans { current with stop := max current.stop next.stop } := by
  obtain ⟨currentProper, root, rooted, covered⟩ := woven
  refine ⟨currentProper.trans_le (le_max_left _ _), root, rooted, ?_⟩
  intro position covers
  by_cases early : position < current.stop
  · exact covered position ⟨covers.1, early⟩
  · obtain ⟨other, otherMember, chained, shares⟩ :=
      covered next.start ⟨after, inside⟩
    have linked : Linked spans other next :=
      ⟨otherMember, member, next.start, shares, proper.covers_start⟩
    have bound : position < max current.stop next.stop := covers.2
    exact ⟨next, member, chained.tail linked, by omega, by omega⟩

/-- A chain is woven from the spans merged. -/
theorem woven_of_mem_merge
    {spans rest : List Span} {current chain : Span} (ordered : Ordered (current :: rest))
    (woven : Woven spans current) (members : ∀ span ∈ rest, span ∈ spans ∧ span.Proper)
    (member : chain ∈ merge current rest) :
    Woven spans chain := by
  induction rest generalizing current with
  | nil =>
    obtain rfl := List.mem_singleton.mp member
    exact woven
  | cons next rest ih =>
    obtain ⟨first, later⟩ := List.pairwise_cons.mp ordered
    obtain ⟨nextMember, nextProper⟩ := members next List.mem_cons_self
    have rest_members : ∀ span ∈ rest, span ∈ spans ∧ span.Proper :=
      fun span inside => members span (List.mem_cons_of_mem _ inside)
    unfold merge at member
    split at member
    case isTrue inside =>
      exact ih (ordered.grow _)
        (woven.grow nextMember nextProper (first next List.mem_cons_self)
          inside) rest_members member
    case isFalse =>
      rcases List.mem_cons.mp member with rfl | member
      · exact woven
      · exact ih later (woven_of_mem nextMember nextProper) rest_members member

end Sweep

theorem eq_of_before
    {chains : List Span} (disjoint : chains.Pairwise Span.Before) {first second : Span}
    (firstMember : first ∈ chains) (secondMember : second ∈ chains) {position : Nat}
    (covers : first.Covers position) (also : second.Covers position) :
    first = second := by
  induction chains with
  | nil => cases firstMember
  | cons chain chains ih =>
    obtain ⟨before, rest⟩ := List.pairwise_cons.mp disjoint
    rcases List.mem_cons.mp firstMember with rfl | firstLater
    · rcases List.mem_cons.mp secondMember with rfl | secondLater
      · rfl
      · have apart : first.stop ≤ second.start := before second secondLater
        exact absurd (covers.2.trans_le (apart.trans also.1)) (lt_irrefl position)
    · rcases List.mem_cons.mp secondMember with rfl | secondLater
      · have apart : second.stop ≤ first.start := before first firstLater
        exact absurd (also.2.trans_le (apart.trans covers.1)) (lt_irrefl position)
      · exact ih rest firstLater secondLater

/-- Disjoint woven chains that hold every span are the maximal ones. -/
theorem isMaximalChain_iff_mem
    {spans chains : List Span} (proper : ∀ span ∈ spans, span.Proper)
    (disjoint : chains.Pairwise Span.Before)
    (holds : ∀ span ∈ spans, ∃ chain ∈ chains, span.Within chain)
    (woven : ∀ chain ∈ chains, Sweep.Woven spans chain) (chain : Span) :
    IsMaximalChain spans chain ↔ chain ∈ chains := by
  -- Overlaps do not lead out of a chain.
  have closed : ∀ chain ∈ chains, ∀ span other : Span,
      span.Within chain → Chained spans span other → other.Within chain := by
    intro chain member span other within chained
    induction chained with
    | refl => exact within
    | tail _ linked ih =>
      obtain ⟨_, otherMember, position, covers, also⟩ := linked
      obtain ⟨home, homeMember, inside⟩ := holds _ otherMember
      obtain rfl := eq_of_before disjoint member homeMember
        (ih.covers covers) (inside.covers also)
      exact inside
  -- Every member of the list covers what is chained to a span in it.
  have covers_iff : ∀ chain ∈ chains, ∀ span ∈ spans, span.Within chain →
      ∀ position, chain.Covers position ↔
        ∃ other ∈ spans, Chained spans span other ∧
          other.Covers position := by
    intro chain member span spanMember within position
    constructor
    · intro covers
      obtain ⟨_, root, _, covered⟩ := woven chain member
      obtain ⟨other, otherMember, chained, also⟩ := covered position covers
      have start := (proper span spanMember).covers_start
      obtain ⟨mate, mateMember, mateChained, shares⟩ :=
        covered span.start (within.covers start)
      have linked : Linked spans mate span :=
        ⟨mateMember, spanMember, span.start, shares, start⟩
      have back : Chained spans span root :=
        Chained.symm (mateChained.tail linked)
      exact ⟨other, otherMember, back.trans chained, also⟩
    · rintro ⟨other, _, chained, covers⟩
      exact (closed chain member span other within chained).covers covers
  constructor
  · rintro ⟨chainProper, span, spanMember, same⟩
    obtain ⟨home, homeMember, within⟩ := holds span spanMember
    have homeProper := (woven home homeMember).1
    have equal : chain = home := by
      refine Span.eq_of_covers_iff chainProper homeProper fun position => ?_
      rw [same, covers_iff home homeMember span spanMember within]
    exact equal ▸ homeMember
  · intro member
    obtain ⟨chainProper, root, _, covered⟩ := woven chain member
    obtain ⟨other, otherMember, _, covers⟩ :=
      covered chain.start chainProper.covers_start
    obtain ⟨home, homeMember, within⟩ := holds other otherMember
    obtain rfl := eq_of_before disjoint member homeMember
      chainProper.covers_start (within.covers covers)
    exact ⟨chainProper, other, otherMember, covers_iff chain member other otherMember within⟩

theorem Sweep.exists_within
    {ordered : List Span} (sorted : Sweep.Ordered ordered) {span : Span}
    (member : span ∈ ordered) :
    ∃ chain ∈ Sweep.chains ordered, span.Within chain := by
  cases ordered with
  | nil => cases member
  | cons first rest => exact Sweep.exists_within_merge sorted member

theorem Sweep.pairwise {ordered : List Span} (sorted : Sweep.Ordered ordered) :
    (Sweep.chains ordered).Pairwise Span.Before := by
  cases ordered with
  | nil => exact .nil
  | cons first rest => exact Sweep.merge_pairwise sorted

theorem Sweep.woven
    (sorted : Sweep.Ordered spans) (proper : ∀ span ∈ spans, span.Proper) {chain : Span}
    (member : chain ∈ Sweep.chains spans) :
    Sweep.Woven spans chain := by
  cases spans with
  | nil => cases member
  | cons first rest =>
    refine Sweep.woven_of_mem_merge sorted
      (Sweep.woven_of_mem List.mem_cons_self (proper first List.mem_cons_self)) ?_ member
    intro span inside
    have inside := List.mem_cons_of_mem first inside
    exact ⟨inside, proper span inside⟩

/-- The sweep finds the maximal chains. -/
theorem Sweep.isMaximalChain_iff
    (sorted : Sweep.Ordered spans) (proper : ∀ span ∈ spans, span.Proper) (chain : Span) :
    IsMaximalChain spans chain ↔ chain ∈ Sweep.chains spans :=
  isMaximalChain_iff_mem proper (Sweep.pairwise sorted) (fun _ => Sweep.exists_within sorted)
    (fun _ => Sweep.woven sorted proper) chain

theorem isMaximalChain_congr
    {spans others : List Span} (same : ∀ span, span ∈ spans ↔ span ∈ others) (chain : Span) :
    IsMaximalChain spans chain ↔ IsMaximalChain others chain := by
  have linked : Linked spans = Linked others := by
    funext first second
    unfold Linked
    rw [same, same]
  unfold IsMaximalChain Chained
  rw [linked]
  simp only [same]

/-! ## Replacing spans -/

/-- The list from the cursor on, with a replacement in the place of each
span. -/
def replaceSpans (replacement list : List α) : Nat → List Span → List α
  | cursor, [] => list.drop cursor
  | cursor, span :: rest =>
    (list.drop cursor).take (span.start - cursor) ++ replacement ++
      replaceSpans replacement list span.stop rest

/-- The elements at the positions no span covers, in their order. -/
def outside (spans : List Span) (list : List α) : List α :=
  (list.zipIdx.filter fun entry =>
    !spans.any fun span => decide (span.Covers entry.2)).map Prod.fst

/-- The rest of a list goes up to a later position, and on from there. -/
theorem drop_eq_append (list : List α) {first second : Nat} (ordered : first ≤ second) :
    list.drop first =
      (list.drop first).take (second - first) ++ list.drop second := by
  have parts := (List.take_append_drop (second - first) (list.drop first)).symm
  rwa [List.drop_drop, Nat.add_sub_cancel' ordered] at parts

theorem position_of_mem_slice
    {list : List α} {start length : Nat} {entry : α × Nat}
    (member : entry ∈ (list.zipIdx.drop start).take length) :
    start ≤ entry.2 ∧ entry.2 < start + length := by
  obtain ⟨offset, bound, rfl⟩ := List.mem_iff_getElem.mp member
  simp only [List.length_take] at bound
  simp only [List.getElem_take, List.getElem_drop, List.getElem_zipIdx]
  omega

theorem position_of_mem_drop
    {list : List α} {start : Nat} {entry : α × Nat} (member : entry ∈ list.zipIdx.drop start) :
    start ≤ entry.2 := by
  obtain ⟨offset, bound, rfl⟩ := List.mem_iff_getElem.mp member
  simp only [List.getElem_drop, List.getElem_zipIdx]
  omega

/-- From a cursor before the first of some ordered, disjoint spans, what is not
replaced is what lies outside. -/
theorem replaceSpans_nil_eq
    (list : List α) {cursor : Nat} (disjoint : spans.Pairwise Span.Before)
    (proper : ∀ span ∈ spans, span.Proper) (after : ∀ span ∈ spans, cursor ≤ span.start) :
    replaceSpans [] list cursor spans =
      ((list.zipIdx.drop cursor).filter fun entry =>
        !spans.any fun span => decide (span.Covers entry.2)).map Prod.fst := by
  induction spans generalizing cursor with
  | nil => simp [replaceSpans, List.map_drop]
  | cons span rest ih =>
    obtain ⟨before, disjoint⟩ := List.pairwise_cons.mp disjoint
    have spanProper : span.start < span.stop :=
      proper span List.mem_cons_self
    have reached := after span List.mem_cons_self
    have later : ∀ other ∈ rest, span.stop ≤ other.start := before
    have tail := ih disjoint (fun other inside => proper other (List.mem_cons_of_mem _ inside))
      later
    rw [drop_eq_append list.zipIdx reached,
      drop_eq_append list.zipIdx spanProper.le, List.filter_append,
      List.filter_append, List.map_append, List.map_append]
    have kept : ((list.zipIdx.drop cursor).take
        (span.start - cursor)).filter (fun entry =>
          !(span :: rest).any fun span => decide (span.Covers entry.2)) =
        (list.zipIdx.drop cursor).take (span.start - cursor) := by
      rw [List.filter_eq_self]
      intro entry member
      have bounds := position_of_mem_slice member
      simp only [Bool.not_eq_true', List.any_eq_false, decide_eq_true_eq]
      intro other inside covers
      rcases List.mem_cons.mp inside with rfl | inside
      · have reaches := covers.1
        omega
      · have reaches := (later other inside).trans covers.1
        omega
    have masked : ((list.zipIdx.drop span.start).take
        (span.stop - span.start)).filter (fun entry =>
          !(span :: rest).any fun span => decide (span.Covers entry.2)) =
        [] := by
      rw [List.filter_eq_nil_iff]
      intro entry member
      have bounds := position_of_mem_slice member
      have covers : span.Covers entry.2 := ⟨bounds.1, by omega⟩
      simp [covers]
    have followed : (list.zipIdx.drop span.stop).filter (fun entry =>
          !(span :: rest).any fun span => decide (span.Covers entry.2)) =
        (list.zipIdx.drop span.stop).filter (fun entry =>
          !rest.any fun span => decide (span.Covers entry.2)) := by
      refine List.filter_congr fun entry member => ?_
      have passed : ¬span.Covers entry.2 := fun covers =>
        Nat.not_lt_of_le (position_of_mem_drop member) covers.2
      simp [passed]
    rw [kept, masked, followed, ← tail, List.map_take, List.map_drop, List.zipIdx_map_fst]
    simp [replaceSpans]

theorem replaceSpans_nil
    (list : List α) (disjoint : spans.Pairwise Span.Before)
    (proper : ∀ span ∈ spans, span.Proper) :
    replaceSpans [] list 0 spans = outside spans list := by
  rw [replaceSpans_nil_eq list disjoint proper (fun _ _ => Nat.zero_le _)]
  rfl

theorem outside_chains
    (sorted : Sweep.Ordered spans) (proper : ∀ span ∈ spans, span.Proper) (list : List α) :
    outside (Sweep.chains spans) list = outside spans list := by
  have same : ∀ position,
      ((Sweep.chains spans).any fun span => decide (span.Covers position)) =
        spans.any fun span => decide (span.Covers position) := by
    intro position
    rw [Bool.eq_iff_iff, List.any_eq_true, List.any_eq_true]
    constructor
    · rintro ⟨chain, member, covers⟩
      obtain ⟨_, _, _, covered⟩ := Sweep.woven sorted proper member
      obtain ⟨span, spanMember, _, also⟩ :=
        covered position (of_decide_eq_true covers)
      exact ⟨span, spanMember, decide_eq_true also⟩
    · rintro ⟨span, member, covers⟩
      obtain ⟨chain, chainMember, within⟩ :=
        Sweep.exists_within sorted member
      exact ⟨chain, chainMember, decide_eq_true (within.covers (of_decide_eq_true covers))⟩
  unfold outside
  simp only [same]

/-- What lies outside does not depend on the order of the spans. -/
theorem outside_congr
    {spans others : List Span} (same : ∀ span, span ∈ spans ↔ span ∈ others) (list : List α) :
    outside spans list = outside others list := by
  have covered : ∀ position,
      (spans.any fun span => decide (span.Covers position)) =
        others.any fun span => decide (span.Covers position) := by
    intro position
    rw [Bool.eq_iff_iff, List.any_eq_true, List.any_eq_true]
    simp only [same]
  unfold outside
  simp only [covered]

/-! ## Slices of one size -/

/-- The slices of a list from each multiple of a size to the next. -/
def inChunks (size : Nat)
    (list : List α) : List (List α) :=
  (List.range ((list.length + (size - 1)) / size)).map fun turn =>
    (list.drop (size * turn)).take size

theorem flatten_slices (size turns : Nat) (list : List α) :
    ((List.range turns).map fun turn => (list.drop (size * turn)).take size).flatten =
      list.take (size * turns) := by
  induction turns with
  | zero => simp
  | succ turns ih =>
    rw [List.range_succ, List.map_append, List.flatten_append, ih, Nat.mul_succ, List.take_add]
    simp

/-- The last slice reaches the end of the list. -/
theorem length_le_chunks {size : Nat} (positive : 0 < size) (length : Nat) :
    length ≤ size * ((length + (size - 1)) / size) := by
  have rounded := Nat.div_add_mod (length + (size - 1)) size
  have remainder := Nat.mod_lt (length + (size - 1)) positive
  omega

/-- The chunks of a list join to it. -/
theorem flatten_inChunks {size : Nat} (positive : 0 < size) (list : List α) :
    (inChunks size list).flatten = list := by
  rw [inChunks, flatten_slices]
  exact List.take_of_length_le (length_le_chunks positive list.length)

end Relavium.Library
