import Relavium.Library.Checks
import Relavium.Library.StatementTriple
import Relavium.Shared.MediaAdmissionWalk
import Relavium.Shared.MediaSnapshotEdges

/-!
# The two walks through a media graph

A snapshot clones a graph and counts edges into clones; the collection of its
descriptors visits it in place.  Both find its objects in the order of one
breadth-first walk and count the same edges, so they refuse the same graphs but
for arrays that inherit from a collection, and the descriptors are those of the
nodes that the snapshot lists.
-/

namespace Relavium.Shared

open Library
open Library.Statements

/-! ## Meeting values -/

/-- The walk after it has met one more value. -/
def met (walk : AdmissionWalk)
    (item : HeapValue) : AdmissionWalk :=
  match item.address? with
  | none => walk
  | some source => meet source walk

variable
  {heap : ObjectHeap}

theorem commits_visit {item : HeapValue} {before after : AdmissionWalk} :
    Commits (visit heap item) before () after ↔
      InertValue heap item ∧ met before item = after := by
  simp only [visit, commits_bind, commits_ofExcept, mediaContainer_eq_ok_iff]
  unfold met
  constructor
  · rintro ⟨_, _, ⟨⟨inert, rfl⟩, rfl⟩, committed⟩
    refine ⟨inert, ?_⟩
    cases isAddress : item.address? with
    | none | some source => simpa [isAddress] using committed
  · rintro ⟨inert, isMet⟩
    refine ⟨_, _, ⟨⟨inert, rfl⟩, rfl⟩, ?_⟩
    cases isAddress : item.address? with
    | none | some source => simpa [isAddress] using isMet

theorem commits_visits {items : List HeapValue} {answer : Unit} {before after : AdmissionWalk} :
    Commits (items.forM (visit heap)) before answer after ↔
      (∀ item ∈ items, InertValue heap item) ∧ items.foldl met before = after := by
  induction items generalizing before with
  | nil => simp
  | cons item rest ih =>
    change Commits (visit heap item >>= fun _ => rest.forM (visit heap)) before answer after ↔ _
    rw [commits_bind, List.foldl_cons, List.forall_mem_cons]
    constructor
    · rintro ⟨_, middle, first, later⟩
      obtain ⟨inert, rfl⟩ := commits_visit.mp first
      obtain ⟨restInert, isAfter⟩ := ih.mp later
      exact ⟨⟨inert, restInert⟩, isAfter⟩
    · rintro ⟨⟨inert, restInert⟩, isAfter⟩
      exact ⟨(), _, commits_visit.mpr ⟨inert, rfl⟩, ih.mpr ⟨restInert, isAfter⟩⟩

/-- Exactly the given values have been met. -/
structure Met (seen : List HeapValue)
    (walk : AdmissionWalk) : Prop where
  visited : walk.visited = foundIn seen
  pending : walk.pending = (foundIn seen).elements
  incoming : ∀ address, (walk.incoming.get address).getD 0 = seen.count (.object address)

/-- Two walks with the same notes about their nodes. -/
structure SameNotes (first second : AdmissionWalk) : Prop where
  loose : first.loose = second.loose
  sourceEdges : first.sourceEdges = second.sourceEdges
  items : first.items = second.items
  descriptorFailure : first.descriptorFailure = second.descriptorFailure

theorem SameNotes.refl (walk : AdmissionWalk) : SameNotes walk walk :=
  ⟨rfl, rfl, rfl, rfl⟩

theorem SameNotes.trans
    {first second third : AdmissionWalk} (earlier : SameNotes first second)
    (later : SameNotes second third) :
    SameNotes first third :=
  ⟨earlier.loose.trans later.loose, earlier.sourceEdges.trans later.sourceEdges,
    earlier.items.trans later.items,
    earlier.descriptorFailure.trans later.descriptorFailure⟩

variable
  {seen : List HeapValue}

/-- A count of edges after one more. -/
theorem getD_get_bump
    {counts : OrderedMap Nat Nat}
    (isCount : ∀ address, (counts.get address).getD 0 = seen.count (.object address))
    (source address : Nat) :
    ((bump counts source).get address).getD 0 =
      (seen ++ [HeapValue.object source]).count (.object address) := by
  rw [get_bump, isCount, List.count_append]
  simp [List.count_singleton]

variable
  {walk : AdmissionWalk}

theorem Met.step (isMet : Met seen walk) (item : HeapValue) :
    Met (seen ++ [item]) (met walk item) := by
  unfold met
  cases isAddress : item.address? with
  | none =>
    have found : foundIn (seen ++ [_]) = foundIn seen := foundIn_primitive isAddress
    refine ⟨found ▸ isMet.visited, found ▸ isMet.pending, fun address => ?_⟩
    have notItem : HeapValue.object address ∉ [item] := by
      rw [List.mem_singleton]
      rintro rfl
      simp [HeapValue.address?] at isAddress
    rw [isMet.incoming, List.count_append, List.count_eq_zero_of_not_mem notItem]
    rfl
  | some source =>
    obtain rfl := HeapValue.address?_eq_some_iff.mp isAddress
    have visited : source ∈ walk.visited ↔ .object source ∈ seen := by
      rw [isMet.visited, mem_foundIn]
    by_cases again : HeapValue.object source ∈ seen
    · have found := foundIn_again again
      refine ⟨?_, ?_, getD_get_bump isMet.incoming source⟩
      · rw [found, ← isMet.visited]
        exact OrderedSet.elements_add_of_mem (visited.mpr again)
      · rw [found, ← isMet.pending]
        exact if_pos (visited.mpr again)
    · refine ⟨?_, ?_, getD_get_bump isMet.incoming source⟩
      · rw [foundIn_append, ← isMet.visited]
        rfl
      · rw [elements_foundIn_new again, ← isMet.pending]
        exact if_neg fun isVisited => again (visited.mp isVisited)

theorem sameNotes_met (walk : AdmissionWalk) (item : HeapValue) :
    SameNotes (met walk item) walk := by
  unfold met
  cases item.address? with
  | none => exact .refl walk
  | some source => exact ⟨rfl, rfl, rfl, rfl⟩

/-- Values are met one after another. -/
theorem Met.foldl (isMet : Met seen walk) (items : List HeapValue) :
    Met (seen ++ items) (items.foldl met walk) ∧ SameNotes (items.foldl met walk) walk := by
  induction items generalizing seen walk with
  | nil => exact ⟨(List.append_nil seen).symm ▸ isMet, .refl walk⟩
  | cons item rest ih =>
    obtain ⟨later, same⟩ := ih (isMet.step item)
    rw [List.append_assoc] at later
    exact ⟨later, same.trans (sameNotes_met walk item)⟩

/-! ## One node -/

/-- A descriptor is kept, or the first failure is. -/
def keep (admitted : Except MediaAdmissionErrorCode DurableMediaMeta)
    (walk : AdmissionWalk) : AdmissionWalk :=
  { walk with
    items := walk.items ++ admitted.toOption.toList
    descriptorFailure := walk.descriptorFailure.or (failureOf admitted) }

variable
  {read : Reflection}
  {node : Nat}

theorem commits_admitInPlace {answer : Unit} {before after : AdmissionWalk} :
    Commits (admitInPlace read node) before answer after ↔
      failureOf (admitNode read node) ≠ some .unsafeValue ∧
        keep (admitNode read node) before = after := by
  unfold admitInPlace keep
  cases admitted : admitNode read node with
  | ok item => simp [failureOf, Except.toOption]
  | error code =>
    cases code <;> simp [failureOf, Except.toOption]

/-- What is noted about a node, with its descriptor. -/
def recorded (read : Reflection) (node : Nat) (object : HeapObject)
    (walk : AdmissionWalk) : AdmissionWalk :=
  if isMediaNode object then keep (admitNode read node) (noteNode node object walk)
  else noteNode node object walk

variable
  {before after : AdmissionWalk}

/-- An array that inherits from a collection: its entries are not asked for where it
is cloned, and cannot be had where it is visited. -/
def IsCollectionArray (object : HeapObject) : Prop :=
  object.isArray = true ∧ (object.instanceOf .map = true ∨ object.instanceOf .set = true)

theorem visitEntries_of_collectionArray
    {object : HeapObject} (collection : IsCollectionArray object) :
    visitEntries heap object = refuse .unsafeValue := by
  obtain ⟨isArray, inherits⟩ := collection
  unfold HeapObject.isArray at isArray
  unfold visitEntries
  cases isSlots : object.slots with
  | array length =>
    cases isMap : object.instanceOf .map with
    | true => rfl
    | false => simp_all
  | _ => simp [isSlots] at isArray

/-- Other objects are visited as they are cloned. -/
theorem visitEntries_eq {object : HeapObject} (ordinary : ¬IsCollectionArray object) :
    visitEntries heap object =
      object.contents.elim (refuse .unsafeValue)
        fun slots => slots.values.forM (visit heap) := by
  unfold visitEntries HeapObject.contents HeapObject.kind
  cases isMap : object.instanceOf .map <;> cases isSet : object.instanceOf .set <;>
    cases isSlots : object.slots <;>
    simp_all [IsCollectionArray, HeapObject.isArray, ObjectSlots.values]

theorem commits_visitEntries
    {object : HeapObject} {answer : Unit} {before after : AdmissionWalk} :
    Commits (visitEntries heap object) before answer after ↔
      (object.contents.isSome = true ∧ ¬IsCollectionArray object) ∧
        (∀ value ∈ object.entries, InertValue heap value) ∧
        object.entries.foldl met before = after := by
  by_cases collection : IsCollectionArray object
  · rw [visitEntries_of_collectionArray collection]
    exact iff_of_false commits_refuse fun visited => visited.1.2 collection
  · rw [visitEntries_eq collection, HeapObject.entries]
    cases object.contents with
    | none => exact iff_of_false commits_refuse fun visited => by simp at visited
    | some slots => simpa [collection] using commits_visits

theorem commits_walkNode {object : HeapObject} (isObject : heap[node]? = some object) :
    Commits (walkNode read heap node) before () after ↔
      ((InertObject object ∧ ¬IsCollectionArray object) ∧
        ∀ value ∈ object.values, InertValue heap value) ∧
        (isMediaNode object = true →
          failureOf (admitNode read node) ≠ some .unsafeValue) ∧
        recorded read node object (object.values.foldl met before) = after := by
  unfold walkNode recorded
  simp only [isObject, commits_bind, commits_require, commits_update, commits_visitEntries,
    commits_visits, HeapObject.values, List.forall_mem_append, List.foldl_append]
  cases isMedia : isMediaNode object with
  | false =>
    simp only [Bool.false_eq_true, if_false, commits_pure]
    constructor
    · rintro ⟨_, _, ⟨⟨contents, notArray⟩, entries, rfl⟩, _, _, ⟨keys, rfl⟩, _, _,
        ⟨properties, rfl⟩, _, _, rfl, _, rfl⟩
      exact ⟨⟨⟨⟨contents, keys⟩, notArray⟩, entries, properties⟩, False.elim, rfl⟩
    · rintro ⟨⟨⟨inert, notArray⟩, entries, properties⟩, -, rfl⟩
      exact ⟨(), _, ⟨⟨inert.contents, notArray⟩, entries, rfl⟩, (), _, ⟨inert.keys, rfl⟩,
        (), _, ⟨properties, rfl⟩, (), _, rfl, trivial, rfl⟩
  | true =>
    simp only [if_true, commits_admitInPlace]
    constructor
    · rintro ⟨_, _, ⟨⟨contents, notArray⟩, entries, rfl⟩, _, _, ⟨keys, rfl⟩, _, _,
        ⟨properties, rfl⟩, _, _, rfl, safe, rfl⟩
      exact ⟨⟨⟨⟨contents, keys⟩, notArray⟩, entries, properties⟩, fun _ => safe, rfl⟩
    · rintro ⟨⟨⟨inert, notArray⟩, entries, properties⟩, safe, rfl⟩
      exact ⟨(), _, ⟨⟨inert.contents, notArray⟩, entries, rfl⟩, (), _, ⟨inert.keys, rfl⟩,
        (), _, ⟨properties, rfl⟩, (), _, rfl, safe trivial, rfl⟩

/-! ## The loop -/

/-- Nodes that are visited in place, as a queue whose clones they are themselves. -/
def inPlace (nodes : List Nat) : List (Nat × Nat) :=
  nodes.map fun node => (node, node)

theorem mem_inPlace {nodes : List Nat} {address : Nat} :
    (∃ clone, (address, clone) ∈ inPlace nodes) ↔ address ∈ nodes := by
  simp [inPlace]

/-- The media nodes among some nodes. -/
def mediaAmong (heap : ObjectHeap)
    (nodes : List Nat) : List Nat :=
  nodes.filter fun node => heap[node]?.any isMediaNode

/-- The loop has visited the first objects of the queue. -/
structure Walked (read : Reflection) (heap : ObjectHeap) (root : HeapValue) (done : Nat)
    (walk : AdmissionWalk) : Prop where
  bound : done ≤ walk.pending.length
  turns : foundAfter heap root done =
    foundIn (seenOf heap root (inPlace (walk.pending.take done)))
  hasMet : Met (seenOf heap root (inPlace (walk.pending.take done))) walk
  inert : ∀ value ∈ seenOf heap root (inPlace (walk.pending.take done)),
    InertValue heap value
  reach : ∀ address,
    .object address ∈ seenOf heap root (inPlace (walk.pending.take done)) →
      Reachable heap root address
  objects : ∀ node ∈ walk.pending.take done, ∃ object,
    heap[node]? = some object ∧ InertObject object ∧ ¬IsCollectionArray object
  loose : walk.loose = (walk.pending.take done).filter fun node => heap[node]?.any isBase64Kind
  sourceEdges : ∀ address, (walk.sourceEdges.get address).getD 0 =
    (slotsOf heap (inPlace (walk.pending.take done))).count address
  items : walk.items = (mediaAmong heap (walk.pending.take done)).filterMap
    fun node => (admitNode read node).toOption
  failure : walk.descriptorFailure = (mediaAmong heap (walk.pending.take done)).findSome?
    fun node => failureOf (admitNode read node)

variable
  {root : HeapValue}

theorem Walked.mem_seen
    {done : Nat} (walked : Walked read heap root done walk) (isQueued : node ∈ walk.pending) :
    .object node ∈ seenOf heap root (inPlace (walk.pending.take done)) := by
  rw [walked.hasMet.pending] at isQueued
  exact mem_foundIn.mp isQueued

theorem getD_get_foldl_bump (counts : OrderedMap Nat Nat) (bumped : List Nat) (address : Nat) :
    ((bumped.foldl bump counts).get address).getD 0 =
      (counts.get address).getD 0 + bumped.count address := by
  induction bumped generalizing counts with
  | nil => rfl
  | cons first rest ih =>
    change _ = _ + ([first] ++ rest).count address
    rw [List.foldl_cons, ih, get_bump, List.count_append]
    omega

/-- What one more node adds to the notes. -/
theorem recorded_eq
    (read : Reflection) (node : Nat) (object : HeapObject) (walk : AdmissionWalk) :
    recorded read node object walk =
      { walk with
        loose := walk.loose ++ if isBase64Kind object then [node] else []
        sourceEdges := (slots object).foldl bump walk.sourceEdges
        items := walk.items ++
          if isMediaNode object then (admitNode read node).toOption.toList else []
        descriptorFailure := walk.descriptorFailure.or
          (if isMediaNode object then failureOf (admitNode read node) else none) } := by
  unfold recorded keep noteNode slots
  cases isMediaNode object with
  | false => cases isBase64Kind object <;> simp
  | true => cases isBase64Kind object <;> cases sourceSlot object <;> simp

/-- One turn of the loop visits one more node. -/
theorem Walked.step
    {done node : Nat} (walked : Walked read heap root done before)
    (isNext : before.pending[done]? = some node)
    (commits : Commits (walkNode read heap node) before () after) :
    Walked read heap root (done + 1) after := by
  have isSeen := walked.mem_seen (List.mem_of_getElem? isNext)
  obtain ⟨object, isObject, -⟩ := walked.inert _ isSeen
  obtain ⟨⟨objectInert, valuesInert⟩, -, rfl⟩ := (commits_walkNode isObject).mp commits
  obtain ⟨isMet, same⟩ := walked.hasMet.foldl object.values
  have bound := (List.getElem?_eq_some_iff.mp isNext).1
  have grows : before.pending <+: (object.values.foldl met before).pending := by
    rw [walked.hasMet.pending, isMet.pending, foundIn_append]
    exact OrderedSet.elements_prefix_foldl_add _ _
  have taken : (object.values.foldl met before).pending.take (done + 1) =
      before.pending.take done ++ [node] := by
    obtain ⟨more, isMore⟩ := grows
    rw [← isMore, List.take_append_of_le_length bound, List.take_add_one, isNext]
    rfl
  have pairs : inPlace (before.pending.take done ++ [node]) =
      inPlace (before.pending.take done) ++ [(node, node)] := List.map_append
  have seen := @seenOf_append object heap (inPlace (before.pending.take done)) root (node, node)
    isObject
  rw [recorded_eq]
  constructor
  · exact bound.trans_le grows.length_le
  · simp only [taken, pairs, seen]
    refine foundAfter_succ walked.turns ?_ isObject
    rw [← walked.hasMet.pending]
    exact isNext
  · simp only [taken, pairs, seen]
    exact ⟨isMet.visited, isMet.pending, isMet.incoming⟩
  · simp only [taken, pairs, seen, List.mem_append]
    exact fun value isValue => isValue.elim (walked.inert value) (valuesInert value)
  · simp only [taken, pairs, seen, List.mem_append]
    exact fun address isValue => isValue.elim (walked.reach address)
      (.child (walked.reach node isSeen) isObject)
  · simp only [taken, List.forall_mem_append, List.forall_mem_singleton]
    exact ⟨walked.objects, object, isObject, objectInert⟩
  · simp only [taken, List.filter_append, same.loose, walked.loose]
    simp [List.filter_cons, isObject]
  · intro address
    have slotsOfTaken : slotsOf heap (inPlace (before.pending.take done) ++ [(node, node)]) =
        slotsOf heap (inPlace (before.pending.take done)) ++ slots object := by
      simp [slotsOf, slotsAt, isObject]
    simp only [taken, pairs, slotsOfTaken, List.count_append, same.sourceEdges]
    rw [getD_get_foldl_bump, walked.sourceEdges]
  · simp only [taken, mediaAmong, List.filter_append, List.filterMap_append, same.items,
      walked.items]
    cases isMedia : isMediaNode object <;> simp [isObject, isMedia]
    cases isOutcome : admitNode read node <;> simp [isOutcome, Except.toOption]
  · simp only [taken, mediaAmong, List.filter_append, List.findSome?_append,
      same.descriptorFailure, walked.failure]
    cases isMedia : isMediaNode object <;> simp [isObject, isMedia]

/-- A loop that ends has visited its whole queue. -/
theorem walked_of_walkPending
    {fuel done : Nat} (walked : Walked read heap root done before)
    (commits : Commits (walkPending read heap fuel done) before () after) :
    Walked read heap root after.pending.length after := by
  induction fuel generalizing done before with
  | zero => exact absurd commits commits_refuse
  | succ fuel ih =>
    obtain ⟨_, _, selected, branch⟩ := commits_bind.mp commits
    obtain ⟨rfl, rfl⟩ := commits_select.mp selected
    cases isNext : before.pending[done]? with
    | none =>
      simp only [isNext, commits_pure, true_and] at branch
      subst branch
      rw [List.getElem?_eq_none_iff] at isNext
      rw [Nat.le_antisymm isNext walked.bound]
      exact walked
    | some node =>
      simp only [isNext, commits_bind] at branch
      obtain ⟨_, middle, visited, rest⟩ := branch
      exact ih (walked.step isNext visited) rest

/-- The queue holds every object once. -/
theorem Walked.length_pending_le {done : Nat} (walked : Walked read heap root done walk) :
    walk.pending.length ≤ heap.length := by
  have distinct : walk.pending.Nodup := by
    rw [walked.hasMet.pending]
    exact OrderedSet.nodup _
  have inHeap : walk.pending ⊆ List.range heap.length := by
    intro node isQueued
    obtain ⟨object, isObject, -⟩ := walked.inert _ (walked.mem_seen isQueued)
    exact List.mem_range.mpr (List.getElem?_eq_some_iff.mp isObject).1
  calc walk.pending.length
      ≤ (List.range heap.length).length :=
        (List.subperm_of_subset distinct inHeap).length_le
    _ = heap.length := List.length_range

/-- No array that can be reached inherits from a collection. -/
def NoCollectionArray (heap : ObjectHeap)
    (root : HeapValue) : Prop :=
  ∀ address object, Reachable heap root address →
    heap[address]? = some object →
    ¬IsCollectionArray object

/-- The loop ends on a graph of inert data whose descriptors can be read. -/
theorem commits_walkPending
    {fuel done : Nat} {before : AdmissionWalk} (graph : InertGraph heap root)
    (apart : NoCollectionArray heap root)
    (readable : ∀ node, Reachable heap root node →
      failureOf (admitNode read node) ≠ some .unsafeValue)
    (walked : Walked read heap root done before)
    (enough : heap.length < done + fuel) :
    ∃ after, Commits (walkPending read heap fuel done) before () after := by
  induction fuel generalizing done before with
  | zero =>
    have := walked.bound
    have := walked.length_pending_le
    omega
  | succ fuel ih =>
    cases isNext : before.pending[done]? with
    | none =>
      refine ⟨before, commits_bind.mpr ⟨_, before, commits_select.mpr ⟨rfl, rfl⟩, ?_⟩⟩
      simp only [isNext, commits_pure, and_self]
    | some node =>
      have isSeen := walked.mem_seen (List.mem_of_getElem? isNext)
      have reachable := walked.reach node isSeen
      obtain ⟨object, isObject, -⟩ := walked.inert _ isSeen
      obtain ⟨objectInert, valuesInert⟩ := graph.objects node object reachable isObject
      have visited := (@commits_walkNode heap read node before _ object isObject).mpr
        ⟨⟨⟨objectInert, apart node object reachable isObject⟩, valuesInert⟩,
          fun _ => readable node reachable, rfl⟩
      obtain ⟨after, rest⟩ := ih (walked.step isNext visited) (by omega)
      refine ⟨after, commits_bind.mpr ⟨_, before, commits_select.mpr ⟨rfl, rfl⟩, ?_⟩⟩
      simp only [isNext, commits_bind]
      exact ⟨(), _, visited, rest⟩

theorem walked_of_visit
    {after : AdmissionWalk} (commits : Commits (visit heap root) startWalk () after) :
    Walked read heap root 0 after := by
  obtain ⟨inert, rfl⟩ := commits_visit.mp commits
  have start : Met [] startWalk := ⟨rfl, rfl, fun _ => rfl⟩
  have same := sameNotes_met startWalk root
  refine ⟨Nat.zero_le _, rfl, start.step root, fun value isRoot => ?_, fun address isRoot => ?_,
    fun _ impossible => absurd impossible List.not_mem_nil, same.loose, fun address => ?_,
    same.items, same.descriptorFailure⟩
  · exact List.mem_singleton.mp isRoot ▸ inert
  · exact .root (List.mem_singleton.mp isRoot).symm
  · rw [same.sourceEdges]
    rfl

/-! ## The whole walk -/

section Complete

variable
  {read : Reflection}
  {heap : ObjectHeap}
  {root : HeapValue}
  {walk : AdmissionWalk}

/-- A complete walk has its objects in the order of the snapshot. -/
theorem Walked.order (walked : Walked read heap root walk.pending.length walk) :
    walk.pending = foundOrder heap root := by
  have turns := walked.turns
  have pending := walked.hasMet.pending
  exact eq_foundOrder (turns ▸ pending) walked.length_pending_le

/-- What is queued is what can be reached. -/
theorem Walked.mem_pending_iff
    (walked : Walked read heap root walk.pending.length walk) (address : Nat) :
    Reachable heap root address ↔ address ∈ walk.pending := by
  have isQueued : ∀ other,
      .object other ∈ seenOf heap root (inPlace walk.pending) ↔ other ∈ walk.pending := by
    intro other
    have pending := walked.hasMet.pending
    rw [List.take_length] at pending
    exact mem_foundIn.symm.trans (iff_of_eq (congrArg (other ∈ ·) pending.symm))
  have reach := walked.reach
  rw [List.take_length] at reach
  rw [← isQueued]
  exact (mem_seenOf_iff_reachable
    (fun other isSeen => mem_inPlace.mpr ((isQueued other).mp isSeen)) reach address).symm

/-- A complete walk has visited inert data. -/
theorem Walked.inertGraph (walked : Walked read heap root walk.pending.length walk) :
    InertGraph heap root ∧ NoCollectionArray heap root := by
  have inert := walked.inert
  have objects := walked.objects
  rw [List.take_length] at inert objects
  have each : ∀ address object, Reachable heap root address → heap[address]? = some object →
      address ∈ walk.pending ∧ InertObject object ∧ ¬IsCollectionArray object := by
    intro address object reachable isObject
    have isQueued := (walked.mem_pending_iff address).mp reachable
    obtain ⟨other, isOther, objectInert⟩ := objects address isQueued
    obtain rfl : other = object := Option.some.inj (isOther.symm.trans isObject)
    exact ⟨isQueued, objectInert⟩
  refine ⟨⟨inert root List.mem_cons_self, fun address object reachable isObject => ?_⟩,
    fun address object reachable isObject => (each address object reachable isObject).2.2⟩
  obtain ⟨isQueued, objectInert, -⟩ := each address object reachable isObject
  refine ⟨objectInert, fun value isValue => inert value ?_⟩
  obtain ⟨clone, isEntry⟩ := mem_inPlace.mpr isQueued
  refine List.mem_cons_of_mem _ (List.mem_flatMap.mpr ⟨_, isEntry, ?_⟩)
  rw [valuesAt, isObject]
  exact isValue

theorem Walked.check_iff (walked : Walked read heap root walk.pending.length walk) :
    (∀ node ∈ walk.loose, walk.incoming.get node = walk.sourceEdges.get node) ↔
      SealedSources heap root := by
  have sourceEdges := walked.sourceEdges
  have incoming := walked.hasMet.incoming
  have pending := walked.hasMet.pending
  have loose := walked.loose
  rw [List.take_length] at sourceEdges incoming pending loose
  have complete : ∀ address, Reachable heap root address ↔
      ∃ clone, (address, clone) ∈ inPlace walk.pending :=
    fun address => (walked.mem_pending_iff address).trans mem_inPlace.symm
  -- What the check says about one loose object.
  have one : ∀ node ∈ walk.pending,
      (walk.incoming.get node = walk.sourceEdges.get node ↔
        (seenOf heap root (inPlace walk.pending)).count (.object node) =
          (slotsOf heap (inPlace walk.pending)).count node) := by
    intro node isQueued
    rw [pending] at isQueued
    have some := List.count_pos_iff.mpr (mem_foundIn.mp isQueued)
    have edges := incoming node
    cases isStored : walk.incoming.get node with
    | none =>
      rw [isStored, Option.getD_none] at edges
      omega
    | some count =>
      rw [isStored, Option.getD_some] at edges
      rw [edges]
      exact get_eq_iff_counts (sourceEdges node) some
  rw [loose, sealedSources_iff_counts complete]
  constructor
  · intro checked entry isEntry isBase64
    obtain ⟨node, isQueued, rfl⟩ := List.mem_map.mp isEntry
    exact (one node isQueued).mp (checked node (List.mem_filter.mpr ⟨isQueued, isBase64⟩))
  · intro counted node isLoose
    obtain ⟨isQueued, isBase64⟩ := List.mem_filter.mp isLoose
    exact (one node isQueued).mpr
      (counted (node, node) (List.mem_map.mpr ⟨node, isQueued, rfl⟩) isBase64)

end Complete

/-- What a walk that commits has collected. -/
structure Collected (read : Reflection) (heap : ObjectHeap) (root : HeapValue)
    (walk : AdmissionWalk) : Prop where
  inert : InertGraph heap root
  apart : NoCollectionArray heap root
  sealed : SealedSources heap root
  reached : ∀ node ∈ foundOrder heap root, Reachable heap root node
  items : walk.items = (mediaAmong heap (foundOrder heap root)).filterMap
    fun node => (admitNode read node).toOption
  failure : walk.descriptorFailure = (mediaAmong heap (foundOrder heap root)).findSome?
    fun node => failureOf (admitNode read node)

theorem collected_of_walkGraph
    {after : AdmissionWalk} (commits : Commits (walkGraph read heap root) startWalk () after) :
    Collected read heap root after := by
  simp only [walkGraph, commits_bind, commits_select, commits_require] at commits
  obtain ⟨_, first, rootVisited, _, final, looped, _, _, ⟨rfl, rfl⟩, checked, rfl⟩ := commits
  have walked := walked_of_walkPending (walked_of_visit rootVisited) looped
  have items := walked.items
  have failure := walked.failure
  rw [List.take_length, walked.order] at items failure
  refine ⟨walked.inertGraph.1, walked.inertGraph.2, walked.check_iff.mp checked, fun node isFound => ?_, items,
    failure⟩
  rw [← walked.order] at isFound
  exact (walked.mem_pending_iff node).mpr isFound

theorem commits_walkGraph
    (inert : InertGraph heap root) (apart : NoCollectionArray heap root)
    (sealed : SealedSources heap root)
    (readable : ∀ node, Reachable heap root node →
      failureOf (admitNode read node) ≠ some .unsafeValue) :
    ∃ after, Commits (walkGraph read heap root) startWalk () after := by
  have rootVisited := commits_visit.mpr
    (⟨inert.rootInert, rfl⟩ : _ ∧ met startWalk root = met startWalk root)
  have start : Walked read _ _ 0 _ := walked_of_visit rootVisited
  obtain ⟨final, looped⟩ := @commits_walkPending heap read root (heap.length + 1) 0 _ inert
    apart readable start (by omega)
  have walked := walked_of_walkPending start looped
  refine ⟨final, ?_⟩
  simp only [walkGraph, commits_bind, commits_select, commits_require]
  exact ⟨(), _, rootVisited, (), final, looped, final, final, ⟨rfl, rfl⟩,
    walked.check_iff.mpr sealed, rfl⟩

end Relavium.Shared
