import Relavium.Library.BreadthFirst
import Relavium.Shared.MediaSnapshot

/-!
# Copying into a snapshot

What a sequence of copies does to the state of a snapshot.  Copies compose: a
part of the algorithm that copies some values in order returns them with the
addresses of their clones, finds every object among them, and counts every edge.
-/

namespace Relavium.Shared

open Library
open Library.Statements

/-- The clones of the objects found so far. -/
def placeOf (memo : OrderedMap Nat Nat)
    (address : Nat) : Nat :=
  (memo.get address).getD 0

/-- A value that may be in a snapshot: no function, no symbol, no data URI, and no
object of another class. -/
def InertValue (heap : ObjectHeap) : HeapValue → Prop
  | .string text => isBase64DataUri text = false
  | .function => False
  | .symbol => False
  | .object address => ∃ object, heap[address]? = some object ∧
      isBinaryBuffer object = false ∧ isContainer object = true
  | _ => True

variable
  {heap : ObjectHeap}

theorem mediaContainer_eq_ok_iff {value : HeapValue} {container : Option Nat} :
    mediaContainer value false heap = .ok container ↔
      InertValue heap value ∧ container = value.address? := by
  cases value with
  | string text =>
    by_cases isUri : isBase64DataUri text = true
    · simp [mediaContainer, InertValue, isUri]
    · simp [mediaContainer, InertValue, isUri, HeapValue.address?, eq_comm]
  | object address =>
    cases found : heap[address]? with
    | none => simp [mediaContainer, InertValue, found]
    | some object =>
      cases isBinary : isBinaryBuffer object <;> cases passes : isContainer object <;>
        simp [mediaContainer, InertValue, found, isBinary, passes, HeapValue.address?]
      exact eq_comm
  | function | symbol => simp [mediaContainer, InertValue]
  | undefined | null | boolean value | number value | bigint value =>
    simp [mediaContainer, InertValue, HeapValue.address?, eq_comm]

/-! ## The state between two copies -/

/-- The objects among some values, in the order in which they are first met. -/
def foundIn (seen : List HeapValue) : OrderedSet Nat :=
  .ofList (seen.filterMap HeapValue.address?)

variable
  {seen : List HeapValue}

@[simp] theorem mem_foundIn {address : Nat} :
    address ∈ foundIn seen ↔ .object address ∈ seen := by
  simp [foundIn]

theorem foundIn_append (seen more : List HeapValue) :
    foundIn (seen ++ more) =
      (more.filterMap HeapValue.address?).foldl OrderedSet.add (foundIn seen) := by
  rw [foundIn, List.filterMap_append, OrderedSet.ofList_append, foundIn]

theorem foundIn_primitive {item : HeapValue} (isPrimitive : item.address? = none) :
    foundIn (seen ++ [item]) = foundIn seen := by
  rw [foundIn_append, List.filterMap_cons_none isPrimitive]
  rfl

variable
  {address : Nat}

theorem foundIn_again (again : .object address ∈ seen) :
    foundIn (seen ++ [.object address]) = foundIn seen := by
  rw [foundIn_append]
  exact OrderedSet.elements_add_of_mem (mem_foundIn.mpr again)

theorem elements_foundIn_new (isNew : HeapValue.object address ∉ seen) :
    (foundIn (seen ++ [.object address])).elements =
      (foundIn seen).elements ++ [address] := by
  rw [foundIn_append]
  exact OrderedSet.elements_add_of_not_mem fun isFound => isNew (mem_foundIn.mp isFound)

/-- A state in which exactly the given values have been copied, from a heap to
which the clones are appended. -/
structure Snap (heap : ObjectHeap) (seen : List HeapValue)
    (state : SnapshotState) : Prop where
  clones : ∃ clones, state.heap = heap ++ clones ∧ clones.length = state.pending.length
  memo : state.memo.entries = state.pending
  placed : state.pending.map Prod.snd = List.range' heap.length state.pending.length
  found : ∀ address, state.memo.has address = true ↔ .object address ∈ seen
  order : state.pending.map Prod.fst = (foundIn seen).elements
  incoming : ∀ address clone, state.memo.get address = some clone →
    state.incoming.get clone = some (seen.count (.object address))

/-- A later state, which has found more. -/
structure Extends (earlier later : SnapshotState) : Prop where
  memo : ∀ address clone, earlier.memo.get address = some clone →
    later.memo.get address = some clone
  pending : earlier.pending <+: later.pending
  heap : earlier.heap <+: later.heap
  noted : later.nodes = earlier.nodes ∧ later.sourceEdges = earlier.sourceEdges ∧
    later.loose = earlier.loose

namespace Extends

theorem refl (state : SnapshotState) : Extends state state :=
  ⟨fun _ _ found => found, List.prefix_refl _, List.prefix_refl _, rfl, rfl, rfl⟩

theorem trans
    {first second third : SnapshotState} (earlier : Extends first second)
    (later : Extends second third) :
    Extends first third :=
  ⟨fun address clone found => later.memo _ _ (earlier.memo address clone found),
    earlier.pending.trans later.pending, earlier.heap.trans later.heap,
    later.noted.1.trans earlier.noted.1, later.noted.2.1.trans earlier.noted.2.1,
    later.noted.2.2.trans earlier.noted.2.2⟩

theorem placeOf_eq
    {earlier later : SnapshotState} {address : Nat} (grows : Extends earlier later)
    (found : earlier.memo.has address = true) :
    placeOf later.memo address = placeOf earlier.memo address := by
  obtain ⟨clone, isClone⟩ := (OrderedMap.has_iff _ _).mp found
  rw [placeOf, placeOf, isClone, grows.memo address clone isClone]

end Extends

variable
  {state : SnapshotState}

theorem Snap.place_ge
    {address clone : Nat} (snap : Snap heap seen state)
    (found : state.memo.get address = some clone) :
    heap.length ≤ clone ∧ clone < heap.length + state.pending.length := by
  have isEntry := (OrderedMap.mem_entries_iff _ _ _).mpr found
  rw [snap.memo] at isEntry
  have isPlace := List.mem_map_of_mem (f := Prod.snd) isEntry
  rw [snap.placed, List.mem_range'_1] at isPlace
  exact isPlace

/-- Different objects have different clones. -/
theorem Snap.injective
    {first second clone : Nat} (snap : Snap heap seen state)
    (firstFound : state.memo.get first = some clone)
    (secondFound : state.memo.get second = some clone) :
    first = second := by
  have firstEntry := (OrderedMap.mem_entries_iff _ _ _).mpr firstFound
  have secondEntry := (OrderedMap.mem_entries_iff _ _ _).mpr secondFound
  rw [snap.memo] at firstEntry secondEntry
  have distinct : (state.pending.map Prod.snd).Nodup := by
    rw [snap.placed]
    exact List.nodup_range'
  exact congrArg Prod.fst (List.inj_on_of_nodup_map distinct firstEntry secondEntry rfl)

/-- Statements that copy some values in order: they add these to what is copied,
their result is that of the values under the places of their clones, and they
commit when every value is inert. -/
structure Copies (statements : SnapshotStatements α) (items : List HeapValue)
    (view : (Nat → Nat) → α) : Prop where
  congr : ∀ first second : Nat → Nat,
    (∀ address, .object address ∈ items → first address = second address) →
    view first = view second
  copied : ∀ heap seen before result after,
    (∀ address, .object address ∈ items → address < heap.length) →
    Snap heap seen before →
    Commits statements before result after →
    Snap heap (seen ++ items) after ∧ Extends before after ∧
      (∀ item ∈ items, InertValue heap item) ∧ result = view (placeOf after.memo)
  commits : ∀ heap seen before,
    (∀ item ∈ items, InertValue heap item) →
    Snap heap seen before →
    ∃ result after, Commits statements before result after

namespace Copies

theorem pure (given : α) :
    Copies (Pure.pure given : SnapshotStatements α) [] (fun _ => given) where
  congr _ _ _ := rfl
  copied heap seen before result after _ snap commits := by
    obtain ⟨rfl, rfl⟩ := commits_pure.mp commits
    rw [List.append_nil]
    exact ⟨snap, .refl before, fun _ impossible => absurd impossible List.not_mem_nil, rfl⟩
  commits heap seen before _ _ := ⟨given, before, commits_pure.mpr ⟨rfl, rfl⟩⟩

theorem bind
    {first : SnapshotStatements α} {next : α → SnapshotStatements β}
    {items others : List HeapValue} {view : (Nat → Nat) → α} {nextView : α → (Nat → Nat) → β}
    (firstCopies : Copies first items view)
    (nextCopies : ∀ given, Copies (next given) others (nextView given)) :
    Copies (first >>= next) (items ++ others)
      (fun place => nextView (view place) place) where
  congr place other agree := by
    have same := firstCopies.congr place other fun address isItem =>
      agree address (List.mem_append_left _ isItem)
    rw [same]
    exact (nextCopies _).congr place other fun address isOther =>
      agree address (List.mem_append_right _ isOther)
  copied heap seen before result after closed snap commits := by
    obtain ⟨given, middle, firstCommits, nextCommits⟩ := commits_bind.mp commits
    obtain ⟨middleSnap, firstGrows, firstInert, rfl⟩ := firstCopies.copied heap seen before
      given middle (fun address isItem => closed address (List.mem_append_left _ isItem))
      snap firstCommits
    obtain ⟨afterSnap, nextGrows, nextInert, rfl⟩ := (nextCopies _).copied heap
      (seen ++ items) middle result after
      (fun address isOther => closed address (List.mem_append_right _ isOther))
      middleSnap nextCommits
    rw [List.append_assoc] at afterSnap
    refine ⟨afterSnap, firstGrows.trans nextGrows, ?_, ?_⟩
    · intro item isItem
      obtain isFirst | isOther := List.mem_append.mp isItem
      · exact firstInert item isFirst
      · exact nextInert item isOther
    · congr 1
      refine firstCopies.congr _ _ fun address isItem => ?_
      exact (nextGrows.placeOf_eq ((middleSnap.found address).mpr
        (List.mem_append_right _ isItem))).symm
  commits heap seen before inert snap := by
    obtain ⟨given, middle, firstCommits⟩ := firstCopies.commits heap seen before
      (fun item isItem => inert item (List.mem_append_left _ isItem)) snap
    have closed : ∀ address, .object address ∈ items → address < heap.length := by
      intro address isItem
      obtain ⟨object, isObject, -⟩ := inert _ (List.mem_append_left _ isItem)
      exact (List.getElem?_eq_some_iff.mp isObject).1
    obtain ⟨middleSnap, -⟩ := firstCopies.copied heap seen before given middle closed snap
      firstCommits
    obtain ⟨result, after, nextCommits⟩ := (nextCopies given).commits heap (seen ++ items)
      middle (fun item isItem => inert item (List.mem_append_right _ isItem)) middleSnap
    exact ⟨result, after, commits_bind.mpr ⟨given, middle, firstCommits, nextCommits⟩⟩

theorem map
    {first : SnapshotStatements α} {items : List HeapValue} {view : (Nat → Nat) → α}
    (firstCopies : Copies first items view) (change : α → β) :
    Copies (first >>= fun given => Pure.pure (change given)) items
      (fun place => change (view place)) := by
  have composed := firstCopies.bind fun given => Copies.pure (change given)
  rwa [List.append_nil] at composed

theorem mapM
    {copy : γ → SnapshotStatements α} {valuesOf : γ → List HeapValue} {view : γ → (Nat → Nat) → α}
    (each : ∀ item, Copies (copy item) (valuesOf item) (view item)) (list : List γ) :
    Copies (list.mapM copy) (list.flatMap valuesOf)
      (fun place => list.map fun item => view item place) := by
  induction list with
  | nil => exact .pure []
  | cons item rest ih =>
    rw [List.mapM_cons]
    exact (each item).bind fun given => ih.map (given :: ·)

theorem foldlM
    {copy : α → γ → SnapshotStatements α} {valuesOf : γ → List HeapValue}
    {view : α → γ → (Nat → Nat) → α}
    (each : ∀ accumulator item,
      Copies (copy accumulator item) (valuesOf item) (view accumulator item))
    (list : List γ)
    (accumulator : α) :
    Copies (list.foldlM copy accumulator) (list.flatMap valuesOf)
      (fun place => list.foldl (fun built item => view built item place) accumulator) := by
  induction list generalizing accumulator with
  | nil => exact .pure accumulator
  | cons item rest ih =>
    rw [List.foldlM_cons]
    exact (each accumulator item).bind fun given => ih given

end Copies

/-! ## One copy -/

theorem getElem?_of_clones {heap clones : ObjectHeap} (inHeap : address < heap.length) :
    (heap ++ clones)[address]? = heap[address]? :=
  List.getElem?_append_left inHeap

/-- Clones do not make a value of the original heap inert or unsafe. -/
theorem inertValue_append
    {heap clones : ObjectHeap} {value : HeapValue}
    (closed : ∀ address, value = .object address → address < heap.length) :
    InertValue (heap ++ clones) value ↔ InertValue heap value := by
  cases value with
  | object address =>
    simp only [InertValue, getElem?_of_clones (closed address rfl)]
  | _ => exact Iff.rfl

theorem Snap.primitive
    {item : HeapValue} (snap : Snap heap seen state) (isPrimitive : item.address? = none) :
    Snap heap (seen ++ [item]) state := by
  have notObject : ∀ address, item ≠ .object address := by
    rintro address rfl
    simp [HeapValue.address?] at isPrimitive
  refine ⟨snap.clones, snap.memo, snap.placed, fun address => ?_,
    (foundIn_primitive isPrimitive).symm ▸ snap.order, fun address clone isClone => ?_⟩
  · rw [snap.found, List.mem_append, List.mem_singleton]
    exact ⟨.inl, fun either => either.resolve_right fun same => notObject address same.symm⟩
  · rw [snap.incoming address clone isClone, List.count_append,
      List.count_eq_zero_of_not_mem (a := .object address) (l := [item])]
    · rfl
    · rw [List.mem_singleton]
      exact fun same => notObject address same.symm

/-- One more edge into an object that was found before. -/
theorem Snap.prior
    {source prior : Nat} (snap : Snap heap seen state)
    (isPrior : state.memo.get source = some prior) :
    Snap heap (seen ++ [.object source])
      { state with incoming := bump state.incoming prior } := by
  have again : HeapValue.object source ∈ seen :=
    (snap.found source).mp ((OrderedMap.has_iff _ _).mpr ⟨prior, isPrior⟩)
  refine ⟨snap.clones, snap.memo, snap.placed, fun address => ?_,
    (foundIn_again again).symm ▸ snap.order, fun address clone isClone => ?_⟩
  · rw [snap.found, List.mem_append, List.mem_singleton]
    refine ⟨.inl, fun either => either.elim id ?_⟩
    rintro same
    obtain rfl := HeapValue.object.inj same
    exact again
  · rw [List.count_append, List.count_singleton, bump, OrderedMap.get_set]
    by_cases isSource : address = source
    · subst isSource
      obtain rfl : clone = prior := Option.some.inj (isClone.symm.trans isPrior)
      rw [if_pos rfl, snap.incoming address clone isClone]
      simp
    · have otherClone : clone ≠ prior := by
        rintro rfl
        exact isSource (snap.injective isClone isPrior)
      rw [if_neg otherClone, snap.incoming address clone isClone]
      simp [Ne.symm isSource]

theorem Snap.fresh
    {source : Nat} {object : HeapObject} (snap : Snap heap seen state)
    (isObject : state.heap[source]? = some object) (isFresh : state.memo.get source = none) :
    Snap heap (seen ++ [.object source]) (addClone source state) := by
  obtain ⟨clones, isHeap, isLength⟩ := snap.clones
  have heapLength : state.heap.length = heap.length + state.pending.length := by
    rw [isHeap, List.length_append, isLength]
  have unseen : HeapValue.object source ∉ seen := by
    rw [← snap.found, OrderedMap.has_iff, isFresh]
    simp
  refine ⟨⟨clones ++ [blankOf object], ?_, ?_⟩, ?_, ?_, fun address => ?_,
    ?_, fun address clone isClone => ?_⟩
  · rw [addClone, isObject, isHeap]
    simp
  · simp [addClone, isLength]
  · simp only [addClone]
    rw [OrderedMap.entries_set_of_none isFresh, snap.memo]
  · rw [addClone, List.map_append, snap.placed, List.length_append, List.length_singleton,
      List.range'_concat, heapLength]
    simp
  · rw [List.mem_append, List.mem_singleton, HeapValue.object.injEq, ← snap.found,
      OrderedMap.has, OrderedMap.has, addClone, OrderedMap.get_set]
    split <;> simp_all
  · rw [elements_foundIn_new unseen, ← snap.order, addClone, List.map_append]
    rfl
  · simp only [addClone] at isClone ⊢
    rw [OrderedMap.get_set] at isClone
    rw [List.count_append, List.count_singleton, OrderedMap.get_set]
    split at isClone
    · rename_i isSource
      subst isSource
      rw [if_pos (Option.some.inj isClone).symm, List.count_eq_zero_of_not_mem unseen]
      simp
    · rename_i isOther
      have earlier : clone ≠ state.heap.length := by
        have := (snap.place_ge isClone).2
        omega
      rw [if_neg earlier, snap.incoming address clone isClone]
      simp [Ne.symm isOther]

theorem commits_copyReference (source : Nat) (before : SnapshotState) :
    ∃ after, Commits (copyReference source) before
      (.object ((before.memo.get source).getD before.heap.length)) after := by
  cases isMemo : before.memo.get source with
  | some prior =>
    refine ⟨{ before with incoming := bump before.incoming prior },
      commits_bind.mpr ⟨before, before, commits_select.mpr ⟨rfl, rfl⟩, ?_⟩⟩
    simp only [isMemo]
    exact commits_bind.mpr ⟨(), _, commits_update.mpr rfl, commits_pure.mpr ⟨rfl, rfl⟩⟩
  | none =>
    refine ⟨addClone source before,
      commits_bind.mpr ⟨before, before, commits_select.mpr ⟨rfl, rfl⟩, ?_⟩⟩
    simp only [isMemo]
    exact commits_bind.mpr ⟨(), _, commits_update.mpr rfl, commits_pure.mpr ⟨rfl, rfl⟩⟩

theorem Snap.copyReference
    {before after : SnapshotState} {source : Nat} {object : HeapObject} {result : HeapValue}
    (snap : Snap heap seen before) (isObject : before.heap[source]? = some object)
    (commits : Commits (copyReference source) before result after) :
    Snap heap (seen ++ [.object source]) after ∧ Extends before after ∧
      result = .object (placeOf after.memo source) := by
  obtain ⟨_, _, selected, branch⟩ := commits_bind.mp commits
  obtain ⟨rfl, rfl⟩ := commits_select.mp selected
  cases isMemo : before.memo.get source with
  | some prior =>
    simp only [id, isMemo, commits_bind, commits_update, commits_pure] at branch
    obtain ⟨_, _, rfl, rfl, rfl⟩ := branch
    refine ⟨snap.prior isMemo, ⟨fun _ _ found => found, List.prefix_refl _,
      List.prefix_refl _, rfl, rfl, rfl⟩, ?_⟩
    simp [placeOf, isMemo]
  | none =>
    simp only [id, isMemo, commits_bind, commits_update, commits_pure] at branch
    obtain ⟨_, _, rfl, rfl, rfl⟩ := branch
    refine ⟨snap.fresh isObject isMemo, ⟨fun address clone found => ?_,
      List.prefix_append _ _, List.prefix_append _ _, rfl, rfl, rfl⟩, ?_⟩
    · refine (OrderedMap.get_set_of_ne _ ?_ _).trans found
      rintro rfl
      exact absurd (found.symm.trans isMemo) (by simp)
    · simp [placeOf, addClone]

theorem copies_copyValue (item : HeapValue) :
    Copies (copyValue false item) [item] (fun place => item.rename place) where
  congr place other agree :=
    HeapValue.rename_congr fun address isObject =>
      agree address (List.mem_singleton.mpr isObject.symm)
  copied heap seen before result after closed snap commits := by
    obtain ⟨clones, isHeap, -⟩ := snap.clones
    have itemClosed : ∀ address, item = .object address → address < heap.length :=
      fun address isObject => closed address (List.mem_singleton.mpr isObject.symm)
    simp only [copyValue, commits_bind, commits_select, commits_ofExcept] at commits
    obtain ⟨_, _, ⟨rfl, rfl⟩, container, _, ⟨accepted, rfl⟩, branch⟩ := commits
    obtain ⟨inert, rfl⟩ := mediaContainer_eq_ok_iff.mp accepted
    have inertHere : ∀ value ∈ [item], InertValue heap value := by
      intro value isItem
      obtain rfl := List.mem_singleton.mp isItem
      exact (inertValue_append itemClosed).mp (isHeap ▸ inert)
    cases isAddress : item.address? with
    | none =>
      rw [isAddress] at branch
      obtain ⟨rfl, rfl⟩ := commits_pure.mp branch
      exact ⟨snap.primitive isAddress, .refl _, inertHere,
        (HeapValue.rename_of_address?_none isAddress _).symm⟩
    | some source =>
      obtain rfl := HeapValue.address?_eq_some_iff.mp isAddress
      rw [isAddress] at branch
      obtain ⟨object, isObject, -⟩ := inert
      obtain ⟨afterSnap, grows, rfl⟩ := snap.copyReference isObject branch
      exact ⟨afterSnap, grows, inertHere, rfl⟩
  commits heap seen before inert snap := by
    obtain ⟨clones, isHeap, -⟩ := snap.clones
    have isInert := inert item List.mem_cons_self
    have closed : ∀ address, item = .object address → address < heap.length := by
      rintro address rfl
      obtain ⟨object, isObject, -⟩ := isInert
      exact (List.getElem?_eq_some_iff.mp isObject).1
    have accepted : mediaContainer item false before.heap = .ok item.address? :=
      mediaContainer_eq_ok_iff.mpr ⟨isHeap ▸ (inertValue_append closed).mpr isInert, rfl⟩
    cases isAddress : item.address? with
    | none =>
      exact ⟨item, before, commits_bind.mpr ⟨_, before, commits_select.mpr ⟨rfl, rfl⟩,
        commits_bind.mpr ⟨none, before,
          commits_ofExcept.mpr ⟨accepted.trans (by rw [isAddress]), rfl⟩,
          commits_pure.mpr ⟨rfl, rfl⟩⟩⟩⟩
    | some source =>
      obtain ⟨after, copies⟩ := commits_copyReference source before
      exact ⟨_, after, commits_bind.mpr ⟨_, before, commits_select.mpr ⟨rfl, rfl⟩,
        commits_bind.mpr ⟨some source, before,
          commits_ofExcept.mpr ⟨accepted.trans (by rw [isAddress]), rfl⟩, copies⟩⟩⟩

end Relavium.Shared
