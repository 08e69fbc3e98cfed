import Mathlib.Data.List.Nodup
import Mathlib.Algebra.Order.BigOperators.Group.List
import Mathlib.Algebra.Order.Group.Unbundled.Basic
import Mathlib.Algebra.Group.Basic
import Mathlib.Tactic.Abel
import Relavium.Library.Checks

/-!
# Insertion-ordered finite maps

A map whose entries are kept in the order in which their keys were first
inserted, each key occurring once.  Writing an existing key keeps its
position, deleting a key and writing it again moves it to the end.  This is
the iteration order of an ECMAScript `Map`.

Besides lookup, the module develops weighted totals over the entries: the
total of a map changes by exactly the weight of the entry that an operation
writes or removes.
-/

namespace Relavium.Library

/-- Entries in insertion order, with pairwise distinct keys. -/
structure OrderedMap (κ : Type u) (ν : Type v) where
  /-- The entries, first inserted first. -/
  entries : List (κ × ν)
  /-- No key occurs twice. -/
  nodupKeys : (entries.map Prod.fst).Nodup
  deriving DecidableEq

namespace OrderedMap

section Entries

variable [DecidableEq κ]

/-- The value stored under a key in an entry list. -/
def lookupEntry (key : κ) : List (κ × ν) → Option ν
  | [] => none
  | entry :: rest =>
    if entry.1 = key then some entry.2 else lookupEntry key rest

/-- Overwrite the entry of a key in place, or append a new one. -/
def setEntry (key : κ) (value : ν) : List (κ × ν) → List (κ × ν)
  | [] => [(key, value)]
  | entry :: rest =>
    if entry.1 = key then (key, value) :: rest
    else entry :: setEntry key value rest

theorem mem_keys_setEntry (key : κ) (value : ν) (entries : List (κ × ν)) (other : κ) :
    other ∈ (setEntry key value entries).map Prod.fst ↔
      other = key ∨ other ∈ entries.map Prod.fst := by
  induction entries with
  | nil => simp [setEntry]
  | cons entry rest ih =>
    by_cases same : entry.1 = key
    · simp [setEntry, same]
    · simp only [setEntry, same, if_false, List.map_cons, List.mem_cons, ih]
      tauto

variable
  {entries : List (κ × ν)}

theorem nodup_keys_setEntry (key : κ) (value : ν) (nodup : (entries.map Prod.fst).Nodup) :
    ((setEntry key value entries).map Prod.fst).Nodup := by
  induction entries with
  | nil => simp [setEntry]
  | cons entry rest ih =>
    rw [List.map_cons, List.nodup_cons] at nodup
    by_cases same : entry.1 = key
    · subst same
      simpa [setEntry] using nodup
    · simp only [setEntry, same, if_false, List.map_cons, List.nodup_cons]
      refine ⟨?_, ih nodup.2⟩
      rw [mem_keys_setEntry]
      rintro (equal | present)
      · exact same equal
      · exact nodup.1 present

theorem lookupEntry_setEntry (key other : κ) (value : ν) (entries : List (κ × ν)) :
    lookupEntry other (setEntry key value entries) =
      if other = key then some value else lookupEntry other entries := by
  induction entries with
  | nil =>
    by_cases equal : other = key
    · simp [setEntry, lookupEntry, equal]
    · simp [setEntry, lookupEntry, equal, Ne.symm equal]
  | cons entry rest ih =>
    by_cases same : entry.1 = key
    · by_cases equal : other = key
      · simp [setEntry, lookupEntry, same, equal]
      · simp [setEntry, lookupEntry, same, equal, Ne.symm equal]
    · by_cases found : entry.1 = other
      · have different : other ≠ key := fun equal => same (found.trans equal)
        simp [setEntry, lookupEntry, found, different]
      · simp [setEntry, lookupEntry, same, found, ih]

theorem setEntry_of_none {key : κ} (absent : lookupEntry key entries = none) (value : ν) :
    setEntry key value entries = entries ++ [(key, value)] := by
  induction entries with
  | nil => rfl
  | cons entry rest ih =>
    by_cases same : entry.1 = key
    · simp [lookupEntry, same] at absent
    · simp only [lookupEntry, same, if_false] at absent
      simp [setEntry, same, ih absent]

theorem map_setEntry_of_some
    {key : κ} {value old : ν} (found : lookupEntry key entries = some old) {view : κ × ν → ω}
    (unchanged : view (key, value) = view (key, old)) :
    (setEntry key value entries).map view = entries.map view := by
  induction entries with
  | nil => simp [lookupEntry] at found
  | cons entry rest ih =>
    by_cases same : entry.1 = key
    · obtain rfl : entry.2 = old := by simpa [lookupEntry, same] using found
      subst same
      simp [setEntry, unchanged]
    · simp only [lookupEntry, same, if_false] at found
      simp [setEntry, same, ih found]

theorem lookupEntry_filter (key other : κ) (entries : List (κ × ν)) :
    lookupEntry other (entries.filter fun entry => decide (entry.1 ≠ key)) =
      if other = key then none else lookupEntry other entries := by
  induction entries with
  | nil => simp [lookupEntry]
  | cons entry rest ih =>
    by_cases same : entry.1 = key
    · by_cases equal : other = key
      · simpa [lookupEntry, same, equal] using ih
      · simpa [lookupEntry, same, equal, Ne.symm equal] using ih
    · by_cases found : entry.1 = other
      · have different : other ≠ key := fun equal => same (found.trans equal)
        simp [lookupEntry, found, different]
      · simpa [lookupEntry, same, found] using ih

theorem lookupEntry_of_not_mem {key : κ} (absent : key ∉ entries.map Prod.fst) :
    lookupEntry key entries = none := by
  induction entries with
  | nil => rfl
  | cons entry rest ih =>
    rw [List.map_cons, List.mem_cons, not_or] at absent
    simp [lookupEntry, Ne.symm absent.1, ih absent.2]

theorem lookupEntry_filter_of_nodup
    (nodup : (entries.map Prod.fst).Nodup) (keep : κ × ν → Bool) (key : κ) :
    lookupEntry key (entries.filter keep) =
      (lookupEntry key entries).filter fun value => keep (key, value) := by
  induction entries with
  | nil => rfl
  | cons entry rest ih =>
    obtain ⟨first, value⟩ := entry
    rw [List.map_cons, List.nodup_cons] at nodup
    have tails := ih nodup.2
    by_cases same : first = key
    · subst same
      have absent := lookupEntry_of_not_mem nodup.1
      cases kept : keep (first, value) with
      | true => simp [lookupEntry, kept, Option.filter]
      | false => simp [lookupEntry, kept, tails, absent, Option.filter]
    · cases kept : keep (first, value) with
      | true | false => simpa [lookupEntry, kept, same] using tails

theorem lookupEntry_eq_some_iff (nodup : (entries.map Prod.fst).Nodup) (key : κ) (value : ν) :
    lookupEntry key entries = some value ↔ (key, value) ∈ entries := by
  induction entries with
  | nil => simp [lookupEntry]
  | cons entry rest ih =>
    rw [List.map_cons, List.nodup_cons] at nodup
    by_cases same : entry.1 = key
    · have absent : (key, value) ∉ rest := fun present =>
        nodup.1 (same ▸ List.mem_map_of_mem present)
      simp only [lookupEntry, same, if_true, Option.some.injEq, List.mem_cons, absent, or_false]
      exact ⟨fun equal => by rw [← same, ← equal],
        fun equal => (congrArg Prod.snd equal).symm⟩
    · simp only [lookupEntry, same, if_false, List.mem_cons, ih nodup.2]
      refine ⟨Or.inr, ?_⟩
      rintro (equal | present)
      · exact absurd (congrArg Prod.fst equal).symm same
      · exact present

theorem lookupEntry_map_values (change : κ → ν → ν) (key : κ) (entries : List (κ × ν)) :
    lookupEntry key (entries.map fun entry => (entry.1, change entry.1 entry.2)) =
      (lookupEntry key entries).map (change key) := by
  induction entries with
  | nil => rfl
  | cons entry rest ih =>
    by_cases same : entry.1 = key
    · simp [lookupEntry, same]
    · simp [lookupEntry, same, ih]

end Entries

/-- The map without entries. -/
def empty : OrderedMap κ ν where
  entries := []
  nodupKeys := List.nodup_nil

/-- The values in insertion order of their keys. -/
def values (map : OrderedMap κ ν) : List ν :=
  map.entries.map Prod.snd

/-- The keys in insertion order. -/
def keys (map : OrderedMap κ ν) : List κ :=
  map.entries.map Prod.fst

/-- Rewrite every value, keeping keys and order. -/
def mapValues (map : OrderedMap κ ν) (change : κ → ν → ν) : OrderedMap κ ν where
  entries := map.entries.map fun entry => (entry.1, change entry.1 entry.2)
  nodupKeys := by simpa [Function.comp_def] using map.nodupKeys

/-- Keep the entries that satisfy a condition. -/
def filter (map : OrderedMap κ ν) (keep : κ → ν → Bool) : OrderedMap κ ν where
  entries := map.entries.filter fun entry => keep entry.1 entry.2
  nodupKeys := map.nodupKeys.sublist (List.filter_sublist.map Prod.fst)

/-- Sum of the weights of the entries. -/
def total [AddCommGroup μ] (weight : κ → ν → μ) (map : OrderedMap κ ν) : μ :=
  (map.entries.map fun entry => weight entry.1 entry.2).sum

@[simp] theorem total_empty [AddCommGroup μ] (weight : κ → ν → μ) :
    (empty : OrderedMap κ ν).total weight = 0 := rfl

variable [DecidableEq κ]

/-- The value stored under a key. -/
def get (map : OrderedMap κ ν) (key : κ) : Option ν :=
  lookupEntry key map.entries

/-- Whether a key is present. -/
def has (map : OrderedMap κ ν) (key : κ) : Bool :=
  (map.get key).isSome

/-- Store a value under a key. -/
def set (map : OrderedMap κ ν) (key : κ) (value : ν) : OrderedMap κ ν where
  entries := setEntry key value map.entries
  nodupKeys := nodup_keys_setEntry key value map.nodupKeys

/-- Remove a key. -/
def delete (map : OrderedMap κ ν) (key : κ) : OrderedMap κ ν where
  entries := map.entries.filter fun entry => decide (entry.1 ≠ key)
  nodupKeys := map.nodupKeys.sublist (List.filter_sublist.map Prod.fst)

@[simp] theorem get_empty (key : κ) :
    (empty : OrderedMap κ ν).get key = none := rfl

/-- A set entry is found, and no other moved. -/
theorem get_set (map : OrderedMap κ ν) (key other : κ) (value : ν) :
    (map.set key value).get other =
      if other = key then some value else map.get other :=
  lookupEntry_setEntry key other value map.entries

@[simp] theorem get_set_self (map : OrderedMap κ ν) (key : κ) (value : ν) :
    (map.set key value).get key = some value := by
  simp [get_set]

theorem get_set_of_ne
    (map : OrderedMap κ ν) {key other : κ} (different : other ≠ key) (value : ν) :
    (map.set key value).get other = map.get other := by
  simp [get_set, different]

theorem get_delete (map : OrderedMap κ ν) (key other : κ) :
    (map.delete key).get other =
      if other = key then none else map.get other :=
  lookupEntry_filter key other map.entries

@[simp] theorem get_delete_self (map : OrderedMap κ ν) (key : κ) :
    (map.delete key).get key = none := by
  simp [get_delete]

theorem get_delete_of_ne (map : OrderedMap κ ν) {key other : κ} (different : other ≠ key) :
    (map.delete key).get other = map.get other := by
  simp [get_delete, different]

theorem get_filter (map : OrderedMap κ ν) (keep : κ → ν → Bool) (key : κ) :
    (map.filter keep).get key = (map.get key).filter (keep key) :=
  lookupEntry_filter_of_nodup map.nodupKeys _ key

@[simp] theorem get_mapValues (map : OrderedMap κ ν) (change : κ → ν → ν) (key : κ) :
    (map.mapValues change).get key = (map.get key).map (change key) :=
  lookupEntry_map_values change key map.entries

/-- The entries are the graph of the lookup function. -/
theorem mem_entries_iff (map : OrderedMap κ ν) (key : κ) (value : ν) :
    (key, value) ∈ map.entries ↔ map.get key = some value :=
  (lookupEntry_eq_some_iff map.nodupKeys key value).symm

theorem mem_values_iff (map : OrderedMap κ ν) (value : ν) :
    value ∈ map.values ↔ ∃ key, map.get key = some value := by
  simp only [values, List.mem_map, Prod.exists, mem_entries_iff, exists_eq_right]

theorem has_iff (map : OrderedMap κ ν) (key : κ) :
    map.has key = true ↔ ∃ value, map.get key = some value :=
  Option.isSome_iff_exists

theorem mem_keys_iff (map : OrderedMap κ ν) (key : κ) :
    key ∈ map.keys ↔ map.has key = true := by
  rw [has_iff, keys, List.mem_map]
  constructor
  · rintro ⟨⟨_, value⟩, isEntry, rfl⟩
    exact ⟨value, (map.mem_entries_iff _ _).mp isEntry⟩
  · rintro ⟨value, found⟩
    exact ⟨(key, value), (map.mem_entries_iff _ _).mpr found, rfl⟩

private theorem countP_entries
    (kind : ν → Bool) (key : κ) {entries : List (κ × ν)} (nodup : (entries.map Prod.fst).Nodup) :
    (entries.map Prod.snd).countP kind =
      ((entries.filter fun entry => decide (entry.1 ≠ key)).map Prod.snd).countP kind +
        if (lookupEntry key entries).any kind then 1 else 0 := by
  induction entries with
  | nil => rfl
  | cons entry rest ih =>
    rw [List.map_cons, List.nodup_cons] at nodup
    have counted := ih nodup.2
    by_cases same : entry.1 = key
    · have absent : lookupEntry key rest = none :=
        lookupEntry_of_not_mem (same ▸ nodup.1)
      rw [absent] at counted
      rw [List.filter_cons_of_neg (by simp [same]), List.map_cons, List.countP_cons,
        counted]
      simp [lookupEntry, same]
    · rw [List.filter_cons_of_pos (by simp [same]), List.map_cons, List.map_cons,
        List.countP_cons, List.countP_cons, counted]
      simp only [lookupEntry, same, if_false]
      omega

/-- The values of a kind, counted with one key apart. -/
theorem countP_values (kind : ν → Bool) (map : OrderedMap κ ν) (key : κ) :
    map.values.countP kind =
      (map.delete key).values.countP kind + if (map.get key).any kind then 1 else 0 :=
  countP_entries kind key map.nodupKeys

variable
  {items : List ι}
  {key : κ}

/-- Storing values under other keys keeps what is stored under a key. -/
theorem get_foldl_set_of_not_mem
    (keyOf : ι → κ) (valueOf : ι → ν) (absent : ∀ item ∈ items, keyOf item ≠ key)
    (map : OrderedMap κ ν) :
    (items.foldl (fun map item => map.set (keyOf item) (valueOf item)) map).get key =
      map.get key := by
  induction items generalizing map with
  | nil => rfl
  | cons item rest ih =>
    rw [List.forall_mem_cons] at absent
    rw [List.foldl_cons, ih absent.2, get_set_of_ne map absent.1.symm]

variable
  {item : ι}

/-- Values stored under distinct keys are each found under their key. -/
theorem get_foldl_set_of_mem
    (keyOf : ι → κ) (valueOf : ι → ν) (distinct : (items.map keyOf).Nodup)
    (present : item ∈ items) (map : OrderedMap κ ν) :
    (items.foldl (fun map item => map.set (keyOf item) (valueOf item)) map).get (keyOf item) =
      some (valueOf item) := by
  induction items generalizing map with
  | nil => simp at present
  | cons head rest ih =>
    rw [List.map_cons, List.nodup_cons] at distinct
    obtain rfl | later := List.mem_cons.mp present
    · have absent : ∀ other ∈ rest, keyOf other ≠ keyOf item :=
        fun other listed same =>
          distinct.1 (same ▸ List.mem_map_of_mem listed)
      rw [List.foldl_cons, get_foldl_set_of_not_mem keyOf valueOf absent, get_set_self]
    · rw [List.foldl_cons]
      exact ih distinct.2 later _

variable
  {map : OrderedMap κ ν}

theorem entries_set_of_none (absent : map.get key = none) (value : ν) :
    (map.set key value).entries = map.entries ++ [(key, value)] :=
  setEntry_of_none absent value

/-- A view of the entries that an overwrite does not touch stays the same. -/
theorem map_entries_set_of_some
    {value old : ν} (found : map.get key = some old) {view : κ × ν → ω}
    (unchanged : view (key, value) = view (key, old)) :
    (map.set key value).entries.map view = map.entries.map view :=
  map_setEntry_of_some found unchanged

omit [DecidableEq κ] in
theorem eq_of_entries {left right : OrderedMap κ ν} (same : left.entries = right.entries) :
    left = right := by
  cases left
  cases right
  cases same
  rfl

/-- Storing entries with distinct new keys appends them. -/
theorem entries_foldl_set
    {items : List (κ × ν)} (distinct : ((map.entries ++ items).map Prod.fst).Nodup) :
    (items.foldl (fun map item => map.set item.1 item.2) map).entries =
      map.entries ++ items := by
  induction items generalizing map with
  | nil => exact (List.append_nil _).symm
  | cons item rest ih =>
    have absent : map.get item.1 = none := by
      cases found : map.get item.1 with
      | none => rfl
      | some value =>
        have listed := List.mem_map_of_mem (f := Prod.fst)
          ((mem_entries_iff map item.1 value).mpr found)
        rw [List.map_append, List.nodup_append] at distinct
        exact absurd rfl (distinct.2.2 _ listed _ List.mem_cons_self)
    have entries := entries_set_of_none absent item.2
    rw [List.foldl_cons, ih, entries, List.append_assoc]
    · rfl
    · rw [entries, List.append_assoc]
      exact distinct

/-- Storing entries with distinct keys into the empty map. -/
theorem entries_foldl_set_empty {items : List (κ × ν)} (distinct : (items.map Prod.fst).Nodup) :
    (items.foldl (fun map item => map.set item.1 item.2) empty).entries = items :=
  entries_foldl_set distinct

/-! ## Filling a map by computations that may fail -/

/-- Store what is computed of every item under its key. -/
def fill (keyOf : ι → κ) (compute : ι → Except ε ν) (items : List ι)
    (map : OrderedMap κ ν) : Except ε (OrderedMap κ ν) :=
  items.foldlM (fun map item => (compute item).map (map.set (keyOf item))) map

variable
  {keyOf : ι → κ}
  {compute : ι → Except ε ν}

variable {map filled : OrderedMap κ ν}

theorem fill_cons_eq_ok {rest : List ι} :
    fill keyOf compute (item :: rest) map = .ok filled ↔
      ∃ value, compute item = .ok value ∧
        fill keyOf compute rest (map.set (keyOf item) value) = .ok filled := by
  unfold fill
  rw [List.foldlM_cons, bind_eq_ok]
  cases computed : compute item with
  | error refusal | ok value => simp [Except.map]

/-- A map whose values all compute is filled. -/
theorem fill_of_forall
    (computes : ∀ item ∈ items, ∃ value, compute item = .ok value) (map : OrderedMap κ ν) :
    ∃ filled, fill keyOf compute items map = .ok filled := by
  induction items generalizing map with
  | nil => exact ⟨map, rfl⟩
  | cons item rest ih =>
    obtain ⟨value, computed⟩ := computes item List.mem_cons_self
    obtain ⟨filled, filledRest⟩ := ih
      (fun other member => computes other (List.mem_cons_of_mem item member))
      (map.set (keyOf item) value)
    exact ⟨filled, fill_cons_eq_ok.mpr ⟨value, computed, filledRest⟩⟩

theorem computed_of_fill
    (fills : fill keyOf compute items map = .ok filled) (member : item ∈ items) :
    ∃ value, compute item = .ok value := by
  induction items generalizing map with
  | nil => cases member
  | cons head rest ih =>
    obtain ⟨value, computed, fillsRest⟩ := fill_cons_eq_ok.mp fills
    obtain rfl | later := List.mem_cons.mp member
    · exact ⟨value, computed⟩
    · exact ih fillsRest later

/-- A value found after a fill was computed or was there. -/
theorem origin_of_fill
    (fills : fill keyOf compute items map = .ok filled) {value : ν}
    (found : filled.get key = some value) :
    (∃ item ∈ items, keyOf item = key ∧ compute item = .ok value) ∨
      map.get key = some value := by
  induction items generalizing map with
  | nil =>
    obtain rfl : map = filled := by simpa [fill] using fills
    exact .inr found
  | cons item rest ih =>
    obtain ⟨given, computed, fillsRest⟩ := fill_cons_eq_ok.mp fills
    obtain ⟨other, member, atKey, gives⟩ | before := ih fillsRest
    · exact .inl ⟨other, List.mem_cons_of_mem item member, atKey, gives⟩
    · rw [get_set] at before
      split at before
      · rename_i same
        cases before
        exact .inl ⟨item, List.mem_cons_self, same.symm, computed⟩
      · exact .inr before

/-- A filled map holds something under every key of an item. -/
theorem has_of_fill
    (fills : fill keyOf compute items map = .ok filled)
    (listed : (∃ item ∈ items, keyOf item = key) ∨ map.has key = true) :
    filled.has key = true := by
  induction items generalizing map with
  | nil =>
    obtain rfl : map = filled := by simpa [fill] using fills
    obtain ⟨item, member, -⟩ | before := listed
    · cases member
    · exact before
  | cons item rest ih =>
    obtain ⟨given, computed, fillsRest⟩ := fill_cons_eq_ok.mp fills
    refine ih fillsRest ?_
    obtain ⟨other, member, atKey⟩ | before := listed
    · obtain rfl | later := List.mem_cons.mp member
      · exact .inr ((has_iff _ _).mpr ⟨given, by rw [← atKey, get_set_self]⟩)
      · exact .inl ⟨other, later, atKey⟩
    · refine .inr ((has_iff _ _).mpr ?_)
      obtain ⟨value, found⟩ := (has_iff _ _).mp before
      rw [get_set]
      split
      · exact ⟨given, rfl⟩
      · exact ⟨value, found⟩

/-- What is computed of an item is found under its key, when all items of that key
give the same. -/
theorem get_of_fill
    {filled : OrderedMap κ ν} (fills : fill keyOf compute items .empty = .ok filled) {value : ν}
    (member : item ∈ items) (computed : compute item = .ok value)
    (consistent : ∀ other ∈ items, keyOf other = keyOf item →
      compute other = compute item) :
    filled.get (keyOf item) = some value := by
  obtain ⟨found, there⟩ :=
    (has_iff _ _).mp (has_of_fill fills (.inl ⟨item, member, rfl⟩))
  obtain ⟨other, listed, atKey, gives⟩ | before := origin_of_fill fills there
  · rw [consistent other listed atKey, computed] at gives
    rw [there, Except.ok.inj gives]
  · cases before

/-! ## Weighted totals -/

section Total

variable [AddCommGroup μ]

/-- Weight of the entry of one key, zero when the key is absent. -/
def weightAt (weight : κ → ν → μ) (map : OrderedMap κ ν) (key : κ) : μ :=
  match map.get key with
  | none => 0
  | some value => weight key value

variable
  {map : OrderedMap κ ν}

theorem weightAt_of_none {key : κ} (absent : map.get key = none) (weight : κ → ν → μ) :
    map.weightAt weight key = 0 := by
  simp [weightAt, absent]

theorem weightAt_of_some
    {key : κ} {value : ν} (present : map.get key = some value) (weight : κ → ν → μ) :
    map.weightAt weight key = weight key value := by
  simp [weightAt, present]

private theorem sum_setEntry (weight : κ → ν → μ) (key : κ) (value : ν) (entries : List (κ × ν)) :
    ((setEntry key value entries).map fun entry => weight entry.1 entry.2).sum =
      (entries.map fun entry => weight entry.1 entry.2).sum -
        (match lookupEntry key entries with
          | none => 0
          | some old => weight key old) + weight key value := by
  induction entries with
  | nil => simp [setEntry, lookupEntry]
  | cons entry rest ih =>
    by_cases same : entry.1 = key
    · simp only [setEntry, lookupEntry, same, if_true, List.map_cons, List.sum_cons]
      abel
    · simp only [setEntry, lookupEntry, same, if_false, List.map_cons, List.sum_cons, ih]
      abel

private theorem sum_filter
    (weight : κ → ν → μ) (key : κ) {entries : List (κ × ν)}
    (nodup : (entries.map Prod.fst).Nodup) :
    ((entries.filter fun entry => decide (entry.1 ≠ key)).map
        fun entry => weight entry.1 entry.2).sum =
      (entries.map fun entry => weight entry.1 entry.2).sum -
        (match lookupEntry key entries with
          | none => 0
          | some old => weight key old) := by
  induction entries with
  | nil => simp [lookupEntry]
  | cons entry rest ih =>
    rw [List.map_cons, List.nodup_cons] at nodup
    by_cases same : entry.1 = key
    · have absent : ∀ other ∈ rest, other.1 ≠ key := fun other present equal =>
        nodup.1 (same ▸ equal ▸ List.mem_map_of_mem present)
      have unchanged :
          (rest.filter fun entry => decide (entry.1 ≠ key)) = rest :=
        List.filter_eq_self.mpr fun other present => by
          simpa using absent other present
      rw [List.filter_cons_of_neg (by simp [same]), unchanged]
      simp only [lookupEntry, same, if_true, List.map_cons, List.sum_cons]
      abel
    · rw [List.filter_cons_of_pos (by simp [same])]
      simp only [lookupEntry, same, if_false, List.map_cons, List.sum_cons, ih nodup.2]
      abel

/-- Writing a key replaces the weight of its old entry by that of the new. -/
theorem total_set (weight : κ → ν → μ) (map : OrderedMap κ ν) (key : κ) (value : ν) :
    (map.set key value).total weight =
      map.total weight - map.weightAt weight key + weight key value :=
  sum_setEntry weight key value map.entries

/-- Deleting a key removes the weight of its entry. -/
theorem total_delete (weight : κ → ν → μ) (map : OrderedMap κ ν) (key : κ) :
    (map.delete key).total weight =
      map.total weight - map.weightAt weight key :=
  sum_filter weight key map.nodupKeys

/-- A new entry adds its weight to the total. -/
theorem total_set_of_none
    (weight : κ → ν → μ) {key : κ} (absent : map.get key = none) (value : ν) :
    (map.set key value).total weight =
      map.total weight + weight key value := by
  rw [total_set, weightAt_of_none absent, sub_zero]

omit [DecidableEq κ] in
/-- Changing every value changes the weights that are added up. -/
theorem total_mapValues (weight : κ → ν → μ) (map : OrderedMap κ ν) (change : κ → ν → ν) :
    (map.mapValues change).total weight =
      map.total fun key value => weight key (change key value) := by
  simp only [total, mapValues, List.map_map]
  rfl

theorem total_congr {weight weight' : κ → ν → μ}
    (agree : ∀ key value, map.get key = some value →
      weight key value = weight' key value) :
    map.total weight = map.total weight' := by
  unfold total
  refine congrArg List.sum (List.map_congr_left ?_)
  rintro ⟨key, value⟩ member
  exact agree key value ((map.mem_entries_iff key value).mp member)

variable
  {weight : κ → ν → μ}

/-- A total of weights that are not negative on the entries is not negative. -/
theorem total_nonneg
    [PartialOrder μ] [IsOrderedAddMonoid μ]
    (nonneg : ∀ key value, map.get key = some value → 0 ≤ weight key value) :
    0 ≤ map.total weight := by
  unfold total
  refine List.sum_nonneg ?_
  intro summand member
  obtain ⟨⟨key, value⟩, present, rfl⟩ := List.mem_map.mp member
  exact nonneg key value ((map.mem_entries_iff key value).mp present)

/-- No entry weighs more than all together. -/
theorem weight_le_total
    [PartialOrder μ] [IsOrderedAddMonoid μ]
    (nonneg : ∀ key value, map.get key = some value → 0 ≤ weight key value) {key : κ} {value : ν}
    (present : map.get key = some value) :
    weight key value ≤ map.total weight := by
  have rest : 0 ≤ (map.delete key).total weight := by
    refine total_nonneg ?_
    intro other otherValue isOther
    rw [get_delete] at isOther
    split at isOther
    · simp at isOther
    · exact nonneg other otherValue isOther
  rw [total_delete, weightAt_of_some present] at rest
  exact sub_nonneg.mp rest

theorem total_eq_zero (vanish : ∀ key value, map.get key = some value → weight key value = 0) :
    map.total weight = 0 := by
  rw [total_congr vanish]
  simp [total]

end Total

end OrderedMap

end Relavium.Library
