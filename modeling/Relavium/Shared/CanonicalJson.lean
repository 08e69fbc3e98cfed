import Relavium.Library.Checks
import Relavium.Library.JsonRoundTrip

/-!
# The canonical form of a value

Object keys are sorted at every depth by UTF-16 code unit and there is no
insignificant white space.  A value without a faithful JSON form is refused, as
is nesting beyond a fixed depth.  On JSON values the form is injective up to the
order of keys, and parsing it gives the value back.
-/

namespace Relavium.Shared

open Library
open JsonParse (joinTexts memberText)

/-- The refusal of a value that has no canonical form. -/
structure NonCanonicalValueError where
  message : String

/-- The nesting ceiling. -/
def maxCanonicalDepth : Nat := 64

/-- Whether a text contains a surrogate that is not part of a pair. -/
def hasLoneSurrogate : JsString → Bool
  | [] => false
  | unit :: rest =>
    if unit.toNat < 0xD800 ∨ 0xDFFF < unit.toNat then hasLoneSurrogate rest
    else if 0xDC00 ≤ unit.toNat then true
    else
      match rest with
      -- past the end of the text the next unit reads as 0
      | [] => true
      | next :: later =>
        if next.toNat < 0xDC00 ∨ 0xDFFF < next.toNat then true
        else hasLoneSurrogate later

/-- Compare two keys by UTF-16 code unit. -/
def compareCodeUnits (left right : JsString) : Int :=
  if left < right then -1
  else if left > right then 1
  else 0

/-- Whether an entry may stand before another. -/
def entryLe (left right : JsString × ν) : Bool :=
  decide (compareCodeUnits left.1 right.1 ≤ 0)

/-- The entries of an object, sorted by key. -/
def sortEntries (entries : List (JsString × ν)) : List (JsString × ν) :=
  entries.mergeSort entryLe

/-- The text of a property, with the given form of its value. -/
def canonicalProperty
    (canonical : JsValue → Except NonCanonicalValueError JsString)
    (property : JsString × JsValue) :
    Except NonCanonicalValueError JsString :=
  match property.2 with
  | .undefined =>
    .error ⟨"an `undefined` property has no canonical form"⟩
  | value =>
    if hasLoneSurrogate property.1 then
      .error ⟨"a lone surrogate in a key has no canonical form"⟩
    else
      (canonical value).map fun text => memberText (property.1, text)

/-- The canonical form with the given number of levels left. -/
def canonicalJsonWithin :
    Nat → JsValue → Except NonCanonicalValueError JsString
  | 0, _ =>
    .error ⟨"the value is nested deeper than the canonical form allows"⟩
  | levels + 1, value =>
    match value with
    | .number .notANumber | .number (.infinity _) =>
      .error ⟨"a non-finite number has no canonical form"⟩
    | .number (.finite number) => .ok number.toText
    | .string text =>
      if hasLoneSurrogate text then
        .error ⟨"a lone surrogate has no canonical form"⟩
      else .ok (JsonString.quote text)
    | .undefined | .null => .ok [0x6E, 0x75, 0x6C, 0x6C]
    | .boolean true => .ok [0x74, 0x72, 0x75, 0x65]
    | .boolean false => .ok [0x66, 0x61, 0x6C, 0x73, 0x65]
    | .array items =>
      (items.mapM (canonicalJsonWithin levels)).map fun texts =>
        0x5B :: (joinTexts texts ++ [0x5D])
    | .exotic => .error ⟨"only a plain object has a canonical form"⟩
    | .object properties =>
      ((sortEntries properties).mapM
        (canonicalProperty (canonicalJsonWithin levels))).map fun texts =>
          0x7B :: (joinTexts texts ++ [0x7D])

/-- Deterministic JSON, with object keys sorted at every depth. -/
def canonicalJson (value : JsValue) : Except NonCanonicalValueError JsString :=
  canonicalJsonWithin (maxCanonicalDepth + 1) value

section Surrogates

theorem hasLoneSurrogate_of_wellFormed {text : JsString} (wellFormed : WellFormedUtf16 text) :
    hasLoneSurrogate text = false := by
  induction wellFormed with
  | nil => rfl
  | @unit unit rest plain _ ih =>
    have outside : unit.toNat < 0xD800 ∨ 0xDFFF < unit.toNat := by
      simp only [isSurrogate, decide_eq_false_iff_not] at plain
      omega
    rw [hasLoneSurrogate.eq_def]
    simpa only [outside, if_true] using ih
  | @pair lead trail rest leads trails _ ih =>
    have leadRange := of_decide_eq_true leads
    have trailRange := of_decide_eq_true trails
    have surrogate : ¬(lead.toNat < 0xD800 ∨ 0xDFFF < lead.toNat) := by omega
    have leading : ¬0xDC00 ≤ lead.toNat := by omega
    have trailing : ¬(trail.toNat < 0xDC00 ∨ 0xDFFF < trail.toNat) := by omega
    rw [hasLoneSurrogate.eq_def]
    simpa only [surrogate, leading, trailing, if_false] using ih

end Surrogates

section Sorting

theorem compareCodeUnits_le_iff (left right : JsString) :
    compareCodeUnits left right ≤ 0 ↔ left ≤ right := by
  unfold compareCodeUnits
  by_cases before : left < right
  · simp [before, List.le_of_lt before]
  · by_cases after : right < left
    · simp [before, after, List.not_le.mpr after]
    · simp [before, after, List.not_lt.mp after]

theorem sortEntries_perm (entries : List (JsString × ν)) :
    (sortEntries entries).Perm entries :=
  List.mergeSort_perm entries _

theorem mem_sortEntries {entries : List (JsString × ν)} {entry : JsString × ν} :
    entry ∈ sortEntries entries ↔ entry ∈ entries :=
  (sortEntries_perm entries).mem_iff

theorem entryLe_iff (left right : JsString × ν) :
    entryLe left right = true ↔ left.1 ≤ right.1 := by
  rw [entryLe, decide_eq_true_eq, compareCodeUnits_le_iff]

theorem entryLe_trans
    (first second third : JsString × ν) (firstLe : entryLe first second = true)
    (secondLe : entryLe second third = true) :
    entryLe first third = true := by
  rw [entryLe_iff] at *
  exact List.le_trans firstLe secondLe

theorem entryLe_total (left right : JsString × ν) :
    (entryLe left right || entryLe right left) = true := by
  rw [Bool.or_eq_true, entryLe_iff, entryLe_iff]
  exact List.le_total left.1 right.1

theorem sortEntries_pairwise (entries : List (JsString × ν)) :
    (sortEntries entries).Pairwise fun left right => left.1 ≤ right.1 := by
  have sorted := List.pairwise_mergeSort entryLe_trans entryLe_total entries
  exact sorted.imp fun below => (entryLe_iff _ _).mp below

/-- Changing the values does not change the order of the entries. -/
theorem map_sortEntries
    (change : JsString × ν → JsString × ω) (sameKey : ∀ entry, (change entry).1 = entry.1)
    (entries : List (JsString × ν)) :
    (sortEntries entries).map change = sortEntries (entries.map change) := by
  refine List.map_mergeSort fun left _ right _ => ?_
  rw [entryLe, entryLe, sameKey, sameKey]

theorem entry_eq_of_key
    {entries : List (JsString × ν)} (distinct : (entries.map Prod.fst).Nodup)
    {left right : JsString × ν} (leftMember : left ∈ entries) (rightMember : right ∈ entries)
    (sameKey : left.1 = right.1) :
    left = right :=
  List.inj_on_of_nodup_map distinct leftMember rightMember sameKey

/-- Entries with distinct keys are sorted alike in whichever order they come. -/
theorem sortEntries_congr
    {left right : List (JsString × ν)} (same : left.Perm right)
    (distinct : (left.map Prod.fst).Nodup) :
    sortEntries left = sortEntries right := by
  refine List.Perm.eq_of_pairwise ?_ (sortEntries_pairwise left) (sortEntries_pairwise right) ?_
  · intro first second firstMember secondMember firstLe secondLe
    have firstIn := mem_sortEntries.mp firstMember
    have secondIn := same.mem_iff.mpr (mem_sortEntries.mp secondMember)
    exact entry_eq_of_key distinct firstIn secondIn (List.le_antisymm firstLe secondLe)
  · exact (sortEntries_perm left).trans (same.trans (sortEntries_perm right).symm)

end Sorting

section NormalForm

mutual

/-- The value with the keys of its objects sorted at every depth. -/
def sortKeys : JsValue → JsValue
  | .array items => .array (sortKeysOfItems items)
  | .object properties => .object (sortEntries (sortKeysOfValues properties))
  | .undefined => .undefined
  | .null => .null
  | .boolean value => .boolean value
  | .number value => .number value
  | .string value => .string value
  | .exotic => .exotic

def sortKeysOfItems : List JsValue → List JsValue
  | [] => []
  | item :: rest => sortKeys item :: sortKeysOfItems rest

def sortKeysOfValues :
    List (JsString × JsValue) → List (JsString × JsValue)
  | [] => []
  | property :: rest =>
    (property.1, sortKeys property.2) :: sortKeysOfValues rest

end

/-- Sort the keys inside the value of a property. -/
def sortKeysOfProperty (property : JsString × JsValue) : JsString × JsValue :=
  (property.1, sortKeys property.2)

theorem sortKeysOfItems_eq_map (items : List JsValue) :
    sortKeysOfItems items = items.map sortKeys := by
  induction items with
  | nil => rfl
  | cons item rest ih =>
    rw [sortKeysOfItems, ih, List.map_cons]

theorem sortKeysOfValues_eq_map (properties : List (JsString × JsValue)) :
    sortKeysOfValues properties = properties.map sortKeysOfProperty := by
  induction properties with
  | nil => rfl
  | cons property rest ih =>
    rw [sortKeysOfValues, ih, List.map_cons]
    rfl

theorem sortKeys_array (items : List JsValue) :
    sortKeys (.array items) = .array (items.map sortKeys) := by
  rw [sortKeys, sortKeysOfItems_eq_map]

theorem sortKeys_object (properties : List (JsString × JsValue)) :
    sortKeys (.object properties) =
      .object ((sortEntries properties).map sortKeysOfProperty) := by
  rw [sortKeys, sortKeysOfValues_eq_map, map_sortEntries sortKeysOfProperty fun _ => rfl]

/-- Two lists with equal images are related item by item. -/
theorem zip_of_map_eq
    {change : α → β} {left right : List α} (same : left.map change = right.map change) :
    left.length = right.length ∧
      ∀ pair ∈ left.zip right, change pair.1 = change pair.2 := by
  induction left generalizing right with
  | nil =>
    cases right with
    | nil => simp
    | cons => cases same
  | cons head rest ih =>
    cases right with
    | nil => cases same
    | cons other others =>
      obtain ⟨heads, rests⟩ := List.cons.inj same
      obtain ⟨lengths, pairs⟩ := ih rests
      refine ⟨congrArg (· + 1) lengths, fun pair member => ?_⟩
      obtain rfl | later := List.mem_cons.mp member
      · exact heads
      · exact pairs pair later

/-- Values with the same normal form are equal up to the order of keys. -/
theorem eqUpToKeyOrder_of_sortKeys
    {left right : JsValue} (same : sortKeys left = sortKeys right) :
    JsValue.EqUpToKeyOrder left right := by
  induction measured : left.depth using Nat.strongRecOn
    generalizing left right with
  | _ bound ih =>
    subst measured
    cases left with
    | array items =>
      cases right with
      | array others =>
        rw [sortKeys_array, sortKeys_array, JsValue.array.injEq] at same
        obtain ⟨lengths, pairs⟩ := zip_of_map_eq same
        refine .array lengths fun pair member => ?_
        have inside := (List.of_mem_zip member).1
        exact ih _ (JsValue.depth_lt_depthOfItems inside) (pairs pair member) rfl
      | _ => simp [sortKeys] at same
    | object properties =>
      cases right with
      | object others =>
        rw [sortKeys_object, sortKeys_object, JsValue.object.injEq] at same
        obtain ⟨_, pairs⟩ := zip_of_map_eq same
        refine .object (sortEntries_perm properties)
          (sortEntries_perm others) ?_ fun pair member => ?_
        · have keys := congrArg (List.map Prod.fst) same
          rw [List.map_map, List.map_map] at keys
          exact keys
        · have inside :=
            mem_sortEntries.mp (List.of_mem_zip member).1
          exact ih _ (JsValue.depth_lt_depthOfProperties inside)
            (congrArg Prod.snd (pairs pair member)) rfl
      | _ => simp [sortKeys] at same
    | _ =>
      cases right with
      | array | object => simp [sortKeys] at same
      | _ =>
        cases same <;> exact .refl _

theorem zip_map_self
    {change : α → β} {list : List α} {pair : α × β} (member : pair ∈ list.zip (list.map change)) :
    pair.1 ∈ list ∧ pair.2 = change pair.1 := by
  refine ⟨(List.of_mem_zip member).1, ?_⟩
  induction list with
  | nil => cases member
  | cons head rest ih =>
    obtain rfl | later := List.mem_cons.mp member
    · rfl
    · exact ih later

/-- A value is equal to its normal form up to the order of keys. -/
theorem eqUpToKeyOrder_sortKeys (value : JsValue) :
    JsValue.EqUpToKeyOrder value (sortKeys value) := by
  induction measured : value.depth using Nat.strongRecOn generalizing value with
  | _ bound ih =>
    subst measured
    cases value with
    | array items =>
      rw [sortKeys_array]
      refine .array (List.length_map _).symm fun pair member => ?_
      obtain ⟨inside, image⟩ := zip_map_self member
      rw [image]
      exact ih _ (JsValue.depth_lt_depthOfItems inside) _ rfl
    | object properties =>
      rw [sortKeys_object]
      refine .object (sortEntries_perm properties) (List.Perm.refl _) ?_ fun pair member => ?_
      · rw [List.map_map]
        rfl
      · obtain ⟨sorted, image⟩ := zip_map_self member
        have inside := mem_sortEntries.mp sorted
        rw [image]
        exact ih _ (JsValue.depth_lt_depthOfProperties inside) _ rfl
    | _ => exact .refl _

end NormalForm

section RoundTrip

theorem canonicalProperty_of_isJson
    (canonical : JsValue → Except NonCanonicalValueError JsString) {property : JsString × JsValue}
    (json : property.2.IsJson) :
    canonicalProperty canonical property =
      if hasLoneSurrogate property.1 then
        .error ⟨"a lone surrogate in a key has no canonical form"⟩
      else
        (canonical property.2).map fun text => memberText (property.1, text) := by
  obtain ⟨key, value⟩ := property
  cases json <;> rfl

theorem canonicalProperty_reads
    {canonical : JsValue → Except NonCanonicalValueError JsString} {property : JsString × JsValue}
    (keyWellFormed : WellFormedUtf16 property.1) (json : property.2.IsJson) {text : JsString}
    (value : canonical property.2 = .ok text)
    (reads : JsonParse.Reads text (sortKeys property.2)) :
    canonicalProperty canonical property =
        .ok (memberText (property.1, text)) ∧
      JsonParse.MemberReads (property.1, text)
        (sortKeysOfProperty property) := by
  refine ⟨?_, rfl, reads⟩
  have noneAlone := hasLoneSurrogate_of_wellFormed keyWellFormed
  rw [canonicalProperty_of_isJson canonical json, noneAlone, value]
  rfl

theorem canonicalJsonWithin_reads
    (levels : Nat) {value : JsValue} (json : value.IsJson) (shallow : value.depth < levels) :
    ∃ text,
      canonicalJsonWithin levels value = .ok text ∧
      JsonParse.Reads text (sortKeys value) := by
  induction levels generalizing value with
  | zero => exact absurd shallow (Nat.not_lt_zero _)
  | succ levels ih =>
    cases json with
    | null =>
      refine ⟨_, rfl, JsonParse.reads_keyword ?_⟩
      simp [JsonParse.keywords, sortKeys]
    | boolean value =>
      cases value with
      | true | false =>
        refine ⟨_, rfl, JsonParse.reads_keyword ?_⟩
        simp [JsonParse.keywords, sortKeys]
    | number notNegativeZero =>
      exact ⟨_, rfl, JsonParse.reads_number notNegativeZero⟩
    | string wellFormed =>
      refine ⟨_, ?_, JsonParse.reads_quote _⟩
      rw [canonicalJsonWithin]
      simp only [hasLoneSurrogate_of_wellFormed wellFormed, Bool.false_eq_true, if_false]
    | @array items itemsJson =>
      obtain ⟨texts, mapped, reads⟩ :=
        @mapM_eq_ok_of_forall _ _ _ _ (canonicalJsonWithin levels) id
          (fun text item => JsonParse.Reads text (sortKeys item)) items
          fun item member => by
            have below := JsValue.depth_lt_depthOfItems member
            rw [JsValue.depth] at shallow
            exact ih (itemsJson item member) (by omega)
      rw [List.map_id] at mapped
      refine ⟨_, by rw [canonicalJsonWithin, mapped]; rfl, ?_⟩
      rw [sortKeys_array]
      exact JsonParse.reads_array (List.forall₂_map_right_iff.mpr reads)
    | @object properties distinct keysWellFormed valuesJson =>
      obtain ⟨members, mapped, reads⟩ :=
        @mapM_eq_ok_of_forall _ _ _ _ (canonicalProperty (canonicalJsonWithin levels)) memberText
          (fun member property =>
            JsonParse.MemberReads member (sortKeysOfProperty property))
          (sortEntries properties)
          fun property sorted => by
            have member := mem_sortEntries.mp sorted
            have below := JsValue.depth_lt_depthOfProperties member
            rw [JsValue.depth] at shallow
            obtain ⟨text, form, textReads⟩ :=
              ih (valuesJson property member) (by omega)
            exact ⟨(property.1, text),
              canonicalProperty_reads (keysWellFormed property member)
                (valuesJson property member) form textReads⟩
      refine ⟨_, by rw [canonicalJsonWithin, mapped]; rfl, ?_⟩
      rw [sortKeys_object]
      apply JsonParse.reads_object (List.forall₂_map_right_iff.mpr reads)
      rw [List.map_map]
      exact ((sortEntries_perm properties).map Prod.fst).nodup_iff.mpr distinct

end RoundTrip

section KeyOrder

theorem map_eq_of_zip
    {change : α → β} {left right : List α} (lengths : left.length = right.length)
    (pairs : ∀ pair ∈ left.zip right, change pair.1 = change pair.2) :
    left.map change = right.map change := by
  induction left generalizing right with
  | nil =>
    cases right with
    | nil => rfl
    | cons => cases lengths
  | cons head rest ih =>
    cases right with
    | nil => cases lengths
    | cons other others =>
      have heads := pairs (head, other) List.mem_cons_self
      have rests := ih (Nat.succ.inj lengths)
        fun pair member => pairs pair (List.mem_cons_of_mem _ member)
      rw [List.map_cons, List.map_cons, heads, rests]

/-- Properties with the same key and values of the same form have the same
text. -/
theorem canonicalProperty_congr
    {canonical : JsValue → Except NonCanonicalValueError JsString}
    {left right : JsString × JsValue} (sameKey : left.1 = right.1) (leftJson : left.2.IsJson)
    (rightJson : right.2.IsJson) (same : canonical left.2 = canonical right.2) :
    canonicalProperty canonical left = canonicalProperty canonical right := by
  rw [canonicalProperty_of_isJson canonical leftJson,
    canonicalProperty_of_isJson canonical rightJson, sameKey, same]

theorem canonicalJsonWithin_congr
    (levels : Nat) {left right : JsValue} (leftJson : left.IsJson) (rightJson : right.IsJson)
    (same : JsValue.EqUpToKeyOrder left right) :
    canonicalJsonWithin levels left = canonicalJsonWithin levels right := by
  induction levels generalizing left right with
  | zero => rfl
  | succ levels ih =>
    cases same with
    | refl => rfl
    | @array items others lengths pairs =>
      cases leftJson with
      | array itemsJson =>
      cases rightJson with
      | array othersJson =>
      have mapped := map_eq_of_zip lengths fun pair member =>
        ih (itemsJson _ (List.of_mem_zip member).1) (othersJson _ (List.of_mem_zip member).2)
          (pairs pair member)
      rw [canonicalJsonWithin, canonicalJsonWithin, mapM_congr_of_map mapped]
    | @object properties others ordered othersOrdered leftReordered
        rightReordered keys values =>
        cases leftJson with
        | object leftDistinct _ leftValues =>
        cases rightJson with
        | object rightDistinct _ rightValues =>
        let form := canonicalProperty (canonicalJsonWithin levels)
        let tag := fun property : JsString × JsValue =>
          (property.1, form property)
        obtain ⟨lengths, sameKeys⟩ := zip_of_map_eq keys
        have tagged : ordered.map tag = othersOrdered.map tag := by
          refine map_eq_of_zip lengths fun pair member => ?_
          have leftMember :=
            leftReordered.mem_iff.mp (List.of_mem_zip member).1
          have rightMember :=
            rightReordered.mem_iff.mp (List.of_mem_zip member).2
          have sameKey := sameKeys pair member
          have sameForm : form pair.1 = form pair.2 :=
            canonicalProperty_congr sameKey (leftValues _ leftMember) (rightValues _ rightMember)
              (ih (leftValues _ leftMember) (rightValues _ rightMember) (values pair member))
          exact Prod.ext sameKey sameForm
        have sorted :
            sortEntries (properties.map tag) =
              sortEntries (others.map tag) := by
          refine sortEntries_congr ?_ ?_
          · refine ((leftReordered.map tag).symm.trans ?_)
            rw [tagged]
            exact rightReordered.map tag
          · rw [List.map_map]
            exact leftDistinct
        have mapped :
            (sortEntries properties).map form =
              (sortEntries others).map form := by
          have texts := congrArg (List.map Prod.snd) sorted
          rw [← map_sortEntries tag fun _ => rfl,
            ← map_sortEntries tag fun _ => rfl, List.map_map, List.map_map]
            at texts
          exact texts
        rw [canonicalJsonWithin, canonicalJsonWithin, mapM_congr_of_map mapped]

end KeyOrder

/-- The canonical form of JSON values is injective up to the order of keys, and
parsing it gives the value back up to the order of keys. -/
theorem canonicalJson_injective
    (left right : JsValue) (leftJson : left.IsJson) (rightJson : right.IsJson)
    (leftShallow : left.depth ≤ 64) (rightShallow : right.depth ≤ 64) :
    (canonicalJson left = canonicalJson right ↔
      JsValue.EqUpToKeyOrder left right) ∧
    ∃ text parsed,
      canonicalJson left = .ok text ∧
      JsonParse.parse text = some parsed ∧
      JsValue.EqUpToKeyOrder left parsed := by
  have leftBelow : left.depth < maxCanonicalDepth + 1 := by
    unfold maxCanonicalDepth
    omega
  have rightBelow : right.depth < maxCanonicalDepth + 1 := by
    unfold maxCanonicalDepth
    omega
  obtain ⟨text, form, reads⟩ :=
    canonicalJsonWithin_reads _ leftJson leftBelow
  obtain ⟨otherText, otherForm, otherReads⟩ :=
    canonicalJsonWithin_reads _ rightJson rightBelow
  refine ⟨⟨?_, ?_⟩, text, sortKeys left, form, JsonParse.parse_of_reads reads, ?_⟩
  · intro same
    unfold canonicalJson at same
    rw [form, otherForm, Except.ok.injEq] at same
    have parsed := JsonParse.parse_of_reads reads
    rw [same, JsonParse.parse_of_reads otherReads, Option.some.injEq] at parsed
    exact eqUpToKeyOrder_of_sortKeys parsed.symm
  · exact canonicalJsonWithin_congr _ leftJson rightJson
  · exact eqUpToKeyOrder_sortKeys left

theorem isJson_pair
    {first second : JsString} (distinct : first ≠ second)
    (firstWellFormed : WellFormedUtf16 first) (secondWellFormed : WellFormedUtf16 second)
    {firstValue secondValue : JsValue} (firstJson : firstValue.IsJson)
    (secondJson : secondValue.IsJson) :
    (JsValue.object [(first, firstValue), (second, secondValue)]).IsJson := by
  refine .object (by simpa using distinct) ?_ ?_
  · intro property member
    obtain rfl | member := List.mem_cons.mp member
    · exact firstWellFormed
    · rw [List.mem_singleton.mp member]
      exact secondWellFormed
  · intro property member
    obtain rfl | member := List.mem_cons.mp member
    · exact firstJson
    · rw [List.mem_singleton.mp member]
      exact secondJson

/-- `{"b": 0, "a": [true]}` has the form of `{"a": [true], "b": 0}`. -/
theorem canonicalJson_injective_swapped_keys :
    canonicalJson
        (.object
          [([0x62], .number (.finite Binary64.zero)), ([0x61], .array [.boolean true])]) =
      canonicalJson
        (.object
          [([0x61], .array [.boolean true]),
            ([0x62], .number (.finite Binary64.zero))]) := by
  have numberJson : (JsValue.number (.finite Binary64.zero)).IsJson :=
    .number (by decide)
  have arrayJson : (JsValue.array [.boolean true]).IsJson :=
    .array fun item member => by
      rw [List.mem_singleton.mp member]
      exact .boolean true
  have keyA : WellFormedUtf16 [0x61] := .unit (by decide) .nil
  have keyB : WellFormedUtf16 [0x62] := .unit (by decide) .nil
  refine (canonicalJson_injective _ _ (isJson_pair (by decide) keyB keyA numberJson arrayJson)
    (isJson_pair (by decide) keyA keyB arrayJson numberJson)
    (by decide) (by decide)).1.mpr ?_
  refine .object (List.Perm.refl _) (List.Perm.swap _ _ _) rfl ?_
  intro pair member
  simp only [List.zip_cons_cons, List.zip_nil_right, List.mem_cons,
    List.not_mem_nil, or_false] at member
  obtain rfl | rfl := member
  · exact .refl _
  · exact .refl _

end Relavium.Shared
