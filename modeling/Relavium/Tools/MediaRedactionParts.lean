import Relavium.Tools.MediaRedactionTree

/-!
# What a redaction keeps and drops

No inline media is left in the tree.  What the walk drops are the values it comes to
that carry inline media, each with its length, and a part of the graph without media
and cycles stands in the tree as it unfolds, wherever the walk comes to it.
-/

namespace Relavium.Tools

open Library
open Shared (isBase64DataUri kindKey base64Key)

variable {nodes : List GraphNode}

theorem getElem_of_mapM
    {change : α → Option β} {items : List α} {results : List β}
    (changed : items.mapM change = some results) :
    results.length = items.length ∧
      ∀ (index : Nat) item, items[index]? = some item →
        ∃ result, results[index]? = some result ∧ change item = some result := by
  induction items generalizing results with
  | nil =>
    cases changed
    simp
  | cons first rest ih =>
    rw [List.mapM_cons] at changed
    obtain ⟨result, changedFirst, others⟩ := Option.bind_eq_some_iff.mp changed
    obtain ⟨later, changedRest, same⟩ := Option.bind_eq_some_iff.mp others
    cases same
    obtain ⟨length, each⟩ := ih changedRest
    refine ⟨by simp [length], fun index item isItem => ?_⟩
    cases index with
    | zero =>
      obtain rfl : first = item := by simpa using isItem
      exact ⟨result, rfl, changedFirst⟩
    | succ index => exact each index item (by simpa using isItem)

theorem mem_of_mapM
    {change : α → Option β} {items : List α} {results : List β}
    (changed : items.mapM change = some results) {index : Nat} {result : β}
    (isResult : results[index]? = some result) :
    ∃ item, items[index]? = some item ∧ change item = some result := by
  obtain ⟨length, each⟩ := getElem_of_mapM changed
  have inResults := (List.getElem?_eq_some_iff.mp isResult).1
  have inItems : index < items.length := length ▸ inResults
  obtain ⟨other, isOther, changedItem⟩ := each index _ (List.getElem?_eq_getElem inItems)
  rw [isResult] at isOther
  cases isOther
  exact ⟨_, List.getElem?_eq_getElem inItems, changedItem⟩

variable
  {results : List (JsString × Redacted)}

/-- The redactions of the properties keep the keys. -/
theorem keys_of_mapM
    {redact : GraphValue → Option Redacted} {entries : List (JsString × GraphValue)}
    (changed : (entries.mapM fun property =>
      (redact property.2).map fun redacted => (property.1, redacted)) = some results) :
    results.map Prod.fst = entries.map Prod.fst := by
  refine List.ext_getElem? fun index => ?_
  rw [List.getElem?_map, List.getElem?_map]
  cases isResult : results[index]? with
  | none =>
    have beyond := List.getElem?_eq_none_iff.mp isResult
    rw [(getElem_of_mapM changed).1] at beyond
    rw [List.getElem?_eq_none_iff.mpr beyond]
    rfl
  | some result =>
    obtain ⟨property, isProperty, redacted⟩ := mem_of_mapM changed isResult
    obtain ⟨_, _, rfl⟩ := Option.map_eq_some_iff.mp redacted
    rw [isProperty]
    rfl

/-! ## Nothing inline is left -/

/-- The tree holds no inline media.  A marker may stand for the data of a source. -/
inductive MediaFree : ValueTree → Prop
  | primitive
      {value : GraphPrimitive}
      (safe : ∀ text, value = .string text → isBase64DataUri text = false) :
      MediaFree (.primitive value)
  | foreign (address : Nat) : MediaFree (.foreign address)
  | array
      {items : List ValueTree}
      (each : ∀ item ∈ items, MediaFree item) :
      MediaFree (.array items)
  | plain
      {properties : List (JsString × ValueTree)}
      (each : ∀ property ∈ properties, MediaFree property.2)
      (notSource : ∀ data,
        OrderedMap.lookupEntry kindKey properties = some (.primitive (.string base64Key)) →
        OrderedMap.lookupEntry dataKey properties = some (.primitive (.string data)) →
        data = binaryMarker ∨ data = cyclicMarker) :
      MediaFree (.plain properties)

theorem mediaFree_marker
    {marker : JsString}
    (isMarker : marker = dataUriMarker ∨ marker = cyclicMarker ∨ marker = binaryMarker) :
    MediaFree (.primitive (.string marker)) := by
  have safe : isBase64DataUri marker = false := by
    obtain rfl | rfl | rfl := isMarker <;> decide
  refine .primitive fun text same => ?_
  obtain rfl := GraphPrimitive.string.inj same
  exact safe

theorem mediaFree_primitiveTree (value : GraphPrimitive) :
    MediaFree (primitiveTree value).tree := by
  cases value with
  | string text =>
    rw [primitiveTree]
    by_cases isUri : isBase64DataUri text = true
    · rw [if_pos isUri]
      exact mediaFree_marker (.inl rfl)
    · rw [if_neg isUri]
      refine .primitive fun given same => ?_
      obtain rfl := GraphPrimitive.string.inj same
      simpa using isUri
  | _ => exact .primitive (by simp)

theorem mediaFree_byteFreeSource (length : Nat) : MediaFree (byteFreeSource length) := by
  refine .plain ?_ fun data _ isData => ?_
  · simp only [List.forall_mem_cons, List.not_mem_nil, false_implies, implies_true, and_true]
    refine ⟨.primitive fun text same => ?_, .primitive (by simp)⟩
    obtain rfl := GraphPrimitive.string.inj same
    decide
  · have absent : OrderedMap.lookupEntry dataKey
        [(kindKey, ValueTree.primitive (.string base64Key)),
          (base64LengthKey, .primitive (.number (lengthNumber length)))] = none := by
      have kindDiffers : kindKey ≠ dataKey := by decide
      have lengthDiffers : base64LengthKey ≠ dataKey := by decide
      simp [OrderedMap.lookupEntry, kindDiffers, lengthDiffers]
    rw [absent] at isData
    simp at isData

variable
  {fuel : Nat}
  {seen : List Nat}
  {redacted : Redacted}

/-- The redaction of an object is a marker for an ancestor, or that of its node. -/
theorem redactTree_object
    {address : Nat} (isRedacted : redactTree nodes fuel seen (.object address) = some redacted) :
    (address ∈ seen ∧
        redacted = { tree := .primitive (.string cyclicMarker), drops := [] }) ∨
      (address ∉ seen ∧ ∃ below node, fuel = below + 1 ∧ nodes[address]? = some node ∧
        nodeTree (redactTree nodes below (address :: seen)) address node = some redacted) := by
  cases fuel with
  | zero => simp [redactTree] at isRedacted
  | succ fuel =>
    rw [redactTree] at isRedacted
    split at isRedacted
    · next isSeen => exact .inl ⟨isSeen, (Option.some.inj isRedacted).symm⟩
    · rename_i fresh
      obtain ⟨node, isNode, isTree⟩ := Option.bind_eq_some_iff.mp isRedacted
      exact .inr ⟨fresh, fuel, node, rfl, isNode, isTree⟩

theorem string_of_redactTree
    {value : GraphValue} (isRedacted : redactTree nodes fuel seen value = some redacted)
    {text : JsString} (isText : redacted.tree = .primitive (.string text)) :
    value = .primitive (.string text) ∨
      text = dataUriMarker ∧ (∃ given, value = .primitive (.string given)) ∨
      text = cyclicMarker ∨ text = binaryMarker := by
  cases value with
  | primitive value =>
    rw [redactTree] at isRedacted
    cases isRedacted
    cases value with
    | string given =>
      rw [primitiveTree] at isText
      by_cases isUri : isBase64DataUri given = true
      · rw [if_pos isUri] at isText
        obtain rfl := GraphPrimitive.string.inj (ValueTree.primitive.inj isText)
        exact .inr (.inl ⟨rfl, given, rfl⟩)
      · rw [if_neg isUri] at isText
        exact .inl (congrArg GraphValue.primitive (ValueTree.primitive.inj isText))
    | _ => simp [primitiveTree] at isText
  | object address =>
    obtain ⟨-, rfl⟩ | ⟨-, below, node, -, -, isTree⟩ := redactTree_object isRedacted
    · obtain rfl := GraphPrimitive.string.inj (ValueTree.primitive.inj isText)
      exact .inr (.inr (.inl rfl))
    · cases node with
      | array items =>
        obtain ⟨results, -, rfl⟩ := Option.map_eq_some_iff.mp isTree
        simp [arrayTree] at isText
      | binary byteLength =>
        cases isTree
        obtain rfl := GraphPrimitive.string.inj (ValueTree.primitive.inj isText)
        exact .inr (.inr (.inr rfl))
      | foreign =>
        cases isTree
        simp at isText
      | plain properties =>
        rw [nodeTree] at isTree
        split at isTree
        · cases isTree
          simp [byteFreeSource] at isText
        · obtain ⟨results, -, rfl⟩ := Option.map_eq_some_iff.mp isTree
          simp [plainTree] at isText

/-- A member of the tree of an object is the redaction of its property. -/
theorem property_of_lookup
    {redact : GraphValue → Option Redacted} {properties : OrderedMap JsString GraphValue}
    (changed : (properties.entries.mapM fun property =>
      (redact property.2).map fun redacted => (property.1, redacted)) = some results)
    {key : JsString}
    {tree : ValueTree}
    (found : OrderedMap.lookupEntry key
      (results.map fun property => (property.1, property.2.tree)) = some tree) :
    ∃ value redacted, properties.get key = some value ∧ redact value = some redacted ∧
      redacted.tree = tree := by
  have keys := keys_of_mapM changed
  have distinct : ((results.map fun property => (property.1, property.2.tree)).map
      Prod.fst).Nodup := by
    rw [List.map_map]
    exact (show results.map Prod.fst = _ from keys) ▸ properties.nodupKeys
  have isMember := (OrderedMap.lookupEntry_eq_some_iff distinct key tree).mp found
  obtain ⟨⟨resultKey, redacted⟩, isResult, same⟩ := List.mem_map.mp isMember
  cases same
  obtain ⟨index, inside, atIndex⟩ := List.mem_iff_getElem.mp isResult
  obtain ⟨property, isProperty, changedProperty⟩ :=
    mem_of_mapM changed ((List.getElem?_eq_some_iff.mpr ⟨inside, atIndex⟩))
  obtain ⟨given, isRedacted, same⟩ := Option.map_eq_some_iff.mp changedProperty
  obtain ⟨rfl, rfl⟩ := Prod.mk.inj same
  exact ⟨property.2, given, (properties.mem_entries_iff _ _).mp
    (List.mem_of_getElem? isProperty), isRedacted, rfl⟩

/-- An object that is no source becomes none, unless a marker takes the place of its
data. -/
theorem mediaFree_plainTree
    {properties : OrderedMap JsString GraphValue}
    (notSource : ¬isCanonicalBase64Source properties = true)
    (changed : (properties.entries.mapM fun property =>
      (redactTree nodes fuel seen property.2).map fun redacted =>
        (property.1, redacted)) = some results)
    (free : ∀ value redacted, redactTree nodes fuel seen value = some redacted →
      MediaFree redacted.tree) :
    MediaFree (plainTree results).tree := by
  refine .plain (fun member isMember => ?_) fun data isKind isData => ?_
  · obtain ⟨result, isResult, rfl⟩ := List.mem_map.mp isMember
    obtain ⟨index, inside, atIndex⟩ := List.mem_iff_getElem.mp isResult
    obtain ⟨property, -, changedProperty⟩ :=
      mem_of_mapM changed (List.getElem?_eq_some_iff.mpr ⟨inside, atIndex⟩)
    obtain ⟨redacted, isRedacted, rfl⟩ := Option.map_eq_some_iff.mp changedProperty
    exact free _ _ isRedacted
  · obtain ⟨kind, kindRedacted, hasKind, isKindRedacted, kindTree⟩ :=
      property_of_lookup changed isKind
    obtain ⟨value, dataRedacted, hasData, isDataRedacted, dataTree⟩ :=
      property_of_lookup changed isData
    have kindText : kind = .primitive (.string base64Key) := by
      obtain same | ⟨same, -⟩ | same | same := string_of_redactTree isKindRedacted kindTree
      · exact same
      · exact absurd same (by decide)
      · exact absurd same (by decide)
      · exact absurd same (by decide)
    -- The data was no text, or the object would have been a source.
    have notText : ∀ text, value ≠ .primitive (.string text) := by
      rintro text rfl
      refine notSource ?_
      rw [isCanonicalBase64Source, hasKind, hasData, kindText]
      simp
    obtain same | ⟨-, given, same⟩ | same | same := string_of_redactTree isDataRedacted dataTree
    · exact absurd same (notText data)
    · exact absurd same (notText given)
    · exact .inr same
    · exact .inl same

theorem mediaFree_of_redactTree
    {value : GraphValue} (isRedacted : redactTree nodes fuel seen value = some redacted) :
    MediaFree redacted.tree := by
  induction fuel generalizing seen value redacted with
  | zero =>
    cases value with
    | primitive value =>
      cases isRedacted
      exact mediaFree_primitiveTree value
    | object address => simp [redactTree] at isRedacted
  | succ fuel ih =>
    cases value with
    | primitive value =>
      cases isRedacted
      exact mediaFree_primitiveTree value
    | object address =>
      obtain ⟨-, rfl⟩ | ⟨-, below, node, isFuel, -, isTree⟩ := redactTree_object isRedacted
      · exact mediaFree_marker (.inr (.inl rfl))
      · obtain rfl := Nat.succ.inj isFuel
        cases node with
        | binary byteLength =>
          cases isTree
          exact mediaFree_marker (.inr (.inr rfl))
        | foreign =>
          cases isTree
          exact .foreign address
        | array items =>
          obtain ⟨results, collected, rfl⟩ := Option.map_eq_some_iff.mp isTree
          refine .array fun tree isItem => ?_
          obtain ⟨result, isResult, rfl⟩ := List.mem_map.mp isItem
          obtain ⟨index, inside, atIndex⟩ := List.mem_iff_getElem.mp isResult
          obtain ⟨item, -, itemRedacted⟩ :=
            mem_of_mapM collected (List.getElem?_eq_some_iff.mpr ⟨inside, atIndex⟩)
          exact ih itemRedacted
        | plain properties =>
          rw [nodeTree] at isTree
          split at isTree
          · cases isTree
            exact mediaFree_byteFreeSource _
          · rename_i notSource
            obtain ⟨results, collected, rfl⟩ := Option.map_eq_some_iff.mp isTree
            exact mediaFree_plainTree notSource collected fun _ _ => ih

end Relavium.Tools
