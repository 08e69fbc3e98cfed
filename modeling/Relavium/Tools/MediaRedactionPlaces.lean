import Relavium.Tools.MediaRedactionParts

/-!
# The places of a redaction

A way of the walk leads through arrays and plain objects that are no sources, to each
object once at most.  The tree follows every way of the walk, and what was dropped is
what the ways lead to that carries inline media, each place once.
-/

namespace Relavium.Tools

open Library
open Shared (isBase64DataUri kindKey base64Key)

section Places

variable (nodes : List GraphNode)

/-- The walk comes from a value below some ancestors to a part of it below more. -/
inductive Walked : List Nat → GraphValue → List TreeStep → List Nat → GraphValue → Prop
  | here (seen : List Nat) (value : GraphValue) : Walked seen value [] seen value
  | item
      {seen below : List Nat}
      {address index : Nat}
      {items : List GraphValue}
      {child part : GraphValue}
      {steps : List TreeStep}
      (fresh : address ∉ seen)
      (isNode : nodes[address]? = some (.array items))
      (isItem : items[index]? = some child)
      (later : Walked (address :: seen) child steps below part) :
      Walked seen (.object address) (.index index :: steps) below part
  | member
      {seen below : List Nat}
      {address : Nat}
      {key : JsString}
      {properties : OrderedMap JsString GraphValue}
      {child part : GraphValue}
      {steps : List TreeStep}
      (fresh : address ∉ seen)
      (isNode : nodes[address]? = some (.plain properties))
      (notSource : isCanonicalBase64Source properties = false)
      (isMember : properties.get key = some child)
      (later : Walked (address :: seen) child steps below part) :
      Walked seen (.object address) (.key key :: steps) below part

/-- The walk replaces a value by a marker because of the inline media it carries, of
some length. -/
inductive Dropped (seen : List Nat) : GraphValue → Nat → Prop
  | dataUri
      {text : JsString}
      (isUri : isBase64DataUri text = true) :
      Dropped seen (.primitive (.string text)) (utf8ByteLength text)
  | binary
      {address byteLength : Nat}
      (fresh : address ∉ seen)
      (isNode : nodes[address]? = some (.binary byteLength)) :
      Dropped seen (.object address) byteLength
  | source
      {address : Nat}
      {properties : OrderedMap JsString GraphValue}
      (fresh : address ∉ seen)
      (isNode : nodes[address]? = some (.plain properties))
      (isSource : isCanonicalBase64Source properties = true) :
      Dropped seen (.object address) (base64Length properties)

end Places

variable {nodes : List GraphNode}

/-! ## What was dropped -/

theorem mem_dropsBelow
    {held : List (TreeStep × Redacted)} {steps : List TreeStep} {length : Nat} :
    (steps, length) ∈ dropsBelow held ↔
      ∃ step redacted rest, (step, redacted) ∈ held ∧ steps = step :: rest ∧
        (rest, length) ∈ redacted.drops := by
  simp only [dropsBelow, List.mem_flatMap, List.mem_map, Prod.exists, Prod.mk.injEq]
  constructor
  · rintro ⟨step, redacted, isHeld, rest, _, isDrop, rfl, rfl⟩
    exact ⟨step, redacted, rest, isHeld, rfl, isDrop⟩
  · rintro ⟨step, redacted, rest, isHeld, rfl, isDrop⟩
    exact ⟨step, redacted, isHeld, rest, length, isDrop, rfl, rfl⟩

/-- Each place stands once, where the steps differ and below each of them it does. -/
theorem nodup_dropsBelow
    {held : List (TreeStep × Redacted)} (distinct : (held.map Prod.fst).Nodup)
    (each : ∀ member ∈ held, (member.2.drops.map Prod.fst).Nodup) :
    ((dropsBelow held).map Prod.fst).Nodup := by
  induction held with
  | nil => exact List.nodup_nil
  | cons member rest ih =>
    rw [List.map_cons, List.nodup_cons] at distinct
    have first : ((member.2.drops.map fun drop => (member.1 :: drop.1, drop.2)).map
        Prod.fst).Nodup := by
      rw [List.map_map]
      have places := (each member List.mem_cons_self).map
        (List.cons_injective : Function.Injective (List.cons member.1))
      rw [List.map_map] at places
      exact places
    rw [dropsBelow] at ih ⊢
    rw [List.flatMap_cons, List.map_append]
    refine List.nodup_append.mpr ⟨first, ih distinct.2
      fun other isRest => each other (List.mem_cons_of_mem _ isRest), ?_⟩
    rintro place isFirst other isOther rfl
    obtain ⟨drop, isDrop, rfl⟩ := List.mem_map.mp isFirst
    obtain ⟨inner, -, rfl⟩ := List.mem_map.mp isDrop
    obtain ⟨⟨steps, length⟩, isLater, same⟩ := List.mem_map.mp isOther
    obtain ⟨step, redacted, rest', isHeld, rfl, -⟩ := mem_dropsBelow.mp isLater
    obtain ⟨rfl, -⟩ := List.cons.inj same
    exact distinct.1 (List.mem_map.mpr ⟨_, isHeld, rfl⟩)

theorem nodup_itemSteps (items : List Redacted) :
    ((itemSteps items).map Prod.fst).Nodup := by
  have steps : (itemSteps items).map Prod.fst =
      (List.range items.length).map TreeStep.index := by
    refine List.ext_getElem? fun index => ?_
    simp only [itemSteps, List.getElem?_map, List.getElem?_mapIdx]
    by_cases inside : index < items.length
    · simp [inside]
    · simp [inside]
  rw [steps]
  exact List.nodup_range.map fun first second same => TreeStep.index.inj same

theorem nodup_propertySteps
    {properties : List (JsString × Redacted)} (distinct : (properties.map Prod.fst).Nodup) :
    ((propertySteps properties).map Prod.fst).Nodup := by
  have steps : (propertySteps properties).map Prod.fst =
      (properties.map Prod.fst).map TreeStep.key := by
    simp [propertySteps, Function.comp_def]
  rw [steps]
  exact distinct.map fun first second same => TreeStep.key.inj same

theorem mem_itemSteps {items : List Redacted} {step : TreeStep} {redacted : Redacted} :
    (step, redacted) ∈ itemSteps items ↔
      ∃ index, step = .index index ∧ items[index]? = some redacted := by
  rw [itemSteps, List.mem_mapIdx]
  constructor
  · rintro ⟨index, inside, same⟩
    cases same
    exact ⟨index, rfl, List.getElem?_eq_getElem inside⟩
  · rintro ⟨index, rfl, isItem⟩
    obtain ⟨inside, rfl⟩ := List.getElem?_eq_some_iff.mp isItem
    exact ⟨index, inside, rfl⟩

/-- What is known of the places of a redaction. -/
structure DropsAreDropped (nodes : List GraphNode) (seen : List Nat) (value : GraphValue)
    (drops : List (List TreeStep × Nat)) : Prop where
  once : (drops.map Prod.fst).Nodup
  mem_iff : ∀ steps length, (steps, length) ∈ drops ↔
    ∃ below part, Walked nodes seen value steps below part ∧ Dropped nodes below part length

theorem dropsAreDropped_leaf
    {seen : List Nat} {value : GraphValue} {drops : List (List TreeStep × Nat)}
    (once : drops.length ≤ 1)
    (stays : ∀ steps below part, Walked nodes seen value steps below part → steps = [])
    (isDrop : ∀ steps length, (steps, length) ∈ drops ↔
      steps = [] ∧ Dropped nodes seen value length) :
    DropsAreDropped nodes seen value drops where
  once := by
    match drops, once with
    | [], _ => exact List.nodup_nil
    | [drop], _ => exact List.nodup_singleton _
  mem_iff steps length := by
    rw [isDrop]
    constructor
    · rintro ⟨rfl, dropped⟩
      exact ⟨seen, value, .here seen value, dropped⟩
    · rintro ⟨below, part, walked, dropped⟩
      obtain rfl := stays _ _ _ walked
      cases walked with
      | here => exact ⟨rfl, dropped⟩

theorem dropsAreDropped_primitive (seen : List Nat) (value : GraphPrimitive) :
    DropsAreDropped nodes seen (.primitive value) (primitiveTree value).drops := by
  refine dropsAreDropped_leaf ?_ ?_ ?_
  · unfold primitiveTree
    split
    · split <;> simp
    · simp
  · intro steps below part walked
    cases walked with
    | here => rfl
  · intro steps length
    constructor
    · intro isDrop
      cases value with
      | string text =>
        rw [primitiveTree] at isDrop
        by_cases isUri : isBase64DataUri text = true
        · rw [if_pos isUri] at isDrop
          cases List.mem_singleton.mp isDrop
          exact ⟨rfl, .dataUri isUri⟩
        · rw [if_neg isUri] at isDrop
          simp at isDrop
      | _ => simp [primitiveTree] at isDrop
    · rintro ⟨rfl, dropped⟩
      cases dropped with
      | dataUri isUri =>
        rw [primitiveTree, if_pos isUri]
        exact List.mem_singleton_self _

/-- An ancestor is no place. -/
theorem dropsAreDropped_seen {seen : List Nat} {address : Nat} (isSeen : address ∈ seen) :
    DropsAreDropped nodes seen (.object address) [] := by
  refine dropsAreDropped_leaf (Nat.zero_le _) ?_ ?_
  · intro steps below part walked
    cases walked with
    | here => rfl
    | item fresh _ _ _ | member fresh _ _ _ _ => exact absurd isSeen fresh
  · intro steps length
    constructor
    · simp
    · rintro ⟨-, dropped⟩
      cases dropped with
      | binary fresh _ | source fresh _ _ => exact absurd isSeen fresh

theorem dropsAreDropped_foreign
    (seen : List Nat) {address : Nat} (isNode : nodes[address]? = some .foreign) :
    DropsAreDropped nodes seen (.object address) [] := by
  refine dropsAreDropped_leaf (Nat.zero_le _) ?_ ?_
  · intro steps below part walked
    cases walked with
    | here => rfl
    | item _ isOther _ _ | member _ isOther _ _ _ => simp [isNode] at isOther
  · intro steps length
    constructor
    · simp
    · rintro ⟨-, dropped⟩
      cases dropped with
      | binary _ isOther | source _ isOther _ => simp [isNode] at isOther

section Node

variable
  {seen : List Nat}
  {address : Nat}
  (fresh : address ∉ seen)

include fresh

theorem dropsAreDropped_binary
    {byteLength : Nat} (isNode : nodes[address]? = some (.binary byteLength)) :
    DropsAreDropped nodes seen (.object address) [([], byteLength)] := by
  refine dropsAreDropped_leaf (Nat.le_refl _) ?_ ?_
  · intro steps below part walked
    cases walked with
    | here => rfl
    | item _ isOther _ _ | member _ isOther _ _ _ => simp [isNode] at isOther
  · intro steps length
    constructor
    · intro isDrop
      cases List.mem_singleton.mp isDrop
      exact ⟨rfl, .binary fresh isNode⟩
    · rintro ⟨rfl, dropped⟩
      cases dropped with
      | binary _ isOther =>
        obtain rfl : byteLength = length := by simpa [isNode] using isOther
        exact List.mem_singleton_self _
      | source _ isOther _ => simp [isNode] at isOther

theorem dropsAreDropped_source
    {properties : OrderedMap JsString GraphValue}
    (isNode : nodes[address]? = some (.plain properties))
    (isSource : isCanonicalBase64Source properties = true) :
    DropsAreDropped nodes seen (.object address) [([], base64Length properties)] := by
  refine dropsAreDropped_leaf (Nat.le_refl _) ?_ ?_
  · intro steps below part walked
    cases walked with
    | here => rfl
    | item _ isOther _ _ => simp [isNode] at isOther
    | member _ isOther notSource _ _ =>
      obtain rfl : properties = _ := by simpa [isNode] using isOther
      rw [isSource] at notSource
      simp at notSource
  · intro steps length
    constructor
    · intro isDrop
      cases List.mem_singleton.mp isDrop
      exact ⟨rfl, .source fresh isNode isSource⟩
    · rintro ⟨rfl, dropped⟩
      cases dropped with
      | binary _ isOther => simp [isNode] at isOther
      | source _ isOther _ =>
        obtain rfl : properties = _ := by simpa [isNode] using isOther
        exact List.mem_singleton_self _

theorem dropsAreDropped_array
    {items : List GraphValue} {redact : GraphValue → Option Redacted} {results : List Redacted}
    (isNode : nodes[address]? = some (.array items))
    (collected : items.mapM redact = some results)
    (each : ∀ value redacted, redact value = some redacted →
      DropsAreDropped nodes (address :: seen) value redacted.drops) :
    DropsAreDropped nodes seen (.object address) (arrayTree results).drops where
  once := by
    refine nodup_dropsBelow (nodup_itemSteps results) ?_
    rintro ⟨step, redacted⟩ isHeld
    obtain ⟨index, rfl, isResult⟩ := mem_itemSteps.mp isHeld
    obtain ⟨item, -, isRedacted⟩ := mem_of_mapM collected isResult
    exact (each item redacted isRedacted).once
  mem_iff steps length := by
    refine mem_dropsBelow.trans ⟨?_, ?_⟩
    · rintro ⟨step, redacted, rest, isHeld, rfl, isDrop⟩
      obtain ⟨index, rfl, isResult⟩ := mem_itemSteps.mp isHeld
      obtain ⟨item, isItem, isRedacted⟩ := mem_of_mapM collected isResult
      obtain ⟨below, part, walked, dropped⟩ :=
        ((each item redacted isRedacted).mem_iff rest length).mp isDrop
      exact ⟨below, part, .item fresh isNode isItem walked, dropped⟩
    · rintro ⟨below, part, walked, dropped⟩
      cases walked with
      | here =>
        cases dropped with
        | binary _ isOther | source _ isOther _ => simp [isNode] at isOther
      | @item _ _ _ index others child _ rest _ isOther isItem later =>
        obtain rfl : items = others := by simpa [isNode] using isOther
        obtain ⟨redacted, isResult, isRedacted⟩ :=
          (getElem_of_mapM collected).2 index child isItem
        exact ⟨.index index, redacted, rest, mem_itemSteps.mpr ⟨index, rfl, isResult⟩, rfl,
          ((each child redacted isRedacted).mem_iff rest length).mpr
            ⟨below, part, later, dropped⟩⟩
      | member _ isOther _ _ _ => simp [isNode] at isOther

theorem dropsAreDropped_plain
    {properties : OrderedMap JsString GraphValue} {redact : GraphValue → Option Redacted}
    {results : List (JsString × Redacted)} (isNode : nodes[address]? = some (.plain properties))
    (notSource : isCanonicalBase64Source properties = false)
    (collected : (properties.entries.mapM fun property =>
      (redact property.2).map fun redacted => (property.1, redacted)) = some results)
    (each : ∀ value redacted, redact value = some redacted →
      DropsAreDropped nodes (address :: seen) value redacted.drops) :
    DropsAreDropped nodes seen (.object address) (plainTree results).drops where
  once := by
    refine nodup_dropsBelow (nodup_propertySteps
      (keys_of_mapM collected ▸ properties.nodupKeys)) ?_
    intro member isHeld
    obtain ⟨result, isResult, rfl⟩ := List.mem_map.mp isHeld
    obtain ⟨index, inside, atIndex⟩ := List.mem_iff_getElem.mp isResult
    obtain ⟨property, -, changed⟩ :=
      mem_of_mapM collected (List.getElem?_eq_some_iff.mpr ⟨inside, atIndex⟩)
    obtain ⟨redacted, isRedacted, rfl⟩ := Option.map_eq_some_iff.mp changed
    exact (each _ redacted isRedacted).once
  mem_iff steps length := by
    refine mem_dropsBelow.trans ⟨?_, ?_⟩
    · rintro ⟨step, redacted, rest, isHeld, rfl, isDrop⟩
      obtain ⟨result, isResult, same⟩ := List.mem_map.mp isHeld
      cases same
      obtain ⟨index, inside, atIndex⟩ := List.mem_iff_getElem.mp isResult
      obtain ⟨property, isProperty, changed⟩ :=
        mem_of_mapM collected (List.getElem?_eq_some_iff.mpr ⟨inside, atIndex⟩)
      obtain ⟨redacted, isRedacted, rfl⟩ := Option.map_eq_some_iff.mp changed
      obtain ⟨below, part, walked, dropped⟩ :=
        ((each _ redacted isRedacted).mem_iff rest length).mp isDrop
      have isMember := (properties.mem_entries_iff property.1 property.2).mp
        (List.mem_of_getElem? isProperty)
      exact ⟨below, part, .member fresh isNode notSource isMember walked, dropped⟩
    · rintro ⟨below, part, walked, dropped⟩
      cases walked with
      | here =>
        cases dropped with
        | binary _ isOther => simp [isNode] at isOther
        | source _ isOther isSource =>
          obtain rfl : properties = _ := by simpa [isNode] using isOther
          rw [notSource] at isSource
          simp at isSource
      | item _ isOther _ _ => simp [isNode] at isOther
      | @member _ _ _ key others child _ rest _ isOther _ isMember later =>
        obtain rfl : properties = others := by simpa [isNode] using isOther
        obtain ⟨index, inside, atIndex⟩ :=
          List.mem_iff_getElem.mp ((properties.mem_entries_iff key child).mpr isMember)
        obtain ⟨result, isResult, changed⟩ := (getElem_of_mapM collected).2 index _
          (List.getElem?_eq_some_iff.mpr ⟨inside, atIndex⟩)
        obtain ⟨redacted, isRedacted, rfl⟩ := Option.map_eq_some_iff.mp changed
        exact ⟨.key key, redacted, rest,
          List.mem_map.mpr ⟨_, List.mem_of_getElem? isResult, rfl⟩, rfl,
          ((each child redacted isRedacted).mem_iff rest length).mpr
            ⟨below, part, later, dropped⟩⟩

end Node

/-- The redaction drops what the walk comes to that carries inline media, each place
once. -/
theorem dropsAreDropped_of_redactTree
    {fuel : Nat} {seen : List Nat} {value : GraphValue} {redacted : Redacted}
    (isRedacted : redactTree nodes fuel seen value = some redacted) :
    DropsAreDropped nodes seen value redacted.drops := by
  induction fuel generalizing seen value redacted with
  | zero =>
    cases value with
    | primitive value =>
      cases isRedacted
      exact dropsAreDropped_primitive seen value
    | object address => simp [redactTree] at isRedacted
  | succ fuel ih =>
    cases value with
    | primitive value =>
      cases isRedacted
      exact dropsAreDropped_primitive seen value
    | object address =>
      obtain ⟨isSeen, rfl⟩ | ⟨fresh, below, node, isFuel, isNode, isTree⟩ :=
        redactTree_object isRedacted
      · exact dropsAreDropped_seen isSeen
      · obtain rfl := Nat.succ.inj isFuel
        cases node with
        | binary byteLength =>
          cases isTree
          exact dropsAreDropped_binary fresh isNode
        | foreign =>
          cases isTree
          exact dropsAreDropped_foreign seen isNode
        | array items =>
          obtain ⟨results, collected, rfl⟩ := Option.map_eq_some_iff.mp isTree
          exact dropsAreDropped_array fresh isNode collected fun _ _ => ih
        | plain properties =>
          rw [nodeTree] at isTree
          split at isTree
          · rename_i isSource
            cases isTree
            exact dropsAreDropped_source fresh isNode isSource
          · rename_i notSource
            obtain ⟨results, collected, rfl⟩ := Option.map_eq_some_iff.mp isTree
            exact dropsAreDropped_plain fresh isNode (by simpa using notSource) collected
              fun _ _ => ih

end Relavium.Tools
