import Relavium.Tools.MediaRedaction

/-!
# The tree of a redaction

The walk restores its ancestors on every way out and adds up what it drops.  So it
computes a function of the ancestors and the value: a tree, with the places at which
inline media was dropped and the lengths of what was dropped there.
-/

namespace Relavium.Tools

open Library
open Shared (isBase64DataUri kindKey base64Key)

/-- A tree with what was dropped: where, and how long it was. -/
structure Redacted where
  tree : ValueTree
  drops : List (List TreeStep × Nat)

/-- The length of everything dropped. -/
def Redacted.total (redacted : Redacted) : Nat :=
  (redacted.drops.map Prod.snd).sum

/-- What was dropped of the values that an object holds. -/
def dropsBelow (held : List (TreeStep × Redacted)) : List (List TreeStep × Nat) :=
  held.flatMap fun member =>
    member.2.drops.map fun drop => (member.1 :: drop.1, drop.2)

/-- The items of an array by their steps. -/
def itemSteps (items : List Redacted) : List (TreeStep × Redacted) :=
  items.mapIdx fun index item => (.index index, item)

/-- The properties of an object by their steps. -/
def propertySteps (properties : List (JsString × Redacted)) : List (TreeStep × Redacted) :=
  properties.map fun property => (.key property.1, property.2)

/-- The redaction of a primitive. -/
def primitiveTree : GraphPrimitive → Redacted
  | .string text =>
    if isBase64DataUri text then
      { tree := .primitive (.string dataUriMarker), drops := [([], utf8ByteLength text)] }
    else { tree := .primitive (.string text), drops := [] }
  | value => { tree := .primitive value, drops := [] }

/-- The redactions of the items of an array, as one. -/
def arrayTree (items : List Redacted) : Redacted where
  tree := .array (items.map Redacted.tree)
  drops := dropsBelow (itemSteps items)

/-- The redactions of the properties of an object, as one. -/
def plainTree (properties : List (JsString × Redacted)) : Redacted where
  tree := .plain (properties.map fun property => (property.1, property.2.tree))
  drops := dropsBelow (propertySteps properties)

/-- The redaction of an object, with that of the values that it holds. -/
def nodeTree (redact : GraphValue → Option Redacted)
    (address : Nat) : GraphNode → Option Redacted
  | .array items => (items.mapM redact).map arrayTree
  | .binary byteLength =>
    some { tree := .primitive (.string binaryMarker), drops := [([], byteLength)] }
  | .foreign => some { tree := .foreign address, drops := [] }
  | .plain properties =>
    if isCanonicalBase64Source properties then
      some { tree := byteFreeSource (base64Length properties)
             drops := [([], base64Length properties)] }
    else
      (properties.entries.mapM fun property =>
        (redact property.2).map fun redacted => (property.1, redacted)).map plainTree

/-- The redaction of a value below its ancestors. -/
def redactTree
    (nodes : List GraphNode) : Nat → List Nat → GraphValue → Option Redacted
  | _, _, .primitive value => some (primitiveTree value)
  | 0, _, .object _ => none
  | fuel + 1, seen, .object address =>
    if address ∈ seen then some { tree := .primitive (.string cyclicMarker), drops := [] }
    else nodes[address]?.bind (nodeTree (redactTree nodes fuel (address :: seen)) address)

/-! ## The walk computes it -/

section Refinement

/-- Items that are walked one after the other with the same ancestors. -/
theorem redactEach_eq
    {redact : α → RedactionState → Option (β × RedactionState)} {function : α → Option γ}
    (view : γ → β) (total : γ → Nat) {seen : List Nat}
    (each : ∀ item omitted, redact item { seen, omitted } =
      (function item).map fun result => (view result, { seen, omitted := omitted + total result }))
    (items : List α)
    (omitted : Nat) :
    redactEach redact items { seen, omitted } =
      (items.mapM function).map fun results =>
        (results.map view, { seen, omitted := omitted + (results.map total).sum }) := by
  induction items generalizing omitted with
  | nil => rfl
  | cons item rest ih =>
    rw [redactEach, each, List.mapM_cons]
    cases function item with
    | none => rfl
    | some first =>
      simp only [Option.map_some, Option.bind_some, ih]
      cases rest.mapM function with
      | none => rfl
      | some others => simp [Nat.add_assoc]

theorem sum_dropsBelow (held : List (TreeStep × Redacted)) :
    ((dropsBelow held).map Prod.snd).sum = (held.map fun member => member.2.total).sum := by
  induction held with
  | nil => rfl
  | cons member rest ih =>
    rw [dropsBelow] at ih ⊢
    rw [List.flatMap_cons, List.map_append, List.sum_append, ih,
      List.map_cons, List.sum_cons, List.map_map]
    rfl

theorem total_arrayTree (items : List Redacted) :
    (arrayTree items).total = (items.map Redacted.total).sum := by
  rw [Redacted.total, arrayTree, sum_dropsBelow, itemSteps]
  exact congrArg List.sum (List.ext_getElem? fun index => by simp [Function.comp_def])

theorem total_plainTree (properties : List (JsString × Redacted)) :
    (plainTree properties).total =
      (properties.map fun property => property.2.total).sum := by
  rw [Redacted.total, plainTree, sum_dropsBelow, propertySteps, List.map_map]
  rfl

theorem redactPrimitive_eq
    (nodes : List GraphNode) (fuel : Nat) (value : GraphPrimitive) (state : RedactionState) :
    redactInlineMediaForText nodes fuel (.primitive value) state =
      some ((primitiveTree value).tree,
        { state with omitted := state.omitted + (primitiveTree value).total }) := by
  cases value with
  | string text =>
    rw [redactInlineMediaForText, primitiveTree]
    by_cases isUri : isBase64DataUri text = true
    · simp only [if_pos isUri]
      simp [Redacted.total, RedactionState.addOmitted]
    · simp only [if_neg isUri]
      simp [Redacted.total]
  | _ => simp [redactInlineMediaForText, primitiveTree, Redacted.total]

/-- The walk of an object gives its tree, and counts what was dropped. -/
theorem redactNode_eq
    {redact : GraphValue → RedactionState → Option (ValueTree × RedactionState)}
    {function : GraphValue → Option Redacted} {seen : List Nat}
    (each : ∀ value omitted, redact value { seen, omitted } =
      (function value).map fun redacted =>
        (redacted.tree, { seen, omitted := omitted + redacted.total }))
    (address : Nat)
    (node : GraphNode)
    (omitted : Nat) :
    redactNode redact address node { seen, omitted } =
      (nodeTree function address node).map fun redacted =>
        (redacted.tree, { seen, omitted := omitted + redacted.total }) := by
  cases node with
  | array items =>
    rw [redactNode, redactEach_eq Redacted.tree Redacted.total each, nodeTree, Option.map_map,
      Option.map_map]
    congr 1
    funext results
    simp only [Function.comp_apply, total_arrayTree]
    rfl
  | binary byteLength => simp [redactNode, nodeTree, Redacted.total, RedactionState.addOmitted]
  | foreign => simp [redactNode, nodeTree, Redacted.total]
  | plain properties =>
    rw [redactNode, nodeTree]
    split
    · simp [Redacted.total, RedactionState.addOmitted]
    · have eachProperty : ∀ (property : JsString × GraphValue) (omitted : Nat),
          ((redact property.2 { seen, omitted }).map fun result =>
            ((property.1, result.1), result.2)) =
            ((function property.2).map fun redacted => (property.1, redacted)).map
              fun result => ((result.1, result.2.tree),
                { seen, omitted := omitted + result.2.total }) := by
        intro property omitted
        rw [each, Option.map_map, Option.map_map]
        rfl
      rw [redactEach_eq (fun result : JsString × Redacted => (result.1, result.2.tree))
        (fun result => result.2.total) eachProperty, Option.map_map, Option.map_map]
      congr 1
      funext results
      simp only [Function.comp_apply, total_plainTree]
      rfl

/-- The walk of a value gives its tree, restores the ancestors, and counts what was
dropped. -/
theorem redactInlineMediaForText_eq
    (nodes : List GraphNode) (fuel : Nat) (value : GraphValue) (state : RedactionState) :
    redactInlineMediaForText nodes fuel value state =
      (redactTree nodes fuel state.seen value).map fun redacted =>
        (redacted.tree, { state with omitted := state.omitted + redacted.total }) := by
  induction fuel generalizing value state with
  | zero =>
    cases value with
    | primitive value => rw [redactPrimitive_eq, redactTree, Option.map_some]
    | object address => rfl
  | succ fuel ih =>
    cases value with
    | primitive value => rw [redactPrimitive_eq, redactTree, Option.map_some]
    | object address =>
      rw [redactInlineMediaForText, redactTree]
      split
      · simp [Redacted.total]
      · rename_i fresh
        cases nodes[address]? with
        | none => rfl
        | some node =>
          have each : ∀ value omitted,
              redactInlineMediaForText nodes fuel value
                  { seen := address :: state.seen, omitted } =
                (redactTree nodes fuel (address :: state.seen) value).map
                  fun redacted => (redacted.tree,
                    { seen := address :: state.seen
                      omitted := omitted + redacted.total }) :=
            fun value omitted => ih value _
          rw [Option.bind_some, Option.bind_some, redactNode_eq each, Option.map_map]
          congr 1
          funext redacted
          have restored : (address :: state.seen).filter
              (fun other => decide (other ≠ address)) = state.seen := by
            rw [List.filter_cons_of_neg (by simp), List.filter_eq_self]
            exact fun other isSeen => decide_eq_true fun same => fresh (same ▸ isSeen)
          simp only [Function.comp_apply, RedactionState.leave, restored]

end Refinement

/-! ## The walk ends -/

theorem exists_mapM
    {change : α → Option β} {items : List α}
    (each : ∀ item ∈ items, ∃ result, change item = some result) :
    ∃ results, items.mapM change = some results := by
  induction items with
  | nil => exact ⟨[], rfl⟩
  | cons item rest ih =>
    obtain ⟨first, changed⟩ := each item List.mem_cons_self
    obtain ⟨others, changedRest⟩ :=
      ih fun other isRest => each other (List.mem_cons_of_mem _ isRest)
    exact ⟨first :: others, by rw [List.mapM_cons, changed, changedRest]; rfl⟩

theorem exists_redactTree
    (graph : ValueGraph) {fuel : Nat} {seen : List Nat} {value : GraphValue}
    (distinct : seen.Nodup) (inside : ∀ address ∈ seen, address < graph.nodes.length)
    (lasts : graph.nodes.length + 1 ≤ fuel + seen.length)
    (closed : ∀ address, value = .object address → address < graph.nodes.length) :
    ∃ redacted, redactTree graph.nodes fuel seen value = some redacted := by
  induction fuel generalizing seen value with
  | zero =>
    have few := (distinct.subperm fun address isSeen =>
      List.mem_range.mpr (inside address isSeen)).length_le
    rw [List.length_range] at few
    omega
  | succ fuel ih =>
    cases value with
    | primitive value => exact ⟨_, rfl⟩
    | object address =>
      have isInside := closed address rfl
      rw [redactTree]
      split
      · exact ⟨_, rfl⟩
      · rename_i fresh
        have isNode := List.getElem?_eq_getElem isInside
        have below : ∀ child ∈ graph.nodes[address].children,
            ∃ redacted, redactTree graph.nodes fuel (address :: seen) child =
              some redacted := fun child isChild =>
          ih (List.nodup_cons.mpr ⟨fresh, distinct⟩) (List.forall_mem_cons.mpr ⟨isInside, inside⟩)
            (by rw [List.length_cons]; omega)
            fun other same => graph.nodesClosed _ (List.getElem_mem isInside) other
              (same ▸ isChild)
        rw [isNode, Option.bind_some]
        generalize graph.nodes[address] = node at below
        cases node with
        | array items =>
          obtain ⟨results, collected⟩ := exists_mapM below
          rw [GraphNode.children] at collected
          exact ⟨arrayTree results, by rw [nodeTree, collected]; rfl⟩
        | binary byteLength | foreign => exact ⟨_, rfl⟩
        | plain properties =>
          rw [nodeTree]
          split
          · exact ⟨_, rfl⟩
          · have each : ∀ property ∈ properties.entries, ∃ result,
                ((redactTree graph.nodes fuel (address :: seen) property.2).map
                  fun redacted => (property.1, redacted)) = some result := by
              intro property isProperty
              obtain ⟨redacted, isRedacted⟩ :=
                below property.2 (List.mem_map_of_mem isProperty)
              exact ⟨_, by rw [isRedacted]; rfl⟩
            obtain ⟨results, collected⟩ := exists_mapM each
            exact ⟨plainTree results, by rw [collected]; rfl⟩

theorem exists_redactGraph (graph : ValueGraph) :
    ∃ redacted, redactTree graph.nodes (graph.nodes.length + 1) [] graph.root = some redacted ∧
      redactGraph graph = some (redacted.tree, { seen := [], omitted := redacted.total }) := by
  obtain ⟨redacted, isRedacted⟩ := exists_redactTree graph List.nodup_nil (by simp)
    (Nat.le_refl _) graph.rootClosed
  refine ⟨redacted, isRedacted, ?_⟩
  rw [redactGraph, redactInlineMediaForText_eq, isRedacted, Option.map_some, Nat.zero_add]

end Relavium.Tools
