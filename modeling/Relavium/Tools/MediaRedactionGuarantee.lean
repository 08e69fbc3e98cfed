import Relavium.Tools.MediaRedactionPlaces

/-!
# What redaction guarantees

The redaction of every value graph ends with a tree without inline media, which shows
every part without media and cycles as it unfolds.  A result is handed to the model
untouched only if its text and everything the text leaves out are within the ceiling.
-/

namespace Relavium.Tools

open Library
open Shared (isBase64DataUri kindKey base64Key)

variable {nodes : List GraphNode}

/-! ## The parts that stay -/

theorem lookup_plainTree
    {properties : OrderedMap JsString GraphValue} {redact : GraphValue → Option Redacted}
    {results : List (JsString × Redacted)}
    (collected : (properties.entries.mapM fun property =>
      (redact property.2).map fun redacted => (property.1, redacted)) = some results)
    {key : JsString}
    {child : GraphValue}
    (isMember : properties.get key = some child) :
    ∃ redacted, redact child = some redacted ∧
      (plainTree results).tree.child (.key key) = some redacted.tree := by
  obtain ⟨index, inside, atIndex⟩ :=
    List.mem_iff_getElem.mp ((properties.mem_entries_iff key child).mpr isMember)
  obtain ⟨result, isResult, changed⟩ := (getElem_of_mapM collected).2 index _
    (List.getElem?_eq_some_iff.mpr ⟨inside, atIndex⟩)
  obtain ⟨redacted, isRedacted, rfl⟩ := Option.map_eq_some_iff.mp changed
  refine ⟨redacted, isRedacted, ?_⟩
  have distinct : ((results.map fun property => (property.1, property.2.tree)).map
      Prod.fst).Nodup := by
    rw [List.map_map]
    exact (show results.map Prod.fst = _ from keys_of_mapM collected) ▸ properties.nodupKeys
  exact (OrderedMap.lookupEntry_eq_some_iff distinct _ _).mpr
    (List.mem_map.mpr ⟨_, List.mem_of_getElem? isResult, rfl⟩)

variable {fuel : Nat} {redacted : Redacted}

/-- The tree follows the walk: where the walk comes to a part, the tree holds the
redaction of the part. -/
theorem follow_of_walked
    {seen below : List Nat} {value part : GraphValue} {steps : List TreeStep}
    (walked : Walked nodes seen value steps below part)
    (isRedacted : redactTree nodes fuel seen value = some redacted) :
    ∃ left partRedacted, redactTree nodes left below part = some partRedacted ∧
      redacted.tree.follow steps = some partRedacted.tree := by
  induction walked generalizing fuel redacted with
  | here seen value => exact ⟨fuel, redacted, isRedacted, rfl⟩
  | @item seen below address index items child part steps fresh isNode isItem later
      ih =>
      obtain ⟨isSeen, -⟩ | ⟨-, left, node, -, isOther, isTree⟩ := redactTree_object isRedacted
      · exact absurd isSeen fresh
      · cases isNode.symm.trans isOther
        obtain ⟨results, collected, rfl⟩ := Option.map_eq_some_iff.mp isTree
        obtain ⟨childRedacted, isResult, isChild⟩ :=
          (getElem_of_mapM collected).2 index child isItem
        obtain ⟨fuelLeft, partRedacted, isPart, follows⟩ := ih isChild
        refine ⟨fuelLeft, partRedacted, isPart, ?_⟩
        have step : (arrayTree results).tree.child (.index index) = some childRedacted.tree := by
          simp [arrayTree, ValueTree.child, isResult]
        rw [ValueTree.follow, step, Option.bind_some, follows]
  | @member seen below address key properties child part steps fresh isNode notSource isMember
      later ih =>
      obtain ⟨isSeen, -⟩ | ⟨-, left, node, -, isOther, isTree⟩ := redactTree_object isRedacted
      · exact absurd isSeen fresh
      · cases isNode.symm.trans isOther
        rw [nodeTree, notSource, if_neg (by simp)] at isTree
        obtain ⟨results, collected, rfl⟩ := Option.map_eq_some_iff.mp isTree
        obtain ⟨childRedacted, isChild, step⟩ := lookup_plainTree collected isMember
        obtain ⟨fuelLeft, partRedacted, isPart, follows⟩ := ih isChild
        exact ⟨fuelLeft, partRedacted, isPart, by
          rw [ValueTree.follow, step, Option.bind_some, follows]⟩

/-- A value that carries no inline media itself. -/
def CarriesNone (nodes : List GraphNode)
    (value : GraphValue) : Prop :=
  ∀ seen length, ¬Dropped nodes seen value length

/-- One object leads to a value. -/
abbrev LeadsTo (nodes : List GraphNode) (address : Nat)
    (value : GraphValue) : Prop :=
  Relation.TransGen (Holds nodes) (.object address) value

theorem leads_of_walked
    {seen below : List Nat} {value part : GraphValue} {steps : List TreeStep}
    (walked : Walked nodes seen value steps below part)
    (leads : ∀ address ∈ seen, LeadsTo nodes address value) :
    ∀ address ∈ below, LeadsTo nodes address part := by
  induction walked with
  | here seen value => exact leads
  | @item seen below address index items child part steps fresh isNode isItem later
      ih =>
      have holds : Holds nodes (.object address) child :=
        ⟨address, _, rfl, isNode, List.mem_of_getElem? isItem⟩
      exact ih (List.forall_mem_cons.mpr
        ⟨.single holds, fun other isSeen => (leads other isSeen).tail holds⟩)
  | @member seen below address key properties child part steps fresh isNode notSource isMember
      later ih =>
      have holds : Holds nodes (.object address) child :=
        ⟨address, _, rfl, isNode, (properties.mem_values_iff child).mpr ⟨key, isMember⟩⟩
      exact ih (List.forall_mem_cons.mpr
        ⟨.single holds, fun other isSeen => (leads other isSeen).tail holds⟩)

/-- What a part without cycles holds leads neither to the part nor to what the part does
not lead to. -/
theorem apart_of_holds
    {address : Nat} {child : GraphValue} {tree : ValueTree} {seen : List Nat}
    (unfolds : Unfolds nodes (CarriesNone nodes) (.object address) tree)
    (apart : ∀ other ∈ seen,
      ¬Relation.ReflTransGen (Holds nodes) (.object address) (.object other))
    (holds : Holds nodes (.object address) child) :
    ∀ other ∈ address :: seen, ¬Relation.ReflTransGen (Holds nodes) child (.object other) :=
  List.forall_mem_cons.mpr ⟨unfolds.acyclic holds,
    fun other isSeen leads => apart other isSeen (.head holds leads)⟩

/-- A part without media and cycles becomes its tree, below ancestors that it does not
lead to. -/
theorem tree_of_unfolds
    {value : GraphValue} {tree : ValueTree}
    (unfolds : Unfolds nodes (CarriesNone nodes) value tree) {seen : List Nat}
    (apart : ∀ address ∈ seen,
      ¬Relation.ReflTransGen (Holds nodes) value (.object address))
    (isRedacted : redactTree nodes fuel seen value = some redacted) :
    redacted.tree = tree := by
  induction unfolds generalizing fuel seen redacted with
  | @primitive value admits =>
    rw [redactTree] at isRedacted
    cases isRedacted
    cases value with
    | string text =>
      have notUri : ¬isBase64DataUri text = true := fun isUri =>
        admits seen _ (.dataUri isUri)
      rw [primitiveTree, if_neg notUri]
    | _ => rfl
  | @foreign address isNode admits =>
    obtain ⟨isSeen, -⟩ | ⟨fresh, left, node, -, isOther, isTree⟩ :=
      redactTree_object isRedacted
    · exact absurd .refl (apart address isSeen)
    · cases isNode.symm.trans isOther
      cases isTree
      rfl
  | @array address items trees isNode admits length each ih =>
    obtain ⟨isSeen, -⟩ | ⟨fresh, left, node, -, isOther, isTree⟩ :=
      redactTree_object isRedacted
    · exact absurd .refl (apart address isSeen)
    · cases isNode.symm.trans isOther
      obtain ⟨results, collected, rfl⟩ := Option.map_eq_some_iff.mp isTree
      have whole : Unfolds nodes (CarriesNone nodes) (.object address) (.array trees) :=
        .array isNode admits length each
      have sameLength : results.length = trees.length :=
        (getElem_of_mapM collected).1.trans length.symm
      refine congrArg ValueTree.array (List.ext_getElem (by simpa using sameLength)
        fun index inResults inTrees => ?_)
      have inside : index < results.length := by simpa using inResults
      rw [List.getElem_map]
      obtain ⟨item, isItem, itemRedacted⟩ :=
        mem_of_mapM collected (List.getElem?_eq_getElem inside)
      have holds : Holds nodes (.object address) item :=
        ⟨address, _, rfl, isNode, List.mem_of_getElem? isItem⟩
      exact ih index item _ isItem (List.getElem?_eq_getElem inTrees)
        (apart_of_holds whole apart holds) itemRedacted
  | @plain address properties members isNode admits keys each ih =>
    obtain ⟨isSeen, -⟩ | ⟨fresh, left, node, -, isOther, isTree⟩ :=
      redactTree_object isRedacted
    · exact absurd .refl (apart address isSeen)
    · cases isNode.symm.trans isOther
      have notSource : ¬isCanonicalBase64Source properties = true := fun isSource =>
        admits seen _ (.source fresh isNode isSource)
      rw [nodeTree, if_neg notSource] at isTree
      obtain ⟨results, collected, rfl⟩ := Option.map_eq_some_iff.mp isTree
      have whole : Unfolds nodes (CarriesNone nodes) (.object address) (.plain members) :=
        .plain isNode admits keys each
      have sameKeys : results.map Prod.fst = members.map Prod.fst :=
        (keys_of_mapM collected).trans keys.symm
      have sameLength : results.length = members.length := by
        simpa using congrArg List.length sameKeys
      refine congrArg ValueTree.plain (List.ext_getElem (by simpa using sameLength)
        fun index inResults inMembers => ?_)
      have inside : index < results.length := by simpa using inResults
      rw [List.getElem_map]
      obtain ⟨property, isProperty, changed⟩ :=
        mem_of_mapM collected (List.getElem?_eq_getElem inside)
      obtain ⟨propertyRedacted, isPropertyRedacted, same⟩ := Option.map_eq_some_iff.mp changed
      have holds : Holds nodes (.object address) property.2 :=
        ⟨address, _, rfl, isNode, List.mem_map_of_mem (List.mem_of_getElem? isProperty)⟩
      have sameTree := ih index property _ isProperty
        (List.getElem?_eq_getElem inMembers) (apart_of_holds whole apart holds)
        isPropertyRedacted
      have sameKey : results[index].1 = members[index].1 := by
        have atIndex := congrArg (·[index]?) sameKeys
        simpa [List.getElem?_eq_getElem inside, List.getElem?_eq_getElem inMembers] using atIndex
      rw [← same] at sameKey ⊢
      exact Prod.ext sameKey sameTree

/-! ## The guarantee -/

/-- What the redaction of a graph guarantees. -/
structure Redaction (graph : ValueGraph) (tree : ValueTree)
    (omitted : Nat) : Prop where
  /-- Nothing inline is left, at any depth. -/
  mediaFree : MediaFree tree
  /-- A part without media and cycles stands as it unfolds wherever the walk comes. -/
  parts : ∀ steps below part partTree, Walked graph.nodes [] graph.root steps below part →
    Unfolds graph.nodes (CarriesNone graph.nodes) part partTree →
      tree.follow steps = some partTree
  /-- The length omitted is that of everything the walk comes to that carries inline
  media. -/
  counted : ∃ drops, DropsAreDropped graph.nodes [] graph.root drops ∧
    omitted = (drops.map Prod.snd).sum

theorem redaction_of_redactTree
    {graph : ValueGraph} (isRedacted : redactTree graph.nodes fuel [] graph.root = some redacted) :
    Redaction graph redacted.tree redacted.total where
  mediaFree := mediaFree_of_redactTree isRedacted
  parts steps below part partTree walked unfolds := by
    obtain ⟨left, partRedacted, isPart, follows⟩ := follow_of_walked walked isRedacted
    have leads := leads_of_walked walked (by simp)
    -- An ancestor that the part led to would lie on a cycle through the part.
    have apart : ∀ address ∈ below,
        ¬Relation.ReflTransGen (Holds graph.nodes) part (.object address) := by
      intro address isSeen back
      obtain ⟨other, holds, onward⟩ :=
        Relation.TransGen.head'_iff.mp (Relation.TransGen.trans_right back (leads address isSeen))
      exact unfolds.acyclic holds onward
    rw [follows, tree_of_unfolds unfolds apart isPart]
  counted := ⟨redacted.drops, dropsAreDropped_of_redactTree isRedacted, rfl⟩

/-- What `boundForModel` does with a result. -/
structure Bounded (host : TextHost) (graph : ValueGraph) (limits : ToolResultLimits)
    (bounded : BoundedGraph) : Prop where
  /-- An untouched result is within the ceiling with everything its text leaves out. -/
  untouched : bounded.value = .untouched →
    ∃ drops, DropsAreDropped graph.nodes [] graph.root drops ∧
      utf8ByteLength (toText host graph).text + (drops.map Prod.snd).sum ≤ limits.maxBytes

/-- The texts of a result leave out what the walk of it drops. -/
theorem toText_omitted (host : TextHost) (graph : ValueGraph) :
    ∃ drops, DropsAreDropped graph.nodes [] graph.root drops ∧
      (toText host graph).omittedBytes = (drops.map Prod.snd).sum := by
  obtain ⟨redacted, isRedacted, isGraph⟩ := exists_redactGraph graph
  have dropped := dropsAreDropped_of_redactTree isRedacted
  refine ⟨redacted.drops, dropped, ?_⟩
  unfold toText
  cases root : graph.root with
  | object address => simp only [isGraph, Redacted.total]
  | primitive value =>
    rw [root, redactTree] at isRedacted
    cases isRedacted
    cases value with
    | string text =>
      simp only [primitiveTree]
      split <;> simp
    | undefined => rfl
    | _ => simp only [isGraph, Redacted.total]

/-- The redaction of every value graph ends, and the result is as it should be; what
`boundForModel` returns untouched is within the ceiling. -/
theorem redaction_keeps_media_out (graph : ValueGraph) :
    ∃ tree omitted, redactInlineMedia graph = some tree ∧ Redaction graph tree omitted ∧
      ∀ host limits spill aborted bounded,
        boundForModel host graph limits spill aborted = some bounded →
          Bounded host graph limits bounded := by
  obtain ⟨redacted, isRedacted, isGraph⟩ := exists_redactGraph graph
  refine ⟨redacted.tree, redacted.total, by rw [redactInlineMedia, isGraph]; rfl,
    redaction_of_redactTree isRedacted, ?_⟩
  intro host limits spill aborted bounded isBounded
  refine ⟨fun untouched => ?_⟩
  obtain ⟨drops, dropped, omitted⟩ := toText_omitted host graph
  refine ⟨drops, dropped, ?_⟩
  rw [← omitted]
  unfold boundForModel at isBounded
  dsimp only at isBounded
  split at isBounded
  · next within => exact within.1
  · split at isBounded
    · simp at isBounded
    · cases isBounded
      simp at untouched

/-! ## Where the redaction stops short -/

/-- The value is no object, or one of the first so many. -/
def isWithin (count : Nat) : GraphValue → Bool
  | .primitive _ => true
  | .object address => decide (address < count)

/-- The graph of one plain object and the objects it leads to. -/
def plainGraph (properties : OrderedMap JsString GraphValue) (others : List GraphNode)
    (closed : (GraphNode.plain properties :: others).all (fun node =>
      node.children.all (isWithin (others.length + 1))) = true) : ValueGraph where
  nodes := .plain properties :: others
  root := .object 0
  rootClosed _ isRoot := by
    obtain rfl := GraphValue.object.inj isRoot
    exact Nat.succ_pos _
  nodesClosed node isNode address isChild :=
    of_decide_eq_true (List.all_eq_true.mp (List.all_eq_true.mp closed node isNode) _ isChild)

/-- `isCanonicalBase64Source` of a tree. -/
def isSourceTree : ValueTree → Bool
  | .plain properties =>
    match OrderedMap.lookupEntry kindKey properties,
      OrderedMap.lookupEntry dataKey properties with
    | some (.primitive (.string kind)), some (.primitive (.string _)) =>
      decide (kind = base64Key)
    | _, _ => false
  | _ => false

/-- Whether a key of an object is a data URI. -/
def hasUriKey : ValueTree → Bool
  | .plain properties => properties.any fun property => isBase64DataUri property.1
  | _ => false

/-- A source whose data is a buffer. -/
def bufferAsData : ValueGraph :=
  plainGraph
    ((OrderedMap.empty.set kindKey (.primitive (.string base64Key))).set dataKey (.object 1))
    [.binary 3] (by decide)

/-- An object with a data URI for a key. -/
def uriAsKey : ValueGraph :=
  plainGraph (OrderedMap.empty.set (Library.jsText "data:;base64,AA==") (.primitive .null)) []
    (by decide)

/-- A marker in the place of its data makes a source of an object, and the key of an
object is kept as it is. -/
theorem redaction_leaves_source :
    (redactInlineMedia bufferAsData).map isSourceTree = some true ∧
      (redactInlineMedia uriAsKey).map hasUriKey = some true := by
  decide

end Relavium.Tools
