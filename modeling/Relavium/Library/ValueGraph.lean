import Mathlib.Logic.Relation
import Relavium.Library.NumericLiteral
import Relavium.Library.OrderedMap

/-!
# Value graphs and their trees

A value is a primitive or an object of a graph; objects may be shared and may lie on
cycles.  A part of a graph without cycles unfolds to a tree, which shows each shared
object once for every way that leads to it.
-/

namespace Relavium.Library

/-- A value without identity. -/
inductive GraphPrimitive
  | undefined
  | null
  | boolean (value : Bool)
  | number (value : JsNumber)
  | bigint (value : Int)
  | string (value : JsString)
  | symbol
  | function
  deriving DecidableEq

inductive GraphValue
  | primitive (value : GraphPrimitive)
  | object (address : Nat)
  deriving DecidableEq

/-- An object of a graph. -/
inductive GraphNode
  | array (items : List GraphValue)
  | plain (properties : OrderedMap JsString GraphValue)
  /-- A buffer of bytes or a view of one. -/
  | binary (byteLength : Nat)
  /-- An instance of any other class. -/
  | foreign

/-- The values that an object holds. -/
def GraphNode.children : GraphNode → List GraphValue
  | .array items => items
  | .plain properties => properties.values
  | .binary _ | .foreign => []

/-- A finite graph with a value of it; every address is that of an object. -/
structure ValueGraph where
  nodes : List GraphNode
  root : GraphValue
  rootClosed : ∀ address, root = .object address → address < nodes.length
  nodesClosed : ∀ node ∈ nodes, ∀ address, .object address ∈ node.children →
    address < nodes.length

/-- A value without sharing and cycles.  Instances of other classes stay what they
are. -/
inductive ValueTree
  | primitive (value : GraphPrimitive)
  | array (items : List ValueTree)
  | plain (properties : List (JsString × ValueTree))
  | foreign (address : Nat)

/-- A step from an object to a value it holds. -/
inductive TreeStep
  | index (index : Nat)
  | key (key : JsString)

/-- The value that a step leads to. -/
def ValueTree.child : ValueTree → TreeStep → Option ValueTree
  | .array items, .index index => items[index]?
  | .plain properties, .key key => OrderedMap.lookupEntry key properties
  | _, _ => none

/-- The value that steps lead to. -/
def ValueTree.follow : ValueTree → List TreeStep → Option ValueTree
  | tree, [] => some tree
  | tree, step :: rest => (tree.child step).bind fun next => next.follow rest

section Graph

variable (nodes : List GraphNode)

/-- One value holds the other. -/
def Holds (value other : GraphValue) : Prop :=
  ∃ address node, value = .object address ∧ nodes[address]? = some node ∧
    other ∈ node.children

/-- The tree of a part of the graph that has no cycle and all of whose values are
admitted. -/
inductive Unfolds (admitted : GraphValue → Prop) : GraphValue → ValueTree → Prop
  | primitive
      {value : GraphPrimitive}
      (admits : admitted (.primitive value)) :
      Unfolds admitted (.primitive value) (.primitive value)
  | foreign
      {address : Nat}
      (isNode : nodes[address]? = some .foreign)
      (admits : admitted (.object address)) :
      Unfolds admitted (.object address) (.foreign address)
  | array
      {address : Nat}
      {items : List GraphValue}
      {trees : List ValueTree}
      (isNode : nodes[address]? = some (.array items))
      (admits : admitted (.object address))
      (length : trees.length = items.length)
      (each : ∀ (index : Nat) item tree, items[index]? = some item → trees[index]? = some tree →
        Unfolds admitted item tree) :
      Unfolds admitted (.object address) (.array trees)
  | plain
      {address : Nat}
      {properties : OrderedMap JsString GraphValue}
      {members : List (JsString × ValueTree)}
      (isNode : nodes[address]? = some (.plain properties))
      (admits : admitted (.object address))
      (keys : members.map Prod.fst = properties.entries.map Prod.fst)
      (each : ∀ (index : Nat) property member, properties.entries[index]? = some property →
        members[index]? = some member → Unfolds admitted property.2 member.2) :
      Unfolds admitted (.object address) (.plain members)

variable
  {nodes}
  {admitted : GraphValue → Prop}
  {value other : GraphValue}
  {tree : ValueTree}

/-- A value unfolds to one tree at most. -/
theorem Unfolds.unique
    (unfolds : Unfolds nodes admitted value tree) {second : ValueTree}
    (unfoldsAgain : Unfolds nodes admitted value second) :
    tree = second := by
  induction unfolds generalizing second with
  | primitive admits =>
    cases unfoldsAgain with
    | primitive _ => rfl
  | foreign isNode admits =>
    cases unfoldsAgain with
    | foreign _ _ => rfl
    | array isOther _ _ _ | plain isOther _ _ _ => simp [isNode] at isOther
  | @array address items trees isNode admits length each ih =>
    cases unfoldsAgain with
    | foreign isOther _ | plain isOther _ _ _ => simp [isNode] at isOther
    | @array _ _ others isOther _ otherLength otherEach =>
      obtain rfl : items = _ := by simpa [isNode] using isOther
      congr 1
      refine List.ext_getElem (length.trans otherLength.symm) fun index inTrees inOthers => ?_
      have inItems : index < items.length := length ▸ inTrees
      exact ih index _ _ (List.getElem?_eq_getElem inItems) (List.getElem?_eq_getElem inTrees)
        (otherEach index _ _ (List.getElem?_eq_getElem inItems)
          (List.getElem?_eq_getElem inOthers))
  | @plain address properties members isNode admits keys each ih =>
    cases unfoldsAgain with
    | foreign isOther _ | array isOther _ _ _ => simp [isNode] at isOther
    | @plain _ _ others isOther _ otherKeys otherEach =>
      obtain rfl : properties = _ := by simpa [isNode] using isOther
      have sameKeys := keys.trans otherKeys.symm
      have length : members.length = properties.entries.length := by
        simpa using congrArg List.length keys
      have otherLength : others.length = properties.entries.length := by
        simpa using congrArg List.length otherKeys
      congr 1
      refine List.ext_getElem (length.trans otherLength.symm) fun index inMembers inOthers => ?_
      have inEntries : index < properties.entries.length := length ▸ inMembers
      have sameTree := ih index _ _ (List.getElem?_eq_getElem inEntries)
        (List.getElem?_eq_getElem inMembers)
        (otherEach index _ _ (List.getElem?_eq_getElem inEntries)
          (List.getElem?_eq_getElem inOthers))
      have sameKey : members[index].1 = others[index].1 := by
        have same := congrArg (·[index]?) sameKeys
        simpa [List.getElem?_eq_getElem inMembers, List.getElem?_eq_getElem inOthers] using same
      exact Prod.ext sameKey sameTree

theorem Unfolds.of_holds
    (unfolds : Unfolds nodes admitted value tree) (holds : Holds nodes value other) :
    ∃ smaller, Unfolds nodes admitted other smaller ∧ sizeOf smaller < sizeOf tree := by
  obtain ⟨address, node, rfl, isNode, isChild⟩ := holds
  cases unfolds with
  | foreign isOther _ =>
    cases isNode.symm.trans isOther
    simp [GraphNode.children] at isChild
  | @array _ items trees isOther _ length each =>
    cases isNode.symm.trans isOther
    obtain ⟨index, inItems, rfl⟩ := List.mem_iff_getElem.mp isChild
    have inTrees : index < trees.length := length ▸ inItems
    refine ⟨trees[index], each index _ _ (List.getElem?_eq_getElem inItems)
      (List.getElem?_eq_getElem inTrees), ?_⟩
    have below := List.sizeOf_lt_of_mem (List.getElem_mem inTrees)
    simp only [ValueTree.array.sizeOf_spec]
    omega
  | @plain _ properties members isOther _ keys each =>
    cases isNode.symm.trans isOther
    obtain ⟨index, inValues, rfl⟩ := List.mem_iff_getElem.mp isChild
    have inEntries : index < properties.entries.length := by
      simpa [GraphNode.children, OrderedMap.values] using inValues
    have inMembers : index < members.length := by
      have length : members.length = properties.entries.length := by
        simpa using congrArg List.length keys
      omega
    refine ⟨members[index].2, ?_, ?_⟩
    · have unfoldsMember := each index _ _ (List.getElem?_eq_getElem inEntries)
        (List.getElem?_eq_getElem inMembers)
      simpa [GraphNode.children, OrderedMap.values] using unfoldsMember
    · have below := List.sizeOf_lt_of_mem (List.getElem_mem inMembers)
      have parts : sizeOf members[index].2 < sizeOf members[index] := by
        cases members[index]
        simp only [Prod.mk.sizeOf_spec]
        omega
      simp only [ValueTree.plain.sizeOf_spec]
      omega

/-- What a value leads to unfolds to a tree no larger. -/
theorem Unfolds.of_leads
    (unfolds : Unfolds nodes admitted value tree)
    (leads : Relation.ReflTransGen (Holds nodes) value other) :
    ∃ smaller, Unfolds nodes admitted other smaller ∧ sizeOf smaller ≤ sizeOf tree := by
  induction leads with
  | refl => exact ⟨tree, unfolds, le_refl _⟩
  | tail _ holds ih =>
    obtain ⟨middle, unfoldsMiddle, belowMiddle⟩ := ih
    obtain ⟨smaller, unfoldsSmaller, below⟩ := unfoldsMiddle.of_holds holds
    exact ⟨smaller, unfoldsSmaller, by omega⟩

/-- A part that unfolds lies on no cycle. -/
theorem Unfolds.acyclic
    (unfolds : Unfolds nodes admitted value tree) (holds : Holds nodes value other) :
    ¬Relation.ReflTransGen (Holds nodes) other value := by
  intro back
  obtain ⟨smaller, unfoldsOther, below⟩ := unfolds.of_holds holds
  obtain ⟨again, unfoldsAgain, notLarger⟩ := unfoldsOther.of_leads back
  rw [unfolds.unique unfoldsAgain] at below
  omega

end Graph

end Relavium.Library
