import Mathlib.Data.List.Basic

/-!
# Trees of tagged units

A string may be a sequence of units, each with a header that states its tag and
the length of its content.  The content of some units is a preamble followed by
further units, so that the units of every level tile the level above.
-/

namespace Relavium.Library

/-- A unit that holds symbols, or a preamble and further units. -/
inductive TiledTree (κ β : Type)
  | leaf (tag : κ) (payload : List β)
  | master (tag : κ) (preamble : List β) (children : List (TiledTree κ β))

namespace TiledTree

variable {κ β ω : Type}

def tag : TiledTree κ β → κ
  | .leaf tag _ => tag
  | .master tag _ _ => tag

mutual

/-- A string encodes a unit: a header for the tag and the length of the content,
and the content. -/
inductive Encodes (header : κ → Nat → List β → Prop) : TiledTree κ β → List β → Prop
  | leaf {tag : κ} {payload start : List β} :
      header tag payload.length start →
      Encodes header (.leaf tag payload) (start ++ payload)
  | master {tag : κ} {preamble content start : List β} {children : List (TiledTree κ β)} :
      header tag (preamble ++ content).length start →
      Tiles header children content →
      Encodes header (.master tag preamble children) (start ++ (preamble ++ content))

/-- A string is tiled by units. -/
inductive Tiles (header : κ → Nat → List β → Prop) : List (TiledTree κ β) → List β → Prop
  | nil : Tiles header [] []
  | cons {tree : TiledTree κ β} {trees : List (TiledTree κ β)} {first rest : List β} :
      Encodes header tree first →
      Tiles header trees rest →
      Tiles header (tree :: trees) (first ++ rest)

end

/-- A string is the content of a unit. -/
inductive Fills (header : κ → Nat → List β → Prop) : TiledTree κ β → List β → Prop
  | leaf {tag : κ} {payload : List β} : Fills header (.leaf tag payload) payload
  | master {tag : κ} {preamble content : List β} {children : List (TiledTree κ β)} :
      Tiles header children content →
      Fills header (.master tag preamble children) (preamble ++ content)

theorem Fills.encodes
    {header : κ → Nat → List β → Prop} {tree : TiledTree κ β} {start content : List β}
    (fills : Fills header tree content) (isHeader : header tree.tag content.length start) :
    Encodes header tree (start ++ content) := by
  cases fills with
  | leaf => exact .leaf isHeader
  | master tiles => exact .master isHeader tiles

/-- A unit of a tree with the context and the depth in which it stands. -/
structure Place (κ β ω : Type) where
  context : ω
  depth : Nat
  tree : TiledTree κ β

mutual

/-- The units below a sequence of units, outer ones first.  The children of a unit
stand in the context that its own context and its tag determine. -/
def placesIn
    (inner : ω → κ → Option ω) (context : ω)
    (depth : Nat) : List (TiledTree κ β) → List (Place κ β ω)
  | [] => []
  | tree :: rest => placesOf inner context depth tree ++ placesIn inner context depth rest

/-- A unit with the units below it. -/
def placesOf
    (inner : ω → κ → Option ω) (context : ω) (depth : Nat) : TiledTree κ β → List (Place κ β ω)
  | .leaf tag payload => [⟨context, depth, .leaf tag payload⟩]
  | .master tag preamble children =>
    ⟨context, depth, .master tag preamble children⟩ ::
      match inner context tag with
      | some below => placesIn inner below (depth + 1) children
      | none => []

end

variable {inner : ω → κ → Option ω}

@[simp] theorem placesIn_nil (context : ω) (depth : Nat) :
    placesIn inner context depth ([] : List (TiledTree κ β)) = [] := by
  rw [placesIn]

@[simp] theorem placesIn_cons
    (context : ω) (depth : Nat) (tree : TiledTree κ β) (rest : List (TiledTree κ β)) :
    placesIn inner context depth (tree :: rest) =
      placesOf inner context depth tree ++ placesIn inner context depth rest := by
  rw [placesIn]

@[simp] theorem placesOf_leaf (context : ω) (depth : Nat) (tag : κ) (payload : List β) :
    placesOf inner context depth (.leaf tag payload) =
      [⟨context, depth, .leaf tag payload⟩] := by
  rw [placesOf]

theorem placesOf_master
    {context below : ω} {depth : Nat} {tag : κ} (isParsed : inner context tag = some below)
    (preamble : List β) (children : List (TiledTree κ β)) :
    placesOf inner context depth (.master tag preamble children) =
      ⟨context, depth, .master tag preamble children⟩ ::
        placesIn inner below (depth + 1) children := by
  rw [placesOf, isParsed]

/-- The units of a unit's content. -/
def children : TiledTree κ β → List (TiledTree κ β)
  | .leaf _ _ => []
  | .master _ _ children => children

/-- The units that are reached from some units through masters of the given tags. -/
def descend [DecidableEq κ] : List κ → List (TiledTree κ β) → List (TiledTree κ β)
  | [], trees => trees
  | tag :: path, trees => descend path ((trees.filter (·.tag = tag)).flatMap children)

section

variable [DecidableEq κ]

@[simp] theorem descend_nil (trees : List (TiledTree κ β)) :
    descend [] trees = trees :=
  rfl

@[simp] theorem descend_none (path : List κ) :
    descend path ([] : List (TiledTree κ β)) = [] := by
  induction path with
  | nil => rfl
  | cons tag path ih => exact ih

theorem descend_append (path : List κ) (first rest : List (TiledTree κ β)) :
    descend path (first ++ rest) = descend path first ++ descend path rest := by
  induction path generalizing first rest with
  | nil => rfl
  | cons tag path ih =>
    simp only [descend, List.filter_append, List.flatMap_append, ih]

/-- A path goes through the first unit or through the others. -/
theorem descend_cons_cons
    (tag : κ) (path : List κ) (tree : TiledTree κ β) (rest : List (TiledTree κ β)) :
    descend (tag :: path) (tree :: rest) =
      (if tree.tag = tag then descend path tree.children else []) ++
        descend (tag :: path) rest := by
  rw [show tree :: rest = [tree] ++ rest from rfl, descend_append]
  congr 1
  by_cases isTag : tree.tag = tag
  · simp [descend, isTag]
  · simp [descend, isTag]

/-- What is reached from some units is reached from more of them. -/
theorem mem_descend_cons
    {path : List κ} {tree reached : TiledTree κ β} {rest : List (TiledTree κ β)}
    (isReached : reached ∈ descend path rest) :
    reached ∈ descend path (tree :: rest) := by
  rw [show tree :: rest = [tree] ++ rest from rfl, descend_append]
  exact List.mem_append_right _ isReached

theorem mem_descend_children
    {path : List κ} {tree reached : TiledTree κ β} {rest : List (TiledTree κ β)}
    (isReached : reached ∈ descend path tree.children) :
    reached ∈ descend (tree.tag :: path) (tree :: rest) := by
  rw [descend_cons_cons, if_pos rfl]
  exact List.mem_append_left _ isReached

end

end TiledTree

end Relavium.Library
