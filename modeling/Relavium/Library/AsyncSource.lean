import Mathlib.Data.List.Basic

/-!
# Draining an asynchronous source

A consumer that iterates over an asynchronous source with `for await` sees a
finite sequence of items, then the end of the source or a failed read.  A body
that leaves the loop early closes the iterator: a body that fails keeps its
own cause, but a body that merely leaves is overtaken by a close that rejects.
-/

namespace Relavium.Library

/-- How reading a source ends. -/
inductive SourceEnd (ε : Type u)
  | eof
  | throws (cause : ε)

/-- How the `return` method of an iterator answers. -/
inductive SourceClose (ε : Type u)
  /-- The iterator has no `return` method. -/
  | absent
  | resolves
  | rejects (cause : ε)

/-- Everything a consumer can observe of a source. -/
structure AsyncSource (α : Type v) (ε : Type u) where
  items : List α
  ending : SourceEnd ε
  onReturn : SourceClose ε

/-- What one round of a loop body does, after yielding some values. -/
inductive Round (σ : Type u) (β : Type v) (ε : Type w)
  /-- The body asks for the next item. -/
  | next (yielded : List β) (state : σ)
  /-- The body leaves the loop. -/
  | leave (yielded : List β) (state : σ)
  /-- The body throws. -/
  | fail (yielded : List β) (state : σ) (cause : ε)

/-- How a loop or a generator is left. -/
inductive Exit (ε : Type u)
  /-- The source came to its end. -/
  | exhausted
  /-- The body left the loop. -/
  | left
  | threw (cause : ε)

/-- What a loop yields, the state it leaves behind and how it ends. -/
structure Walk (σ : Type u) (β : Type v) (ε : Type w) where
  yielded : List β
  state : σ
  exit : Exit ε

/-- How leaving a loop ends, after its iterator was closed. -/
def SourceClose.exit : SourceClose ε → Exit ε
  | .absent => .left
  | .resolves => .left
  | .rejects cause => .threw cause

namespace Walk

/-- The same walk, after earlier values. -/
def prepend (yielded : List β) (walk : Walk σ β ε) : Walk σ β ε :=
  { walk with yielded := yielded ++ walk.yielded }

@[simp] theorem prepend_yielded (yielded : List β) (walk : Walk σ β ε) :
    (walk.prepend yielded).yielded = yielded ++ walk.yielded := rfl

@[simp] theorem prepend_state (yielded : List β) (walk : Walk σ β ε) :
    (walk.prepend yielded).state = walk.state := rfl

@[simp] theorem prepend_exit (yielded : List β) (walk : Walk σ β ε) :
    (walk.prepend yielded).exit = walk.exit := rfl

theorem prepend_prepend (first second : List β) (walk : Walk σ β ε) :
    (walk.prepend second).prepend first = walk.prepend (first ++ second) := by
  simp [prepend]

end Walk

/-- A `for await` loop over the items that a source has left. -/
def forAwait (source : AsyncSource α ε)
    (body : σ → α → Round σ β ε) : σ → List α → Walk σ β ε
  | state, [] =>
    match source.ending with
    | .eof => { yielded := [], state, exit := .exhausted }
    | .throws cause => { yielded := [], state, exit := .threw cause }
  | state, item :: rest =>
    match body state item with
    | .next yielded state => (forAwait source body state rest).prepend yielded
    | .leave yielded state => { yielded, state, exit := source.onReturn.exit }
    | .fail yielded state cause => { yielded, state, exit := .threw cause }

section Loop

variable {source : AsyncSource α ε} {body : σ → α → Round σ β ε}

theorem forAwait_cons_next
    {state after : σ} {item : α} {yielded : List β}
    (round : body state item = .next yielded after) (rest : List α) :
    forAwait source body state (item :: rest) =
      (forAwait source body after rest).prepend yielded := by
  rw [forAwait, round]

theorem forAwait_cons_leave
    {state after : σ} {item : α} {yielded : List β}
    (round : body state item = .leave yielded after) (rest : List α) :
    forAwait source body state (item :: rest) =
      { yielded, state := after, exit := source.onReturn.exit } := by
  rw [forAwait, round]

theorem forAwait_forward
    {body : σ → α → Round σ α ε} {state : σ} {leading : List α}
    (forwards : ∀ item ∈ leading, body state item = .next [item] state) (rest : List α) :
    forAwait source body state (leading ++ rest) =
      (forAwait source body state rest).prepend leading := by
  induction leading with
  | nil => rfl
  | cons item leading ih =>
    have first := forwards item List.mem_cons_self
    have others : ∀ other ∈ leading, body state other = .next [other] state :=
      fun other member => forwards other (List.mem_cons_of_mem item member)
    rw [List.cons_append, forAwait_cons_next first, ih others, Walk.prepend_prepend]
    rfl

end Loop

end Relavium.Library
