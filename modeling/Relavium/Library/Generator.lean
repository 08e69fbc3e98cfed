import Relavium.Library.Checks

/-!
# Generators

A generator returns a value, throws, or yields a request and goes on with the
answer.  A feeder answers the requests from a source.  Scripts are generators
with variables of their own; a run of a script is taken apart statement by
statement.
-/

namespace Relavium.Library

/-- A computation that yields requests of type `ι` and is resumed with answers of
type `ο`. -/
inductive Generator (ι ο ε : Type) (α : Type u)
  | returns (value : α)
  | throws (error : ε)
  | yields (request : ι) (resume : ο → Generator ι ο ε α)

namespace Generator

variable
  {ι ο ε τ : Type}

/-- Goes on with what the first generator returns. -/
def andThen (first : Generator ι ο ε α)
    (next : α → Generator ι ο ε β) : Generator ι ο ε β :=
  match first with
  | .returns value => next value
  | .throws error => .throws error
  | .yields request resume => .yields request fun answer => (resume answer).andThen next

instance : Monad (Generator ι ο ε) where
  pure := .returns
  bind := andThen

/-- Runs a generator against a feeder, which answers requests from a source. -/
def run (feed : ι → τ → Except ε (ο × τ)) :
    Generator ι ο ε α → τ → Except ε (α × τ)
  | .returns value, source => .ok (value, source)
  | .throws error, _ => .error error
  | .yields request resume, source =>
    match feed request source with
    | .ok (answer, rest) => (resume answer).run feed rest
    | .error error => .error error

theorem run_andThen
    (feed : ι → τ → Except ε (ο × τ)) (first : Generator ι ο ε α) (next : α → Generator ι ο ε β)
    (source : τ) :
    (first.andThen next).run feed source =
      match first.run feed source with
      | .ok (value, rest) => (next value).run feed rest
      | .error error => .error error := by
  induction first generalizing source with
  | returns value | throws error => rfl
  | yields request resume ih =>
    simp only [andThen, run]
    cases feed request source with
    | ok fed => exact ih fed.1 fed.2
    | error error => rfl

end Generator

/-- A generator with variables of its own. -/
abbrev Script (ι ο ε σ : Type) :=
  StateT σ (Generator ι ο ε)

namespace Script

variable
  {ι ο ε σ ρ τ α β : Type}

/-- Throws. -/
def throw (error : ε) : Script ι ο ε σ α :=
  fun _ => .throws error

/-- Throws unless the condition holds. -/
def require (condition : Prop) [Decidable condition]
    (error : ε) : Script ι ο ε σ Unit :=
  if condition then pure () else throw error

/-- Yields a request and returns its answer. -/
def ask (request : ι) : Script ι ο ε σ ο :=
  fun locals => .yields request fun answer => .returns (answer, locals)

/-- Reads a variable. -/
def read (view : σ → α) : Script ι ο ε σ α :=
  fun locals => .returns (view locals, locals)

/-- Writes a variable. -/
def write (change : σ → σ) : Script ι ο ε σ Unit :=
  fun locals => .returns ((), change locals)

/-- A script with variables of its own inside another one. -/
def withLocals (start : ρ)
    (script : Script ι ο ε ρ α) : Script ι ο ε σ α :=
  fun locals => (script start).andThen fun outcome => .returns (outcome.1, locals)

/-- From the given variables and source the script returns a value, and leaves
variables and source as stated. -/
def Runs
    (feed : ι → τ → Except ε (ο × τ)) (script : Script ι ο ε σ α) (before : σ × τ) (value : α)
    (after : σ × τ) : Prop :=
  Generator.run feed (script before.1) before.2 = .ok ((value, after.1), after.2)

variable
  {feed : ι → τ → Except ε (ο × τ)}
  {before after : σ × τ}

@[simp] theorem runs_pure {given value : α} :
    Runs feed (pure given : Script ι ο ε σ α) before value after ↔
      given = value ∧ before = after := by
  change Except.ok ((given, before.1), before.2) = Except.ok ((value, after.1), after.2) ↔ _
  simp [Prod.ext_iff, and_assoc]

@[simp] theorem runs_throw {error : ε} {value : α} :
    ¬Runs feed (throw error : Script ι ο ε σ α) before value after :=
  fun ran => nomatch ran

@[simp] theorem runs_require {condition : Prop} [Decidable condition] {error : ε} {value : Unit} :
    Runs feed (require condition error : Script ι ο ε σ Unit) before value after ↔
      condition ∧ before = after := by
  unfold require
  by_cases holds : condition
  · simp [holds]
  · simp [holds]

@[simp] theorem runs_read {view : σ → α} {value : α} :
    Runs feed (read view : Script ι ο ε σ α) before value after ↔
      view before.1 = value ∧ before = after := by
  change Except.ok ((view before.1, before.1), before.2) =
    Except.ok ((value, after.1), after.2) ↔ _
  simp [Prod.ext_iff, and_assoc]

@[simp] theorem runs_write {change : σ → σ} {value : Unit} :
    Runs feed (write change : Script ι ο ε σ Unit) before value after ↔
      (change before.1, before.2) = after := by
  change Except.ok (((), change before.1), before.2) = Except.ok ((value, after.1), after.2) ↔ _
  simp [Prod.ext_iff]

@[simp] theorem runs_ask {request : ι} {answer : ο} :
    Runs feed (ask request : Script ι ο ε σ ο) before answer after ↔
      feed request before.2 = .ok (answer, after.2) ∧ before.1 = after.1 := by
  unfold Runs ask Generator.run
  cases feed request before.2 with
  | error error => simp
  | ok fed =>
    simp only [Generator.run, Except.ok.injEq, Prod.ext_iff]
    tauto

/-- Scripts run one after the other. -/
@[simp] theorem runs_bind {first : Script ι ο ε σ α} {next : α → Script ι ο ε σ β} {value : β} :
    Runs feed (first >>= next) before value after ↔
      ∃ given middle, Runs feed first before given middle ∧
        Runs feed (next given) middle value after := by
  have composed : (first >>= next) before.1 =
      (first before.1).andThen fun answer => next answer.1 answer.2 := rfl
  unfold Runs
  rw [composed, Generator.run_andThen]
  cases Generator.run feed (first before.1) before.2 with
  | error error => simp
  | ok ran =>
    obtain ⟨⟨given, locals⟩, rest⟩ := ran
    simp only [Except.ok.injEq, Prod.ext_iff]
    constructor
    · intro ranNext
      exact ⟨given, (locals, rest), ⟨⟨rfl, rfl⟩, rfl⟩, ranNext⟩
    · rintro ⟨_, ⟨_, _⟩, ⟨⟨rfl, rfl⟩, rfl⟩, ranNext⟩
      exact ranNext

@[simp] theorem runs_withLocals {start : ρ} {script : Script ι ο ε ρ α} {value : α} :
    Runs feed (withLocals start script : Script ι ο ε σ α) before value after ↔
      before.1 = after.1 ∧
        ∃ final, Runs feed script (start, before.2) value (final, after.2) := by
  unfold Runs withLocals
  rw [Generator.run_andThen]
  cases Generator.run feed (script start) before.2 with
  | error error => simp
  | ok ran =>
    obtain ⟨⟨given, locals⟩, rest⟩ := ran
    simp only [Generator.run, Except.ok.injEq, Prod.mk.injEq]
    constructor
    · rintro ⟨⟨rfl, same⟩, rfl⟩
      exact ⟨same, locals, ⟨rfl, rfl⟩, rfl⟩
    · rintro ⟨same, _, ⟨rfl, rfl⟩, rfl⟩
      exact ⟨⟨rfl, same⟩, rfl⟩

end Script

end Relavium.Library
