import Relavium.Library.ByteNumber
import Relavium.Library.Generator
import Relavium.Shared.MediaDescriptor

/-!
# Reading media bytes

A media parser is a generator that yields reads and skips.  The feeder answers
them from the bytes that are left: a read gets exactly the bytes it asks for, a
skip drops them, and an optional read may find the end of the input once.
-/

namespace Relavium.Verifier

open Library
open Shared

abbrev Bytes := List UInt8

/-- `ReadStep`. -/
structure ReadStep where
  size : Nat
  skip : Bool
  isOptional : Bool

/-- The bytes that are left, and whether a read has found that none are. -/
structure Unread where
  rest : Bytes
  ended : Bool

/-- Answers a step from the bytes that are left.  At the end of the input one
optional read is answered with no bytes. -/
def supply (step : ReadStep)
    (unread : Unread) : Except MediaAdmissionErrorCode (Bytes × Unread) :=
  if 0 < step.size ∧ step.size ≤ unread.rest.length then
    .ok (if step.skip then [] else unread.rest.take step.size,
      { unread with rest := unread.rest.drop step.size })
  else if step.isOptional = true ∧ unread.rest = [] ∧ unread.ended = false then
    .ok ([], { unread with ended := true })
  else
    .error .invalidFormat

/-- `MediaParser`, with variables of its own. -/
abbrev MediaScript (σ : Type) :=
  Script ReadStep Bytes MediaAdmissionErrorCode σ

variable
  {σ α : Type}

/-- `fail`. -/
def fail : MediaScript σ α :=
  Script.throw .invalidFormat

/-- Fails unless the condition holds. -/
def check (condition : Prop)
    [Decidable condition] : MediaScript σ Unit :=
  Script.require condition .invalidFormat

/-- Fails with `inspection_limit` unless the condition holds. -/
def checkLimit (condition : Prop)
    [Decidable condition] : MediaScript σ Unit :=
  Script.require condition .inspectionLimit

/-- `MAX_MEDIA_OBJECT_BYTES`. -/
def maxMediaObjectBytes : Nat := 25 * 1024 * 1024

/-- `read`. -/
def read (size : Nat)
    (isOptional : Bool) : MediaScript σ Bytes := do
  checkLimit (size ≤ 4096)
  if size = 0 then pure []
  else Script.ask { size, skip := false, isOptional }

/-- `skip`. -/
def skip (size : Nat) : MediaScript σ Unit := do
  check (size ≤ maxMediaObjectBytes)
  if 0 < size then
    let _ ← Script.ask { size, skip := true, isOptional := false }

/-- `byte`. -/
def byte (bytes : Bytes)
    (index : Nat) : MediaScript σ Nat :=
  match bytes[index]? with
  | some value => pure value.toNat
  | none => fail

/-- `countStructure`. -/
def countStructure
    (value maximum : Nat) : MediaScript σ Nat := do
  checkLimit (value < maximum)
  pure (value + 1)

/-- A complete parser over a whole byte string: it accepts when it returns and
nothing is left. -/
def accepts (parser : MediaScript Unit α)
    (bytes : Bytes) : Option α :=
  match Generator.run supply (parser ()) { rest := bytes, ended := false } with
  | .ok ((value, _), unread) => if unread.rest = [] then some value else none
  | .error _ => none

/-! ## What reading does -/

variable
  {before after : σ × Unread}

@[simp] theorem runs_fail {value : α} :
    ¬Script.Runs supply (fail : MediaScript σ α) before value after :=
  Script.runs_throw

variable {value : Unit} {bytes : Bytes} {size : Nat}

@[simp] theorem runs_check {condition : Prop} [Decidable condition] :
    Script.Runs supply (check condition : MediaScript σ Unit) before value after ↔
      condition ∧ before = after :=
  Script.runs_require

@[simp] theorem runs_checkLimit {condition : Prop} [Decidable condition] :
    Script.Runs supply (checkLimit condition : MediaScript σ Unit) before value after ↔
      condition ∧ before = after :=
  Script.runs_require

@[simp] theorem runs_byte {index value : Nat} :
    Script.Runs supply (byte bytes index : MediaScript σ Nat) before value after ↔
      bytes[index]?.map UInt8.toNat = some value ∧ before = after := by
  unfold byte
  cases bytes[index]? with
  | none | some found => simp

@[simp] theorem runs_countStructure {count maximum value : Nat} :
    Script.Runs supply (countStructure count maximum : MediaScript σ Nat) before value after ↔
      count < maximum ∧ count + 1 = value ∧ before = after := by
  simp only [countStructure, Script.runs_bind, runs_checkLimit, Script.runs_pure]
  constructor
  · rintro ⟨_, _, ⟨below, rfl⟩, rfl, rfl⟩
    exact ⟨below, rfl, rfl⟩
  · rintro ⟨below, rfl, rfl⟩
    exact ⟨(), _, ⟨below, rfl⟩, rfl, rfl⟩

/-- A run that takes some bytes off the input. -/
structure Takes (before : Unread) (bytes : Bytes)
    (after : Unread) : Prop where
  rest : before.rest = bytes ++ after.rest
  ended : before.ended = after.ended

theorem Takes.refl (unread : Unread) : Takes unread [] unread :=
  ⟨rfl, rfl⟩

theorem takes_of_supply
    {step : ReadStep} {unread left : Unread} {answer : Bytes}
    (isRequired : step.isOptional = false) (supplied : supply step unread = .ok (answer, left)) :
    ∃ bytes : Bytes, bytes.length = step.size ∧ Takes unread bytes left ∧
      answer = if step.skip then [] else bytes := by
  unfold supply at supplied
  split at supplied
  · rename_i fits
    simp only [Except.ok.injEq, Prod.mk.injEq] at supplied
    obtain ⟨rfl, rfl⟩ := supplied
    exact ⟨unread.rest.take step.size, List.length_take_of_le fits.2,
      ⟨(List.take_append_drop _ _).symm, rfl⟩, rfl⟩
  · simp [isRequired] at supplied

theorem runs_read
    (runs : Script.Runs supply (read size false : MediaScript σ Bytes) before bytes after) :
    bytes.length = size ∧ size ≤ 4096 ∧ Takes before.2 bytes after.2 ∧ before.1 = after.1 := by
  simp only [read, Script.runs_bind, runs_checkLimit] at runs
  obtain ⟨_, _, ⟨bound, rfl⟩, reads⟩ := runs
  split at reads
  · rename_i isZero
    obtain ⟨rfl, rfl⟩ := Script.runs_pure.mp reads
    exact ⟨isZero.symm, bound, .refl _, rfl⟩
  · obtain ⟨supplied, same⟩ := Script.runs_ask.mp reads
    obtain ⟨read, isLength, takes, rfl⟩ :=
      takes_of_supply rfl supplied
    exact ⟨isLength, bound, takes, same⟩

/-- An optional read returns the bytes it asks for, or none at the end of the
input. -/
theorem runs_read_optional
    (isPositive : 0 < size)
    (runs : Script.Runs supply (read size true : MediaScript σ Bytes) before bytes after) :
    before.1 = after.1 ∧
      (bytes.length = size ∧ Takes before.2 bytes after.2 ∨
        bytes = [] ∧ before.2.rest = [] ∧ before.2.ended = false ∧
          after.2 = { before.2 with ended := true }) := by
  simp only [read, Script.runs_bind, runs_checkLimit] at runs
  obtain ⟨_, _, ⟨bound, rfl⟩, reads⟩ := runs
  rw [if_neg (by omega)] at reads
  obtain ⟨supplied, same⟩ := Script.runs_ask.mp reads
  refine ⟨same, ?_⟩
  unfold supply at supplied
  split at supplied
  · rename_i fits
    simp only [Bool.false_eq_true, if_false, Except.ok.injEq, Prod.mk.injEq] at supplied
    obtain ⟨rfl, isRest⟩ := supplied
    rw [← isRest]
    exact .inl ⟨List.length_take_of_le fits.2, ⟨(List.take_append_drop _ _).symm, rfl⟩⟩
  · split at supplied
    · rename_i isEnd
      simp only [Except.ok.injEq, Prod.mk.injEq] at supplied
      exact .inr ⟨supplied.1.symm, isEnd.2.1, isEnd.2.2, supplied.2.symm⟩
    · cases supplied

/-- A skip drops as many bytes as it names. -/
theorem runs_skip (runs : Script.Runs supply (skip size : MediaScript σ Unit) before value after) :
    ∃ bytes : Bytes, bytes.length = size ∧ size ≤ maxMediaObjectBytes ∧
      Takes before.2 bytes after.2 ∧ before.1 = after.1 := by
  simp only [skip, Script.runs_bind, runs_check] at runs
  obtain ⟨_, _, ⟨bound, rfl⟩, skips⟩ := runs
  split at skips
  · simp only [Script.runs_bind, Script.runs_pure] at skips
    obtain ⟨_, _, asked, -, rfl⟩ := skips
    obtain ⟨supplied, same⟩ := Script.runs_ask.mp asked
    obtain ⟨bytes, isLength, takes, -⟩ := takes_of_supply rfl supplied
    exact ⟨bytes, isLength, bound, takes, same⟩
  · rename_i isZero
    obtain ⟨-, rfl⟩ := Script.runs_pure.mp skips
    exact ⟨[], by simp; omega, bound, .refl _, rfl⟩

/-- What an accepted byte string ran to. -/
theorem runs_of_accepts
    {parser : MediaScript Unit α} {value : α} (accepted : accepts parser bytes = some value) :
    ∃ after : Unit × Unread,
      Script.Runs supply parser ((), { rest := bytes, ended := false }) value after ∧
        after.2.rest = [] := by
  unfold accepts at accepted
  cases ran : Generator.run supply (parser ()) { rest := bytes, ended := false } with
  | error code => simp [ran] at accepted
  | ok outcome =>
    obtain ⟨⟨returned, locals⟩, unread⟩ := outcome
    simp only [ran, Option.ite_none_right_eq_some, Option.some.injEq] at accepted
    obtain ⟨isEnd, rfl⟩ := accepted
    exact ⟨(locals, unread), ran, isEnd⟩

end Relavium.Verifier
