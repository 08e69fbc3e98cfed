import Mathlib.Data.List.Induction
import Mathlib.Tactic.Ring

/-!
# Numbers in bytes

The number that a string of bytes stands for, most significant byte first.
-/

namespace Relavium.Library

/-- The number a string of bytes stands for, most significant byte first. -/
def bigEndian (bytes : List UInt8) : Nat :=
  bytes.foldl (fun value byte => value * 256 + byte.toNat) 0

@[simp] theorem bigEndian_nil : bigEndian [] = 0 := rfl

@[simp] theorem bigEndian_singleton (byte : UInt8) : bigEndian [byte] = byte.toNat := by
  simp [bigEndian]

theorem bigEndian_snoc (bytes : List UInt8) (last : UInt8) :
    bigEndian (bytes ++ [last]) = bigEndian bytes * 256 + last.toNat := by
  rw [bigEndian, List.foldl_append]
  rfl

theorem bigEndian_append (bytes more : List UInt8) :
    bigEndian (bytes ++ more) = bigEndian bytes * 256 ^ more.length + bigEndian more := by
  induction more using List.reverseRecOn with
  | nil => simp
  | append_singleton rest last ih =>
    rw [← List.append_assoc, bigEndian_snoc, ih, bigEndian_snoc,
      List.length_append, List.length_singleton, pow_succ]
    ring

theorem bigEndian_cons (first : UInt8) (rest : List UInt8) :
    bigEndian (first :: rest) = first.toNat * 256 ^ rest.length + bigEndian rest := by
  rw [← List.singleton_append, bigEndian_append, bigEndian_singleton]

/-- A number of so many bytes is below their power. -/
theorem bigEndian_lt (bytes : List UInt8) : bigEndian bytes < 256 ^ bytes.length := by
  induction bytes using List.reverseRecOn with
  | nil => simp
  | append_singleton rest last ih =>
    have small := last.toNat_lt
    rw [bigEndian_snoc, List.length_append, List.length_singleton, pow_succ]
    omega

/-- Bytes stand for the greatest number exactly if all of them are the greatest. -/
theorem bigEndian_eq_max_iff (bytes : List UInt8) :
    bigEndian bytes + 1 = 256 ^ bytes.length ↔ ∀ byte ∈ bytes, byte.toNat = 255 := by
  induction bytes using List.reverseRecOn with
  | nil => simp
  | append_singleton rest last ih =>
    have small := last.toNat_lt
    have bound := bigEndian_lt rest
    rw [bigEndian_snoc, List.length_append, List.length_singleton, pow_succ,
      List.forall_mem_append, List.forall_mem_singleton, ← ih]
    omega

end Relavium.Library
