import Mathlib.Data.Char
import Mathlib.Data.List.Basic
import Mathlib.Data.UInt
import Mathlib.Tactic.IntervalCases

/-!
# Escaped URI components, and ranges of texts with a common start

`encodeURIComponent` leaves letters, digits and a few marks alone and writes
every other byte of the UTF-8 form as a percent escape.  Different texts have
different escaped forms, and none of these holds a colon, so an escaped text can
stand between colons in a key.

The keys that start with a stem and a separator are a range of the
lexicographic order, when nothing lies between the separator and its successor.
-/

namespace Relavium.Library

namespace Uri

/-- A byte that `encodeURIComponent` leaves alone: a letter, a digit, or one of
`-_.!~*'()`. -/
def isUnescaped (byte : UInt8) : Bool :=
  let code := byte.toNat
  decide (65 ≤ code ∧ code ≤ 90 ∨ 97 ≤ code ∧ code ≤ 122 ∨ 48 ≤ code ∧ code ≤ 57 ∨
    code = 45 ∨ code = 95 ∨ code = 46 ∨ code = 33 ∨ code = 126 ∨
      39 ≤ code ∧ code ≤ 42)

/-- A hexadecimal digit, in upper case. -/
def hexDigit (digit : Nat) : Char :=
  if digit < 10 then Char.ofNat (48 + digit) else Char.ofNat (55 + digit)

/-- The value of a hexadecimal digit in upper case. -/
def hexValue (digit : Char) : Nat :=
  if digit.toNat < 65 then digit.toNat - 48 else digit.toNat - 55

def escapeByte (byte : UInt8) : List Char :=
  if isUnescaped byte then [Char.ofNat byte.toNat]
  else ['%', hexDigit (byte.toNat / 16), hexDigit (byte.toNat % 16)]

/-- Take the first byte off an escaped text. -/
def unescapeByte : List Char → Option (UInt8 × List Char)
  | [] => none
  | '%' :: high :: low :: rest =>
    some (UInt8.ofNat (16 * hexValue high + hexValue low), rest)
  | char :: rest => some (UInt8.ofNat char.toNat, rest)

theorem hexValue_hexDigit {digit : Nat} (bound : digit < 16) :
    hexValue (hexDigit digit) = digit := by
  interval_cases digit <;> decide

theorem toNat_ofNat_byte (byte : UInt8) :
    (Char.ofNat byte.toNat).toNat = byte.toNat := by
  have bound := byte.toNat_lt
  have valid : byte.toNat.isValidChar := .inl (by omega)
  rw [Char.ofNat, dif_pos valid]
  rfl

/-- A byte is read back from its escaped form. -/
theorem unescapeByte_escapeByte (byte : UInt8) (rest : List Char) :
    unescapeByte (escapeByte byte ++ rest) = some (byte, rest) := by
  unfold escapeByte
  split
  · next unescaped =>
    have notPercent : Char.ofNat byte.toNat ≠ '%' := by
      intro percent
      have code := congrArg Char.toNat percent
      rw [toNat_ofNat_byte] at code
      simp [isUnescaped, code] at unescaped
    rw [List.singleton_append, unescapeByte.eq_def]
    simp [notPercent, toNat_ofNat_byte]
  · have bound := byte.toNat_lt
    have high : byte.toNat / 16 < 16 := by omega
    have low : byte.toNat % 16 < 16 := Nat.mod_lt _ (by omega)
    simp [unescapeByte, hexValue_hexDigit high, hexValue_hexDigit low, Nat.div_add_mod]

theorem escapeByte_append_inj
    {first second : UInt8} {firstRest secondRest : List Char}
    (same : escapeByte first ++ firstRest = escapeByte second ++ secondRest) :
    first = second ∧ firstRest = secondRest := by
  have read := unescapeByte_escapeByte first firstRest
  rw [same, unescapeByte_escapeByte] at read
  exact Prod.mk.inj (Option.some.inj read).symm

theorem escapeByte_ne_nil (byte : UInt8) : escapeByte byte ≠ [] := by
  unfold escapeByte
  split <;> simp

/-- Different bytes have different escaped forms. -/
theorem flatMap_escapeByte_inj
    {first second : List UInt8} (same : first.flatMap escapeByte = second.flatMap escapeByte) :
    first = second := by
  induction first generalizing second with
  | nil =>
    cases second with
    | nil => rfl
    | cons byte rest =>
      simp [escapeByte_ne_nil] at same
  | cons byte rest ih =>
    cases second with
    | nil => simp [escapeByte_ne_nil] at same
    | cons other otherRest =>
      rw [List.flatMap_cons, List.flatMap_cons] at same
      obtain ⟨rfl, sameRest⟩ := escapeByte_append_inj same
      rw [ih sameRest]

theorem colon_not_mem_escapeByte (byte : UInt8) : ':' ∉ escapeByte byte := by
  have digits : ∀ digit < 16, hexDigit digit ≠ ':' := by
    intro digit bound
    interval_cases digit <;> decide
  unfold escapeByte
  split
  · next unescaped =>
    intro member
    have code := congrArg Char.toNat (List.mem_singleton.mp member)
    rw [toNat_ofNat_byte] at code
    have : byte.toNat = 58 := code.symm
    simp [isUnescaped, this] at unescaped
  · have bound := byte.toNat_lt
    have high := digits (byte.toNat / 16) (by omega)
    have low := digits (byte.toNat % 16) (by omega)
    simp [high.symm, low.symm]

/-- The bytes of a text in UTF-8. -/
def bytes (text : String) : List UInt8 :=
  text.toByteArray.data.toList

theorem bytes_inj {first second : String} (same : bytes first = bytes second) :
    first = second := by
  refine String.toByteArray_inj.mp ?_
  exact ByteArray.ext (Array.toList_inj.mp same)

/-- `encodeURIComponent`, of a well-formed text. -/
def encodeURIComponent (text : String) : String :=
  String.ofList ((bytes text).flatMap escapeByte)

/-- Different texts are encoded differently. -/
theorem encodeURIComponent_inj
    {first second : String} (same : encodeURIComponent first = encodeURIComponent second) :
    first = second :=
  bytes_inj (flatMap_escapeByte_inj (String.ofList_injective same))

theorem colon_not_mem_encodeURIComponent (text : String) :
    ':' ∉ (encodeURIComponent text).toList := by
  unfold encodeURIComponent
  rw [String.toList_ofList]
  intro member
  obtain ⟨byte, _, holds⟩ := List.mem_flatMap.mp member
  exact colon_not_mem_escapeByte byte holds

end Uri

/-! ## Ranges -/

theorem char_lt_iff_toNat_lt (low high : Char) :
    low < high ↔ low.toNat < high.toNat :=
  Char.lt_def.trans UInt32.lt_iff_toNat_lt

/-- The sequences from a stem with one last letter up to the stem with another one are
those that start with the first one, when no letter lies between the two. -/
theorem between_iff_prefix
    {α : Type u} [LT α] (irreflexive : ∀ letter : α, ¬letter < letter) {low high : α}
    (next : ∀ letter, ¬letter < low ∧ letter < high ↔ low = letter) (stem text : List α) :
    ¬text < stem ++ [low] ∧ text < stem ++ [high] ↔
      stem ++ [low] <+: text := by
  induction stem generalizing text with
  | nil =>
    cases text with
    | nil => simp
    | cons letter rest => simpa [List.cons_lt_cons_iff] using next letter
  | cons first stem ih =>
    cases text with
    | nil => simp
    | cons letter rest =>
      have tails := ih rest
      simp only [List.cons_append, List.cons_lt_cons_iff, List.cons_prefix_cons] at tails ⊢
      by_cases same : letter = first
      · subst same
        simpa [irreflexive] using tails
      · simp [same, Ne.symm same]

/-- The texts from a stem with one last letter up to the stem with the next
letter are those that start with the first one. -/
theorem between_iff_startsWith
    {low high : Char} (next : high.toNat = low.toNat + 1) (stem text : List Char) :
    ¬text < stem ++ [low] ∧ text < stem ++ [high] ↔
      stem ++ [low] <+: text := by
  refine between_iff_prefix Char.lt_irrefl (fun letter => ?_) stem text
  simp only [char_lt_iff_toNat_lt, ← Char.toNat_inj, next]
  omega

/-- A text up to the first separator is determined by the whole. -/
theorem append_separator_inj
    {α : Type u} {separator : α} {first second firstRest secondRest : List α}
    (firstFree : separator ∉ first) (secondFree : separator ∉ second)
    (same : first ++ separator :: firstRest = second ++ separator :: secondRest) :
    first = second ∧ firstRest = secondRest := by
  induction first generalizing second with
  | nil =>
    cases second with
    | nil => exact ⟨rfl, (List.cons.inj same).2⟩
    | cons letter rest =>
      have head : separator = letter := (List.cons.inj same).1
      exact absurd (head ▸ List.mem_cons_self) secondFree
  | cons letter rest ih =>
    cases second with
    | nil =>
      have head : letter = separator := (List.cons.inj same).1
      exact absurd (head ▸ List.mem_cons_self) firstFree
    | cons other otherRest =>
      obtain ⟨rfl, sameRest⟩ := List.cons.inj same
      obtain ⟨rfl, rests⟩ := ih (fun member => firstFree (List.mem_cons_of_mem _ member))
        (fun member => secondFree (List.mem_cons_of_mem _ member)) sameRest
      exact ⟨rfl, rests⟩

end Relavium.Library
