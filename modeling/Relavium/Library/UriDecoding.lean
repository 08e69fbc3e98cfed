import Relavium.Library.UriComponent

/-!
# Decoding URI components

`decodeURIComponent` replaces percent escapes by the characters that their bytes are
the UTF-8 form of, and fails when they are none.  It undoes `encodeURIComponent`.
-/

namespace Relavium.Library
namespace Uri

/-- The value of a hexadecimal digit in upper or lower case. -/
def readHexDigit (digit : Char) : Option Nat :=
  let code := digit.toNat
  if 48 ≤ code ∧ code ≤ 57 then some (code - 48)
  else if 65 ≤ code ∧ code ≤ 70 then some (code - 55)
  else if 97 ≤ code ∧ code ≤ 102 then some (code - 87)
  else none

/-- The byte of the escape that a text starts with. -/
def readEscape : List Char → Option (UInt8 × List Char)
  | '%' :: high :: low :: rest =>
    match readHexDigit high, readHexDigit low with
    | some high, some low => some (UInt8.ofNat (16 * high + low), rest)
    | _, _ => none
  | _ => none

/-- The bytes of a number of escapes. -/
def readEscapes : Nat → List Char → Option (List UInt8 × List Char)
  | 0, rest => some ([], rest)
  | count + 1, rest =>
    match readEscape rest with
    | none => none
    | some (octet, rest) =>
      match readEscapes count rest with
      | none => none
      | some (octets, rest) => some (octet :: octets, rest)

/-- How many bytes the form of a character has that starts with a byte: its leading
ones. -/
def sequenceLength (first : UInt8) : Option Nat :=
  let code := first.toNat
  if code < 0x80 then some 1
  else if code < 0xC0 then none
  else if code < 0xE0 then some 2
  else if code < 0xF0 then some 3
  else if code < 0xF8 then some 4
  else none

/-- The character that some bytes are the form of. -/
def readOctets (octets : List UInt8) : Option Char :=
  (octets.toByteArray.utf8DecodeChar? 0).filter (·.utf8Size = octets.length)

/-- `Decode` of a text; every turn takes at least one character. -/
def decodeChars : Nat → List Char → Option (List Char)
  | _, [] => some []
  | 0, _ :: _ => none
  | fuel + 1, char :: rest =>
    if char = '%' then
      match readEscape (char :: rest) with
      | none => none
      | some (first, rest) =>
        match sequenceLength first with
        | none => none
        | some length =>
          match readEscapes (length - 1) rest with
          | none => none
          | some (others, rest) =>
            match readOctets (first :: others) with
            | none => none
            | some decoded => (decodeChars fuel rest).map (decoded :: ·)
    else (decodeChars fuel rest).map (char :: ·)

/-- `decodeURIComponent`, which fails with a `URIError`. -/
def decodeURIComponent (text : String) : Option String :=
  (decodeChars text.toList.length text.toList).map String.ofList

/-! ## The bytes of a character -/

theorem toNat_byte {value : Nat} (bound : value < 256) :
    (UInt8.ofNat value).toNat = value :=
  UInt8.toNat_ofNat_of_lt' bound

/-- The bytes of a character are a byte below `0x80` or none of these, and the first one
says how many they are. -/
theorem utf8EncodeChar_spec (char : Char) :
    ∃ first others, String.utf8EncodeChar char = first :: others ∧
      sequenceLength first = some (others.length + 1) ∧
      (char.toNat < 0x80 → others = [] ∧ first.toNat = char.toNat) ∧
      (0x80 ≤ char.toNat → ∀ byte ∈ first :: others, 0x80 ≤ byte.toNat) := by
  have bound : char.val.toNat < 0x110000 := by
    obtain small | large := char.valid
    · exact small.trans (by decide)
    · exact large.2
  have isCode : char.toNat = char.val.toNat := rfl
  rw [isCode]
  unfold String.utf8EncodeChar
  simp only
  split
  · rename_i small
    refine ⟨_, _, rfl, ?_, fun _ => ⟨rfl, ?_⟩, fun large => by omega⟩
    · rw [sequenceLength, toNat_byte (by omega), if_pos (by omega)]
      rfl
    · exact toNat_byte (by omega)
  · split
    · refine ⟨_, _, rfl, ?_, fun small => by omega, fun large => ?_⟩
      · rw [sequenceLength, toNat_byte (by omega)]
        simp only [List.length_singleton]
        rw [if_neg (by omega), if_neg (by omega), if_pos (by omega)]
      · simp only [List.forall_mem_cons, List.not_mem_nil, IsEmpty.forall_iff, implies_true,
          and_true]
        rw [toNat_byte (by omega), toNat_byte (by omega)]
        omega
    · split
      · refine ⟨_, _, rfl, ?_, fun small => by omega, fun large => ?_⟩
        · rw [sequenceLength, toNat_byte (by omega)]
          simp only [List.length_cons, List.length_nil]
          rw [if_neg (by omega), if_neg (by omega), if_neg (by omega), if_pos (by omega)]
        · simp only [List.forall_mem_cons, List.not_mem_nil, IsEmpty.forall_iff, implies_true,
            and_true]
          rw [toNat_byte (by omega), toNat_byte (by omega),
            toNat_byte (by omega)]
          omega
      · refine ⟨_, _, rfl, ?_, fun small => by omega, fun large => ?_⟩
        · rw [sequenceLength, toNat_byte (by omega)]
          simp only [List.length_cons, List.length_nil]
          rw [if_neg (by omega), if_neg (by omega), if_neg (by omega), if_neg (by omega),
            if_pos (by omega)]
        · simp only [List.forall_mem_cons, List.not_mem_nil, IsEmpty.forall_iff, implies_true,
            and_true]
          rw [toNat_byte (by omega), toNat_byte (by omega),
            toNat_byte (by omega), toNat_byte (by omega)]
          omega

theorem readOctets_utf8EncodeChar (char : Char) :
    readOctets (String.utf8EncodeChar char) = some char := by
  have decoded := @ByteArray.utf8DecodeChar?_utf8EncodeChar_append ByteArray.empty char
  rw [ByteArray.append_empty] at decoded
  rw [readOctets, decoded]
  simp

/-! ## Escapes are read back -/

theorem readHexDigit_hexDigit {digit : Nat} (bound : digit < 16) :
    readHexDigit (hexDigit digit) = some digit := by
  interval_cases digit <;> decide

theorem isUnescaped_lt {byte : UInt8} (unescaped : isUnescaped byte = true) :
    byte.toNat < 0x80 ∧ byte.toNat ≠ 37 := by
  simp only [isUnescaped, decide_eq_true_eq] at unescaped
  omega

theorem readEscape_escapeByte
    {byte : UInt8} (escaped : isUnescaped byte = false) (rest : List Char) :
    readEscape (escapeByte byte ++ rest) = some (byte, rest) := by
  have bound := byte.toNat_lt
  rw [escapeByte, if_neg (by simp [escaped])]
  simp only [List.cons_append, List.nil_append, readEscape]
  rw [readHexDigit_hexDigit (by omega), readHexDigit_hexDigit (by omega)]
  simp only [Option.some.injEq, Prod.mk.injEq, and_true]
  rw [Nat.div_add_mod, UInt8.ofNat_toNat]

/-- Escaped octets read back. -/
theorem readEscapes_flatMap
    {octets : List UInt8} (escaped : ∀ byte ∈ octets, isUnescaped byte = false)
    (rest : List Char) :
    readEscapes octets.length (octets.flatMap escapeByte ++ rest) = some (octets, rest) := by
  induction octets with
  | nil => rfl
  | cons byte octets ih =>
    rw [List.forall_mem_cons] at escaped
    rw [List.flatMap_cons, List.append_assoc, List.length_cons, readEscapes,
      readEscape_escapeByte escaped.1]
    simp only [ih escaped.2]

/-- The escaped form of one character is read back. -/
theorem decodeChars_escaped {fuel : Nat} (char : Char) (rest : List Char) :
    decodeChars (fuel + 1) ((String.utf8EncodeChar char).flatMap escapeByte ++ rest) =
      (decodeChars fuel rest).map (char :: ·) := by
  obtain ⟨first, others, isBytes, isLength, ascii, multiple⟩ := utf8EncodeChar_spec char
  have readBack := readOctets_utf8EncodeChar char
  rw [isBytes] at readBack ⊢
  cases unescaped : isUnescaped first with
  | true =>
    obtain ⟨small, noPercent⟩ := isUnescaped_lt unescaped
    have isAscii : char.toNat < 0x80 := by
      by_contra large
      have := multiple (by omega) first (List.mem_cons_self ..)
      omega
    obtain ⟨rfl, isCode⟩ := ascii isAscii
    have isChar : Char.ofNat first.toNat = char := by
      rw [isCode, Char.ofNat_toNat]
    have different : char ≠ '%' := by
      rintro rfl
      exact noPercent isCode
    rw [List.flatMap_cons, List.flatMap_nil, List.append_nil, escapeByte, if_pos unescaped,
      isChar, List.singleton_append, decodeChars, if_neg different]
  | false =>
    have allEscaped : ∀ byte ∈ others, isUnescaped byte = false := by
      intro byte member
      by_contra unescapedByte
      obtain ⟨small, -⟩ := isUnescaped_lt (Bool.of_not_eq_false unescapedByte)
      obtain isAscii | large := Nat.lt_or_ge char.toNat 0x80
      · rw [(ascii isAscii).1] at member
        exact absurd member List.not_mem_nil
      · have := multiple large byte (List.mem_cons_of_mem _ member)
        omega
    have readFirst := readEscape_escapeByte unescaped (others.flatMap escapeByte ++ rest)
    obtain ⟨high, low, isEscape⟩ : ∃ high low, escapeByte first = ['%', high, low] :=
      ⟨_, _, if_neg (by simp [unescaped])⟩
    rw [List.flatMap_cons, List.append_assoc]
    rw [isEscape] at readFirst ⊢
    simp only [List.cons_append, List.nil_append] at readFirst ⊢
    rw [decodeChars, if_pos rfl, readFirst]
    simp only [isLength, Nat.add_sub_cancel, readEscapes_flatMap allEscaped, readBack]

/-- Extra turns change nothing. -/
theorem decodeChars_flatMap {chars : List Char} {fuel : Nat} (enough : chars.length ≤ fuel) :
    decodeChars fuel ((chars.flatMap String.utf8EncodeChar).flatMap escapeByte) =
      some chars := by
  induction chars generalizing fuel with
  | nil =>
    rw [List.flatMap_nil, List.flatMap_nil]
    cases fuel <;> rfl
  | cons char rest ih =>
    obtain ⟨fuel, rfl⟩ : ∃ less, fuel = less + 1 :=
      ⟨fuel - 1, by rw [List.length_cons] at enough; omega⟩
    rw [List.flatMap_cons, List.flatMap_append, decodeChars_escaped,
      ih (by rw [List.length_cons] at enough; omega), Option.map_some]

theorem bytes_eq_flatMap (text : String) :
    bytes text = text.toList.flatMap String.utf8EncodeChar := by
  conv_lhs => rw [← String.ofList_toList (s := text)]
  rw [bytes, String.toByteArray_ofList, List.utf8Encode]
  exact List.toList_data_toByteArray

/-- A text has at most as many characters as its escaped form. -/
theorem length_le_flatMap_escapeByte (chars : List Char) :
    chars.length ≤ ((chars.flatMap String.utf8EncodeChar).flatMap escapeByte).length := by
  induction chars with
  | nil => exact Nat.zero_le _
  | cons char rest ih =>
    obtain ⟨first, others, isBytes, -⟩ := utf8EncodeChar_spec char
    have nonempty := List.length_pos_iff.mpr (escapeByte_ne_nil first)
    rw [List.flatMap_cons, List.flatMap_append, isBytes, List.flatMap_cons]
    simp only [List.length_cons, List.length_append]
    omega

/-- Decoding undoes encoding. -/
theorem decodeURIComponent_encodeURIComponent (text : String) :
    decodeURIComponent (encodeURIComponent text) = some text := by
  rw [decodeURIComponent, encodeURIComponent, String.toList_ofList, bytes_eq_flatMap,
    decodeChars_flatMap (length_le_flatMap_escapeByte _), Option.map_some,
    String.ofList_toList]

end Uri
end Relavium.Library
