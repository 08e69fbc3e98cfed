import Mathlib.Tactic.IntervalCases
import Relavium.Verifier.WebmTree

/-!
# The walk of the WebM verifier

What a walk that returns has read: elements that tile the bytes up to its end,
with the evidence that an inspection of these elements gives.
-/

namespace Relavium.Verifier
namespace Webm

open Library
open Library.Script
open Shared

/-- A run that takes some bytes off the input and moves the offset past them. -/
structure Advances (before : WebmState × Unread) (bytes : Bytes)
    (after : WebmState × Unread) : Prop where
  rest : before.2.rest = bytes ++ after.2.rest
  offset : after.1.offset = before.1.offset + bytes.length

namespace Advances

theorem refl (state : WebmState × Unread) : Advances state [] state :=
  ⟨rfl, rfl⟩

theorem trans
    {first second third : WebmState × Unread} {bytes more : Bytes}
    (earlier : Advances first bytes second) (later : Advances second more third) :
    Advances first (bytes ++ more) third :=
  ⟨by rw [earlier.rest, later.rest, List.append_assoc],
    by rw [later.offset, earlier.offset, List.length_append, Nat.add_assoc]⟩

end Advances

variable
  {before after : WebmState × Unread}

/-! ## Reading numbers -/

variable
  {bytes : Bytes}

theorem runs_take {size : Nat} (runs : Runs supply (take size false) before bytes after) :
    bytes.length = size ∧ Advances before bytes after ∧
      after.1.evidence = before.1.evidence := by
  simp only [take, runs_bind, runs_write, runs_pure] at runs
  obtain ⟨read, ⟨state, unread⟩, reads, _, _, rfl, rfl, rfl⟩ := runs
  obtain ⟨isLength, -, takes, rfl⟩ := runs_read reads
  exact ⟨isLength, ⟨takes.rest, rfl⟩, rfl⟩

theorem runs_take_optional
    {size : Nat} (isPositive : 0 < size)
    (runs : Runs supply (take size true) before bytes after) :
    (bytes.length = size ∨ bytes = []) ∧ Advances before bytes after ∧
      after.1.evidence = before.1.evidence := by
  simp only [take, runs_bind, runs_write, runs_pure] at runs
  obtain ⟨read, ⟨state, unread⟩, reads, _, _, rfl, rfl, rfl⟩ := runs
  obtain ⟨rfl, ⟨isLength, takes⟩ | ⟨rfl, isEnd, -, rest⟩⟩ := runs_read_optional isPositive reads
  · exact ⟨.inl isLength, ⟨takes.rest, rfl⟩, rfl⟩
  · exact ⟨.inr rfl, ⟨by rw [show unread = _ from rest]; rfl, rfl⟩, rfl⟩

variable
  {value : Unit}

theorem runs_omitBytes {size : Nat} (runs : Runs supply (omitBytes size) before value after) :
    ∃ bytes : Bytes, bytes.length = size ∧ Advances before bytes after ∧
      after.1.evidence = before.1.evidence := by
  simp only [omitBytes, runs_bind, runs_write] at runs
  obtain ⟨_, ⟨state, unread⟩, skips, rfl⟩ := runs
  obtain ⟨bytes, isLength, -, takes, rfl⟩ := runs_skip skips
  exact ⟨bytes, isLength, ⟨takes.rest, by rw [isLength]⟩, rfl⟩

theorem runs_vintRest
    {more value : Nat} {unknown : Bool} {answer : Nat × Bool}
    (runs : Runs supply (vintRest more value unknown) before answer after) :
    ∃ bytes : Bytes, bytes.length = more ∧ Advances before bytes after ∧
      after.1.evidence = before.1.evidence ∧
      answer.1 = value * 256 ^ more + bigEndian bytes ∧
      (answer.2 = true ↔ unknown = true ∧ ∀ byte ∈ bytes, byte.toNat = 255) ∧
      (answer.2 = false → (more = 0 → value < 2 ^ 53) → answer.1 < 2 ^ 53) := by
  induction more generalizing before value unknown with
  | zero =>
    obtain ⟨rfl, rfl⟩ := runs_pure.mp runs
    exact ⟨[], rfl, .refl _, rfl, by simp, by simp, fun _ small => small rfl⟩
  | succ more ih =>
    simp only [vintRest, runs_bind, runs_byte, runs_check] at runs
    obtain ⟨head, second, takes, next, _, ⟨isNext, rfl⟩, _, _, ⟨isExact, rfl⟩, rest⟩ := runs
    obtain ⟨isLength, advances, same⟩ := runs_take takes
    obtain ⟨first, rfl⟩ := List.length_eq_one_iff.mp isLength
    obtain rfl : first.toNat = next := by simpa using isNext
    obtain ⟨bytes, restLength, restAdvances, restSame, isValue, isUnknown, restExact⟩ :=
      ih rest
    refine ⟨first :: bytes, by simp [restLength], advances.trans restAdvances,
      restSame.trans same, ?_, ?_, fun known _ => restExact known fun isLast => ?_⟩
    · rw [bigEndian_cons, restLength, isValue, pow_succ]
      ring
    · rw [isUnknown, List.forall_mem_cons]
      simp [and_assoc]
    · obtain below | stillUnknown := isExact
      · exact below
      · obtain rfl := List.length_eq_zero_iff.mp (restLength.trans isLast)
        rw [isUnknown.mpr ⟨stillUnknown, by simp⟩] at known
        cases known

variable
  {mask length : Nat}

theorem marker_spec
    (first : UInt8) (isMarker : marker first.toNat 8 128 1 = (mask, length)) (isSet : mask ≠ 0) :
    1 ≤ length ∧ length ≤ 8 ∧ mask = 2 ^ (8 - length) ∧ mask ≤ first.toNat ∧
      first.toNat < 2 * mask ∧ first.toNat &&& (mask - 1) = first.toNat - mask := by
  have every : ∀ value : Fin 256, (marker value 8 128 1).1 ≠ 0 →
      1 ≤ (marker value 8 128 1).2 ∧ (marker value 8 128 1).2 ≤ 8 ∧
        (marker value 8 128 1).1 = 2 ^ (8 - (marker value 8 128 1).2) ∧
        (marker value 8 128 1).1 ≤ value ∧ value < 2 * (marker value 8 128 1).1 ∧
        value.val &&& ((marker value 8 128 1).1 - 1) = value - (marker value 8 128 1).1 := by
    decide +kernel
  have here := every ⟨first.toNat, first.toNat_lt⟩
  simp only [isMarker] at here
  exact here isSet

theorem mask_mul (isMask : mask = 2 ^ (8 - length)) (low : 1 ≤ length) (high : length ≤ 8) :
    mask * 256 ^ (length - 1) = 2 ^ (7 * length) := by
  rw [isMask, show (256 : Nat) = 2 ^ 8 from rfl, ← pow_mul, ← pow_add]
  congr 1
  omega

/-- The value after a marker, in the bytes of a number. -/
theorem marked_digits
    {first : UInt8} {rest : Bytes} (isMask : mask = 2 ^ (8 - length)) (low : 1 ≤ length)
    (high : length ≤ 8) (isLength : rest.length = length - 1) (atLeast : mask ≤ first.toNat)
    (below : first.toNat < 2 * mask) :
    MarkedNumber length ((first.toNat - mask) * 256 ^ (length - 1) + bigEndian rest)
      (first :: rest) := by
  have whole := mask_mul isMask low high
  have small := bigEndian_lt rest
  rw [isLength] at small
  obtain ⟨more, isMore⟩ := Nat.exists_eq_add_of_le atLeast
  have less : more + 1 ≤ mask := by omega
  have product := Nat.mul_le_mul_right (256 ^ (length - 1)) less
  rw [isMore, Nat.add_sub_cancel_left]
  refine ⟨by simp [isLength]; omega, ?_, ?_⟩
  · rw [← whole]
    rw [Nat.add_mul] at product
    omega
  · rw [bigEndian_cons, isLength, isMore, Nat.add_mul, whole]
    omega

/-- A marked number has all of its bits set exactly if they are set in every byte. -/
theorem marked_eq_max_iff
    {value rest power mask : Nat} (isValue : value < mask) (isRest : rest < power) :
    value * power + rest + 1 = mask * power ↔ value = mask - 1 ∧ rest + 1 = power := by
  obtain ⟨more, rfl⟩ := Nat.exists_eq_add_of_lt isValue
  have expand : (value + more + 1) * power = value * power + more * power + power := by ring
  rw [expand]
  constructor
  · intro same
    obtain rfl | positive := Nat.eq_zero_or_pos more
    · omega
    · have large := Nat.le_mul_of_pos_left power positive
      omega
  · rintro ⟨isMax, restMax⟩
    obtain rfl : more = 0 := by omega
    omega

variable
  {answer : Vint}

theorem runs_vint_bytes
    {isId isOptional : Bool} (runs : Runs supply (vint isId isOptional) before answer after) :
    after.1.evidence = before.1.evidence ∧
      (answer = .absent ∧ isOptional = true ∧ Advances before [] after ∨
        ∃ length value bytes, 1 ≤ length ∧ (length ≤ if isId then 4 else 8) ∧
          MarkedNumber length value bytes ∧ Advances before bytes after ∧
          answer = (if isId then .value (2 ^ (7 * length) + value)
            else if value + 1 = 2 ^ (7 * length) then .unknown
            else .value value) ∧
          (isId = false → value + 1 ≠ 2 ^ (7 * length) → value < 2 ^ 53)) := by
  simp only [vint, runs_bind] at runs
  obtain ⟨head, second, takes, rest⟩ := runs
  by_cases isEnd : head = []
  · rw [if_pos isEnd] at rest
    obtain ⟨rfl, rfl⟩ := runs_pure.mp rest
    cases isOptional with
    | false =>
      obtain ⟨isLength, -⟩ := runs_take takes
      simp [isEnd] at isLength
    | true =>
      obtain ⟨-, advances, same⟩ := runs_take_optional Nat.one_pos takes
      exact ⟨same, .inl ⟨rfl, rfl, isEnd ▸ advances⟩⟩
  · obtain ⟨isLength, advances, same⟩ : head.length = 1 ∧ Advances before head second ∧
        second.1.evidence = before.1.evidence := by
      cases isOptional with
      | false => exact runs_take takes
      | true =>
        obtain ⟨isLength | impossible, advances, same⟩ :=
          runs_take_optional Nat.one_pos takes
        · exact ⟨isLength, advances, same⟩
        · exact absurd impossible isEnd
    obtain ⟨first, rfl⟩ := List.length_eq_one_iff.mp isLength
    simp only [isEnd, if_false, runs_bind, runs_byte, runs_check] at rest
    obtain ⟨_, _, ⟨isFirst, rfl⟩, _, _, ⟨⟨isSet, bound⟩, rfl⟩, ⟨found, unknown⟩, third, reads,
      isAnswer⟩ := rest
    obtain rfl : first.toNat = _ := by simpa using isFirst
    cases isMarker : marker first.toNat 8 128 1 with
    | mk mask length =>
      simp only [isMarker] at isSet bound reads
      obtain ⟨low, high, isMask, atLeast, below, isLow⟩ := marker_spec first isMarker isSet
      obtain ⟨bytes, restLength, restAdvances, restSame, isValue, isUnknown, isExact⟩ :=
        runs_vintRest reads
      obtain ⟨rfl, rfl⟩ := runs_pure.mp isAnswer
      have marked := marked_digits isMask low high restLength atLeast below
      refine ⟨restSame.trans same, .inr ⟨length, _, _, low, bound, marked,
        advances.trans restAdvances, ?_⟩⟩
      cases isId with
      | true =>
        have known : unknown = false := by
          cases unknown with
          | false => rfl
          | true => exact absurd (isUnknown.mp rfl).1 (by simp)
        have digits := marked.digits
        rw [bigEndian_cons, restLength] at digits
        simp only [if_true] at isValue
        rw [known, isValue, digits]
        exact ⟨rfl, fun isSize => Bool.noConfusion isSize⟩
      | false =>
        simp only [Bool.false_eq_true, if_false, isLow] at isValue isUnknown isExact ⊢
        have small := bigEndian_lt bytes
        rw [restLength] at small
        have allSet := bigEndian_eq_max_iff bytes
        rw [restLength] at allSet
        have isMax : unknown = true ↔
            (first.toNat - mask) * 256 ^ (length - 1) + bigEndian bytes + 1 =
              2 ^ (7 * length) := by
          rw [isUnknown, ← mask_mul isMask low high, marked_eq_max_iff (by omega) small, ← allSet]
          simp
        rw [isValue] at isExact ⊢
        refine ⟨?_, fun _ notMax => isExact ?_ fun _ => ?_⟩
        · by_cases isSame : unknown = true
          · rw [if_pos isSame, if_pos (isMax.mp isSame)]
          · rw [if_neg isSame, if_neg fun same => isSame (isMax.mpr same)]
        · exact Bool.eq_false_iff.mpr fun isSame => notMax (isMax.mp isSame)
        · have := first.toNat_lt
          omega

theorem runs_vint_id
    {isOptional : Bool} (runs : Runs supply (vint true isOptional) before answer after) :
    after.1.evidence = before.1.evidence ∧
      (answer = .absent ∧ isOptional = true ∧ Advances before [] after ∨
        ∃ id bytes, answer = .value id ∧ IsEbmlId id bytes ∧ Advances before bytes after) := by
  obtain ⟨same, ⟨rfl, isEnd, advances⟩ | ⟨length, value, bytes, low, high, marked, advances,
    rfl, -⟩⟩ := runs_vint_bytes runs
  · exact ⟨same, .inl ⟨rfl, isEnd, advances⟩⟩
  · exact ⟨same, .inr ⟨_, bytes, rfl, ⟨length, value, low, high, marked, rfl⟩, advances⟩⟩

/-- A size is read without its marker. -/
theorem runs_vint_size (runs : Runs supply (vint false false) before answer after) :
    after.1.evidence = before.1.evidence ∧ ∃ bytes, Advances before bytes after ∧
      ((∃ size, answer = .value size ∧ IsEbmlSize size bytes) ∨
        answer = .unknown ∧ IsUnknownSize bytes) := by
  obtain ⟨same, ⟨-, impossible, -⟩ | ⟨length, value, bytes, low, high, marked, advances,
    rfl, isExact⟩⟩ := runs_vint_bytes runs
  · cases impossible
  · have positive : 0 < 2 ^ (7 * length) := Nat.two_pow_pos _
    refine ⟨same, bytes, advances, ?_⟩
    simp only [Bool.false_eq_true, if_false] at high ⊢
    by_cases isMax : value + 1 = 2 ^ (7 * length)
    · rw [if_pos isMax]
      refine .inr ⟨rfl, length, low, high, ?_⟩
      rwa [← isMax, Nat.add_sub_cancel]
    · rw [if_neg isMax]
      exact .inl ⟨value, rfl, length, low, high, marked, by omega, isExact rfl isMax⟩

/-! ## Elements that are not parsed -/

theorem runs_uintFrom
    {value answer : Nat} (runs : Runs supply (uintFrom value bytes) before answer after) :
    answer = value * 256 ^ bytes.length + bigEndian bytes ∧ before = after := by
  induction bytes generalizing value before with
  | nil =>
    obtain ⟨rfl, rfl⟩ := runs_pure.mp runs
    simp
  | cons next rest ih =>
    simp only [uintFrom, runs_bind, runs_check] at runs
    obtain ⟨_, _, ⟨-, rfl⟩, runsRest⟩ := runs
    obtain ⟨rfl, rfl⟩ := ih runsRest
    refine ⟨?_, rfl⟩
    rw [bigEndian_cons, List.length_cons, pow_succ]
    ring

theorem runs_uint {size answer : Nat} (runs : Runs supply (uint size) before answer after) :
    ∃ payload : Bytes, payload.length = size ∧ Advances before payload after ∧
      after.1.evidence = before.1.evidence ∧ answer = bigEndian payload := by
  simp only [uint, runs_bind, runs_check] at runs
  obtain ⟨_, _, ⟨-, rfl⟩, payload, middle, takes, reads⟩ := runs
  obtain ⟨isLength, advances, same⟩ := runs_take takes
  obtain ⟨rfl, rfl⟩ := runs_uintFrom reads
  exact ⟨payload, isLength, advances, same, by simp⟩

variable
  {id size : Nat}

theorem runs_headerField
    (track : Option Track) (runs : Runs supply (headerField id size) before value after) :
    ∃ payload : Bytes, payload.length = size ∧ Advances before payload after ∧
      ReadsLeaf ⟨before.1.evidence, track⟩ .header id payload ⟨after.1.evidence, track⟩ := by
  unfold headerField at runs
  split at runs
  · rename_i isDocType
    subst isDocType
    simp only [changeEvidence, runs_bind, runs_check, runs_write] at runs
    obtain ⟨_, _, ⟨isFour, rfl⟩, payload, middle, takes, _, _, ⟨isWebm, rfl⟩, rfl⟩ := runs
    obtain ⟨isLength, advances, same⟩ := runs_take takes
    refine ⟨payload, isLength, ⟨advances.rest, advances.offset⟩, ?_⟩
    rw [← same]
    exact .docType (isLength.trans isFour) isWebm
  · simp only [runs_bind, runs_check] at runs
    obtain ⟨_, _, ⟨isKnown, rfl⟩, _, _, reads, -, rfl⟩ := runs
    obtain ⟨payload, isLength, advances, same, -⟩ := runs_uint reads
    rw [same]
    exact ⟨payload, isLength, advances, .headerNumber isKnown⟩

/-- The fields of tracks and video elements. -/
def IsTrackField (context : WebmContext)
    (id : Nat) : Prop :=
  context = .track ∧ id ∈ [trackNumberId, trackTypeId, codecId] ∨
    context = .video ∧ id ∈ [widthId, heightId]

theorem runs_trackField
    {context : WebmContext} {track changed : Track} (isField : IsTrackField context id)
    (runs : Runs supply (trackField id size track) before changed after) :
    ∃ payload : Bytes, payload.length = size ∧ Advances before payload after ∧
      ReadsLeaf ⟨before.1.evidence, some track⟩ context id payload
        ⟨after.1.evidence, some changed⟩ := by
  unfold trackField at runs
  split at runs
  · rename_i isCodec
    simp only [runs_bind, runs_check, runs_pure] at runs
    obtain ⟨_, _, ⟨-, rfl⟩, payload, middle, takes, rfl, rfl⟩ := runs
    obtain ⟨isLength, advances, same⟩ := runs_take takes
    refine ⟨payload, isLength, advances, ?_⟩
    rw [same, isCodec]
    obtain ⟨rfl, -⟩ | ⟨-, impossible⟩ := isField
    · exact .codec rfl
    · rw [isCodec] at impossible
      exact absurd impossible (by decide)
  · rename_i notCodec
    simp only [runs_bind, runs_check, runs_pure] at runs
    obtain ⟨_, middle, reads, _, _, ⟨isPositive, rfl⟩, rfl, rfl⟩ := runs
    obtain ⟨payload, isLength, advances, same, rfl⟩ := runs_uint reads
    refine ⟨payload, isLength, advances, ?_⟩
    rw [same]
    obtain ⟨rfl, isId⟩ | ⟨rfl, isId⟩ := isField
    · simp only [List.mem_cons, List.not_mem_nil, or_false] at isId
      obtain rfl | rfl | impossible := isId
      · exact .number rfl isPositive
      · exact .type rfl isPositive
      · exact absurd impossible notCodec
    · simp only [List.mem_cons, List.not_mem_nil, or_false] at isId
      obtain rfl | rfl := isId
      · exact .width rfl isPositive
      · exact .height rfl isPositive

theorem runs_block
    {id stop : Nat} (track : Option Track) (isBlockId : id = simpleBlockId ∨ id = blockId)
    (runs : Runs supply (block id stop) before value after) :
    ∃ payload : Bytes, Advances before payload after ∧ after.1.offset = stop ∧
      ReadsLeaf ⟨before.1.evidence, track⟩
        (if id = simpleBlockId then .cluster else .blockGroup) id payload
        ⟨after.1.evidence, track⟩ := by
  simp only [block, runs_bind] at runs
  obtain ⟨answer, second, reads, rest⟩ := runs
  obtain ⟨same, numberBytes, advances, ⟨number, rfl, isSize⟩ | ⟨rfl, -⟩⟩ := runs_vint_size reads
  · simp only [changeEvidence, runs_bind, runs_check, runs_checkLimit, Script.runs_read, runs_byte,
      runs_write] at rest
    obtain ⟨_, _, ⟨isPositive, rfl⟩, _, _, ⟨rfl, rfl⟩, _, _, ⟨isLonger, rfl⟩, head, third,
      takes, flags, _, ⟨isFlags, rfl⟩, _, _, ⟨noLacing, rfl⟩, _, _, ⟨rfl, rfl⟩, _, _,
      ⟨-, rfl⟩, _, _, rfl, _, _, ⟨rfl, rfl⟩, omits⟩ := rest
    obtain ⟨isLength, headAdvances, headSame⟩ := runs_take takes
    obtain ⟨data, dataLength, dataAdvances, dataSame⟩ := runs_omitBytes omits
    obtain ⟨hours, minutes, last, rfl⟩ := List.length_eq_three.mp isLength
    obtain rfl : last.toNat = flags := by simpa using isFlags
    have headOffset := headAdvances.offset
    have dataOffset := dataAdvances.offset
    rw [isLength] at headOffset
    simp only at dataLength dataOffset dataSame
    have whole : Advances before (numberBytes ++ ([hours, minutes] ++ (last :: data))) after :=
      advances.trans
        (headAdvances.trans (⟨dataAdvances.rest, dataAdvances.offset⟩ : Advances third data after))
    refine ⟨_, whole, by omega, ?_⟩
    rw [dataSame, headSame, same]
    refine .block isBlockId ⟨numberBytes, [hours, minutes], data, last, rfl, rfl, ?_, isSize,
      isPositive, noLacing⟩
    rw [← List.length_pos_iff]
    omega
  · exact absurd rest runs_fail

/-! ## Elements that are parsed -/

/-- What a walk has read: elements that tile the bytes up to its end. -/
def WalkReads
    (scope : WebmScope) (seen : List Nat) (track : Option Track) (before : WebmState × Unread)
    (changed : Option Track)
    (after : WebmState × Unread) : Prop :=
  ∃ elements bytes, Advances before bytes after ∧
    Inspects scope.context scope.depth seen ⟨before.1.evidence, track⟩ elements
      ⟨after.1.evidence, changed⟩ ∧
    DocumentTiles elements bytes ∧
    (scope.context ≠ .root → ElementTiles elements bytes) ∧
    ∀ limit ∈ scope.stop, before.1.offset ≤ limit → after.1.offset = limit

/-- A walk that starts with no singletons seen reads elements. -/
def WalkSound (walk : WebmWalk) : Prop :=
  ∀ scope track before changed after,
    Runs supply (walk scope track) before changed after →
      WalkReads scope [] track before changed after

/-- What is read of one element: its content. -/
def ElementReads
    (scope : WebmScope) (track : Option Track) (id : Nat) (stop : Option Nat)
    (before : WebmState × Unread) (changed : Option Track)
    (after : WebmState × Unread) : Prop :=
  ∃ element content, element.tag = id ∧ Advances before content after ∧
    Handles scope.context scope.depth ⟨before.1.evidence, track⟩ element
      ⟨after.1.evidence, changed⟩ ∧
    TiledTree.Fills ebmlHeader element content ∧
    (stop = none → scope.context = .root ∧ ∃ children,
      element = .master segmentId [] children ∧ ElementTiles children content)

variable
  {scope : WebmScope}
  {stop : Option Nat}
  {walk : WebmWalk}

theorem WalkSound.children
    {below : WebmContext} {start inside : Option Track} (sound : WalkSound walk)
    (notRoot : below ≠ .root)
    (runs : Runs supply (walk (scope.inner stop below) start) before inside after) :
    ∃ children content, Advances before content after ∧
      Inspects below (scope.depth + 1) [] ⟨before.1.evidence, start⟩ children
        ⟨after.1.evidence, inside⟩ ∧
      ElementTiles children content := by
  obtain ⟨children, content, advances, inspects, -, tiles, -⟩ := sound _ _ _ _ _ runs
  exact ⟨children, content, advances, inspects, tiles notRoot⟩

variable
  {track changed : Option Track}

theorem elementReads_master
    {id : Nat} {below : WebmContext} {start inside : Inspection} {children : List Element}
    {content : Bytes} (known : stop ≠ none) (advances : Advances before content after)
    (enters : Enters ⟨before.1.evidence, track⟩ scope.context id below start)
    (inspects : Inspects below (scope.depth + 1) [] start children inside)
    (leaves : Leaves ⟨before.1.evidence, track⟩ below inside ⟨after.1.evidence, changed⟩)
    (tiles : ElementTiles children content) :
    ElementReads scope track id stop before changed after :=
  ⟨.master id [] children, content, rfl, advances,
    ⟨rfl, below, start, inside, enters, inspects, leaves⟩, .master tiles,
    fun isNone => absurd isNone known⟩

theorem elementReads_leaf
    {id : Nat} {payload : Bytes} (known : stop ≠ none) (advances : Advances before payload after)
    (reads : ReadsLeaf ⟨before.1.evidence, track⟩ scope.context id payload
      ⟨after.1.evidence, changed⟩) :
    ElementReads scope track id stop before changed after :=
  ⟨.leaf id payload, payload, rfl, advances, reads, .leaf, fun isNone => absurd isNone known⟩

theorem runs_declareTrack
    {track : Track} (runs : Runs supply (declareTrack track) before value after) :
    CompleteTrack track ∧ track.number ∉ before.1.evidence.allTracks ∧
      (track.type = 1 → SupportedVideo track) ∧
      after.1.evidence = declared track before.1.evidence ∧
      before.1.offset = after.1.offset ∧ before.2.rest = after.2.rest := by
  simp only [declareTrack, changeEvidence, runs_bind, runs_check, Script.runs_read, runs_write]
    at runs
  obtain ⟨_, _, ⟨rfl, rfl⟩, _, _, ⟨isComplete, rfl⟩, _, _, rfl, declares⟩ := runs
  simp only [not_or] at isComplete
  obtain ⟨number, type, codec, isNew⟩ := isComplete
  split at declares
  · rename_i isVideo
    simp only [runs_bind, runs_check, Script.runs_read, runs_write] at declares
    obtain ⟨_, _, ⟨rfl, rfl⟩, _, _, ⟨isSupported, rfl⟩, rfl⟩ := declares
    simp only [not_or, not_not] at isSupported
    obtain ⟨-, isCodec, width, height, -⟩ := isSupported
    refine ⟨⟨number, type, codec⟩, isNew, fun _ => ⟨isCodec, width, height⟩, ?_, rfl, rfl⟩
    rw [declared, if_pos isVideo]
  · rename_i notVideo
    obtain ⟨-, rfl⟩ := runs_pure.mp declares
    refine ⟨⟨number, type, codec⟩, isNew, fun isVideo => absurd isVideo notVideo, ?_, rfl, rfl⟩
    rw [declared, if_neg notVideo]

theorem childContext_eq_none {id : Nat}
    (notParsed : id ∉ [ebmlHeaderId, segmentId, tracksId, trackEntryId, videoId, clusterId,
      blockGroupId])
    (context : WebmContext) :
    childContext context id = none := by
  simp only [List.mem_cons, List.not_mem_nil, or_false, not_or] at notParsed
  obtain ⟨header, segment, tracks, entry, video, cluster, group⟩ := notParsed
  cases context <;> simp [childContext, *]

theorem runs_clusterElement
    (sound : WalkSound walk) (isKnown : stop ≠ none)
    (notEarlier : id ∉ [ebmlHeaderId, segmentId, tracksId, trackEntryId, videoId])
    (notEncodings : id ≠ contentEncodingsId)
    (runs : Runs supply (clusterElement walk scope track id size stop) before changed after) :
    ElementReads scope track id stop before changed after := by
  unfold clusterElement at runs
  by_cases isCluster : id = clusterId
  · rw [if_pos isCluster] at runs
    subst isCluster
    simp only [runs_bind, runs_check, runs_pure] at runs
    obtain ⟨_, _, ⟨inSegment, rfl⟩, inside, middle, walked, rfl, rfl⟩ := runs
    obtain ⟨children, content, advances, inspects, tiles⟩ := sound.children (by decide) walked
    exact elementReads_master isKnown advances (inSegment ▸ .cluster) inspects
      (.other (by decide)) tiles
  rw [if_neg isCluster] at runs
  by_cases isGroup : id = blockGroupId
  · rw [if_pos isGroup] at runs
    subst isGroup
    simp only [runs_bind, runs_check, runs_pure] at runs
    obtain ⟨_, _, ⟨inCluster, rfl⟩, inside, middle, walked, rfl, rfl⟩ := runs
    obtain ⟨children, content, advances, inspects, tiles⟩ := sound.children (by decide) walked
    exact elementReads_master isKnown advances (inCluster ▸ .blockGroup) inspects
      (.other (by decide)) tiles
  rw [if_neg isGroup] at runs
  by_cases isBlock : id = simpleBlockId ∨ id = blockId
  · rw [if_pos isBlock] at runs
    simp only [runs_bind, runs_check, runs_pure] at runs
    obtain ⟨_, _, ⟨inContext, rfl⟩, _, middle, reads, rfl, rfl⟩ := runs
    obtain ⟨payload, advances, -, leaf⟩ := runs_block track isBlock reads
    exact elementReads_leaf isKnown advances (inContext ▸ leaf)
  · rw [if_neg isBlock] at runs
    simp only [runs_bind, runs_pure] at runs
    obtain ⟨_, middle, omits, rfl, rfl⟩ := runs
    obtain ⟨payload, -, advances, same⟩ := runs_omitBytes omits
    refine elementReads_leaf isKnown advances ?_
    rw [same]
    refine .skipped (childContext_eq_none ?_ _) notEncodings
    simp only [List.mem_cons, List.not_mem_nil, or_false, not_or] at notEarlier ⊢
    tauto

theorem runs_element
    (sound : WalkSound walk) (known : stop = none → id = segmentId)
    (runs : Runs supply (element walk scope track id size stop) before changed after) :
    ElementReads scope track id stop before changed after := by
  simp only [element, runs_bind, Script.runs_read] at runs
  obtain ⟨_, _, ⟨rfl, rfl⟩, branch⟩ := runs
  by_cases isHeader : id = ebmlHeaderId
  · rw [if_pos isHeader] at branch
    subst isHeader
    simp only [changeEvidence, runs_bind, runs_check, runs_write, Script.runs_read,
      runs_pure] at branch
    obtain ⟨_, _, ⟨⟨isRoot, isFirst⟩, rfl⟩, _, _, rfl, inside, middle, walked, _, _, ⟨rfl, rfl⟩,
      _, _, ⟨isDoc, rfl⟩, rfl, rfl⟩ := branch
    obtain ⟨children, content, advances, inspects, tiles⟩ := sound.children (by decide) walked
    refine elementReads_master (fun isNone => absurd (known isNone) (by decide))
      ⟨advances.rest, advances.offset⟩ (isRoot ▸ .header isFirst) inspects (.header isDoc) tiles
  rw [if_neg isHeader] at branch
  by_cases isSegment : id = segmentId
  · rw [if_pos isSegment] at branch
    subst isSegment
    simp only [changeEvidence, runs_bind, runs_check, runs_write, runs_pure] at branch
    obtain ⟨_, _, ⟨⟨isRoot, isFirst, isHeaded⟩, rfl⟩, _, _, rfl, inside, middle, walked, rfl,
      rfl⟩ := branch
    obtain ⟨children, content, advances, inspects, tiles⟩ := sound.children (by decide) walked
    exact ⟨.master segmentId [] children, content, rfl, ⟨advances.rest, advances.offset⟩,
      ⟨rfl, .segment, _, _, isRoot ▸ .segment isFirst isHeaded, inspects, .other (by decide)⟩,
      .master tiles, fun _ => ⟨isRoot, children, rfl, tiles⟩⟩
  rw [if_neg isSegment] at branch
  have isKnown : stop ≠ none := fun isNone => isSegment (known isNone)
  by_cases inHeader : scope.context = .header
  · rw [if_pos inHeader] at branch
    simp only [runs_bind, runs_pure] at branch
    obtain ⟨_, middle, reads, rfl, rfl⟩ := branch
    obtain ⟨payload, -, advances, leaf⟩ := runs_headerField track reads
    exact elementReads_leaf isKnown advances (inHeader ▸ leaf)
  rw [if_neg inHeader] at branch
  by_cases isTracks : id = tracksId
  · rw [if_pos isTracks] at branch
    subst isTracks
    simp only [runs_bind, runs_check, runs_pure] at branch
    obtain ⟨_, _, ⟨inSegment, rfl⟩, inside, middle, walked, rfl, rfl⟩ := branch
    obtain ⟨children, content, advances, inspects, tiles⟩ := sound.children (by decide) walked
    exact elementReads_master isKnown advances (inSegment ▸ .tracks) inspects
      (.other (by decide)) tiles
  rw [if_neg isTracks] at branch
  by_cases isEntry : id = trackEntryId
  · rw [if_pos isEntry] at branch
    subst isEntry
    simp only [runs_bind, runs_checkLimit] at branch
    obtain ⟨_, _, ⟨⟨inTracks, -⟩, rfl⟩, inside, middle, walked, declares⟩ := branch
    obtain ⟨children, content, advances, inspects, tiles⟩ := sound.children (by decide) walked
    cases inside with
    | none => exact absurd declares runs_fail
    | some entry =>
      simp only [runs_bind, runs_pure] at declares
      obtain ⟨_, last, declaring, rfl, rfl⟩ := declares
      obtain ⟨isComplete, isNew, isSupported, isDeclared, sameOffset, sameRest⟩ :=
        runs_declareTrack declaring
      refine elementReads_master isKnown
        ⟨sameRest ▸ advances.rest, sameOffset ▸ advances.offset⟩ (inTracks ▸ .entry) inspects
        ?_ tiles
      rw [isDeclared]
      exact .entry rfl isComplete isNew isSupported
  rw [if_neg isEntry] at branch
  by_cases isVideo : id = videoId
  · rw [if_pos isVideo] at branch
    subst isVideo
    simp only [runs_bind, runs_check] at branch
    obtain ⟨_, _, ⟨⟨inTrack, isSome⟩, rfl⟩, walked⟩ := branch
    obtain ⟨held, rfl⟩ := Option.isSome_iff_exists.mp isSome
    obtain ⟨children, content, advances, inspects, tiles⟩ := sound.children (by decide) walked
    exact elementReads_master isKnown advances (inTrack ▸ .video rfl) inspects .video tiles
  rw [if_neg isVideo] at branch
  by_cases isEncodings : id = contentEncodingsId
  · rw [if_pos isEncodings] at branch
    exact absurd branch runs_fail
  rw [if_neg isEncodings] at branch
  have notEarlier : id ∉ [ebmlHeaderId, segmentId, tracksId, trackEntryId, videoId] := by
    simp [isHeader, isSegment, isTracks, isEntry, isVideo]
  cases track with
  | none => exact runs_clusterElement sound isKnown notEarlier isEncodings branch
  | some held =>
    by_cases isField : IsTrackField scope.context id
    · simp only [decide_eq_true (show _ ∧ _ ∨ _ ∧ _ from isField), runs_bind, runs_pure] at branch
      obtain ⟨new, last, reads, rfl, rfl⟩ := branch
      obtain ⟨payload, -, advances, leaf⟩ := runs_trackField isField reads
      exact elementReads_leaf isKnown advances leaf
    · simp only [decide_eq_false (show ¬(_ ∧ _ ∨ _ ∧ _) from isField)] at branch
      exact runs_clusterElement sound isKnown notEarlier isEncodings branch

/-! ## The loop over the elements -/

variable
  {seen : List Nat}

theorem walkReads_nil
    {track : Option Track} (advances : Advances before [] after)
    (same : after.1.evidence = before.1.evidence)
    (isEnd : ∀ limit ∈ scope.stop, limit ≤ before.1.offset) :
    WalkReads scope seen track before track after := by
  refine ⟨[], [], advances, same ▸ .nil, .closed .nil, fun _ => .nil,
    fun limit isLimit below => ?_⟩
  have offset := advances.offset
  have atEnd := isEnd limit isLimit
  simp only [List.length_nil] at offset
  omega

theorem WalkReads.cons
    {track middleTrack changed : Option Track} {start middle : WebmState × Unread}
    {element : Element} {headerBytes content : Bytes} (bound : scope.depth ≤ 16)
    (isNew : isSingleton scope.context element.tag = true → element.tag ∉ seen)
    (headed : Advances before headerBytes start)
    (sameEvidence : start.1.evidence = before.1.evidence)
    (isHeader : ebmlHeader element.tag content.length headerBytes)
    (filled : Advances start content middle)
    (handles : Handles scope.context scope.depth ⟨start.1.evidence, track⟩ element
      ⟨middle.1.evidence, middleTrack⟩)
    (fills : TiledTree.Fills ebmlHeader element content)
    (within : ∀ limit ∈ scope.stop, middle.1.offset ≤ limit)
    (reads : WalkReads scope (seenAfter scope.context element.tag seen) middleTrack middle
      changed after) :
    WalkReads scope seen track before changed after := by
  obtain ⟨rest, bytes, advances, inspects, tiles, closed, isEnd⟩ := reads
  have encodes := fills.encodes isHeader
  refine ⟨element :: rest, (headerBytes ++ content) ++ bytes,
    (headed.trans filled).trans advances, ?_, tiles.cons encodes,
    fun notRoot => .cons encodes (closed notRoot),
    fun limit isLimit _ => isEnd limit isLimit (within limit isLimit)⟩
  rw [← sameEvidence]
  exact .cons bound isNew handles inspects

/-- The size of an element keeps it within the one that holds it. -/
theorem runs_elementSize
    {id : Nat} {size : Option Nat}
    (runs : Runs supply (elementSize scope seen id) before size after) :
    after.1.evidence = before.1.evidence ∧
      (isSingleton scope.context id = true → id ∉ seen) ∧
      ∃ bytes, Advances before bytes after ∧
        ((∃ length, size = some length ∧ IsEbmlSize length bytes ∧
          ∀ limit ∈ scope.stop, after.1.offset + length ≤ limit) ∨
        size = none ∧ id = segmentId ∧ IsUnknownSize bytes ∧ scope.stop = none) := by
  simp only [elementSize, runs_bind, runs_check, Script.runs_read, runs_write, runs_pure,
    runs_countStructure] at runs
  obtain ⟨length, ⟨state, unread⟩, reads, _, _, ⟨rfl, rfl⟩, count, _, ⟨-, -, rfl⟩, _, _, rfl,
    _, _, ⟨isSegment, rfl⟩, _, _, ⟨rfl, rfl⟩, _, _, ⟨isWithin, rfl⟩, _, _, ⟨-, rfl⟩, _, _,
    ⟨isNew, rfl⟩, rfl, rfl⟩ := runs
  obtain ⟨same, bytes, advances, ⟨length, rfl, isSize⟩ | ⟨rfl, isUnknown⟩⟩ := runs_vint_size reads
  · refine ⟨same, isNew, bytes, ⟨advances.rest, advances.offset⟩, .inl ⟨length, rfl, isSize, ?_⟩⟩
    simpa using isWithin
  · refine ⟨same, isNew, bytes, ⟨advances.rest, advances.offset⟩,
      .inr ⟨rfl, isSegment rfl, isUnknown, ?_⟩⟩
    cases isStop : scope.stop with
    | none => rfl
    | some limit => simp [isStop] at isWithin

/-- A walk reads elements that tile the bytes up to its end. -/
theorem runs_elements
    {fuel : Nat} (runs : Runs supply (elements fuel seen scope track) before changed after) :
    WalkReads scope seen track before changed after := by
  induction fuel generalizing seen scope track changed before after with
  | zero => exact absurd runs runs_throw
  | succ fuel ih =>
    simp only [elements, runs_bind, runs_checkLimit, Script.runs_read] at runs
    obtain ⟨_, _, ⟨bound, rfl⟩, _, _, ⟨rfl, rfl⟩, turn⟩ := runs
    split at turn
    · rename_i atEnd
      obtain ⟨rfl, rfl⟩ := runs_pure.mp turn
      refine walkReads_nil (.refl _) rfl fun limit isLimit => ?_
      rw [isLimit] at atEnd
      simpa using atEnd
    · rename_i notEnd
      simp only [runs_bind] at turn
      obtain ⟨answer, headed, readsId, turn⟩ := turn
      obtain ⟨sameId, ⟨rfl, isOpen, advances⟩ | ⟨id, idBytes, rfl, isId, advances⟩⟩ :=
        runs_vint_id readsId
      · obtain ⟨rfl, rfl⟩ := runs_pure.mp turn
        refine walkReads_nil advances sameId fun limit isLimit => ?_
        rw [isLimit] at isOpen
        cases isOpen
      · simp only [runs_bind, Script.runs_read] at turn
        obtain ⟨size, start, readsSize, _, _, ⟨rfl, rfl⟩, middleTrack, middle, readsElement,
          turn⟩ := turn
        obtain ⟨sameSize, isNew, sizeBytes, sizeAdvances, ⟨length, rfl, isSize, isWithin⟩ |
          ⟨rfl, rfl, isUnknown, isOpen⟩⟩ := runs_elementSize readsSize
        · obtain ⟨element, content, rfl, filled, handles, fills, -⟩ := runs_element
            (fun _ _ _ _ _ ran => ih ran) (by simp) readsElement
          simp only [Option.map_some, runs_bind, Script.runs_read, runs_check] at turn
          obtain ⟨_, _, ⟨rfl, rfl⟩, _, _, ⟨isStop, rfl⟩, loop⟩ := turn
          have isLength : content.length = length := by
            have := filled.offset
            omega
          refine .cons bound isNew (advances.trans sizeAdvances) (sameSize.trans sameId) ?_
            filled handles fills ?_ (ih loop)
          · rw [isLength]
            exact ⟨idBytes, sizeBytes, rfl, isId, isSize⟩
          · intro limit isLimit
            rw [isStop]
            exact isWithin limit isLimit
        · obtain ⟨element, content, -, filled, handles, fills, isOpened⟩ := runs_element
            (fun _ _ _ _ _ ran => ih ran) (fun _ => rfl) readsElement
          obtain ⟨isRoot, children, rfl, tiles⟩ := isOpened rfl
          obtain ⟨rfl, rfl⟩ := runs_pure.mp turn
          refine ⟨[.master segmentId [] children], (idBytes ++ sizeBytes) ++ content,
            (advances.trans sizeAdvances).trans filled, ?_,
            DocumentTiles.opened (show ElementTiles [] [] from .nil) isId isUnknown tiles,
            fun notRoot => absurd isRoot notRoot, by simp [isOpen]⟩
          rw [← sameId, ← sameSize]
          exact .cons bound isNew handles .nil

end Webm
end Relavium.Verifier
