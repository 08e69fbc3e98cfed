import Relavium.Verifier.ParserReader

/-!
# The media verifier

Model of `createMediaVerifier` of `packages/shared/src/media-verifier.ts`, and of how
`PdfVerifier` of `media-verifier-pdf.ts` takes bytes in.  The parsers, and what
`PdfVerifier` makes of its bytes at the end, are parameters.
-/

namespace Relavium.Verifier

open Library
open Shared

/-- `PdfVerifier`. -/
structure PdfVerifier where
  tail : Bytes
  header : Bytes
  length : Nat

namespace PdfVerifier

def create : PdfVerifier :=
  { tail := List.replicate 49152 0, header := List.replicate 9 0, length := 0 }

/-- `push` of one byte, into the ring of the last ones. -/
def pushByte (verifier : PdfVerifier)
    (byte : UInt8) : PdfVerifier :=
  { tail := verifier.tail.set (verifier.length % verifier.tail.length) byte
    header :=
      if verifier.length < 9 then verifier.header.set verifier.length byte else verifier.header
    length := verifier.length + 1 }

end PdfVerifier

/-- What reads the bytes of a declared type. -/
inductive Recognizer
  | parser (reader : ParserReader CanonicalMediaMimeType)
  | pdf (verifier : PdfVerifier)
  | absent

/-- The parsers of the types. -/
structure MediaParsers where
  parser : CanonicalMediaMimeType → MediaParser CanonicalMediaMimeType
  finishPdf : PdfVerifier → Except MediaAdmissionErrorCode CanonicalMediaMimeType

/-- Parsers that accept nothing. -/
def noParsers : MediaParsers where
  parser _ := .throws .invalidFormat
  finishPdf _ := .error .invalidFormat

namespace Recognizer

/-- `recognizer`. -/
def create (parsers : MediaParsers)
    (mimeType : CanonicalMediaMimeType) : Except MediaAdmissionErrorCode Recognizer :=
  match mimeType with
  | .audioL16 => .ok .absent
  | .applicationPdf => .ok (.pdf .create)
  | mimeType => .parser <$> ParserReader.create (parsers.parser mimeType)

/-- `parser?.push`. -/
def push (recognizer : Recognizer)
    (chunk : Bytes) : Except MediaAdmissionErrorCode Recognizer :=
  match recognizer with
  | .parser reader => .parser <$> reader.push chunk
  | .pdf verifier => .ok (.pdf (chunk.foldl PdfVerifier.pushByte verifier))
  | .absent => .ok .absent

/-- `parser?.finish() ?? declared`. -/
def finish (parsers : MediaParsers) (declared : CanonicalMediaMimeType) :
    Recognizer → Except MediaAdmissionErrorCode CanonicalMediaMimeType
  | .parser reader => reader.finish
  | .pdf verifier => parsers.finishPdf verifier
  | .absent => .ok declared

theorem push_nil (recognizer : Recognizer) :
    recognizer.push [] = .ok recognizer := by
  cases recognizer with
  | parser reader => simp [push]
  | pdf verifier | absent => rfl

theorem push_append (recognizer : Recognizer) (first second : Bytes) :
    recognizer.push (first ++ second) =
      recognizer.push first >>= fun later => later.push second := by
  cases recognizer with
  | parser reader =>
    simp only [push, reader.push_append]
    cases reader.push first <;> rfl
  | pdf verifier => exact congrArg (Except.ok ∘ pdf) List.foldl_append
  | absent => rfl

end Recognizer

/-- `mediaMimeTypesCompatible`. -/
def mediaMimeTypesCompatible (declared actual : CanonicalMediaMimeType) : Bool :=
  declared = actual ∨ (declared = .audioOgg ∧ actual = .audioOpus)

inductive VerifierState
  | isOpen
  | finished
  | failed
  deriving DecidableEq

/-- `MediaVerifier`. -/
structure MediaVerifier where
  declared : CanonicalMediaMimeType
  parser : Recognizer
  total : Nat
  state : VerifierState

/-- What a verifier says of its bytes. -/
structure VerifiedMedia where
  mimeType : CanonicalMediaMimeType
  modality : MediaModality
  byteLength : Nat
  deriving DecidableEq

/-- `createMediaVerifier`. -/
def createMediaVerifier (parsers : MediaParsers)
    (declaredMimeType : JsString) : Except MediaAdmissionErrorCode MediaVerifier := do
  let declared ← canonicalMediaMimeType declaredMimeType
  let parser ← Recognizer.create parsers declared
  pure { declared, parser, total := 0, state := .isOpen }

theorem isOpen_of_created
    {parsers : MediaParsers} {declaredMimeType : JsString} {verifier : MediaVerifier}
    (created : createMediaVerifier parsers declaredMimeType = .ok verifier) :
    verifier.state = .isOpen ∧ verifier.total = 0 := by
  obtain ⟨_, -, created⟩ := bind_eq_ok.mp created
  obtain ⟨_, -, created⟩ := bind_eq_ok.mp created
  rw [← pure_eq_ok.mp created]
  exact ⟨rfl, rfl⟩

namespace MediaVerifier

/-- What `push` does while the verifier is open. -/
def take (verifier : MediaVerifier)
    (chunk : Bytes) : Except MediaAdmissionErrorCode MediaVerifier :=
  if maxMediaObjectBytes - verifier.total < chunk.length then .error .objectLimit
  else
    (verifier.parser.push chunk).map fun parser =>
      { verifier with parser, total := verifier.total + chunk.length }

/-- What `finish` answers while the verifier is open. -/
def verdict (parsers : MediaParsers)
    (verifier : MediaVerifier) : Except MediaAdmissionErrorCode VerifiedMedia := do
  require .invalidFormat
    ¬(verifier.total = 0 ∨ (verifier.declared = .audioL16 ∧ verifier.total % 2 ≠ 0))
  let mimeType ← verifier.parser.finish parsers verifier.declared
  require .invalidFormat (mediaMimeTypesCompatible verifier.declared mimeType)
  match mediaModalityOf mimeType.text with
  | none => .error .invalidFormat
  | some modality => pure { mimeType, modality, byteLength := verifier.total }

/-- `push`. -/
def push (verifier : MediaVerifier)
    (chunk : Bytes) : MediaVerifier × Except MediaAdmissionErrorCode Unit :=
  if verifier.state ≠ .isOpen then (verifier, .error .verifierState)
  else
    match verifier.take chunk with
    | .ok next => (next, .ok ())
    | .error code => ({ verifier with state := .failed }, .error code)

/-- `finish`. -/
def finish (parsers : MediaParsers) (verifier : MediaVerifier) :
    MediaVerifier × Except MediaAdmissionErrorCode VerifiedMedia :=
  if verifier.state ≠ .isOpen then (verifier, .error .verifierState)
  else
    match verifier.verdict parsers with
    | .ok media => ({ verifier with state := .finished }, .ok media)
    | .error code => ({ verifier with state := .failed }, .error code)

theorem take_eq_ok
    {verifier later : MediaVerifier} {chunk : Bytes} (taken : verifier.take chunk = .ok later) :
    chunk.length ≤ maxMediaObjectBytes - verifier.total ∧
      ∃ parser, later = { verifier with parser, total := verifier.total + chunk.length } := by
  unfold take at taken
  split at taken
  · cases taken
  · rename_i fits
    cases pushed : verifier.parser.push chunk with
    | error code => simp [pushed, Except.map] at taken
    | ok parser =>
      simp only [pushed, Except.map, Except.ok.injEq] at taken
      exact ⟨Nat.le_of_not_lt fits, parser, taken.symm⟩

/-! ## Chunks -/

/-- Two chunks are taken like the one that they make up, or neither way. -/
theorem take_append (verifier : MediaVerifier) (first second : Bytes) :
    (verifier.take (first ++ second)).toOption =
      (verifier.take first >>= fun later => later.take second).toOption := by
  simp only [take, Recognizer.push_append, List.length_append]
  by_cases isLong : maxMediaObjectBytes - verifier.total < first.length
  · rw [if_pos isLong, if_pos (by omega)]
    rfl
  rw [if_neg isLong]
  cases verifier.parser.push first with
  | error code => split <;> rfl
  | ok parser =>
    simp only [bind, Except.bind, Except.map, Nat.add_assoc,
      show maxMediaObjectBytes - verifier.total < first.length + second.length ↔
        maxMediaObjectBytes - (verifier.total + first.length) < second.length by omega]

/-- So are any number of chunks. -/
theorem take_flatten (verifier : MediaVerifier) (chunks : List Bytes) :
    (chunks.foldlM take verifier).toOption = (verifier.take chunks.flatten).toOption := by
  induction chunks generalizing verifier with
  | nil => simp [take, Recognizer.push_nil, Except.map, Except.toOption, pure, Except.pure]
  | cons chunk chunks ih =>
    rw [List.foldlM_cons, List.flatten_cons, take_append]
    cases verifier.take chunk with
    | error code => rfl
    | ok later => exact ih later

end MediaVerifier

/-- A caller that pushes the chunks, unless one is refused, and then finishes. -/
def verifyMedia (parsers : MediaParsers) (declaredMimeType : JsString)
    (chunks : List Bytes) : Except MediaAdmissionErrorCode VerifiedMedia := do
  let verifier ← createMediaVerifier parsers declaredMimeType
  (← chunks.foldlM MediaVerifier.take verifier).verdict parsers

theorem toOption_bind (first : Except ε α) (next : α → Except ε β) :
    (first >>= next).toOption = first.toOption >>= fun value => (next value).toOption := by
  cases first <;> rfl

/-- However the bytes are cut into chunks, they are refused, or verified as the
same media. -/
theorem verifyMedia_flatten
    (parsers : MediaParsers) (declaredMimeType : JsString) (chunks : List Bytes) :
    (verifyMedia parsers declaredMimeType chunks).toOption =
      (verifyMedia parsers declaredMimeType [chunks.flatten]).toOption := by
  unfold verifyMedia
  cases createMediaVerifier parsers declaredMimeType with
  | error code => rfl
  | ok verifier =>
    simp only [toOption_bind, MediaVerifier.take_flatten, List.flatten_singleton]

/-- Two ways to cut the same bytes into chunks verify the same media, or none. -/
theorem verifyMedia_ignores_chunks
    (parsers : MediaParsers) (declaredMimeType : JsString) {first second : List Bytes}
    (same : first.flatten = second.flatten) :
    (verifyMedia parsers declaredMimeType first).toOption =
      (verifyMedia parsers declaredMimeType second).toOption := by
  rw [verifyMedia_flatten, same, ← verifyMedia_flatten]

theorem verifyMedia_ignores_chunks_samples :
    (verifyMedia noParsers (jsText "audio/l16") [[1], [], [2]]).toOption =
      (verifyMedia noParsers (jsText "audio/l16") [[1, 2]]).toOption :=
  verifyMedia_ignores_chunks _ _ rfl

/-! ## Admission -/

/-- What a verdict says. -/
theorem MediaVerifier.of_verdict
    {parsers : MediaParsers} {verifier : MediaVerifier} {media : VerifiedMedia}
    (given : verifier.verdict parsers = .ok media) :
    0 < verifier.total ∧ mediaModalityOf media.mimeType.text = some media.modality ∧
      media.byteLength = verifier.total := by
  obtain ⟨_, required, given⟩ := bind_eq_ok.mp given
  obtain ⟨mimeType, -, given⟩ := bind_eq_ok.mp given
  obtain ⟨_, -, given⟩ := bind_eq_ok.mp given
  cases modality : mediaModalityOf mimeType.text with
  | none => simp [modality] at given
  | some found =>
    rw [modality] at given
    obtain rfl := pure_eq_ok.mp given
    exact ⟨by have := require_eq_ok.mp required; omega, modality, rfl⟩

/-- Verified media is admitted under any handle, with the length of its bytes. -/
theorem admitted_of_verified
    {parsers : MediaParsers} {declaredMimeType handle : JsString} {chunks : List Bytes}
    {media : VerifiedMedia} (verified : verifyMedia parsers declaredMimeType chunks = .ok media)
    (isHandle : isMediaHandle handle = true) :
    ∃ byteLength : SafeAmount, byteLength.value = chunks.flatten.length ∧
      0 < byteLength.value ∧ byteLength.value ≤ maxMediaObjectBytes ∧
      admitMediaDescriptor (.object {
          handle := .data (.string handle)
          mimeType := .data (.string media.mimeType.text)
          modality := .data (.string media.modality.text)
          byteLength := .data (.number (.integer media.byteLength))
          durationMs := .absent }) =
        .ok { handle, mimeType := media.mimeType, modality := media.modality, byteLength,
              durationMs := none } := by
  obtain ⟨verifier, created, verified⟩ := bind_eq_ok.mp verified
  obtain ⟨last, taken, given⟩ := bind_eq_ok.mp verified
  obtain ⟨isPositive, modality, isLength⟩ := MediaVerifier.of_verdict given
  have whole := verifier.take_flatten chunks
  cases takes : verifier.take chunks.flatten with
  | error code => rw [taken, takes] at whole; cases whole
  | ok later =>
  obtain rfl : last = later := by rw [taken, takes] at whole; exact Option.some.inj whole
  obtain ⟨fits, _, rfl⟩ := MediaVerifier.take_eq_ok takes
  simp only [(isOpen_of_created created).2, Nat.zero_add] at fits isLength isPositive
  generalize chunks.flatten.length = length at *
  have isSafe : (length : Int) ≤ Library.maxSafeInteger := by
    unfold maxMediaObjectBytes at fits
    unfold Library.maxSafeInteger
    omega
  refine ⟨⟨length, Int.natCast_nonneg length, isSafe⟩, rfl, by simpa using isPositive,
    by simpa using fits, ?_⟩
  simp [admitMediaDescriptor, mediaDataField, DescriptorValue.asText, DescriptorValue.asAmount,
    Quantity.safeAmount, isLength, isSafe, modality, require, admitDuration, mediaHasField,
    isHandle, bind, Except.bind, pure, Except.pure]

theorem admitted_of_verified_samples :
    ∃ byteLength : SafeAmount, byteLength.value = ([[1], [2]] : List Bytes).flatten.length ∧
      0 < byteLength.value ∧ byteLength.value ≤ maxMediaObjectBytes ∧
      admitMediaDescriptor (.object {
          handle := .data (.string (jsText "media://sha256-" ++ List.replicate 64 48))
          mimeType := .data (.string CanonicalMediaMimeType.audioL16.text)
          modality := .data (.string MediaModality.audio.text)
          byteLength := .data (.number (.integer 2))
          durationMs := .absent }) =
        .ok { handle := jsText "media://sha256-" ++ List.replicate 64 48, mimeType := .audioL16,
              modality := .audio, byteLength, durationMs := none } :=
  admitted_of_verified
    (show verifyMedia noParsers (jsText "audio/l16") [[1], [2]] = .ok ⟨.audioL16, .audio, 2⟩
      from rfl)
    (show isMediaHandle (jsText "media://sha256-" ++ List.replicate 64 48) = true by decide)

/-! ## Calls in any order -/

/-- A call of a verifier's methods. -/
inductive VerifierCall
  | push (chunk : Bytes)
  | finish

namespace MediaVerifier

variable
  (parsers : MediaParsers)

/-- One call.  A push that is accepted answers nothing. -/
def call (verifier : MediaVerifier) :
    VerifierCall → MediaVerifier × Except MediaAdmissionErrorCode (Option VerifiedMedia)
  | .push chunk => (verifier.push chunk).map id fun answer => answer.map fun _ => none
  | .finish => (verifier.finish parsers).map id fun answer => answer.map some

/-- The answers to calls whose caller goes on after every one. -/
def answers (verifier : MediaVerifier) :
    List VerifierCall → List (Except MediaAdmissionErrorCode (Option VerifiedMedia))
  | [] => []
  | call :: calls =>
    (verifier.call parsers call).2 :: (verifier.call parsers call).1.answers calls

variable
  {verifier : MediaVerifier}

/-- A verifier that is not open refuses every call. -/
theorem answers_closed (isClosed : verifier.state ≠ .isOpen) (calls : List VerifierCall) :
    ∀ answer ∈ verifier.answers parsers calls, answer = .error .verifierState := by
  induction calls with
  | nil => simp [answers]
  | cons call calls ih =>
    cases call <;> simpa [answers, MediaVerifier.call, push, finish, isClosed, Except.map] using ih

/-- An open verifier takes a chunk and stays open, or gives its verdict, or is
closed by an error. -/
theorem call_open (isOpen : verifier.state = .isOpen) (call : VerifierCall) :
    (∃ chunk later, call = .push chunk ∧ verifier.take chunk = .ok later ∧
        later.state = .isOpen ∧ verifier.call parsers call = (later, .ok none)) ∨
      (verifier.call parsers call).1.state ≠ .isOpen ∧
        ∀ media, (verifier.call parsers call).2 = .ok (some media) →
          call = .finish ∧ verifier.verdict parsers = .ok media := by
  cases call with
  | push chunk =>
    cases taken : verifier.take chunk with
    | error code => exact .inr (by simp [MediaVerifier.call, push, isOpen, taken, Except.map])
    | ok later =>
      refine .inl ⟨chunk, later, rfl, taken, ?_, ?_⟩
      · obtain ⟨-, _, rfl⟩ := take_eq_ok taken
        exact isOpen
      · simp [MediaVerifier.call, push, isOpen, taken, Except.map]
  | finish =>
    refine .inr ?_
    cases given : verifier.verdict parsers <;>
      simp [MediaVerifier.call, finish, isOpen, given, Except.map]

/-- After an answer that is not an accepted push every call is refused. -/
theorem answers_pairwise (isOpen : verifier.state = .isOpen) (calls : List VerifierCall) :
    (verifier.answers parsers calls).Pairwise fun earlier later =>
      earlier = .ok none ∨ later = .error .verifierState := by
  induction calls generalizing verifier with
  | nil => exact .nil
  | cons call calls ih =>
    rw [answers, List.pairwise_cons]
    obtain ⟨_, later, -, -, staysOpen, called⟩ | ⟨isClosed, -⟩ := call_open parsers isOpen call
    · rw [called]
      exact ⟨fun _ _ => .inl rfl, ih staysOpen⟩
    · exact ⟨fun answer member => .inr (answers_closed parsers isClosed calls answer member),
        List.pairwise_of_forall_mem_list fun _ _ answer member =>
          .inr (answers_closed parsers isClosed calls answer member)⟩

/-- A verdict is the verdict on the chunks that were pushed before it. -/
theorem verdict_of_answer
    {media : VerifiedMedia} {calls : List VerifierCall} {position : Nat}
    (isOpen : verifier.state = .isOpen)
    (answered : (verifier.answers parsers calls)[position]? = some (.ok (some media))) :
    ∃ chunks : List Bytes, calls.take (position + 1) = chunks.map .push ++ [.finish] ∧
      (chunks.foldlM take verifier >>= fun last => last.verdict parsers) = .ok media := by
  induction calls generalizing verifier position with
  | nil => simp [answers] at answered
  | cons call calls ih =>
    obtain ⟨chunk, later, rfl, taken, staysOpen, called⟩ | ⟨isClosed, given⟩ :=
      call_open parsers isOpen call
    · cases position with
      | zero => simp [answers, called] at answered
      | succ position =>
        obtain ⟨chunks, pushed, verified⟩ := ih staysOpen (by simpa [answers, called] using answered)
        refine ⟨chunk :: chunks, by simpa using pushed, ?_⟩
        rw [List.foldlM_cons, taken]
        exact verified
    · cases position with
      | zero =>
        obtain ⟨rfl, verified⟩ := given media (by simpa [answers] using answered)
        exact ⟨[], rfl, verified⟩
      | succ position =>
        cases answers_closed parsers isClosed calls _ (List.mem_of_getElem? answered)

end MediaVerifier

/-- Whatever calls a caller makes, the first one that is not an accepted push
closes the verifier, and a verdict is given only to the first `finish` after such
pushes, on the bytes that they brought. -/
theorem verdict_closes
    {parsers : MediaParsers} {declaredMimeType : JsString} {verifier : MediaVerifier}
    (created : createMediaVerifier parsers declaredMimeType = .ok verifier)
    (calls : List VerifierCall) :
    ((verifier.answers parsers calls).Pairwise fun earlier later =>
        earlier = .ok none ∨ later = .error .verifierState) ∧
      ∀ position media,
        (verifier.answers parsers calls)[position]? = some (.ok (some media)) →
        ∃ chunks : List Bytes, calls.take (position + 1) = chunks.map .push ++ [.finish] ∧
          verifyMedia parsers declaredMimeType chunks = .ok media := by
  have isOpen := (isOpen_of_created created).1
  refine ⟨verifier.answers_pairwise parsers isOpen calls, fun position media answered => ?_⟩
  obtain ⟨chunks, called, verified⟩ := verifier.verdict_of_answer parsers isOpen answered
  exact ⟨chunks, called, by rw [verifyMedia, created]; exact verified⟩

/-- Two bytes of `audio/L16` are verified, and what comes later is refused. -/
theorem verdict_closes_samples :
    ∃ chunks : List Bytes,
      [.push [1], .push [2], .finish] = chunks.map VerifierCall.push ++ [.finish] ∧
        verifyMedia noParsers (jsText "audio/l16") chunks =
          .ok { mimeType := .audioL16, modality := .audio, byteLength := 2 } :=
  (verdict_closes rfl [.push [1], .push [2], .finish, .finish]).2 2 _ (by decide)

end Relavium.Verifier
