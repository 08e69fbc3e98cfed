import Relavium.Verifier.MediaVerifier

/-!
# The in-memory media store

Model of `InMemoryMediaStore` of `packages/db/src/media-store.ts`.  Bytes are put in
one buffer, or come as a stream and are collected in blocks, and lie under the handle
of their digest, which is a parameter.
-/

namespace Relavium.Store

open Library
open Shared
open Verifier

/-! ## Collecting a stream -/

def blockLength : Nat := 64 * 1024

/-- The collected blocks, the last one first, and how much of that one is used. -/
structure Collection where
  collected : List Bytes
  used : Nat

namespace Collection

/-- Copies one byte into the last block, or into a new one. -/
def addByte (collection : Collection)
    (byte : UInt8) : Collection :=
  if collection.collected = [] ∨ collection.used = blockLength then
    { collected := (List.replicate blockLength 0).set 0 byte :: collection.collected, used := 1 }
  else
    { collected := collection.collected.modifyHead (·.set collection.used byte)
      used := collection.used + 1 }

/-- The first bytes of the blocks. -/
def join : List Bytes → Nat → Bytes
  | [], _ => []
  | block :: later, total =>
    let count := min block.length total
    block.take count ++ join later (total - count)

theorem join_eq (blocks : List Bytes) (total : Nat) :
    join blocks total = blocks.flatten.take total := by
  induction blocks generalizing total with
  | nil => simp [join]
  | cons block later ih =>
    rw [join, ih, List.flatten_cons, List.take_append, min_comm, ← List.take_take,
      List.take_length, show total - min total block.length = total - block.length by omega]

/-- What is in the blocks up to the end of their use. -/
def Holds (collection : Collection) (bytes : Bytes) : Prop :=
  match collection.collected with
  | [] => bytes = []
  | block :: earlier =>
    block.length = blockLength ∧ collection.used ≤ blockLength ∧
      bytes = earlier.reverse.flatten ++ block.take collection.used

theorem take_set_succ
    (block : Bytes) {used : Nat} (isWithin : used < block.length) (byte : UInt8) :
    (block.set used byte).take (used + 1) = block.take used ++ [byte] := by
  simp [List.take_add_one, List.take_set_of_le, isWithin]

theorem Holds.addByte
    {collection : Collection} {bytes : Bytes} (holds : collection.Holds bytes) (byte : UInt8) :
    (collection.addByte byte).Holds (bytes ++ [byte]) := by
  have isPositive : 0 < blockLength := by decide
  have opened : ((List.replicate blockLength 0).set 0 byte).length = blockLength ∧
      ((List.replicate blockLength 0).set 0 byte).take 1 = [byte] :=
    ⟨by rw [List.length_set, List.length_replicate],
      take_set_succ _ (by rwa [List.length_replicate]) byte⟩
  obtain ⟨collected, used⟩ := collection
  unfold Collection.addByte
  generalize (List.replicate blockLength 0).set 0 byte = next at *
  cases collected with
  | nil =>
    obtain rfl : bytes = [] := holds
    exact ⟨opened.1, isPositive, by simp [opened.2]⟩
  | cons block earlier =>
    obtain ⟨isLength, (isBound : used ≤ blockLength), rfl⟩ := holds
    by_cases isFull : used = blockLength
    · rw [if_pos (.inr isFull)]
      refine ⟨opened.1, isPositive, ?_⟩
      simp [opened.2, List.take_of_length_le, isFull, isLength]
    · rw [if_neg (by simpa using isFull)]
      refine ⟨by simpa using isLength, ?_, ?_⟩
      · exact Nat.lt_of_le_of_ne isBound isFull
      · rw [take_set_succ block (show used < block.length by omega), List.append_assoc]

/-- The blocks hold the bytes that were copied into them. -/
theorem join_foldl_addByte (bytes : Bytes) :
    join (bytes.foldl Collection.addByte ⟨[], 0⟩).collected.reverse bytes.length = bytes := by
  have holds : (bytes.foldl Collection.addByte ⟨[], 0⟩).Holds bytes := by
    induction bytes using List.reverseRecOn with
    | nil => rfl
    | append_singleton bytes byte ih =>
      rw [List.foldl_append]
      exact ih.addByte byte
  generalize bytes.foldl Collection.addByte ⟨[], 0⟩ = collection at holds
  obtain ⟨collected, used⟩ := collection
  cases collected with
  | nil => exact (show bytes = [] from holds).symm
  | cons block earlier =>
    obtain ⟨isLength, isBound, isBytes⟩ := holds
    have isPrefix : bytes <+: (block :: earlier).reverse.flatten := by
      rw [isBytes, List.reverse_cons, List.flatten_append, List.flatten_singleton]
      exact List.prefix_append_right_inj _ |>.mpr (List.take_prefix ..)
    rw [join_eq]
    exact (List.prefix_iff_eq_take.mp isPrefix).symm

end Collection

/-! ## The store -/

/-- `InMemoryMediaStore`, with the parsers and the digest that it uses. -/
structure InMemoryMediaStore where
  parsers : MediaParsers
  handleOf : Bytes → JsString
  blobs : OrderedMap JsString Bytes

namespace InMemoryMediaStore

/-- Publishes bytes under their handle. -/
def publish (store : InMemoryMediaStore)
    (bytes : Bytes) : JsString × InMemoryMediaStore :=
  (store.handleOf bytes, { store with blobs := store.blobs.set (store.handleOf bytes) bytes })

/-- `admitInline`. -/
def admitInline (bytes : Bytes)
    (mimeType : JsString) : Except MediaAdmissionErrorCode Unit := do
  let mime ← canonicalMediaMimeType mimeType
  require .inlineLimit
    (((jsText "image/").isPrefixOf mime.text ∨ (jsText "audio/").isPrefixOf mime.text) ∧
      bytes.length ≤ 256 * 1024)

variable
  (store : InMemoryMediaStore)

/-- `put`. -/
def put (bytes : Bytes) (mimeType : JsString) :
    Except MediaAdmissionErrorCode (JsString × InMemoryMediaStore) := do
  admitInline bytes mimeType
  let _ ← verifyMedia store.parsers mimeType [bytes]
  pure (store.publish bytes)

/-- The loop of `putStream`. -/
def collect (state : MediaVerifier × Collection × Nat)
    (chunk : Bytes) : Except MediaAdmissionErrorCode (MediaVerifier × Collection × Nat) := do
  require .objectLimit (chunk.length ≤ maxMediaObjectBytes - state.2.2)
  let verifier ← state.1.take chunk
  pure (verifier, chunk.foldl Collection.addByte state.2.1, state.2.2 + chunk.length)

/-- `putStream`. -/
def putStream (chunks : List Bytes) (mimeType : JsString) :
    Except MediaAdmissionErrorCode (JsString × InMemoryMediaStore) := do
  let verifier ← createMediaVerifier store.parsers mimeType
  let last ← chunks.foldlM collect (verifier, ⟨[], 0⟩, 0)
  let _ ← last.1.verdict store.parsers
  pure (store.publish (Collection.join last.2.1.collected.reverse last.2.2))

/-- The loop counts what its verifier counts. -/
theorem foldlM_collect
    (verifier : MediaVerifier) (collection : Collection) (chunks : List Bytes) :
    chunks.foldlM collect (verifier, collection, verifier.total) =
      (chunks.foldlM MediaVerifier.take verifier).map fun last =>
        (last, chunks.flatten.foldl Collection.addByte collection,
          verifier.total + chunks.flatten.length) := by
  induction chunks generalizing verifier collection with
  | nil => rfl
  | cons chunk chunks ih =>
    rw [List.foldlM_cons, List.foldlM_cons, collect, require]
    cases taken : verifier.take chunk with
    | error code =>
      by_cases fits : chunk.length ≤ maxMediaObjectBytes - verifier.total
      · simp only [if_pos fits]
        rfl
      · simp only [MediaVerifier.take, if_pos (Nat.lt_of_not_le fits), Except.error.injEq] at taken
        simp only [if_neg fits, taken]
        rfl
    | ok later =>
      obtain ⟨fits, parser, rfl⟩ := MediaVerifier.take_eq_ok taken
      simp only [if_pos fits]
      refine (ih _ (chunk.foldl Collection.addByte collection)).trans ?_
      rw [List.flatten_cons, List.foldl_append, List.length_append, ← Nat.add_assoc]
      rfl

/-- A stream is published as a whole. -/
theorem putStream_eq (chunks : List Bytes) (mimeType : JsString) :
    store.putStream chunks mimeType =
      (verifyMedia store.parsers mimeType chunks).map fun _ => store.publish chunks.flatten := by
  unfold putStream verifyMedia
  cases created : createMediaVerifier store.parsers mimeType with
  | error code => rfl
  | ok verifier =>
    have collects := foldlM_collect verifier ⟨[], 0⟩ chunks
    rw [(isOpen_of_created created).2] at collects
    simp only [bind, Except.bind, collects]
    cases chunks.foldlM MediaVerifier.take verifier with
    | error code => rfl
    | ok last =>
      simp only [Except.map, Nat.zero_add, Collection.join_foldl_addByte]
      cases last.verdict store.parsers <;> rfl

/-- A stream that its verifier accepts is published with exactly its bytes, however
long it is, and the same bytes in one buffer are published alike when they pass the
inline admission. -/
theorem put_eq_putStream (chunks : List Bytes) (mimeType : JsString) :
    store.putStream chunks mimeType =
        (verifyMedia store.parsers mimeType chunks).map (fun _ => store.publish chunks.flatten) ∧
      (store.put chunks.flatten mimeType).toOption =
        (admitInline chunks.flatten mimeType).toOption >>= fun _ =>
          (store.putStream chunks mimeType).toOption := by
  refine ⟨store.putStream_eq chunks mimeType, ?_⟩
  rw [putStream_eq, put, toOption_bind, toOption_bind, ← verifyMedia_flatten]
  cases verifyMedia store.parsers mimeType chunks <;> rfl

/-- A call of the store. -/
inductive StoreCall
  | put (bytes : Bytes) (mimeType : JsString)
  | putStream (chunks : List Bytes) (mimeType : JsString)

/-- The store after a call, which publishes or is refused. -/
def after : StoreCall → InMemoryMediaStore
  | .put bytes mimeType => ((store.put bytes mimeType).toOption.map Prod.snd).getD store
  | .putStream chunks mimeType =>
    ((store.putStream chunks mimeType).toOption.map Prod.snd).getD store

/-- A call changes nothing, or publishes bytes that were verified. -/
theorem after_cases (call : StoreCall) :
    store.after call = store ∨
      ∃ bytes mimeType media, verifyMedia store.parsers mimeType [bytes] = .ok media ∧
        store.after call = (store.publish bytes).2 := by
  cases call with
  | put bytes mimeType =>
    rw [after, put]
    cases admitInline bytes mimeType with
    | error code => exact .inl rfl
    | ok =>
      cases verified : verifyMedia store.parsers mimeType [bytes] with
      | error code => exact .inl rfl
      | ok media => exact .inr ⟨bytes, mimeType, media, verified, rfl⟩
  | putStream chunks mimeType =>
    rw [after, putStream_eq]
    have whole := verifyMedia_flatten store.parsers mimeType chunks
    cases streamed : verifyMedia store.parsers mimeType chunks with
    | error code => exact .inl rfl
    | ok media =>
      rw [streamed] at whole
      cases verified : verifyMedia store.parsers mimeType [chunks.flatten] with
      | error code => rw [verified] at whole; cases whole
      | ok media => exact .inr ⟨_, mimeType, media, verified, rfl⟩

/-- What any calls leave in the store lies under the handle of its digest and is
verified media of some type. -/
theorem blobs_verified
    (parsers : MediaParsers) (handleOf : Bytes → JsString) (calls : List StoreCall) :
    ∀ handle bytes, (calls.foldl after ⟨parsers, handleOf, .empty⟩).blobs.get handle = some bytes →
      handleOf bytes = handle ∧
        ∃ mimeType media, verifyMedia parsers mimeType [bytes] = .ok media := by
  suffices ∃ blobs : OrderedMap JsString Bytes,
      calls.foldl after ⟨parsers, handleOf, .empty⟩ = ⟨parsers, handleOf, blobs⟩ ∧
        ∀ handle bytes, blobs.get handle = some bytes → handleOf bytes = handle ∧
          ∃ mimeType media, verifyMedia parsers mimeType [bytes] = .ok media by
    obtain ⟨blobs, isStore, sound⟩ := this
    rwa [isStore]
  induction calls using List.reverseRecOn with
  | nil => exact ⟨.empty, rfl, by simp⟩
  | append_singleton calls call ih =>
    obtain ⟨blobs, isStore, sound⟩ := ih
    rw [List.foldl_append, isStore, List.foldl_cons, List.foldl_nil]
    obtain same | ⟨bytes, mimeType, media, verified, published⟩ := after_cases _ call
    · exact ⟨blobs, same, sound⟩
    · refine ⟨_, published, fun handle found held => ?_⟩
      by_cases isHandle : handle = handleOf bytes
      · subst isHandle
        obtain rfl : bytes = found := by simpa using held
        exact ⟨rfl, mimeType, media, verified⟩
      · exact sound handle found (by rwa [OrderedMap.get_set_of_ne _ isHandle] at held)

theorem blobs_verified_samples :
    ∃ mimeType media, verifyMedia noParsers mimeType [[1, 2]] = .ok media :=
  (blobs_verified noParsers (fun _ => jsText "media://sha256-9a")
    [.put [1, 2] (jsText "audio/l16")] (jsText "media://sha256-9a") [1, 2] (by decide)).2

end InMemoryMediaStore

end Relavium.Store
