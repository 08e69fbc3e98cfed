import Mathlib.Data.List.Chain
import Relavium.Library.JsText
import Relavium.Shared.Constants

/-!
# Requests and their continuation tokens

Model of the content parts of `packages/shared/src/content.ts` and of the two
transforms of `packages/llm/src/fallback-chain.ts` that take a provider's
tokens out of a request.  The issuer a part or a token carries here is the
specification's own: no function of the chain reads it.
-/

namespace Relavium.Llm

open Library

/-- The plan entry a reasoning part or a token came from. -/
structure Issuer where
  provider : ProviderId
  model : JsString
  deriving DecidableEq

/-- `MediaSource`. -/
inductive MediaSource
  | base64 (data : JsString)
  | url (url : JsString)
  | handle (ref : JsString)
  deriving DecidableEq

/-- The signature of a `tool_call` and the entry that issued it. -/
structure CallSignature where
  value : JsString
  issuer : Issuer
  deriving DecidableEq

/-- `ContentPart`.  What the chain carries unread is of type `α`: the
arguments of a call and the fields of a tool result. -/
inductive ContentPart (α : Type)
  | text (text : JsString)
  | toolCall (id : JsString) (name : JsString) (args : α) (providerExecuted : Option Bool)
      (signature : Option CallSignature)
  | toolResult (result : α)
  | reasoning (text : JsString) (signature : Option JsString) (redacted : Option Bool)
      (issuer : Issuer)
  | media (mimeType : JsString) (source : MediaSource) (name : Option JsString)
      (transcript : Option JsString)
  deriving DecidableEq

/-- `LlmRole`. -/
inductive LlmRole
  | system
  | user
  | assistant
  | tool
  deriving DecidableEq

/-- `LlmMessage`. -/
structure LlmMessage (α : Type) where
  role : LlmRole
  content : List (ContentPart α)

/-- `REASONING_EFFORTS`. -/
inductive ReasoningEffort
  | off
  | low
  | medium
  | high
  | max
  deriving DecidableEq

/-- The fields of `LlmRequest` that the walk of a plan reads or changes. -/
structure LlmRequest (α : Type) where
  model : JsString
  messages : List (LlmMessage α)
  reasoningEffort : Option ReasoningEffort

variable {α : Type}

namespace ContentPart

/-- The part is a reasoning part. -/
def isReasoning : ContentPart α → Bool
  | .reasoning .. => true
  | _ => false

/-- The issuer of a reasoning part. -/
def reasoningIssuer : ContentPart α → Option Issuer
  | .reasoning _ _ _ issuer => some issuer
  | _ => none

/-- The issuer of the signature of a `tool_call`. -/
def signatureIssuer : ContentPart α → Option Issuer
  | .toolCall _ _ _ _ signature => signature.map CallSignature.issuer
  | _ => none

/-- What of a `tool_call` belongs to the conversation. -/
def call : ContentPart α → Option (JsString × JsString × α)
  | .toolCall id name args _ _ => some (id, name, args)
  | _ => none

/-- The part as an entry returns it. -/
def issuedBy (issuer : Issuer) : ContentPart α → ContentPart α
  | .toolCall id name args providerExecuted signature =>
    .toolCall id name args providerExecuted (signature.map fun token => { token with issuer })
  | .reasoning words signature redacted _ =>
    .reasoning words signature redacted issuer
  | part => part

/-- `stripToolCallSignature`, on the parts that have one. -/
def withoutSignature : ContentPart α → ContentPart α
  | .toolCall id name args providerExecuted (some _) =>
    .toolCall id name args providerExecuted none
  | part => part

@[simp]
theorem signatureIssuer_withoutSignature (part : ContentPart α) :
    part.withoutSignature.signatureIssuer = none := by
  cases part with
  | toolCall id name args providerExecuted signature =>
    cases signature <;> rfl
  | _ => rfl

@[simp]
theorem reasoningIssuer_withoutSignature (part : ContentPart α) :
    part.withoutSignature.reasoningIssuer = part.reasoningIssuer := by
  cases part with
  | toolCall id name args providerExecuted signature =>
    cases signature <;> rfl
  | _ => rfl

@[simp]
theorem call_withoutSignature (part : ContentPart α) :
    part.withoutSignature.call = part.call := by
  cases part with
  | toolCall id name args providerExecuted signature =>
    cases signature <;> rfl
  | _ => rfl

theorem reasoningIssuer_of_not_isReasoning
    {part : ContentPart α} (other : part.isReasoning = false) :
    part.reasoningIssuer = none := by
  cases part with
  | reasoning => cases other
  | _ => rfl

theorem call_of_isReasoning {part : ContentPart α} (reasoning : part.isReasoning = true) :
    part.call = none := by
  cases part with
  | reasoning => rfl
  | _ => cases reasoning

end ContentPart

/-- The parts of a list of messages, in order. -/
def partsOf (messages : List (LlmMessage α)) : List (ContentPart α) :=
  messages.flatMap LlmMessage.content

/-- The issuers of the reasoning parts of some messages. -/
def reasoningIssuers (messages : List (LlmMessage α)) : List Issuer :=
  (partsOf messages).filterMap ContentPart.reasoningIssuer

/-- The issuers of the call signatures of some messages. -/
def signatureIssuers (messages : List (LlmMessage α)) : List Issuer :=
  (partsOf messages).filterMap ContentPart.signatureIssuer

/-- The calls of some messages, in order. -/
def callsOf (messages : List (LlmMessage α)) :
    List (JsString × JsString × α) :=
  (partsOf messages).filterMap ContentPart.call

/-- The role and the number of parts of each message. -/
def outline (messages : List (LlmMessage α)) : List (LlmRole × Nat) :=
  messages.map fun message => (message.role, message.content.length)

/-- No message is empty and no two neighbours have one role. -/
structure Alternating (messages : List (LlmMessage α)) : Prop where
  inhabited : ∀ message ∈ messages, message.content ≠ []
  apart : messages.IsChain fun first second => first.role ≠ second.role

/-- `stripToolCallSignatures`. -/
def stripToolCallSignatures (req : LlmRequest α) : LlmRequest α :=
  { req with
    messages := req.messages.map fun message =>
      { message with
        content := message.content.map ContentPart.withoutSignature } }

/-- The loop that merges adjacent messages of one role, from the message it
wrote last. -/
def mergeInto (previous : LlmMessage α) :
    List (LlmMessage α) → List (LlmMessage α)
  | [] => [previous]
  | message :: rest =>
    if previous.role = message.role then
      mergeInto
        { previous with content := previous.content ++ message.content } rest
    else
      previous :: mergeInto message rest

/-- The messages with adjacent ones of one role merged. -/
def mergeAdjacent : List (LlmMessage α) → List (LlmMessage α)
  | [] => []
  | message :: rest => mergeInto message rest

/-- `stripReasoningParts`. -/
def stripReasoningParts (req : LlmRequest α) : LlmRequest α :=
  { req with
    messages := mergeAdjacent
      ((req.messages.map fun message =>
        { message with
          content := message.content.filter fun part => !part.isReasoning })
        |>.filter fun message => decide (0 < message.content.length)) }

theorem partsOf_mergeInto (previous : LlmMessage α) (messages : List (LlmMessage α)) :
    partsOf (mergeInto previous messages) =
      previous.content ++ partsOf messages := by
  induction messages generalizing previous with
  | nil => simp [mergeInto, partsOf]
  | cons message rest ih =>
    unfold mergeInto
    split
    · rw [ih]
      simp [partsOf]
    · have tail := ih message
      simp only [partsOf, List.flatMap_cons] at tail ⊢
      rw [tail]

theorem partsOf_mergeAdjacent (messages : List (LlmMessage α)) :
    partsOf (mergeAdjacent messages) = partsOf messages := by
  cases messages with
  | nil => rfl
  | cons message rest =>
    rw [mergeAdjacent, partsOf_mergeInto]
    simp [partsOf]

theorem head_mergeInto (previous : LlmMessage α) (messages : List (LlmMessage α)) :
    ∃ content rest,
      mergeInto previous messages =
        { role := previous.role, content } :: rest := by
  induction messages generalizing previous with
  | nil => exact ⟨previous.content, [], rfl⟩
  | cons message rest ih =>
    unfold mergeInto
    split
    · exact ih _
    · exact ⟨previous.content, _, rfl⟩

/-- Merging inhabited messages leaves them inhabited and alternating. -/
theorem alternating_mergeInto
    (previous : LlmMessage α) (messages : List (LlmMessage α)) (first : previous.content ≠ [])
    (others : ∀ message ∈ messages, message.content ≠ []) :
    Alternating (mergeInto previous messages) := by
  induction messages generalizing previous with
  | nil => exact ⟨by simpa [mergeInto] using first, by simp [mergeInto]⟩
  | cons message rest ih =>
    have inhabited := others message List.mem_cons_self
    have later : ∀ other ∈ rest, other.content ≠ [] :=
      fun other member => others other (List.mem_cons_of_mem _ member)
    unfold mergeInto
    split
    case isTrue same =>
      exact ih _ (by simp [first]) later
    case isFalse different =>
      have tail := ih message inhabited later
      obtain ⟨content, remaining, shape⟩ := head_mergeInto message rest
      rw [shape] at tail ⊢
      constructor
      · intro other member
        rcases List.mem_cons.mp member with same | member
        · exact same ▸ first
        · exact tail.inhabited other member
      · exact List.IsChain.cons_cons different tail.apart

theorem alternating_mergeAdjacent
    (messages : List (LlmMessage α)) (inhabited : ∀ message ∈ messages, message.content ≠ []) :
    Alternating (mergeAdjacent messages) := by
  cases messages with
  | nil => exact ⟨by simp [mergeAdjacent], List.IsChain.nil⟩
  | cons message rest =>
    exact alternating_mergeInto message rest (inhabited message List.mem_cons_self)
      fun other member => inhabited other (List.mem_cons_of_mem _ member)

theorem partsOf_filter_inhabited (messages : List (LlmMessage α)) :
    partsOf (messages.filter fun message =>
      decide (0 < message.content.length)) = partsOf messages := by
  induction messages with
  | nil => rfl
  | cons message rest ih =>
    simp only [partsOf] at ih
    by_cases inhabited : 0 < message.content.length
    · simp [partsOf, inhabited, ih]
    · have empty : message.content = [] := by
        simpa using inhabited
      simp [partsOf, empty, ih]

theorem partsOf_stripReasoningParts (req : LlmRequest α) :
    partsOf (stripReasoningParts req).messages =
      (partsOf req.messages).filter fun part => !part.isReasoning := by
  unfold stripReasoningParts
  rw [partsOf_mergeAdjacent, partsOf_filter_inhabited]
  simp [partsOf, List.flatMap_map, List.filter_flatMap]

/-- No reasoning part is left. -/
@[simp]
theorem reasoningIssuers_stripReasoningParts (req : LlmRequest α) :
    reasoningIssuers (stripReasoningParts req).messages = [] := by
  rw [reasoningIssuers, partsOf_stripReasoningParts, List.filterMap_eq_nil_iff]
  intro part member
  exact ContentPart.reasoningIssuer_of_not_isReasoning
    (by simpa using (List.mem_filter.mp member).2)

/-- The calls stay as they are. -/
@[simp]
theorem callsOf_stripReasoningParts (req : LlmRequest α) :
    callsOf (stripReasoningParts req).messages = callsOf req.messages := by
  rw [callsOf, partsOf_stripReasoningParts, callsOf]
  induction partsOf req.messages with
  | nil => rfl
  | cons part rest ih =>
    cases reasoning : part.isReasoning with
    | true =>
      simp [reasoning, ContentPart.call_of_isReasoning reasoning, ih]
    | false => simp [reasoning, List.filterMap_cons, ih]

/-- The signatures left are among those the request had. -/
theorem signatureIssuers_stripReasoningParts (req : LlmRequest α) :
    (signatureIssuers (stripReasoningParts req).messages).Sublist
      (signatureIssuers req.messages) := by
  rw [signatureIssuers, partsOf_stripReasoningParts]
  exact List.filter_sublist.filterMap _

theorem alternating_stripReasoningParts (req : LlmRequest α) :
    Alternating (stripReasoningParts req).messages := by
  refine alternating_mergeAdjacent _ fun message member => ?_
  have inhabited := (List.mem_filter.mp member).2
  exact List.ne_nil_of_length_pos (of_decide_eq_true inhabited)

theorem partsOf_stripToolCallSignatures (req : LlmRequest α) :
    partsOf (stripToolCallSignatures req).messages =
      (partsOf req.messages).map ContentPart.withoutSignature := by
  simp [stripToolCallSignatures, partsOf, List.flatMap_map, List.map_flatMap]

/-- No signature is left. -/
@[simp]
theorem signatureIssuers_stripToolCallSignatures (req : LlmRequest α) :
    signatureIssuers (stripToolCallSignatures req).messages = [] := by
  rw [signatureIssuers, partsOf_stripToolCallSignatures,
    List.filterMap_map, List.filterMap_eq_nil_iff]
  exact fun part _ => part.signatureIssuer_withoutSignature

@[simp]
theorem reasoningIssuers_stripToolCallSignatures (req : LlmRequest α) :
    reasoningIssuers (stripToolCallSignatures req).messages =
      reasoningIssuers req.messages := by
  rw [reasoningIssuers, partsOf_stripToolCallSignatures, List.filterMap_map]
  exact List.filterMap_congr fun part _ => part.reasoningIssuer_withoutSignature

@[simp]
theorem callsOf_stripToolCallSignatures (req : LlmRequest α) :
    callsOf (stripToolCallSignatures req).messages = callsOf req.messages := by
  rw [callsOf, partsOf_stripToolCallSignatures, List.filterMap_map]
  exact List.filterMap_congr fun part _ => part.call_withoutSignature

/-- The roles and the numbers of parts stay as they are. -/
@[simp]
theorem outline_stripToolCallSignatures (req : LlmRequest α) :
    outline (stripToolCallSignatures req).messages = outline req.messages := by
  simp [outline, stripToolCallSignatures]

/-- Whether messages alternate is seen from their outline. -/
theorem Alternating.of_outline
    {first second : List (LlmMessage α)} (alternating : Alternating first)
    (same : outline second = outline first) :
    Alternating second := by
  have lengths : ∀ entry ∈ outline second, 0 < entry.2 := by
    rw [same]
    intro entry member
    obtain ⟨message, inside, rfl⟩ := List.mem_map.mp member
    exact List.length_pos_iff.mpr (alternating.inhabited message inside)
  have roles : (outline second).IsChain fun one other => one.1 ≠ other.1 := by
    rw [same, outline, List.isChain_map]
    exact alternating.apart
  constructor
  · intro message member
    exact List.length_pos_iff.mp (lengths _ (List.mem_map_of_mem member))
  · rwa [outline, List.isChain_map] at roles

end Relavium.Llm
