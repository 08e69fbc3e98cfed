import Relavium.Llm.UsageEvidence

/-!
# Stream chunks and classified errors

Model of the chunk union of `packages/llm/src/types.ts` and of the two
constructors of `packages/llm/src/llm-error.ts` that the stream grammar uses.
Chunks are taken as `StreamChunkSchema` accepts them, apart from their usage
evidence; what a content chunk carries besides its type is a parameter.
-/

namespace Relavium.Llm

inductive LlmErrorKind
  | rateLimit
  | overloaded
  | timeout
  | transport
  | protocol
  | auth
  | badRequest
  | contextOverflow
  | contentFilter
  | cancelled
  | unknown
  deriving DecidableEq

/-- `RETRYABLE_KINDS`. -/
def isRetryable : LlmErrorKind → Bool
  | .rateLimit => true
  | .overloaded => true
  | .timeout => true
  | .transport => true
  | _ => false

/-- The one error shape of the seam.  Its opaque cause is of type `ε`. -/
structure LlmError (ε : Type) where
  kind : LlmErrorKind
  retryable : Bool
  code : Option String
  status : Option Int
  retryAfterMs : Option Nat
  provider : ProviderId
  message : String
  cause : Option ε
  contentCommitted : Bool
  usage : Option UsageEvidence
  deriving DecidableEq

/-- The non-terminal arms of the chunk union. -/
inductive ContentType
  | textDelta
  | toolCallStart
  | toolCallDelta
  | toolCallEnd
  | reasoningStart
  | reasoningDelta
  | reasoningEnd
  | mediaStart
  | mediaDelta
  | mediaEnd
  | toolResult

def ContentType.name : ContentType → String
  | .textDelta => "text_delta"
  | .toolCallStart => "tool_call_start"
  | .toolCallDelta => "tool_call_delta"
  | .toolCallEnd => "tool_call_end"
  | .reasoningStart => "reasoning_start"
  | .reasoningDelta => "reasoning_delta"
  | .reasoningEnd => "reasoning_end"
  | .mediaStart => "media_start"
  | .mediaDelta => "media_delta"
  | .mediaEnd => "media_end"
  | .toolResult => "tool_result"

inductive StreamChunk (π ε : Type)
  | content (type : ContentType) (payload : π)
  | stop (stopReason : StopReason) (usage : UsageEvidence)
  | error (error : LlmError ε)

namespace StreamChunk

def typeName : StreamChunk π ε → String
  | .content type _ => type.name
  | .stop _ _ => "stop"
  | .error _ => "error"

/-- `stop` and `error` are the two terminal arms. -/
def isTerminal : StreamChunk π ε → Bool
  | .content _ _ => false
  | .stop _ _ => true
  | .error _ => true

/-- The usage evidence that a terminal carries. -/
def usage : StreamChunk π ε → Option UsageEvidence
  | .content _ _ => none
  | .stop _ usage => some usage
  | .error failure => failure.usage

/-- The usage evidence of a chunk, if it has any, is valid. -/
def usageValid (chunk : StreamChunk π ε) : Bool :=
  chunk.usage.all UsageEvidence.accepted

end StreamChunk

/-- A classified error; `scrubSecrets` removes secret shapes from its text. -/
def makeLlmError (scrubSecrets : String → String) (provider : ProviderId) (kind : LlmErrorKind)
    (message : String) : LlmError ε where
  kind
  retryable := isRetryable kind
  code := none
  status := none
  retryAfterMs := none
  provider
  message := scrubSecrets message
  cause := none
  contentCommitted := false
  usage := none

/-- An owned copy of an error, or nothing where its usage evidence is invalid. -/
def snapshotLlmError (error : LlmError ε) : Option (LlmError ε) :=
  match error.usage with
  | none => some error
  | some usage =>
    (ownUsageEvidence usage).map fun owned => { error with usage := some owned }

theorem snapshotLlmError_of_valid
    {error : LlmError ε} (valid : error.usage.all UsageEvidence.accepted = true) :
    snapshotLlmError error = some error := by
  unfold snapshotLlmError
  cases given : error.usage with
  | none => rfl
  | some usage =>
    have accepted : usage.accepted = true := by simpa [given] using valid
    have owned := (ownUsageEvidence_eq_some_iff usage usage).mpr ⟨accepted, rfl⟩
    simp only [owned, Option.map_some]
    rw [← given]

end Relavium.Llm
