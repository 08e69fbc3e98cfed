import Relavium.Library.OrderedMap
import Relavium.Library.OrderedSet
import Relavium.Llm.ContinuationTokens
import Relavium.Llm.StreamChunk

/-!
# Walking a fallback plan

Model of the walk of `packages/llm/src/fallback-chain.ts`: the skip checks, the
strip latch of `ChainRun`, the media sidecar, the attempt budget of an entry
and the state a chain keeps between its calls.  The world around the chain is
a script: every entry a call comes to has a turn that says what the caller's
signal, the clock, the catalog and the host answer there, and every attempt
has one with what the provider made of it.  A script that ends early is a call
whose consumer returned or whose host never answered.
-/

namespace Relavium.Llm

open Library

/-- What the chain reads of an `LlmProvider`. -/
structure LlmProvider where
  id : ProviderId
  streaming : Bool

/-- `FallbackPlanEntry`. -/
structure FallbackPlanEntry where
  provider : LlmProvider
  model : JsString
  maxAttempts : Nat

/-- The entry as the issuer of what it returns. -/
def FallbackPlanEntry.issuer (entry : FallbackPlanEntry) : Issuer where
  provider := entry.provider.id
  model := entry.model

/-- The configuration the constructor accepts. -/
structure FallbackChainOptions where
  plan : List FallbackPlanEntry
  cooldownMs : Nat
  /-- `onAuthError` is wired. -/
  refreshesCredentials : Bool
  /-- `resolveForEgress` is wired. -/
  resolvesMedia : Bool
  /-- `acceptedTiers` of the catalog. -/
  acceptedTiers : JsString → ReasoningEffort → Bool
  plan_nonempty : plan ≠ []
  maxAttempts_pos : ∀ entry ∈ plan, 0 < entry.maxAttempts

/-- What a chain keeps between its calls. -/
structure FallbackChain where
  cooldownUntil : OrderedMap ProviderId Nat
  authRefreshed : OrderedSet ProviderId
  egressSidecar : OrderedMap (ProviderId × JsString) MediaSource
  lastProviderAcrossCalls : Option JsString

/-- A chain as its constructor leaves it. -/
def FallbackChain.new : FallbackChain where
  cooldownUntil := .empty
  authRefreshed := .empty
  egressSidecar := .empty
  lastProviderAcrossCalls := none

/-- The name of a provider. -/
def providerName : ProviderId → JsString
  | .anthropic => jsText "anthropic"
  | .openai => jsText "openai"
  | .gemini => jsText "gemini"
  | .deepseek => jsText "deepseek"

/-- `ProviderIdSchema.safeParse`. -/
def parseProvider (name : JsString) : Option ProviderId :=
  [.anthropic, .openai, .gemini, .deepseek].find? fun provider =>
    decide (providerName provider = name)

/-- The latch's key: a provider and a model, joined by a null character. -/
def issuerKey (issuer : Issuer) : JsString :=
  providerName issuer.provider ++ 0 :: issuer.model

/-- The provider of a seed: what stands before its first null character. -/
def seededProvider (seed : JsString) : Option ProviderId :=
  parseProvider (seed.takeWhile fun unit => decide (unit ≠ 0))

variable {α : Type}

/-- What a `ChainRun` says of the request and of the last attempted entry. -/
structure ChainRun (α : Type) where
  req : LlmRequest α
  lastProvider : Option ProviderId
  lastIssuer : Option JsString

/-- A call's run, seeded with the latch of the calls before it. -/
def ChainRun.start (req : LlmRequest α)
    (seedLastIssuer : Option JsString) : ChainRun α where
  req := req
  lastProvider := seedLastIssuer.bind seededProvider
  lastIssuer := seedLastIssuer

/-- `withEntryModel`. -/
def withEntryModel (acceptedTiers : JsString → ReasoningEffort → Bool) (req : LlmRequest α)
    (model : JsString) : LlmRequest α :=
  match req.reasoningEffort with
  | none => { req with model }
  | some effort =>
    if acceptedTiers model effort then { req with model }
    else { req with model, reasoningEffort := none }

namespace ChainRun

/-- The running request, selected for an entry and stripped at the boundaries
this entry crosses. -/
def selected (run : ChainRun α)
    (entry : FallbackPlanEntry) : LlmRequest α :=
  let selected := { run.req with model := entry.model }
  let selected :=
    if run.lastProvider.any fun last => decide (last ≠ entry.provider.id) then
      { selected with messages := (stripReasoningParts selected).messages }
    else selected
  if run.lastIssuer.any fun last => decide (last ≠ issuerKey entry.issuer) then
    { selected with messages := (stripToolCallSignatures selected).messages }
  else selected

/-- `beginEntry`: the request to send and the run after it. -/
def beginEntry (acceptedTiers : JsString → ReasoningEffort → Bool) (run : ChainRun α)
    (entry : FallbackPlanEntry) : LlmRequest α × ChainRun α :=
  let selected := run.selected entry
  (if (withEntryModel acceptedTiers selected entry.model).reasoningEffort =
      selected.reasoningEffort then selected
    else { selected with reasoningEffort := none },
    { req := selected
      lastProvider := some entry.provider.id
      lastIssuer := some (issuerKey entry.issuer) })

end ChainRun

/-- The sidecar and what the host answers to the handles still to resolve.  A
handle without an answer is one the host fails. -/
structure Egress where
  sidecar : OrderedMap (ProviderId × JsString) MediaSource
  answers : List (Option MediaSource)

/-- `#resolveHandle`. -/
def resolveHandle (provider : ProviderId) (ref : JsString)
    (egress : Egress) : Option MediaSource × Egress :=
  match egress.sidecar.get (provider, ref) with
  | some cached => (some cached, egress)
  | none =>
    match egress.answers with
    | [] => (none, egress)
    | none :: answers => (none, { egress with answers })
    | some (.base64 data) :: answers =>
      (some (.base64 data), { egress with answers })
    | some source :: answers =>
      (some source,
        { sidecar := egress.sidecar.set (provider, ref) source, answers })

/-- The part with its source resolved, if it is a handle. -/
def resolvePart (provider : ProviderId) (part : ContentPart α)
    (egress : Egress) : Option (ContentPart α) × Egress :=
  match part with
  | .media mimeType (.handle ref) name transcript =>
    let (source, egress) := resolveHandle provider ref egress
    (source.map fun source => .media mimeType source name transcript, egress)
  | part => (some part, egress)

/-- The parts of one message, in order, up to the first that fails. -/
def resolveContent (provider : ProviderId) :
    List (ContentPart α) → Egress → Option (List (ContentPart α)) × Egress
  | [], egress => (some [], egress)
  | part :: parts, egress =>
    match resolvePart provider part egress with
    | (none, egress) => (none, egress)
    | (some part, egress) =>
      let (rest, egress) := resolveContent provider parts egress
      (rest.map fun rest => part :: rest, egress)

/-- The messages, in order, up to the first part that fails. -/
def resolveMessages (provider : ProviderId) :
    List (LlmMessage α) → Egress → Option (List (LlmMessage α)) × Egress
  | [], egress => (some [], egress)
  | message :: messages, egress =>
    match resolveContent provider message.content egress with
    | (none, egress) => (none, egress)
    | (some content, egress) =>
      let (rest, egress) := resolveMessages provider messages egress
      (rest.map fun rest => { message with content } :: rest, egress)

/-- `hasHandleMedia`. -/
def hasHandleMedia (req : LlmRequest α) : Bool :=
  req.messages.any fun message =>
    message.content.any fun
      | .media _ (.handle _) _ _ => true
      | _ => false

/-- `#materializeMedia`; no request where a handle could not be resolved. -/
def materializeMedia (options : FallbackChainOptions) (provider : ProviderId) (req : LlmRequest α)
    (egress : Egress) : Option (LlmRequest α) × Egress :=
  if options.resolvesMedia = false ∨ hasHandleMedia req = false then
    (some req, egress)
  else
    let (messages, egress) := resolveMessages provider req.messages egress
    (messages.map fun messages => { req with messages }, egress)

/-- `#skipReason`.  What the catalog says against the request is the turn's. -/
def skipReason
    (chain : FallbackChain) (entry : FallbackPlanEntry) (now : Nat) (unsupported : Option String)
    (streaming : Bool) : Option String :=
  match chain.cooldownUntil.get entry.provider.id with
  | some cooldownUntil =>
    if now < cooldownUntil then some "provider in rate-limit cooldown"
    else unmet
  | none => unmet
where
  unmet : Option String :=
    if streaming = true ∧ entry.provider.streaming = false then
      some "provider does not support streaming"
    else
      unsupported.map fun reason =>
        "provider cannot serve the request: " ++ reason

/-- `Verdict`. -/
inductive Verdict
  | fatal
  | retryable
  | authRefreshed
  | advance

variable {ε : Type}

/-- `#afterFailure`: the verdict and the chain after its side effects.  The
credential hook answers `refreshed`; a hook that throws answers `false`. -/
def afterFailure
    (options : FallbackChainOptions) (chain : FallbackChain) (entry : FallbackPlanEntry)
    (error : LlmError ε) (refreshed : Bool)
    (now : Nat) : Verdict × FallbackChain :=
  if error.contentCommitted then (.fatal, chain)
  else
    match error.kind with
    | .auth =>
      if options.refreshesCredentials = true ∧
          entry.provider.id ∉ chain.authRefreshed then
        (if refreshed then .authRefreshed else .fatal,
          { chain with
            authRefreshed := chain.authRefreshed.add entry.provider.id })
      else (.fatal, chain)
    | .rateLimit =>
      (.retryable,
        { chain with
          cooldownUntil :=
            chain.cooldownUntil.set entry.provider.id (now + options.cooldownMs) })
    | .protocol => (.advance, chain)
    | kind => (if isRetryable kind then .retryable else .fatal, chain)

/-- A request handed to a provider, with the keys the latch has held up to it:
the seed of the call and every entry begun in it. -/
structure Dispatch (α : Type) where
  entry : FallbackPlanEntry
  trail : List JsString
  request : LlmRequest α

/-- A call under way: the chain, the run, the keys its latch has held, the
requests handed out and the parts returned to the caller. -/
structure ChainWalk (α : Type) where
  chain : FallbackChain
  run : ChainRun α
  trail : List JsString
  dispatches : List (Dispatch α)
  returned : List (ContentPart α)

/-- What one attempt means for its entry.  `stops` ends the call, with the
parts the caller has been given. -/
inductive Conclusion (α ε : Type)
  | stops (content : List (ContentPart α))
  | failed (error : LlmError ε)

/-- What the world answers during one attempt. -/
structure AttemptTurn (ο : Type) where
  /-- The caller's signal at the head of the loop. -/
  aborted : Bool
  /-- The attempt reaches the provider. -/
  invoked : Bool
  outcome : ο
  refreshed : Bool
  /-- The clock where a cooldown is set. -/
  now : Nat
  /-- The sleep before the next attempt settles. -/
  slept : Bool

/-- What the world answers while the walk is at one entry. -/
structure EntryTurn (ο : Type) where
  aborted : Bool
  now : Nat
  unsupported : Option String
  /-- The request could not be selected for the entry. -/
  refused : Bool
  answers : List (Option MediaSource)
  attempts : List (AttemptTurn ο)

variable {ο : Type}

/-- An attempt: the request goes out if the provider is reached. -/
def ChainWalk.attempted (walk : ChainWalk α) (entry : FallbackPlanEntry) (request : LlmRequest α)
    (invoked : Bool) : ChainWalk α :=
  if invoked then
    { walk with
      dispatches :=
        walk.dispatches ++ [{ entry, trail := walk.trail, request }] }
  else walk

/-- The caller is given what an entry returned. -/
def ChainWalk.delivered (walk : ChainWalk α) (entry : FallbackPlanEntry)
    (content : List (ContentPart α)) : ChainWalk α :=
  { walk with
    returned := walk.returned ++ content.map (·.issuedBy entry.issuer) }

/-- The attempt budget of one entry, with its bonus for a refreshed
credential.  The answer says whether the walk goes on to the next entry. -/
def runEntry
    (conclude : ο → Conclusion α ε) (options : FallbackChainOptions) (entry : FallbackPlanEntry)
    (request : LlmRequest α) (turns : List (AttemptTurn ο)) (attempt : Nat) (bonus : Nat)
    (walk : ChainWalk α) : Bool × ChainWalk α :=
  if entry.maxAttempts + bonus < attempt then (true, walk)
  else
    match turns with
    | [] => (false, walk)
    | turn :: turns =>
      if turn.aborted then (false, walk)
      else
        let walk := walk.attempted entry request turn.invoked
        match conclude turn.outcome with
        | .stops content => (false, walk.delivered entry content)
        | .failed error =>
          let (verdict, chain) :=
            afterFailure options walk.chain entry error turn.refreshed turn.now
          let walk := { walk with chain }
          match verdict with
          | .fatal => (false, walk)
          | .advance => (true, walk)
          | .authRefreshed =>
            runEntry conclude options entry request turns (attempt + 1) (bonus + 1) walk
          | .retryable =>
            if attempt < entry.maxAttempts + bonus ∧
                turn.slept = false then
              (false, walk)
            else
              runEntry conclude options entry request turns (attempt + 1) bonus walk

/-- The entry is begun: its key enters the latch. -/
def ChainWalk.begun (walk : ChainWalk α) (entry : FallbackPlanEntry)
    (run : ChainRun α) : ChainWalk α :=
  { walk with run, trail := walk.trail ++ [issuerKey entry.issuer] }

/-- The sidecar after a materialization. -/
def ChainWalk.withSidecar
    (walk : ChainWalk α) (egressSidecar : OrderedMap (ProviderId × JsString) MediaSource) :
    ChainWalk α :=
  { walk with chain := { walk.chain with egressSidecar } }

/-- The loop over the plan that `generate` and `#streamOwned` share. -/
def runPlan (streaming : Bool) (conclude : ο → Conclusion α ε) (options : FallbackChainOptions) :
    List FallbackPlanEntry → List (EntryTurn ο) → ChainWalk α → ChainWalk α
  | entry :: plan, turn :: turns, walk =>
    if turn.aborted then walk
    else if (skipReason walk.chain entry turn.now turn.unsupported
        streaming).isSome then
      runPlan streaming conclude options plan turns walk
    else if turn.refused then walk
    else
      let (request, run) :=
        walk.run.beginEntry options.acceptedTiers entry
      let walk := walk.begun entry run
      match materializeMedia options entry.provider.id request
          { sidecar := walk.chain.egressSidecar, answers := turn.answers } with
      | (none, egress) =>
        runPlan streaming conclude options plan turns (walk.withSidecar egress.sidecar)
      | (some request, egress) =>
        match runEntry conclude options entry request turn.attempts 1 0
            (walk.withSidecar egress.sidecar) with
        | (false, walk) => walk
        | (true, walk) =>
          runPlan streaming conclude options plan turns walk
  | _, _, walk => walk

/-- How `#runGenerateAttempt` ends; `thrown` is a host fault that leaves the
chain. -/
inductive GenerateAttempt (α ε : Type)
  | success (content : List (ContentPart α))
  | error (error : LlmError ε)
  | thrown

/-- `#runEntryGenerate` at an attempt's end. -/
def GenerateAttempt.conclude : GenerateAttempt α ε → Conclusion α ε
  | .success content => .stops content
  | .error failure => .failed failure
  | .thrown => .stops []

/-- How `#runStreamAttempt` ends.  The content is what the consumer makes of
the chunks it was given before: none without the commitment. -/
inductive StreamAttempt (α ε : Type)
  | committed (content : List (ContentPart α))
  | ended
  | failure (error : LlmError ε)
  | thrown

/-- `#runEntryStream` at an attempt's end. -/
def StreamAttempt.conclude : StreamAttempt α ε → Conclusion α ε
  | .committed content => .stops content
  | .ended => .stops []
  | .failure error => .failed error
  | .thrown => .stops []

/-- A call on a chain.  `captured` says whether the chain could take the
request over. -/
inductive ChainCall (α ε : Type)
  | generate (request : LlmRequest α) (captured : Bool)
      (turns : List (EntryTurn (GenerateAttempt α ε)))
  | stream (request : LlmRequest α) (captured : Bool)
      (turns : List (EntryTurn (StreamAttempt α ε)))

/-- What an observer of one call sees: the messages it was given, the requests
it handed to providers and the parts it returned. -/
structure CallRecord (α : Type) where
  messages : List (LlmMessage α)
  dispatches : List (Dispatch α)
  returned : List (ContentPart α)

/-- A call before its first entry. -/
def ChainWalk.start (chain : FallbackChain)
    (request : LlmRequest α) : ChainWalk α where
  chain := chain
  run := ChainRun.start request chain.lastProviderAcrossCalls
  trail := chain.lastProviderAcrossCalls.toList
  dispatches := []
  returned := []

/-- The end of a call: the latch is folded back into the chain. -/
def ChainWalk.finish (walk : ChainWalk α)
    (messages : List (LlmMessage α)) : FallbackChain × CallRecord α :=
  ({ walk.chain with lastProviderAcrossCalls := walk.run.lastIssuer },
    { messages
      dispatches := walk.dispatches
      returned := walk.returned })

/-- One call, once its request is taken over. -/
def runCall
    (streaming : Bool) (conclude : ο → Conclusion α ε) (options : FallbackChainOptions)
    (chain : FallbackChain) (request : LlmRequest α) (captured : Bool)
    (turns : List (EntryTurn ο)) : FallbackChain × CallRecord α :=
  if captured then
    (runPlan streaming conclude options options.plan turns
      (ChainWalk.start chain request)).finish request.messages
  else
    (chain,
      { messages := request.messages, dispatches := [], returned := [] })

/-- `generate`. -/
def generate
    (options : FallbackChainOptions) (chain : FallbackChain) (request : LlmRequest α)
    (captured : Bool) (turns : List (EntryTurn (GenerateAttempt α ε))) :
    FallbackChain × CallRecord α :=
  runCall false GenerateAttempt.conclude options chain request captured turns

/-- `stream`, with `#streamOwned`. -/
def stream
    (options : FallbackChainOptions) (chain : FallbackChain) (request : LlmRequest α)
    (captured : Bool) (turns : List (EntryTurn (StreamAttempt α ε))) :
    FallbackChain × CallRecord α :=
  runCall true StreamAttempt.conclude options chain request captured turns

/-- The call on the chain, whichever method it names. -/
def ChainCall.run (options : FallbackChainOptions) (chain : FallbackChain) :
    ChainCall α ε → FallbackChain × CallRecord α
  | .generate request captured turns =>
    Llm.generate options chain request captured turns
  | .stream request captured turns =>
    Llm.stream options chain request captured turns

/-- The records of a sequence of calls, each on the chain the one before it
left. -/
def runCalls (options : FallbackChainOptions) :
    FallbackChain → List (ChainCall α ε) → List (CallRecord α)
  | _, [] => []
  | chain, call :: calls =>
    let (chain, record) := call.run options chain
    record :: runCalls options chain calls

end Relavium.Llm
