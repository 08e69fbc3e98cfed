import Relavium.Llm.FallbackChain

/-!
# Continuation tokens and their issuers

The latch of a chain names the last entry an attempt was begun at, over all of
its calls.  A request reaches an entry with the tokens of its call as long as
every key the latch has held is the entry's own, and without any token from
the first boundary on.  So a request can only carry a foreign token where the
call itself brings one to the entry the latch names: tokens of several issuers
in one call are told apart nowhere.
-/

namespace Relavium.Llm

open Library

variable {α : Type}

section Keys

theorem zero_not_mem_providerName (provider : ProviderId) :
    (0 : UInt16) ∉ providerName provider := by
  cases provider <;> decide

theorem parseProvider_providerName (provider : ProviderId) :
    parseProvider (providerName provider) = some provider := by
  cases provider <;> decide

/-- A key names its provider before its first null character. -/
@[simp]
theorem seededProvider_issuerKey (issuer : Issuer) :
    seededProvider (issuerKey issuer) = some issuer.provider := by
  have name :
      (issuerKey issuer).takeWhile (fun unit => decide (unit ≠ 0)) =
        providerName issuer.provider := by
    rw [issuerKey, List.takeWhile_append_of_pos]
    · simp
    · intro unit member
      have other : unit ≠ 0 := fun zero =>
        zero_not_mem_providerName issuer.provider (zero ▸ member)
      simpa using other
  rw [seededProvider, name, parseProvider_providerName]

/-- Every key has the same value. -/
def Uniform {κ ν : Type} (value : κ → ν) (keys : List κ) : Prop :=
  ∃ found, ∀ key ∈ keys, value key = found

/-- One more key keeps the values alike when it agrees with the last one. -/
theorem uniform_snoc_iff {κ ν : Type} [DecidableEq ν] (value : κ → ν) (keys : List κ) (key : κ) :
    Uniform value (keys ++ [key]) ↔
      Uniform value keys ∧
        keys.getLast?.any (fun last => decide (value last ≠ value key)) =
          false := by
  constructor
  · rintro ⟨found, all⟩
    have here : value key = found := all key (by simp)
    refine ⟨⟨found, fun other member => all other (by simp [member])⟩, ?_⟩
    cases last : keys.getLast? with
    | none => rfl
    | some other =>
      have there : value other = found :=
        all other (by simp [List.mem_of_getLast? last])
      simp [here, there]
  · rintro ⟨⟨found, all⟩, agrees⟩
    refine ⟨value key, fun other member => ?_⟩
    rcases List.mem_append.mp member with member | member
    · obtain ⟨last, last_eq⟩ : ∃ last, keys.getLast? = some last := by
        cases keys with
        | nil => cases member
        | cons head tail => exact ⟨_, List.getLast?_cons⟩
      have same : value last = value key := by
        simpa [last_eq] using agrees
      rw [all other member, ← same, all last (List.mem_of_getLast? last_eq)]
    · rw [List.mem_singleton.mp member]

theorem uniform_iff_of_mem
    {κ ν : Type} {value : κ → ν} {keys : List κ} {key : κ} (member : key ∈ keys) :
    Uniform value keys ↔ ∀ other ∈ keys, value other = value key := by
  constructor
  · rintro ⟨found, all⟩ other inside
    rw [all other inside, all key member]
  · exact fun all => ⟨value key, all⟩

end Keys

section Egress

/-- What the walk of a plan must not change in a part. -/
def ContentPart.tokens (part : ContentPart α) :
    Option Issuer × Option Issuer × Option (JsString × JsString × α) :=
  (part.reasoningIssuer, part.signatureIssuer, part.call)

/-- The roles of messages and the tokens of their parts. -/
def tokenView (messages : List (LlmMessage α)) :
    List (LlmRole × List
      (Option Issuer × Option Issuer × Option (JsString × JsString × α))) :=
  messages.map fun message =>
    (message.role, message.content.map ContentPart.tokens)

variable
  {first second : List (LlmMessage α)}

theorem tokensOf_eq (same : tokenView first = tokenView second) :
    (partsOf first).map ContentPart.tokens =
      (partsOf second).map ContentPart.tokens := by
  have flat := congrArg (List.flatMap Prod.snd) same
  simpa [tokenView, partsOf, List.flatMap_map, List.map_flatMap] using flat

/-- A fact read off the tokens is the same for both lists of messages. -/
theorem filterMap_parts_eq {β : Type} (same : tokenView first = tokenView second)
    (read : Option Issuer × Option Issuer × Option (JsString × JsString × α) → Option β) :
    (partsOf first).filterMap (fun part => read part.tokens) =
      (partsOf second).filterMap (fun part => read part.tokens) := by
  have mapped := congrArg (List.filterMap read) (tokensOf_eq same)
  simpa [List.filterMap_map, Function.comp_def] using mapped

theorem outline_eq (same : tokenView first = tokenView second) :
    outline first = outline second := by
  have lengths := congrArg (List.map fun entry => (entry.1, entry.2.length)) same
  simpa [tokenView, outline, Function.comp_def] using lengths

variable
  {provider : ProviderId}
  {egress next : Egress}

theorem tokens_of_resolvePart
    {part resolved : ContentPart α}
    (result : resolvePart provider part egress = (some resolved, next)) :
    resolved.tokens = part.tokens := by
  unfold resolvePart at result
  split at result
  case h_1 mimeType ref name transcript =>
    cases source : (resolveHandle provider ref egress).1 with
    | none => simp [source] at result
    | some found =>
      simp only [source, Option.map_some, Prod.mk.injEq, Option.some.injEq] at result
      rw [← result.1]
      rfl
  case h_2 =>
    simp only [Prod.mk.injEq, Option.some.injEq] at result
    rw [result.1]

theorem tokens_of_resolveContent
    {parts resolved : List (ContentPart α)}
    (result : resolveContent provider parts egress = (some resolved, next)) :
    resolved.map ContentPart.tokens = parts.map ContentPart.tokens := by
  induction parts generalizing resolved egress next with
  | nil =>
    simp only [resolveContent, Prod.mk.injEq, Option.some.injEq] at result
    rw [← result.1]
  | cons part parts ih =>
    unfold resolveContent at result
    split at result
    case h_1 => simp at result
    case h_2 _ found middle part_eq =>
      cases rest : (resolveContent provider parts middle).1 with
      | none => simp [rest] at result
      | some others =>
        have tail := ih (Prod.ext rest rfl)
        simp only [rest, Option.map_some, Prod.mk.injEq, Option.some.injEq] at result
        rw [← result.1, List.map_cons, List.map_cons, tail, tokens_of_resolvePart part_eq]

theorem tokenView_of_resolveMessages {messages resolved : List (LlmMessage α)}
    (result : resolveMessages provider messages egress = (some resolved, next)) :
    tokenView resolved = tokenView messages := by
  induction messages generalizing resolved egress next with
  | nil =>
    simp only [resolveMessages, Prod.mk.injEq, Option.some.injEq] at result
    rw [← result.1]
  | cons message messages ih =>
    unfold resolveMessages at result
    split at result
    case h_1 => simp at result
    case h_2 _ content middle content_eq =>
      cases rest : (resolveMessages provider messages middle).1 with
      | none => simp [rest] at result
      | some others =>
        have tail := ih (Prod.ext rest rfl)
        have head := tokens_of_resolveContent content_eq
        simp only [rest, Option.map_some, Prod.mk.injEq, Option.some.injEq] at result
        rw [← result.1]
        simp only [tokenView, List.map_cons] at tail ⊢
        rw [tail, head]

theorem tokenView_of_materializeMedia
    {options : FallbackChainOptions} {req resolved : LlmRequest α}
    (result : materializeMedia options provider req egress = (some resolved, next)) :
    tokenView resolved.messages = tokenView req.messages := by
  unfold materializeMedia at result
  split at result
  case isTrue =>
    simp only [Prod.mk.injEq, Option.some.injEq] at result
    rw [← result.1]
  case isFalse =>
    cases messages : (resolveMessages provider req.messages egress).1 with
    | none => simp [messages] at result
    | some found =>
      have same := tokenView_of_resolveMessages (Prod.ext messages rfl)
      simp only [messages, Option.map_some, Prod.mk.injEq, Option.some.injEq] at result
      rw [← result.1]
      exact same

end Egress

/-- What the messages of a request are to those of its call, given the keys
the latch has held. -/
structure Follows (trail : List JsString)
    (messages handed : List (LlmMessage α)) : Prop where
  calls : callsOf handed = callsOf messages
  shape : outline handed = outline messages ∨ Alternating handed
  reasoning_kept :
    Uniform seededProvider trail →
      reasoningIssuers handed = reasoningIssuers messages
  reasoning_cut : ¬Uniform seededProvider trail → reasoningIssuers handed = []
  signatures_kept : Uniform id trail → signatureIssuers handed = signatureIssuers messages
  signatures_cut : ¬Uniform id trail → signatureIssuers handed = []

namespace Follows

variable {trail : List JsString} {messages handed : List (LlmMessage α)}

theorem of_tokenView
    (follows : Follows trail messages handed) {resolved : List (LlmMessage α)}
    (same : tokenView resolved = tokenView handed) :
    Follows trail messages resolved where
  calls := (filterMap_parts_eq same fun tokens => tokens.2.2).trans follows.calls
  shape := by
    rcases follows.shape with kept | alternating
    · exact .inl ((outline_eq same).trans kept)
    · exact .inr (alternating.of_outline (outline_eq same))
  reasoning_kept := fun one =>
    (filterMap_parts_eq same fun tokens => tokens.1).trans (follows.reasoning_kept one)
  reasoning_cut := fun several =>
    (filterMap_parts_eq same fun tokens => tokens.1).trans (follows.reasoning_cut several)
  signatures_kept := fun one =>
    (filterMap_parts_eq same fun tokens => tokens.2.1).trans (follows.signatures_kept one)
  signatures_cut := fun several =>
    (filterMap_parts_eq same fun tokens => tokens.2.1).trans (follows.signatures_cut several)

/-- A request that goes out as its call gave it. -/
theorem refl (messages : List (LlmMessage α)) :
    Follows [] messages messages where
  calls := rfl
  shape := .inl rfl
  reasoning_kept := fun _ => rfl
  reasoning_cut := fun several => absurd ⟨none, by simp⟩ several
  signatures_kept := fun _ => rfl
  signatures_cut := fun several => absurd ⟨[], by simp⟩ several

end Follows

/-- The latch of a run names the last of the keys it has held. -/
structure Latched (trail : List JsString) (run : ChainRun α) : Prop where
  issuers : ∀ key ∈ trail, ∃ issuer, key = issuerKey issuer
  lastIssuer : run.lastIssuer = trail.getLast?
  lastProvider : run.lastProvider = trail.getLast?.bind seededProvider

namespace Latched

variable {trail : List JsString} {run : ChainRun α}

theorem crosses_provider (latched : Latched trail run) (entry : FallbackPlanEntry) :
    (run.lastProvider.any fun last => decide (last ≠ entry.provider.id)) =
      trail.getLast?.any fun last => decide
        (seededProvider last ≠ seededProvider (issuerKey entry.issuer)) := by
  rw [latched.lastProvider]
  cases last_eq : trail.getLast? with
  | none => rfl
  | some last =>
    obtain ⟨issuer, rfl⟩ :=
      latched.issuers last (List.mem_of_getLast? last_eq)
    simp [FallbackPlanEntry.issuer]

/-- The signature latch compares the keys themselves. -/
theorem crosses_issuer (latched : Latched trail run) (entry : FallbackPlanEntry) :
    (run.lastIssuer.any fun last => decide (last ≠ issuerKey entry.issuer)) =
      trail.getLast?.any fun last => decide
        (id last ≠ id (issuerKey entry.issuer)) := by
  rw [latched.lastIssuer]
  rfl

theorem beginEntry
    (latched : Latched trail run) (acceptedTiers : JsString → ReasoningEffort → Bool)
    (entry : FallbackPlanEntry) :
    Latched (trail ++ [issuerKey entry.issuer])
      (run.beginEntry acceptedTiers entry).2 where
  issuers := by
    intro key member
    rcases List.mem_append.mp member with member | member
    · exact latched.issuers key member
    · exact ⟨entry.issuer, List.mem_singleton.mp member⟩
  lastIssuer := by simp [ChainRun.beginEntry]
  lastProvider := by
    simp [ChainRun.beginEntry, FallbackPlanEntry.issuer]

end Latched

/-- The two strips of `beginEntry`, one at a boundary of providers and one at
a boundary of entries. -/
def stripAt (provider issuer : Bool)
    (req : LlmRequest α) : LlmRequest α :=
  let req :=
    if provider then
      { req with messages := (stripReasoningParts req).messages }
    else req
  if issuer then
    { req with messages := (stripToolCallSignatures req).messages }
  else req

theorem messages_selected (run : ChainRun α) (entry : FallbackPlanEntry) :
    (run.selected entry).messages =
      (stripAt (run.lastProvider.any fun last => decide (last ≠ entry.provider.id))
        (run.lastIssuer.any fun last => decide (last ≠ issuerKey entry.issuer))
        { run.req with model := entry.model }).messages :=
  rfl

theorem callsOf_stripAt (provider issuer : Bool) (req : LlmRequest α) :
    callsOf (stripAt provider issuer req).messages = callsOf req.messages := by
  cases provider <;> cases issuer <;> simp [stripAt]

theorem reasoningIssuers_stripAt (provider issuer : Bool) (req : LlmRequest α) :
    reasoningIssuers (stripAt provider issuer req).messages =
      if provider then [] else reasoningIssuers req.messages := by
  cases provider <;> cases issuer <;> simp [stripAt]

theorem signatureIssuers_stripAt_true (provider : Bool) (req : LlmRequest α) :
    signatureIssuers (stripAt provider true req).messages = [] := by
  simp [stripAt]

theorem signatureIssuers_stripAt_false (provider : Bool) (req : LlmRequest α) :
    (signatureIssuers (stripAt provider false req).messages).Sublist
        (signatureIssuers req.messages) ∧
      (provider = false →
        signatureIssuers (stripAt provider false req).messages =
          signatureIssuers req.messages) := by
  cases provider with
  | false => simp [stripAt]
  | true => simpa [stripAt] using signatureIssuers_stripReasoningParts req

theorem shape_stripAt (provider issuer : Bool) (req : LlmRequest α) :
    outline (stripAt provider issuer req).messages = outline req.messages ∨
      Alternating (stripAt provider issuer req).messages := by
  cases provider with
  | false => left; cases issuer <;> simp [stripAt]
  | true =>
    right
    have alternating := alternating_stripReasoningParts req
    cases issuer with
    | false => simpa [stripAt] using alternating
    | true =>
      refine alternating.of_outline ?_
      simp [stripAt, outline_stripToolCallSignatures]

/-- A message list keeps alternating through the strips. -/
theorem alternating_stripAt
    {provider issuer : Bool} {req : LlmRequest α} (alternating : Alternating req.messages) :
    Alternating (stripAt provider issuer req).messages := by
  rcases shape_stripAt provider issuer req with same | holds
  · exact alternating.of_outline same
  · exact holds

variable
  {messages : List (LlmMessage α)}

/-- Selecting the running request for one more entry. -/
theorem Follows.selected
    {trail : List JsString} {run : ChainRun α} (follows : Follows trail messages run.req.messages)
    (latched : Latched trail run) (entry : FallbackPlanEntry) :
    Follows (trail ++ [issuerKey entry.issuer]) messages
      (run.selected entry).messages := by
  rw [messages_selected, latched.crosses_provider, latched.crosses_issuer]
  have providers := uniform_snoc_iff seededProvider trail (issuerKey entry.issuer)
  have issuers := uniform_snoc_iff id trail (issuerKey entry.issuer)
  generalize (trail.getLast?.any fun last => decide
    (seededProvider last ≠ seededProvider (issuerKey entry.issuer))) = provider
    at providers ⊢
  generalize (trail.getLast?.any fun last => decide
    (id last ≠ id (issuerKey entry.issuer))) = issuer at issuers ⊢
  -- One key for all of the trail means one provider for all of it.
  have coarser : Uniform id (trail ++ [issuerKey entry.issuer]) →
      provider = false := by
    rintro ⟨found, all⟩
    refine (providers.mp ⟨seededProvider found, fun key member => ?_⟩).2
    rw [← all key member, id]
  refine ⟨?_, ?_, ?_, ?_, ?_, ?_⟩
  · rw [callsOf_stripAt]
    exact follows.calls
  · rcases follows.shape with same | alternating
    · rcases shape_stripAt provider issuer
        { run.req with model := entry.model } with kept | holds
      · exact .inl (kept.trans same)
      · exact .inr holds
    · exact .inr (alternating_stripAt alternating)
  · intro one
    obtain ⟨before, inside⟩ := providers.mp one
    rw [reasoningIssuers_stripAt, inside]
    exact follows.reasoning_kept before
  · intro several
    rw [reasoningIssuers_stripAt]
    cases crossed : provider with
    | true => rfl
    | false =>
      exact follows.reasoning_cut fun before =>
        several (providers.mpr ⟨before, crossed⟩)
  · intro one
    obtain ⟨before, inside⟩ := issuers.mp one
    rw [inside]
    exact ((signatureIssuers_stripAt_false provider _).2 (coarser one)).trans
      (follows.signatures_kept before)
  · intro several
    cases crossed : issuer with
    | true => exact signatureIssuers_stripAt_true provider _
    | false =>
      have none_before := follows.signatures_cut fun before =>
        several (issuers.mpr ⟨before, crossed⟩)
      have fewer : (signatureIssuers (stripAt provider false
          { run.req with model := entry.model }).messages).Sublist
          (signatureIssuers run.req.messages) :=
        (signatureIssuers_stripAt_false provider _).1
      rw [none_before] at fewer
      exact List.sublist_nil.mp fewer

theorem messages_beginEntry
    (acceptedTiers : JsString → ReasoningEffort → Bool) (run : ChainRun α)
    (entry : FallbackPlanEntry) :
    (run.beginEntry acceptedTiers entry).1.messages =
        (run.selected entry).messages ∧
      (run.beginEntry acceptedTiers entry).2.req = run.selected entry := by
  unfold ChainRun.beginEntry
  constructor
  · dsimp only
    split <;> rfl
  · rfl

/-- A dispatch whose request follows its call, handed to the entry the latch
names. -/
structure Dispatch.Tracks (messages : List (LlmMessage α))
    (dispatch : Dispatch α) : Prop where
  last : issuerKey dispatch.entry.issuer ∈ dispatch.trail
  follows : Follows dispatch.trail messages dispatch.request.messages

/-- A walk whose running request, latch and dispatches are in step with the
messages of its call. -/
structure ChainWalk.Tracks (messages : List (LlmMessage α))
    (walk : ChainWalk α) : Prop where
  latched : Latched walk.trail walk.run
  follows : Follows walk.trail messages walk.run.req.messages
  dispatched : ∀ dispatch ∈ walk.dispatches, dispatch.Tracks messages

namespace ChainWalk.Tracks

variable {messages : List (LlmMessage α)} {walk : ChainWalk α}

theorem withChain (tracks : walk.Tracks messages) (chain : FallbackChain) :
    ChainWalk.Tracks messages { walk with chain } :=
  ⟨tracks.latched, tracks.follows, tracks.dispatched⟩

theorem withSidecar
    (tracks : walk.Tracks messages) (sidecar : OrderedMap (ProviderId × JsString) MediaSource) :
    (walk.withSidecar sidecar).Tracks messages :=
  tracks.withChain _

theorem delivered
    (tracks : walk.Tracks messages) (entry : FallbackPlanEntry) (content : List (ContentPart α)) :
    (walk.delivered entry content).Tracks messages :=
  ⟨tracks.latched, tracks.follows, tracks.dispatched⟩

theorem begun
    (tracks : walk.Tracks messages) (acceptedTiers : JsString → ReasoningEffort → Bool)
    (entry : FallbackPlanEntry) :
    (walk.begun entry
      (walk.run.beginEntry acceptedTiers entry).2).Tracks messages where
  latched := tracks.latched.beginEntry acceptedTiers entry
  follows := by
    have selected := tracks.follows.selected tracks.latched entry
    rw [← (messages_beginEntry acceptedTiers walk.run entry).2] at selected
    exact selected
  dispatched := tracks.dispatched

theorem attempted
    (tracks : walk.Tracks messages) (entry : FallbackPlanEntry) (request : LlmRequest α)
    (last : issuerKey entry.issuer ∈ walk.trail)
    (follows : Follows walk.trail messages request.messages) (invoked : Bool) :
    (walk.attempted entry request invoked).Tracks messages := by
  cases invoked with
  | false => exact tracks
  | true =>
    refine ⟨tracks.latched, tracks.follows, fun dispatch member => ?_⟩
    rcases List.mem_append.mp member with member | member
    · exact tracks.dispatched dispatch member
    · rw [List.mem_singleton.mp member]
      exact ⟨last, follows⟩

end ChainWalk.Tracks

@[simp]
theorem trail_attempted
    (walk : ChainWalk α) (entry : FallbackPlanEntry) (request : LlmRequest α) (invoked : Bool) :
    (walk.attempted entry request invoked).trail = walk.trail := by
  cases invoked <;> rfl

variable {ε ο : Type}

theorem tracks_runEntry
    (conclude : ο → Conclusion α ε) (options : FallbackChainOptions) (entry : FallbackPlanEntry)
    (request : LlmRequest α) (turns : List (AttemptTurn ο)) (attempt bonus : Nat)
    (walk : ChainWalk α) (tracks : walk.Tracks messages)
    (last : issuerKey entry.issuer ∈ walk.trail)
    (follows : Follows walk.trail messages request.messages) :
    (runEntry conclude options entry request turns attempt bonus
      walk).2.Tracks messages := by
  induction turns generalizing attempt bonus walk with
  | nil =>
    unfold runEntry
    split <;> exact tracks
  | cons turn turns ih =>
    have next := tracks.attempted entry request last follows turn.invoked
    rw [runEntry.eq_def]
    dsimp only
    split
    · exact tracks
    · split
      · exact tracks
      · split
        · exact next.delivered entry _
        · split
          · exact next.withChain _
          · exact next.withChain _
          · exact ih _ _ _ (next.withChain _) (by simpa using last) (by simpa using follows)
          · split
            · exact next.withChain _
            · exact ih _ _ _ (next.withChain _) (by simpa using last) (by simpa using follows)

/-- The loop over the plan keeps the walk in step. -/
theorem tracks_runPlan
    (streaming : Bool) (conclude : ο → Conclusion α ε) (options : FallbackChainOptions)
    (plan : List FallbackPlanEntry) (turns : List (EntryTurn ο)) (walk : ChainWalk α)
    (tracks : walk.Tracks messages) :
    (runPlan streaming conclude options plan turns walk).Tracks messages := by
  induction plan generalizing turns walk with
  | nil => exact tracks
  | cons entry plan ih =>
    cases turns with
    | nil => exact tracks
    | cons turn turns =>
      have begun := tracks.begun options.acceptedTiers entry
      rw [runPlan]
      split
      · exact tracks
      · split
        · exact ih turns walk tracks
        · split
          · exact tracks
          · dsimp only
            split
            case h_1 egress materialized =>
              exact ih turns _ (begun.withSidecar egress.sidecar)
            case h_2 request egress materialized =>
              have follows : Follows (walk.trail ++ [issuerKey entry.issuer]) messages
                  request.messages := by
                have selected :=
                  tracks.follows.selected tracks.latched entry
                rw [← (messages_beginEntry options.acceptedTiers walk.run entry).1] at selected
                exact selected.of_tokenView (tokenView_of_materializeMedia materialized)
              have ran := tracks_runEntry conclude options entry request
                turn.attempts 1 0 _ (begun.withSidecar egress.sidecar)
                (by simp [ChainWalk.begun, ChainWalk.withSidecar]) follows
              split
              case h_1 ended result =>
                rw [result] at ran
                exact ran
              case h_2 ended result =>
                rw [result] at ran
                exact ih turns ended ran

/-- No token of another issuer goes out with a request, and what the call
says stays said: every `tool_call` with its id, name and arguments, in order,
and no message emptied or put beside one of its role by a strip. -/
structure Dispatch.Isolated (messages : List (LlmMessage α))
    (dispatch : Dispatch α) : Prop where
  reasoning : ∀ issuer ∈ reasoningIssuers dispatch.request.messages,
    issuer.provider = dispatch.entry.provider.id
  signatures : ∀ issuer ∈ signatureIssuers dispatch.request.messages,
    issuer = dispatch.entry.issuer
  calls : callsOf dispatch.request.messages = callsOf messages
  shape : outline dispatch.request.messages = outline messages ∨
    Alternating dispatch.request.messages

/-- Where the latch has held no other provider than the entry's, the call's
reasoning parts are of that provider; where it has held no other entry, the
call's signatures are of this entry. -/
structure Dispatch.Covered (messages : List (LlmMessage α))
    (dispatch : Dispatch α) : Prop where
  reasoning :
    (∀ key ∈ dispatch.trail,
      seededProvider key = some dispatch.entry.provider.id) →
    ∀ issuer ∈ reasoningIssuers messages,
      issuer.provider = dispatch.entry.provider.id
  signatures :
    (∀ key ∈ dispatch.trail, key = issuerKey dispatch.entry.issuer) →
    ∀ issuer ∈ signatureIssuers messages, issuer = dispatch.entry.issuer

/-- Every request of the call is isolated. -/
def CallRecord.Isolated (record : CallRecord α) : Prop :=
  ∀ dispatch ∈ record.dispatches, dispatch.Isolated record.messages

/-- Every request of the call is covered by the latch. -/
def CallRecord.Covered (record : CallRecord α) : Prop :=
  ∀ dispatch ∈ record.dispatches, dispatch.Covered record.messages

namespace Dispatch.Tracks

variable {messages : List (LlmMessage α)} {dispatch : Dispatch α}

theorem uniform_provider_iff (tracks : dispatch.Tracks messages) :
    Uniform seededProvider dispatch.trail ↔
      ∀ key ∈ dispatch.trail,
        seededProvider key = some dispatch.entry.provider.id := by
  rw [uniform_iff_of_mem tracks.last, seededProvider_issuerKey]
  rfl

theorem uniform_key_iff (tracks : dispatch.Tracks messages) :
    Uniform id dispatch.trail ↔
      ∀ key ∈ dispatch.trail, key = issuerKey dispatch.entry.issuer := by
  rw [uniform_iff_of_mem tracks.last]
  rfl

/-- A request is isolated exactly where the latch covers it. -/
theorem isolated_iff (tracks : dispatch.Tracks messages) :
    dispatch.Isolated messages ↔ dispatch.Covered messages := by
  have follows := tracks.follows
  constructor
  · intro isolated
    constructor
    · intro one
      rw [← follows.reasoning_kept (tracks.uniform_provider_iff.mpr one)]
      exact isolated.reasoning
    · intro one
      rw [← follows.signatures_kept (tracks.uniform_key_iff.mpr one)]
      exact isolated.signatures
  · intro covered
    refine ⟨?_, ?_, follows.calls, follows.shape⟩
    · by_cases one : Uniform seededProvider dispatch.trail
      · rw [follows.reasoning_kept one]
        exact covered.reasoning (tracks.uniform_provider_iff.mp one)
      · simp [follows.reasoning_cut one]
    · by_cases one : Uniform id dispatch.trail
      · rw [follows.signatures_kept one]
        exact covered.signatures (tracks.uniform_key_iff.mp one)
      · simp [follows.signatures_cut one]

end Dispatch.Tracks

/-- What a chain keeps as its latch is a key. -/
def FallbackChain.Named (chain : FallbackChain) : Prop :=
  ∀ key, chain.lastProviderAcrossCalls = some key →
    ∃ issuer, key = issuerKey issuer

theorem tracks_start {chain : FallbackChain} (named : chain.Named) (request : LlmRequest α) :
    (ChainWalk.start chain request).Tracks request.messages := by
  cases latch : chain.lastProviderAcrossCalls with
  | none =>
    have start : ChainWalk.start chain request =
        { chain, run := ChainRun.start request none, trail := [],
          dispatches := [], returned := [] } := by
      simp [ChainWalk.start, latch]
    rw [start]
    exact ⟨⟨by simp, rfl, rfl⟩, Follows.refl _, by simp⟩
  | some key =>
    have start : ChainWalk.start chain request =
        { chain, run := ChainRun.start request (some key), trail := [key],
          dispatches := [], returned := [] } := by
      simp [ChainWalk.start, latch]
    rw [start]
    refine ⟨⟨?_, rfl, rfl⟩, ⟨rfl, .inl rfl, fun _ => rfl, ?_, fun _ => rfl, ?_⟩, by simp⟩
    · intro other member
      rw [List.mem_singleton.mp member]
      exact named key latch
    · exact fun several => absurd ⟨seededProvider key, by simp⟩ several
    · exact fun several => absurd ⟨key, by simp⟩ several

/-- A call keeps the latch a key, and its requests in step with it. -/
theorem runCall_tracks
    (streaming : Bool) (conclude : ο → Conclusion α ε) (options : FallbackChainOptions)
    (chain : FallbackChain) (request : LlmRequest α) (captured : Bool)
    (turns : List (EntryTurn ο)) (named : chain.Named) :
    (runCall streaming conclude options chain request captured
        turns).1.Named ∧
      ∀ dispatch ∈ (runCall streaming conclude options chain request captured turns).2.dispatches,
        dispatch.Tracks (runCall streaming conclude options chain request
          captured turns).2.messages := by
  cases captured with
  | false =>
    refine ⟨named, fun dispatch member => ?_⟩
    simp [runCall] at member
  | true =>
    have tracks := tracks_runPlan streaming conclude options options.plan
      turns _ (tracks_start named request)
    refine ⟨fun key latch => ?_, tracks.dispatched⟩
    refine tracks.latched.issuers key (List.mem_of_getLast? ?_)
    rw [← tracks.latched.lastIssuer]
    exact latch

theorem ChainCall.run_tracks
    (options : FallbackChainOptions) (chain : FallbackChain) (call : ChainCall α ε)
    (named : chain.Named) :
    (call.run options chain).1.Named ∧
      ∀ dispatch ∈ (call.run options chain).2.dispatches,
        dispatch.Tracks (call.run options chain).2.messages := by
  cases call with
  | generate request captured turns =>
    exact runCall_tracks false _ options chain request captured turns named
  | stream request captured turns =>
    exact runCall_tracks true _ options chain request captured turns named

/-- Every request of a sequence of calls is in step with its call. -/
theorem runCalls_tracks
    (options : FallbackChainOptions) (chain : FallbackChain) (calls : List (ChainCall α ε))
    (named : chain.Named) :
    ∀ record ∈ runCalls options chain calls,
      ∀ dispatch ∈ record.dispatches, dispatch.Tracks record.messages := by
  induction calls generalizing chain with
  | nil => simp [runCalls]
  | cons call calls ih =>
    obtain ⟨next, first⟩ := call.run_tracks options chain named
    intro record member
    rcases List.mem_cons.mp member with here | later
    · rw [here]
      exact first
    · exact ih _ next record later

/-- In every sequence of calls on a chain, the requests are isolated exactly
where the latch covers them. -/
theorem continuation_tokens (options : FallbackChainOptions) (calls : List (ChainCall α ε)) :
    (∀ record ∈ runCalls options .new calls, record.Isolated) ↔
      ∀ record ∈ runCalls options .new calls, record.Covered := by
  have tracks := runCalls_tracks options .new calls (fun key latch => by cases latch)
  exact forall₂_congr fun record member =>
    forall₂_congr fun dispatch inside =>
      (tracks record member dispatch inside).isolated_iff

/-- The signature of a `tool_call`. -/
def ContentPart.signature : ContentPart α → Option CallSignature
  | .toolCall _ _ _ _ signature => signature
  | _ => none

/-- Every reasoning part and every call signature in the messages of a call
was returned by a call before it. -/
def Sourced
    (returned : List (ContentPart α)) : List (CallRecord α) → Prop
  | [] => True
  | record :: records =>
    (∀ part ∈ partsOf record.messages,
      part.isReasoning = true → part ∈ returned) ∧
    (∀ signature ∈ (partsOf record.messages).filterMap ContentPart.signature,
      signature ∈ returned.filterMap ContentPart.signature) ∧
    Sourced (returned ++ record.returned) records

instance decidableSourced [DecidableEq α] (returned : List (ContentPart α)) :
    (records : List (CallRecord α)) → Decidable (Sourced returned records)
  | [] => isTrue trivial
  | record :: records =>
    have := decidableSourced (returned ++ record.returned) records
    inferInstanceAs (Decidable (_ ∧ _ ∧ _))

/-- Two providers, one attempt each. -/
def twoProviders : FallbackChainOptions where
  plan := [
    { provider := { id := .anthropic, streaming := true }
      model := jsText "claude"
      maxAttempts := 1 },
    { provider := { id := .openai, streaming := true }
      model := jsText "gpt"
      maxAttempts := 1 }]
  cooldownMs := 30000
  refreshesCredentials := false
  resolvesMedia := false
  acceptedTiers := fun _ _ => true
  plan_nonempty := by simp
  maxAttempts_pos := by simp

/-- What the first provider thinks, as it comes back. -/
def firstThought : ContentPart Unit :=
  .reasoning (jsText "a plan") (some (jsText "sealed")) none
    { provider := .anthropic, model := jsText "claude" }

/-- A request with these messages. -/
def turnRequest (messages : List (LlmMessage Unit)) : LlmRequest Unit where
  model := jsText "claude"
  messages := messages
  reasoningEffort := none

/-- An attempt that reaches its provider. -/
def reached (outcome : GenerateAttempt Unit Unit) :
    AttemptTurn (GenerateAttempt Unit Unit) where
  aborted := false
  invoked := true
  outcome := outcome
  refreshed := false
  now := 0
  slept := true

/-- An entry come to at a time, with one attempt at most. -/
def entryAt (now : Nat) (attempts : List (AttemptTurn (GenerateAttempt Unit Unit))) :
    EntryTurn (GenerateAttempt Unit Unit) where
  aborted := false
  now := now
  unsupported := none
  refused := false
  answers := []
  attempts := attempts

/-- The first provider answers with a thought; then it is rate limited and the
second one answers; in the third call it is still cooling down, so the second
one is the first to be begun, and the latch names it. -/
def threeTurns : List (ChainCall Unit Unit) :=
  let question := { role := .user, content := [.text (jsText "go")] }
  let answer := { role := .assistant, content := [firstThought] }
  [.generate (turnRequest [question]) true [entryAt 0 [reached (.success [firstThought])]],
    .generate (turnRequest [question, answer, question]) true
      [entryAt 1 [reached (.error
          (makeLlmError (fun text => text) .anthropic .rateLimit "slow down"))],
        entryAt 2 [reached (.success [.text (jsText "done")])]],
    .generate (turnRequest [question, answer, question]) true
      [entryAt 3 [], entryAt 4 [reached (.success [])]]]

/-- The third request of the second provider holds the first one's thought. -/
theorem foreign_thought_handed :
    ¬∀ (options : FallbackChainOptions) (calls : List (ChainCall Unit Unit)),
      Sourced [] (runCalls options .new calls) →
      ∀ record ∈ runCalls options .new calls, record.Isolated := by
  intro claimed
  have sourced : Sourced [] (runCalls twoProviders .new threeTurns) := by
    decide
  obtain ⟨record, member, dispatch, inside, foreign⟩ :
      ∃ record ∈ runCalls twoProviders .new threeTurns,
        ∃ dispatch ∈ record.dispatches,
          ∃ issuer ∈ reasoningIssuers dispatch.request.messages,
            issuer.provider ≠ dispatch.entry.provider.id := by
    decide
  obtain ⟨issuer, present, other⟩ := foreign
  exact other ((claimed twoProviders threeTurns sourced record member dispatch
    inside).reasoning issuer present)

end Relavium.Llm
