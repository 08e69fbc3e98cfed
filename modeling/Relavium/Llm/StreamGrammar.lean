import Relavium.Library.AsyncSource
import Relavium.Llm.StreamChunk
import Mathlib.Data.List.TakeWhile

/-!
# The stream grammar

Model of `packages/llm/src/stream-grammar.ts`.  The wrapper forwards the chunks
of a provider up to the first terminal, holds that terminal while one more read
confirms that nothing follows it, and replaces it by a classified error when
something does.

A consumer that drains the wrapper sees one terminal exactly when the wrapper
does not have to close, after a violation, an iterator that rejects its close.
-/

namespace Relavium.Llm

open Library

/-- What the wrapper can throw: a cause of the source, or its own refusal of
usage evidence. -/
inductive Thrown (ε : Type)
  | source (cause : ε)
  | invalidUsageEvidence

/-- The variables that the generator closes over, and the usage it reported to
`onTerminalUsage`. -/
structure GrammarState (π ε : Type) where
  held : Option (StreamChunk π ε)
  sawAnyChunk : Bool
  observed : List UsageEvidence

/-- What a consumer that drains the wrapper sees. -/
structure Drained (π ε : Type) where
  chunks : List (StreamChunk π ε)
  thrown : Option (Thrown ε)
  observed : List UsageEvidence

section Grammar

variable {π ε : Type}

namespace GrammarState

def initial : GrammarState π ε where
  held := none
  sawAnyChunk := false
  observed := []

end GrammarState

/-- Own a terminal before provider code resumes. -/
def ownTerminal : StreamChunk π ε → Option (StreamChunk π ε)
  | .content type payload => some (.content type payload)
  | .stop stopReason usage => (ownUsageEvidence usage).map (.stop stopReason)
  | .error failure => (snapshotLlmError failure).map .error

/-- The message of a violation names what followed the terminal. -/
def violationMessage (held chunk : StreamChunk π ε) : String :=
  if chunk.isTerminal then
    "the provider emitted a second terminal (`" ++ chunk.typeName ++
      "` after `" ++ held.typeName ++ "`) — a stream carries exactly one"
  else
    "the provider emitted a `" ++ chunk.typeName ++
      "` chunk after the terminal `" ++ held.typeName ++
      "` — the terminal must be last"

variable (scrubSecrets : String → String) (provider : ProviderId)

/-- The error that replaces a held terminal, with the usage already owned. -/
def violation (held chunk : StreamChunk π ε) : StreamChunk π ε :=
  .error
    { makeLlmError scrubSecrets provider .protocol
        (violationMessage held chunk) with
      usage := held.usage }

/-- The error of a stream that ended without a terminal. -/
def truncated (sawAnyChunk : Bool) : StreamChunk π ε :=
  .error <| makeLlmError scrubSecrets provider .transport <|
    if sawAnyChunk then
      "the stream ended before a terminal chunk — the response was truncated"
    else "the stream ended without producing any chunk at all"

/-- The body of the loop over the source. -/
def grammarRound (state : GrammarState π ε) (chunk : StreamChunk π ε) :
    Round (GrammarState π ε) (StreamChunk π ε) (Thrown ε) :=
  match state.held with
  | some held => .leave [violation scrubSecrets provider held chunk] state
  | none =>
    let state := { state with sawAnyChunk := true }
    if chunk.isTerminal then
      match ownTerminal chunk with
      | none => .fail [] state .invalidUsageEvidence
      | some held =>
        .next []
          { state with
            held := some held
            observed := state.observed ++ held.usage.toList }
    else .next [chunk] state

/-- The inner generator: the loop, and what follows it. -/
def walk (source : AsyncSource (StreamChunk π ε) (Thrown ε)) :
    Walk (GrammarState π ε) (StreamChunk π ε) (Thrown ε) :=
  let loop := forAwait source (grammarRound scrubSecrets provider) .initial source.items
  match loop.exit with
  | .exhausted =>
    match loop.state.held with
    | some held => { loop with yielded := loop.yielded ++ [held] }
    | none =>
      { loop with
        yielded := loop.yielded ++ [truncated scrubSecrets provider loop.state.sawAnyChunk] }
  | _ => loop

/-- The wrapper: a throw with a terminal held forwards the terminal. -/
def verifyStreamGrammar
    (source : AsyncSource (StreamChunk π ε) (Thrown ε)) : Drained π ε :=
  let inner := walk scrubSecrets provider source
  match inner.exit with
  | .threw cause =>
    match inner.state.held with
    | none =>
      { chunks := inner.yielded
        thrown := some cause
        observed := inner.state.observed }
    | some held =>
      { chunks := inner.yielded ++ [held]
        thrown := none
        observed := inner.state.observed }
  | _ =>
    { chunks := inner.yielded
      thrown := none
      observed := inner.state.observed }

end Grammar

/-! ## The grammar of a drained stream -/

section Specification

variable {π ε : Type}

/-- The chunks of a source before its first terminal. -/
def leading (chunks : List (StreamChunk π ε)) : List (StreamChunk π ε) :=
  chunks.takeWhile fun chunk => !chunk.isTerminal

/-- The first terminal of a source and whatever follows it. -/
def fromTerminal (chunks : List (StreamChunk π ε)) : List (StreamChunk π ε) :=
  chunks.dropWhile fun chunk => !chunk.isTerminal

/-- What a consumer may see after the leading chunks: the terminal that ends
the stream, or the throw that does. -/
inductive Ending (source : AsyncSource (StreamChunk π ε) (Thrown ε)) :
    List (StreamChunk π ε) → Option (Thrown ε) → Prop
  /-- Nothing but the end of the source, or a throw, followed the terminal. -/
  | confirmed (terminal : StreamChunk π ε) :
      fromTerminal source.items = [terminal] →
      Ending source [terminal] none
  /-- Something followed the terminal: an error keeps its usage. -/
  | violated (terminal follower : StreamChunk π ε) (rest : List (StreamChunk π ε))
      (error : LlmError ε) :
      fromTerminal source.items = terminal :: follower :: rest →
      error.kind = .protocol →
      error.usage = terminal.usage →
      Ending source [.error error] none
  /-- The source ended without a terminal. -/
  | truncated (error : LlmError ε) :
      fromTerminal source.items = [] →
      source.ending = .eof →
      error.kind = .transport →
      Ending source [.error error] none
  /-- The source threw before any terminal. -/
  | threw (cause : Thrown ε) :
      fromTerminal source.items = [] →
      source.ending = .throws cause →
      Ending source [] (some cause)

/-- A drained stream is the leading chunks of its source and a proper ending. -/
def WellFormed (source : AsyncSource (StreamChunk π ε) (Thrown ε))
    (drained : Drained π ε) : Prop :=
  ∃ ending, drained.chunks = leading source.items ++ ending ∧
    Ending source ending drained.thrown

end Specification

/-! ## What the loop does -/

section Loop

variable {π ε : Type}
variable {scrubSecrets : String → String} {provider : ProviderId}
variable {source : AsyncSource (StreamChunk π ε) (Thrown ε)}

theorem ownTerminal_of_valid {chunk : StreamChunk π ε} (valid : chunk.usageValid = true) :
    ownTerminal chunk = some chunk := by
  cases chunk with
  | content => rfl
  | stop stopReason usage =>
    have accepted : usage.accepted = true := by
      simpa [StreamChunk.usageValid, StreamChunk.usage] using valid
    simp [ownTerminal, ownUsageEvidence, accepted]
  | error failure =>
    simp [ownTerminal, snapshotLlmError_of_valid valid]

/-- The state of the generator while it holds a terminal. -/
def holding (before : GrammarState π ε) (terminal : StreamChunk π ε) :
    GrammarState π ε where
  held := some terminal
  sawAnyChunk := true
  observed := before.observed ++ terminal.usage.toList

theorem grammarRound_terminal
    {state : GrammarState π ε} {chunk : StreamChunk π ε} (nothingHeld : state.held = none)
    (terminal : chunk.isTerminal = true) (valid : chunk.usageValid = true) :
    grammarRound scrubSecrets provider state chunk =
      .next [] (holding state chunk) := by
  simp [grammarRound, nothingHeld, terminal, ownTerminal_of_valid valid, holding]

theorem grammarRound_content
    {state : GrammarState π ε} {chunk : StreamChunk π ε} (nothingHeld : state.held = none)
    (content : chunk.isTerminal = false) :
    grammarRound scrubSecrets provider state chunk =
      .next [chunk] { state with sawAnyChunk := true } := by
  simp [grammarRound, nothingHeld, content]

/-- The state of the generator after some content. -/
def reading (sawAnyChunk : Bool) : GrammarState π ε :=
  { GrammarState.initial with sawAnyChunk }

/-- Content is forwarded until the first terminal. -/
theorem forAwait_leading
    {chunks : List (StreamChunk π ε)} (content : ∀ chunk ∈ chunks, chunk.isTerminal = false)
    (rest : List (StreamChunk π ε)) :
    forAwait source (grammarRound scrubSecrets provider) .initial (chunks ++ rest) =
      (forAwait source (grammarRound scrubSecrets provider)
        (reading (!chunks.isEmpty)) rest).prepend chunks := by
  cases chunks with
  | nil => rfl
  | cons first others =>
    have firstContent := content first List.mem_cons_self
    have othersForwarded : ∀ chunk ∈ others,
        grammarRound scrubSecrets provider (reading true) chunk =
          .next [chunk] (reading true) := by
      intro chunk member
      exact grammarRound_content rfl (content chunk (List.mem_cons_of_mem first member))
    rw [List.cons_append, forAwait_cons_next (grammarRound_content rfl firstContent)]
    refine (congrArg _ (forAwait_forward othersForwarded rest)).trans ?_
    rw [Walk.prepend_prepend]
    rfl

theorem leading_append_fromTerminal (chunks : List (StreamChunk π ε)) :
    leading chunks ++ fromTerminal chunks = chunks :=
  List.takeWhile_append_dropWhile

theorem leading_content (chunks : List (StreamChunk π ε)) :
    ∀ chunk ∈ leading chunks, chunk.isTerminal = false := by
  intro chunk member
  have content := List.mem_takeWhile_imp member
  simpa using content

theorem fromTerminal_head
    {chunks rest : List (StreamChunk π ε)} {terminal : StreamChunk π ε}
    (found : fromTerminal chunks = terminal :: rest) :
    terminal.isTerminal = true := by
  have head := List.head?_dropWhile_not (fun chunk => !chunk.isTerminal) chunks
  unfold fromTerminal at found
  rw [found] at head
  simpa using head

/-- The loop forwards the leading chunks, and goes on at the first terminal. -/
theorem forAwait_items :
    forAwait source (grammarRound scrubSecrets provider) .initial source.items =
      (forAwait source (grammarRound scrubSecrets provider)
        (reading (!(leading source.items).isEmpty))
        (fromTerminal source.items)).prepend (leading source.items) := by
  conv_lhs => rw [← leading_append_fromTerminal source.items]
  exact forAwait_leading (leading_content source.items) _

theorem forAwait_terminal
    {terminal : StreamChunk π ε} {rest : List (StreamChunk π ε)}
    (found : fromTerminal source.items = terminal :: rest) (valid : terminal.usageValid = true) :
    forAwait source (grammarRound scrubSecrets provider) .initial source.items =
      (forAwait source (grammarRound scrubSecrets provider)
        (holding .initial terminal) rest).prepend (leading source.items) := by
  rw [forAwait_items, found, forAwait_cons_next
    (grammarRound_terminal rfl (fromTerminal_head found) valid)]
  rfl

end Loop

/-! ## What a consumer sees -/

section Drain

variable {π ε : Type}
variable (scrubSecrets : String → String) (provider : ProviderId)
variable {source : AsyncSource (StreamChunk π ε) (Thrown ε)}

theorem verify_confirmed
    {terminal : StreamChunk π ε} (found : fromTerminal source.items = [terminal])
    (valid : terminal.usageValid = true) :
    verifyStreamGrammar scrubSecrets provider source =
      { chunks := leading source.items ++ [terminal]
        thrown := none
        observed := terminal.usage.toList } := by
  unfold verifyStreamGrammar walk
  rw [forAwait_terminal found valid, forAwait]
  cases source.ending <;> simp [holding, GrammarState.initial]

/-- A followed terminal whose iterator closes in peace is replaced. -/
theorem verify_violated
    {terminal follower : StreamChunk π ε} {rest : List (StreamChunk π ε)}
    (found : fromTerminal source.items = terminal :: follower :: rest)
    (valid : terminal.usageValid = true) (closes : source.onReturn.exit = .left) :
    verifyStreamGrammar scrubSecrets provider source =
      { chunks := leading source.items ++
          [violation scrubSecrets provider terminal follower]
        thrown := none
        observed := terminal.usage.toList } := by
  have round : grammarRound scrubSecrets provider (holding .initial terminal)
      follower = .leave [violation scrubSecrets provider terminal follower]
        (holding .initial terminal) := rfl
  unfold verifyStreamGrammar walk
  rw [forAwait_terminal found valid, forAwait_cons_leave round]
  simp [closes, holding, GrammarState.initial]

/-- A followed terminal whose iterator rejects its close is replaced and then
emitted as well. -/
theorem verify_rejected
    {terminal follower : StreamChunk π ε} {rest : List (StreamChunk π ε)} {cause : Thrown ε}
    (found : fromTerminal source.items = terminal :: follower :: rest)
    (valid : terminal.usageValid = true) (rejects : source.onReturn = .rejects cause) :
    verifyStreamGrammar scrubSecrets provider source =
      { chunks := leading source.items ++
          [violation scrubSecrets provider terminal follower, terminal]
        thrown := none
        observed := terminal.usage.toList } := by
  have round : grammarRound scrubSecrets provider (holding .initial terminal)
      follower = .leave [violation scrubSecrets provider terminal follower]
        (holding .initial terminal) := rfl
  unfold verifyStreamGrammar walk
  rw [forAwait_terminal found valid, forAwait_cons_leave round]
  simp [rejects, SourceClose.exit, holding, GrammarState.initial]

/-- A stream without a terminal ends in an error when it simply stops. -/
theorem verify_truncated
    (found : fromTerminal source.items = []) (ending : source.ending = .eof) :
    verifyStreamGrammar scrubSecrets provider source =
      { chunks := leading source.items ++
          [truncated scrubSecrets provider (!(leading source.items).isEmpty)]
        thrown := none
        observed := [] } := by
  unfold verifyStreamGrammar walk
  rw [forAwait_items, found, forAwait]
  simp [ending, reading, GrammarState.initial]

theorem verify_threw
    {cause : Thrown ε} (found : fromTerminal source.items = [])
    (ending : source.ending = .throws cause) :
    verifyStreamGrammar scrubSecrets provider source =
      { chunks := leading source.items
        thrown := some cause
        observed := [] } := by
  unfold verifyStreamGrammar walk
  rw [forAwait_items, found, forAwait]
  simp [ending, reading, GrammarState.initial]

/-- A well-formed stream has one chunk at most after the leading ones. -/
theorem WellFormed.length_le {drained : Drained π ε} (wellFormed : WellFormed source drained) :
    drained.chunks.length ≤ (leading source.items).length + 1 := by
  obtain ⟨ending, chunks, ends⟩ := wellFormed
  have single : ending.length ≤ 1 := by
    generalize drained.thrown = thrown at ends
    cases ends <;> simp
  rw [chunks, List.length_append]
  omega

/-- Some chunk follows the first terminal of the source. -/
def Followed (source : AsyncSource (StreamChunk π ε) (Thrown ε)) : Prop :=
  1 < (fromTerminal source.items).length

/-- The iterator of the source rejects its close. -/
def RejectsReturn (source : AsyncSource (StreamChunk π ε) (Thrown ε)) : Prop :=
  ∃ cause, source.onReturn = .rejects cause

/-- The wrapper emits a well-formed stream unless it closes, after a violation,
an iterator that rejects its close. -/
theorem verifyStreamGrammar_wellFormed_iff
    (valid : ∀ chunk ∈ source.items, chunk.usageValid = true) :
    WellFormed source (verifyStreamGrammar scrubSecrets provider source) ↔
      ¬(Followed source ∧ RejectsReturn source) := by
  have validTerminal : ∀ chunk ∈ fromTerminal source.items,
      chunk.usageValid = true := fun chunk member =>
    valid chunk ((List.dropWhile_sublist _).subset member)
  cases found : fromTerminal source.items with
  | nil =>
    refine iff_of_true ?_ (by simp [Followed, found])
    cases ending : source.ending with
    | eof =>
      rw [verify_truncated scrubSecrets provider found ending]
      exact ⟨_, rfl, .truncated _ found ending rfl⟩
    | throws cause =>
      rw [verify_threw scrubSecrets provider found ending]
      exact ⟨[], by simp, .threw cause found ending⟩
  | cons terminal rest =>
    have terminalValid := validTerminal terminal (by simp [found])
    cases rest with
    | nil =>
      refine iff_of_true ?_ (by simp [Followed, found])
      rw [verify_confirmed scrubSecrets provider found terminalValid]
      exact ⟨[terminal], rfl, .confirmed terminal found⟩
    | cons follower rest =>
      have followed : Followed source := by simp [Followed, found]
      cases closing : source.onReturn with
      | rejects cause =>
        refine iff_of_false ?_ (not_not.mpr ⟨followed, cause, closing⟩)
        intro wellFormed
        have bound := wellFormed.length_le
        rw [verify_rejected scrubSecrets provider found terminalValid closing] at bound
        simp at bound
      | absent | resolves =>
        refine iff_of_true ?_ (by simp [RejectsReturn, closing])
        rw [verify_violated scrubSecrets provider found terminalValid (by rw [closing]; rfl)]
        exact ⟨_, rfl, .violated terminal follower rest _ found rfl rfl⟩

end Drain

/-- A stop followed by content, from an iterator that closes as given. -/
def tailedSource (onReturn : SourceClose (Thrown Unit)) :
    AsyncSource (StreamChunk String Unit) (Thrown Unit) where
  items :=
    [.content .textDelta "hello", .stop .stop (.missing .notReported), .content .textDelta "more"]
  ending := .eof
  onReturn

theorem verifyStreamGrammar_wellFormed_closing :
    WellFormed (tailedSource .resolves)
      (verifyStreamGrammar id .anthropic (tailedSource .resolves)) :=
  (verifyStreamGrammar_wellFormed_iff id .anthropic (by decide)).mpr
    (by simp [RejectsReturn, tailedSource])

theorem verifyStreamGrammar_two_terminals :
    ¬∀ (scrubSecrets : String → String) (provider : ProviderId)
      (source : AsyncSource (StreamChunk String Unit) (Thrown Unit)),
      (∀ chunk ∈ source.items, chunk.usageValid = true) →
      WellFormed source (verifyStreamGrammar scrubSecrets provider source) := by
  intro claimed
  have bound := (claimed id .anthropic
    (tailedSource (.rejects (.source ()))) (by decide)).length_le
  exact absurd bound (by decide)

end Relavium.Llm
