import Relavium.Library.UriDecoding
import Relavium.Store.EffectJournal
import Relavium.Store.TurnKeyEvidence

/-!
# Scopes of effects

Model of `effectScope` and `nodeIdFromRunScope` of `packages/shared/src/run.ts` and of the
queries of `packages/db/src/effect-journal-store.ts` that read a range of scopes.  The
scopes of a run or a session are a half-open range of the byte order, and no scope of
another one lies in it.
-/

namespace Relavium.Store

open Library
open Library.Uri (encodeURIComponent)

/-- `EffectCorrelation`. -/
inductive EffectCorrelation
  | run (runId nodeId : String) (attempt : Int)
  | session (sessionId : String) (turn : Int)

/-- The run or the session that an effect belongs to. -/
inductive EffectOwner
  | run (runId : String)
  | session (sessionId : String)

namespace EffectCorrelation

def owner : EffectCorrelation → EffectOwner
  | .run runId _ _ => .run runId
  | .session sessionId _ => .session sessionId

/-- The correlation with the attempt dropped. -/
def withoutAttempt : EffectCorrelation → EffectCorrelation
  | .run runId nodeId _ => .run runId nodeId 0
  | .session sessionId turn => .session sessionId turn

end EffectCorrelation

/-- `effectScope`. -/
def effectScope : EffectCorrelation → String
  | .run runId nodeId _ =>
    "run:" ++ encodeURIComponent runId ++ ":" ++ encodeURIComponent nodeId
  | .session sessionId turn =>
    "session:" ++ encodeURIComponent sessionId ++ ":" ++ toString turn

inductive UriError
  | malformed

/-- `nodeIdFromRunScope`; decoding may throw. -/
def nodeIdFromRunScope (scope : String) : Except UriError (Option String) :=
  match scope.toList.splitOn ':' with
  | [kind, _, nodeId] =>
    if kind ≠ "run".toList then .ok none
    else
      match Uri.decodeURIComponent (String.ofList nodeId) with
      | some decoded => .ok (some decoded)
      | none => .error .malformed
  | _ => .ok none

/-! ## Ranges -/

/-- The scopes from one text up to another. -/
structure ScopeRange where
  fromScope : String
  toExclusive : String

/-- `scopeRange`. -/
def scopeRange (scopeStart : String) : ScopeRange where
  fromScope := scopeStart
  toExclusive := String.ofList scopeStart.toList.dropLast ++ ";"

/-- A scope is in a range, by the order of the bytes of texts. -/
def ScopeRange.contains (range : ScopeRange) (scope : String) : Bool :=
  decide (¬Uri.bytes scope < Uri.bytes range.fromScope ∧
    Uri.bytes scope < Uri.bytes range.toExclusive)

/-- What the scopes of a run or of a session start with. -/
def EffectOwner.scopeStart : EffectOwner → String
  | .run runId => "run:" ++ encodeURIComponent runId ++ ":"
  | .session sessionId => "session:" ++ encodeURIComponent sessionId ++ ":"

/-! ## Queries -/

/-- `EffectRecord`. -/
structure EffectRecord where
  identity : EffectIdentity
  state : EffectState
  tier : EffectTier
  result : Option JsValue

/-- `blocksResume`. -/
def blocksResume (record : EffectRecord) : Bool :=
  decide (record.state ≠ .committed) || record.result.isNone

/-- The result of a row that can be delivered again. -/
def deliverableResult (scope : String) (resultJson : Option JsString) : Option JsValue :=
  if "session:".toList.isPrefixOf scope.toList then none
  else resultJson.bind JsonParse.parse

/-- The record of a row; a session's query does not select the result. -/
def effectRecord (session : Bool) (identity : EffectIdentity)
    (row : EffectRow) : EffectRecord where
  identity
  state := row.state
  tier := row.tier
  result := deliverableResult identity.scope (if session then none else row.resultJson)

/-- `unresolvedInScope`.  `createdAt` is the column that orders the rows. -/
def unresolvedInScope
    (journal : EffectJournal) (createdAt : EffectIdentity → Int) (scopeStart : String)
    (session : Bool) : List EffectRecord :=
  let range := scopeRange scopeStart
  let rows := journal.entries.filter fun entry => range.contains entry.1.scope
  let ordered := rows.mergeSort fun first second =>
    decide (createdAt first.1 ≤ createdAt second.1)
  (ordered.map fun entry => effectRecord session entry.1 entry.2).filter fun record =>
    if session then decide (record.state ≠ .committed) else blocksResume record

def unresolvedForSession (journal : EffectJournal) (createdAt : EffectIdentity → Int)
    (sessionId : String) : List EffectRecord :=
  unresolvedInScope journal createdAt (EffectOwner.session sessionId).scopeStart true

def unresolvedForRun (journal : EffectJournal) (createdAt : EffectIdentity → Int)
    (runId : String) : List EffectRecord :=
  unresolvedInScope journal createdAt (EffectOwner.run runId).scopeStart false

/-- `sweepCommittedForRun`, with the number of its changes. -/
def sweepCommittedForRun (journal : EffectJournal)
    (runId : String) : Nat × EffectJournal :=
  let range := scopeRange (EffectOwner.run runId).scopeStart
  let kept := journal.filter fun identity row =>
    !(range.contains identity.scope && decide (row.state = .committed))
  (journal.entries.length - kept.entries.length, kept)

/-! ## The scopes of an owner -/

theorem bytes_append (first second : String) :
    Uri.bytes (first ++ second) = Uri.bytes first ++ Uri.bytes second := by
  rw [Uri.bytes_eq_flatMap, Uri.bytes_eq_flatMap, Uri.bytes_eq_flatMap, String.toList_append,
    List.flatMap_append]

/-- The byte of a colon stands for nothing but a colon. -/
theorem colon_mem_bytes_iff {text : String} :
    58 ∈ Uri.bytes text ↔ ':' ∈ text.toList := by
  rw [Uri.bytes_eq_flatMap, List.mem_flatMap]
  constructor
  · rintro ⟨char, member, isByte⟩
    obtain ⟨first, others, isBytes, -, ascii, multiple⟩ := Uri.utf8EncodeChar_spec char
    rw [isBytes] at isByte
    obtain small | large := Nat.lt_or_ge char.toNat 0x80
    · obtain ⟨rfl, isCode⟩ := ascii small
      rw [List.mem_singleton] at isByte
      have isColon : char = ':' := by
        rw [← Char.toNat_inj, ← isCode, ← isByte]
        rfl
      exact isColon ▸ member
    · exact absurd (multiple large _ isByte) (by decide)
  · intro member
    exact ⟨':', member, by decide⟩

/-- An encoded part holds no colon. -/
theorem colon_not_mem_bytes_encodeURIComponent (text : String) :
    58 ∉ Uri.bytes (encodeURIComponent text) :=
  fun member => Uri.colon_not_mem_encodeURIComponent text (colon_mem_bytes_iff.mp member)

/-- The word in front of the id of an owner. -/
def EffectOwner.kind : EffectOwner → String
  | .run _ => "run"
  | .session _ => "session"

def EffectOwner.id : EffectOwner → String
  | .run runId => runId
  | .session sessionId => sessionId

theorem EffectOwner.ext
    {first second : EffectOwner} (sameKind : first.kind = second.kind)
    (sameId : first.id = second.id) :
    first = second := by
  cases first with
  | run runId =>
    cases second with
    | run other => exact congrArg EffectOwner.run sameId
    | session other => exact absurd sameKind (show "run" ≠ "session" by decide)
  | session sessionId =>
    cases second with
    | run other => exact absurd sameKind (show "session" ≠ "run" by decide)
    | session other => exact congrArg EffectOwner.session sameId

/-- What stands behind the separators in a scope. -/
def EffectCorrelation.last : EffectCorrelation → String
  | .run _ nodeId _ => encodeURIComponent nodeId
  | .session _ turn => toString turn

theorem EffectOwner.scopeStart_eq (owner : EffectOwner) :
    owner.scopeStart = owner.kind ++ ":" ++ encodeURIComponent owner.id ++ ":" := by
  cases owner <;> rfl

theorem effectScope_eq (correlation : EffectCorrelation) :
    effectScope correlation = correlation.owner.scopeStart ++ correlation.last := by
  cases correlation <;> rfl

/-- The bytes of a scope, up to its last part. -/
theorem bytes_scopeStart (owner : EffectOwner) :
    Uri.bytes owner.scopeStart =
      Uri.bytes owner.kind ++ 58 :: (Uri.bytes (encodeURIComponent owner.id) ++ [58]) := by
  have isColon : Uri.bytes ":" = [58] := by decide
  rw [owner.scopeStart_eq, bytes_append, bytes_append, bytes_append, isColon]
  simp only [List.append_assoc, List.cons_append, List.nil_append]

theorem colon_not_mem_bytes_kind (owner : EffectOwner) : 58 ∉ Uri.bytes owner.kind := by
  rw [colon_mem_bytes_iff]
  cases owner with
  | run runId => exact show ':' ∉ "run".toList by decide
  | session sessionId => exact show ':' ∉ "session".toList by decide

/-- Scopes that start alike belong to one owner. -/
theorem scopeStart_inj {first second : EffectOwner} {firstRest secondRest : List UInt8}
    (same : Uri.bytes first.scopeStart ++ firstRest = Uri.bytes second.scopeStart ++ secondRest) :
    first = second ∧ firstRest = secondRest := by
  rw [bytes_scopeStart, bytes_scopeStart, List.append_assoc, List.append_assoc, List.cons_append,
    List.cons_append, List.append_assoc, List.append_assoc] at same
  obtain ⟨sameKind, sameRest⟩ := append_separator_inj (colon_not_mem_bytes_kind first)
    (colon_not_mem_bytes_kind second) same
  obtain ⟨sameId, rests⟩ := append_separator_inj (colon_not_mem_bytes_encodeURIComponent first.id)
    (colon_not_mem_bytes_encodeURIComponent second.id) sameRest
  exact ⟨EffectOwner.ext (Uri.bytes_inj sameKind)
    (Uri.encodeURIComponent_inj (Uri.bytes_inj sameId)), rests⟩

/-- The range of a scope start holds the scopes that begin with it. -/
theorem contains_scopeRange_iff {owner : EffectOwner} {scope : String} :
    (scopeRange owner.scopeStart).contains scope = true ↔
      Uri.bytes owner.scopeStart <+: Uri.bytes scope := by
  have isColon : Uri.bytes ":" = [58] := by decide
  have isSemicolon : Uri.bytes ";" = [59] := by decide
  generalize isStem : owner.kind ++ ":" ++ encodeURIComponent owner.id = stem
  have isStart : owner.scopeStart = stem ++ ":" := by
    rw [owner.scopeStart_eq, isStem]
  have isLimit : String.ofList owner.scopeStart.toList.dropLast ++ ";" = stem ++ ";" := by
    rw [isStart, String.toList_append]
    congr 1
    rw [show ":".toList = [':'] from rfl, List.dropLast_concat, String.ofList_toList]
  rw [ScopeRange.contains, decide_eq_true_eq, scopeRange]
  simp only [isLimit]
  rw [isStart, bytes_append, bytes_append, isColon, isSemicolon]
  refine between_iff_prefix UInt8.lt_irrefl (fun letter => ?_) (Uri.bytes stem) (Uri.bytes scope)
  rw [UInt8.lt_iff_toNat_lt, UInt8.lt_iff_toNat_lt, ← UInt8.toNat_inj]
  simp only [UInt8.reduceToNat]
  omega

/-- A range holds exactly the scopes of its owner. -/
theorem contains_effectScope_iff {owner : EffectOwner} {correlation : EffectCorrelation} :
    (scopeRange owner.scopeStart).contains (effectScope correlation) = true ↔
      correlation.owner = owner := by
  rw [contains_scopeRange_iff, effectScope_eq, bytes_append]
  constructor
  · rintro ⟨rest, same⟩
    exact (scopeStart_inj same).1.symm
  · rintro rfl
    exact List.prefix_append _ _

/-- Different numbers have different decimal texts. -/
theorem toString_inj {first second : Int} (same : toString first = toString second) :
    first = second := by
  have natural : ∀ {value other : Nat}, toString value = toString other → value = other := by
    intro value other sameText
    have read := decimalKey_toString value
    rw [sameText, decimalKey_toString] at read
    exact (Option.some.inj read).symm
  have signed : ∀ {value other : Nat}, toString value ≠ "-" ++ toString other := by
    intro value other sameText
    have read := decimalKey_toString value
    rw [sameText, String.toList_append, show "-".toList = ['-'] from rfl] at read
    exact absurd read (by simp [decimalKey])
  cases first with
  | ofNat first =>
    cases second with
    | ofNat second => exact congrArg Int.ofNat (natural same)
    | negSucc second => exact absurd same signed
  | negSucc first =>
    cases second with
    | ofNat second => exact absurd same.symm signed
    | negSucc second =>
      have sameChars := congrArg String.toList same
      have isFirst : (toString (Int.negSucc first)).toList =
          "-".toList ++ (toString (first + 1)).toList := String.toList_append
      have isSecond : (toString (Int.negSucc second)).toList =
          "-".toList ++ (toString (second + 1)).toList := String.toList_append
      rw [isFirst, isSecond] at sameChars
      have sameText := String.toList_inj.mp (List.append_cancel_left sameChars)
      rw [Nat.succ.inj (natural sameText)]

/-- Scopes are equal when the correlations are, up to the attempt of a run. -/
theorem effectScope_inj {first second : EffectCorrelation} :
    effectScope first = effectScope second ↔ first.withoutAttempt = second.withoutAttempt := by
  constructor
  · intro same
    have sameBytes := congrArg Uri.bytes same
    rw [effectScope_eq, effectScope_eq, bytes_append, bytes_append] at sameBytes
    obtain ⟨sameOwner, sameLast⟩ := scopeStart_inj sameBytes
    have isLast := Uri.bytes_inj sameLast
    cases first with
    | run runId nodeId attempt =>
      cases second with
      | run otherRun otherNode otherAttempt =>
        obtain rfl := EffectOwner.run.inj sameOwner
        rw [EffectCorrelation.withoutAttempt, EffectCorrelation.withoutAttempt,
          Uri.encodeURIComponent_inj isLast]
      | session sessionId turn => exact absurd sameOwner nofun
    | session sessionId turn =>
      cases second with
      | run runId nodeId attempt => exact absurd sameOwner nofun
      | session otherSession otherTurn =>
        obtain rfl := EffectOwner.session.inj sameOwner
        rw [toString_inj isLast]
  · intro same
    cases first with
    | run runId nodeId attempt =>
      cases second with
      | run otherRun otherNode otherAttempt =>
        obtain ⟨rfl, rfl, -⟩ := EffectCorrelation.run.inj same
        rfl
      | session sessionId turn => exact absurd same nofun
    | session sessionId turn =>
      cases second with
      | run runId nodeId attempt => exact absurd same nofun
      | session otherSession otherTurn =>
        obtain ⟨rfl, rfl⟩ := EffectCorrelation.session.inj same
        rfl

/-! ## The node of a run scope -/

theorem splitOn_runScope (runId nodeId : String) (attempt : Int) :
    (effectScope (.run runId nodeId attempt)).toList.splitOn ':' =
      ["run".toList, (encodeURIComponent runId).toList, (encodeURIComponent nodeId).toList] := by
  have isScope : (effectScope (.run runId nodeId attempt)).toList =
      "run".toList ++ ':' :: ((encodeURIComponent runId).toList ++
        ':' :: (encodeURIComponent nodeId).toList) := by
    simp [effectScope, String.toList_append]
  rw [isScope, List.splitOn_append_cons_self_of_not_mem (by decide),
    List.splitOn_append_cons_self_of_not_mem (Uri.colon_not_mem_encodeURIComponent runId),
    List.splitOn_eq_singleton (Uri.colon_not_mem_encodeURIComponent nodeId)]

/-- The node of a run scope reads back. -/
theorem nodeIdFromRunScope_run (runId nodeId : String) (attempt : Int) :
    nodeIdFromRunScope (effectScope (.run runId nodeId attempt)) = .ok (some nodeId) := by
  rw [nodeIdFromRunScope, splitOn_runScope]
  simp only [ne_eq, not_true_eq_false, if_false, String.ofList_toList,
    Uri.decodeURIComponent_encodeURIComponent]

/-! ## The journal of the callers -/

/-- A call of a port made by `createEffectJournalPort`, or of the store. -/
inductive EffectCall
  | prepare (correlation : EffectCorrelation) (slot : Int) (toolId id : String)
      (tier : EffectTier)
      (argsDigest : String)
  | settle (correlation : EffectCorrelation) (slot : Int) (toolId : String) (state : EffectState)
      (result : Option JsValue)
  | discard (correlation : EffectCorrelation) (slot : Int) (toolId : String)
  | flagForAttention (identity : EffectIdentity)
  | sweepCommittedForRun (runId : String)
  | sweepCommittedForSession (sessionId : String) (captured : List CapturedSessionEffect)

/-- `identityFor`. -/
def identityFor (correlation : EffectCorrelation) (slot : Int)
    (toolId : String) : EffectIdentity where
  scope := effectScope correlation
  slot
  toolId

/-- The journal after a call. -/
def EffectCall.journalAfter (exoticText : Option JsString)
    (journal : EffectJournal) : EffectCall → EffectJournal
  | .prepare correlation slot toolId id tier argsDigest =>
    (journal.prepare (identityFor correlation slot toolId) id tier argsDigest).2
  | .settle correlation slot toolId state result =>
    (journal.settle exoticText (identityFor correlation slot toolId) state result).2
  | .discard correlation slot toolId =>
    journal.discard (identityFor correlation slot toolId)
  | .flagForAttention identity => journal.flagForAttention identity
  | .sweepCommittedForRun runId => (Store.sweepCommittedForRun journal runId).2
  | .sweepCommittedForSession sessionId captured =>
    journal.filter fun identity row => !sweeps sessionId captured identity row

/-- The journal after some calls, one after the other. -/
def journalAfter (exoticText : Option JsString) (calls : List EffectCall) : EffectJournal :=
  calls.foldl (EffectCall.journalAfter exoticText) OrderedMap.empty

/-- Every row has the scope of a correlation. -/
def Scoped (journal : EffectJournal) : Prop :=
  ∀ identity row, journal.get identity = some row →
    ∃ correlation, identity.scope = effectScope correlation

theorem Scoped.of_get
    {journal later : EffectJournal} (isScoped : Scoped journal)
    (noFurther : ∀ identity, journal.get identity = none → later.get identity = none) :
    Scoped later := by
  intro identity row found
  cases held : journal.get identity with
  | none => exact absurd (found.symm.trans (noFurther identity held)) (by simp)
  | some before => exact isScoped identity before held

theorem Scoped.journalAfter
    {exoticText : Option JsString} {journal : EffectJournal} (isScoped : Scoped journal)
    (call : EffectCall) :
    Scoped (call.journalAfter exoticText journal) := by
  cases call with
  | prepare correlation slot toolId id tier argsDigest =>
    intro identity row found
    by_cases same : identity = identityFor correlation slot toolId
    · exact ⟨correlation, congrArg EffectIdentity.scope same⟩
    · rw [EffectCall.journalAfter, get_prepare_of_ne same] at found
      exact isScoped identity row found
  | settle correlation slot toolId state result =>
    exact isScoped.of_get fun identity => get_settle_eq_none_iff.mpr
  | discard correlation slot toolId =>
    refine isScoped.of_get fun identity absent => ?_
    rw [EffectCall.journalAfter]
    obtain same | ⟨dropped, -⟩ :=
      discard_cases journal (identityFor correlation slot toolId)
    · rw [same, absent]
    · rw [dropped, OrderedMap.get_delete, absent, ite_self]
  | flagForAttention identity =>
    exact isScoped.of_get fun other => get_flagForAttention_eq_none_iff.mpr
  | sweepCommittedForRun runId =>
    refine isScoped.of_get fun identity absent => ?_
    rw [EffectCall.journalAfter, Store.sweepCommittedForRun, OrderedMap.get_filter, absent]
    rfl
  | sweepCommittedForSession sessionId captured =>
    refine isScoped.of_get fun identity absent => ?_
    rw [EffectCall.journalAfter, OrderedMap.get_filter, absent]
    rfl

/-- Every row of a journal lies in the scope of some correlation. -/
theorem scoped_journalAfter (exoticText : Option JsString) (calls : List EffectCall) :
    Scoped (journalAfter exoticText calls) := by
  have induct : ∀ journal, Scoped journal →
      Scoped (calls.foldl (EffectCall.journalAfter exoticText) journal) := by
    induction calls with
    | nil => exact fun _ isScoped => isScoped
    | cons call rest ih =>
      exact fun _ isScoped => ih _ (isScoped.journalAfter call)
  refine induct _ fun identity row found => ?_
  rw [OrderedMap.get_empty] at found
  cases found

/-! ## The rows of a run -/

/-- A row belongs to a run or a session. -/
def BelongsTo (identity : EffectIdentity) (owner : EffectOwner) : Prop :=
  ∃ correlation, identity.scope = effectScope correlation ∧ correlation.owner = owner

section Rows

variable
  {journal : EffectJournal}
  {identity : EffectIdentity}
  {row : EffectRow}

/-- A scope range holds exactly the rows of its owner. -/
theorem contains_iff_belongsTo
    (isScoped : Scoped journal) (found : journal.get identity = some row) (owner : EffectOwner) :
    (scopeRange owner.scopeStart).contains identity.scope = true ↔ BelongsTo identity owner := by
  obtain ⟨correlation, isScope⟩ := isScoped identity row found
  rw [isScope, contains_effectScope_iff]
  constructor
  · exact fun isOwner => ⟨correlation, isScope, isOwner⟩
  · rintro ⟨other, isOther, isOwner⟩
    rw [← isOwner, ← contains_effectScope_iff, ← isScope, isOther, contains_effectScope_iff]

/-- The sweep of a run removes its committed rows and no other. -/
theorem get_sweepCommittedForRun (isScoped : Scoped journal) (runId : String) :
    (sweepCommittedForRun journal runId).2.get identity = some row ↔
      journal.get identity = some row ∧
        ¬(row.state = .committed ∧ BelongsTo identity (.run runId)) := by
  rw [sweepCommittedForRun, OrderedMap.get_filter, Option.filter_eq_some_iff]
  refine and_congr_right fun found => ?_
  rw [← contains_iff_belongsTo isScoped found]
  simp only [Bool.not_eq_true', Bool.and_eq_false_iff, decide_eq_false_iff_not, not_and_or,
    Bool.not_eq_true]
  exact or_comm

theorem changes_sweepCommittedForRun (journal : EffectJournal) (runId : String) :
    (sweepCommittedForRun journal runId).1 +
        (sweepCommittedForRun journal runId).2.entries.length =
      journal.entries.length :=
  Nat.sub_add_cancel (List.length_filter_le _ _)

/-- The unresolved rows of a run are its rows that block a resume. -/
theorem mem_unresolvedForRun
    (isScoped : Scoped journal) {createdAt : EffectIdentity → Int} {runId : String}
    {record : EffectRecord} :
    record ∈ unresolvedForRun journal createdAt runId ↔
      ∃ identity row, journal.get identity = some row ∧ BelongsTo identity (.run runId) ∧
        record = effectRecord false identity row ∧ blocksResume record = true := by
  rw [unresolvedForRun, unresolvedInScope]
  simp only [Bool.false_eq_true, if_false, List.mem_filter, List.mem_map, List.mem_mergeSort,
    Prod.exists, OrderedMap.mem_entries_iff]
  constructor
  · rintro ⟨⟨identity, row, ⟨found, contained⟩, rfl⟩, blocks⟩
    exact ⟨identity, row, found, (contains_iff_belongsTo isScoped found _).mp contained, rfl,
      blocks⟩
  · rintro ⟨identity, row, found, belongs, rfl, blocks⟩
    exact ⟨⟨identity, row, ⟨found, (contains_iff_belongsTo isScoped found _).mpr belongs⟩, rfl⟩,
      blocks⟩

/-- No row is returned twice. -/
theorem nodup_unresolvedForRun (createdAt : EffectIdentity → Int) (runId : String) :
    ((unresolvedForRun journal createdAt runId).map EffectRecord.identity).Nodup := by
  rw [unresolvedForRun, unresolvedInScope]
  refine List.Nodup.sublist (List.filter_sublist.map _) ?_
  rw [List.map_map]
  refine ((List.mergeSort_perm _ _).map _).nodup_iff.mpr ?_
  exact journal.nodupKeys.sublist (List.filter_sublist.map _)

end Rows

/-- Scopes are isolated: they determine their correlation up to the attempt, a range holds
the scopes of its owner and no others, a node is read back from its scope, and after any
calls the sweep of a run and the read of its unresolved rows touch its own rows alone. -/
theorem effectScopes_isolated :
    (∀ first second, effectScope first = effectScope second ↔
      first.withoutAttempt = second.withoutAttempt) ∧
    (∀ owner correlation,
      (scopeRange (EffectOwner.scopeStart owner)).contains (effectScope correlation) = true ↔
        correlation.owner = owner) ∧
    (∀ runId nodeId attempt,
      nodeIdFromRunScope (effectScope (.run runId nodeId attempt)) = .ok (some nodeId)) ∧
    ∀ exoticText calls runId,
      (∀ identity row,
        (sweepCommittedForRun (journalAfter exoticText calls) runId).2.get identity =
            some row ↔
          (journalAfter exoticText calls).get identity = some row ∧
            ¬(row.state = .committed ∧ BelongsTo identity (.run runId))) ∧
      (sweepCommittedForRun (journalAfter exoticText calls) runId).1 +
          (sweepCommittedForRun (journalAfter exoticText calls) runId).2.entries.length =
        (journalAfter exoticText calls).entries.length ∧
      ∀ createdAt,
        (∀ record,
          record ∈ unresolvedForRun (journalAfter exoticText calls) createdAt runId ↔
            ∃ identity row,
              (journalAfter exoticText calls).get identity = some row ∧
                BelongsTo identity (.run runId) ∧
                record = effectRecord false identity row ∧ blocksResume record = true) ∧
        ((unresolvedForRun (journalAfter exoticText calls) createdAt runId).map
          EffectRecord.identity).Nodup := by
  refine ⟨fun first second => effectScope_inj,
    fun owner correlation => contains_effectScope_iff, nodeIdFromRunScope_run,
    fun exoticText calls runId => ?_⟩
  have isScoped := scoped_journalAfter exoticText calls
  exact ⟨fun identity row => get_sweepCommittedForRun isScoped runId,
    changes_sweepCommittedForRun _ runId, fun createdAt =>
      ⟨fun record => mem_unresolvedForRun isScoped, nodup_unresolvedForRun createdAt runId⟩⟩

end Relavium.Store
