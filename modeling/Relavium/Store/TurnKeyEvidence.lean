import Relavium.Library.Checks
import Relavium.Store.SessionEffectTurns

/-!
# What the evidence of a session gives

The scopes of a session are exactly its own, a scope gives back its turn key, and
the floor of a legacy session is at least the key of every effect that is still
journaled.
-/

namespace Relavium.Store

open Library
open Library.Uri (encodeURIComponent)

/-! ## Scopes -/

section Scopes

variable
  {sessionId other scope : String}
  {turnKey otherKey : Nat}

theorem toList_scopePrefix (sessionId : String) :
    (scopePrefix sessionId).toList =
      "session:".toList ++ (encodeURIComponent sessionId).toList ++ [':'] := by
  simp [scopePrefix, String.toList_append]

theorem toList_scopeLimit (sessionId : String) :
    (scopeLimit sessionId).toList =
      "session:".toList ++ (encodeURIComponent sessionId).toList ++ [';'] := by
  simp [scopeLimit, String.toList_append]

/-- The range of a session holds the texts that start with its scope. -/
theorem inScope_iff :
    inScope sessionId scope = true ↔
      (scopePrefix sessionId).toList <+: scope.toList := by
  have range := @between_iff_startsWith ':' ';' rfl
    ("session:".toList ++ (encodeURIComponent sessionId).toList) scope.toList
  rw [← toList_scopePrefix, ← toList_scopeLimit] at range
  exact decide_eq_true_iff.trans range

theorem toList_turnScope (sessionId : String) (turnKey : Nat) :
    (turnScope sessionId turnKey).toList =
      (scopePrefix sessionId).toList ++ (toString turnKey).toList := by
  rw [turnScope, String.toList_append]

theorem inScope_turnScope : inScope sessionId (turnScope sessionId turnKey) = true :=
  inScope_iff.mpr (toList_turnScope sessionId turnKey ▸ List.prefix_append _ _)

/-- A scope lies in the range of one session at most. -/
theorem eq_of_inScope
    (first : inScope sessionId scope = true) (second : inScope other scope = true) :
    sessionId = other := by
  obtain ⟨firstRest, isFirst⟩ := inScope_iff.mp first
  obtain ⟨secondRest, isSecond⟩ := inScope_iff.mp second
  rw [toList_scopePrefix, List.append_assoc, List.append_assoc] at isFirst isSecond
  have same := List.append_cancel_left (isFirst.trans isSecond.symm)
  simp only [List.singleton_append] at same
  have encoded := (append_separator_inj (Uri.colon_not_mem_encodeURIComponent sessionId)
    (Uri.colon_not_mem_encodeURIComponent other) same).1
  exact Uri.encodeURIComponent_inj (String.toList_inj.mp encoded)

theorem ofSession_of_inScope
    {identity : EffectIdentity} (inside : inScope sessionId identity.scope = true) :
    identity.ofSession = true := by
  obtain ⟨rest, isScope⟩ := inScope_iff.mp inside
  rw [toList_scopePrefix, List.append_assoc, List.append_assoc] at isScope
  exact List.isPrefixOf_iff_prefix.mpr ⟨_, isScope⟩

/-- A positive number does not start with a zero. -/
theorem toDigits_eq_cons {value : Nat} (positive : 0 < value) :
    ∃ first rest, Nat.toDigits 10 value = first :: rest ∧ first ≠ '0' := by
  induction value using Nat.strongRecOn with
  | ind value ih =>
    by_cases small : value < 10
    · refine ⟨value.digitChar, [], Nat.toDigits_of_lt_base small, ?_⟩
      simpa using Nat.ne_of_gt positive
    · obtain ⟨first, rest, digits, nonzero⟩ :=
        ih (value / 10) (by omega) (by omega)
      refine ⟨first, rest ++ [(value % 10).digitChar], ?_, nonzero⟩
      rw [Nat.toDigits_of_base_le (by omega) (by omega), digits, List.cons_append]

/-- A key is read back from its decimal form. -/
theorem decimalKey_toString (key : Nat) :
    decimalKey (toString key).toList = some key := by
  rw [Nat.toString_eq_repr, Nat.toList_repr]
  rcases Nat.eq_zero_or_pos key with rfl | positive
  · rfl
  · obtain ⟨first, rest, digits, nonzero⟩ := toDigits_eq_cons positive
    have allDigits : ∀ char ∈ first :: rest, char.isDigit = true := fun char member =>
      Nat.isDigit_of_mem_toDigits (by omega) (by omega) (digits ▸ member)
    have value := @Nat.ofDigitChars_toDigits 10 key (by omega) (by omega)
    have restDigits : rest.all Char.isDigit = true :=
      List.all_eq_true.mpr fun char member => allDigits char (.tail _ member)
    rw [digits] at value ⊢
    rw [decimalKey.eq_def]
    simp [nonzero, allDigits first (.head _), restDigits, value]

theorem drop_turnScope (sessionId : String) (turnKey : Nat) :
    (turnScope sessionId turnKey).toList.drop (scopePrefix sessionId).length =
      (toString turnKey).toList := by
  rw [toList_turnScope, ← String.length_toList, List.drop_left]

theorem turnKey_inj (same : turnScope sessionId turnKey = turnScope sessionId otherKey) :
    turnKey = otherKey := by
  have digits := drop_turnScope sessionId turnKey
  rw [same, drop_turnScope] at digits
  have read := decimalKey_toString otherKey
  rw [digits, decimalKey_toString] at read
  exact Option.some.inj read

end Scopes

/-! ## Safe keys -/

/-- A key is read when it is a safe integer. -/
theorem safeKey_eq_ok_iff {value : Int} {key : Nat} :
    safeKey value = .ok key ↔ (key : Int) = value ∧ value ≤ maxSafeInteger := by
  unfold safeKey
  split
  · next safe =>
    simp only [Except.ok.injEq]
    omega
  · next unsafeValue =>
    simp only [reduceCtorEq, false_iff]
    omega

theorem safeKey_roundToDouble_iff {value : Int} {key : Nat} :
    safeKey (roundToDouble value) = .ok key ↔
      (key : Int) = value ∧ value ≤ maxSafeInteger := by
  rw [safeKey_eq_ok_iff]
  constructor
  · rintro ⟨isKey, safe⟩
    have nonneg := nonneg_of_roundToDouble_nonneg (isKey ▸ Int.natCast_nonneg key)
    rw [← eq_of_roundToDouble_safe nonneg safe]
    exact ⟨isKey, safe⟩
  · rintro ⟨isKey, safe⟩
    rw [roundToDouble_of_safe (by omega) safe]
    exact ⟨isKey, safe⟩

/-- A check that fails blames the history. -/
theorem safeKey_error
    {value : Int} {refusal : SessionEffectTurnError} (refused : safeKey value = .error refusal) :
    refusal = .historyInvalid := by
  unfold safeKey at refused
  split at refused
  · cases refused
  · exact (Except.error.inj refused).symm

/-! ## The floor -/

section Floor

variable
  {tables later : SessionTables}
  {sessionId : String}

/-- The key of a turn scope reads back. -/
theorem scopeKey_turnScope
    {turnKey key : Nat} (read : scopeKey sessionId (turnScope sessionId turnKey) = .ok key) :
    key = turnKey := by
  unfold scopeKey at read
  rw [drop_turnScope, decimalKey_toString] at read
  have exact' := (safeKey_roundToDouble_iff.mp read).1
  omega

variable {scope : String} {refusal : SessionEffectTurnError}

theorem scopeKey_le {key : Nat} (read : scopeKey sessionId scope = .ok key) :
    (key : Int) ≤ maxSafeInteger := by
  unfold scopeKey at read
  split at read
  · cases read
  · obtain ⟨isKey, safe⟩ := safeKey_roundToDouble_iff.mp read
    omega

theorem scopeKey_error (refused : scopeKey sessionId scope = .error refusal) :
    refusal = .historyInvalid := by
  unfold scopeKey at refused
  split at refused
  · exact (Except.error.inj refused).symm
  · exact safeKey_error refused

/-- The floor is at least every key of the scopes folded. -/
theorem scopeKey_of_foldlM
    {scopes : List String} {start floor : Nat}
    (folded : scopes.foldlM (raiseFloor sessionId) start = .ok floor) :
    start ≤ floor ∧
      ∀ scope ∈ scopes, ∃ key, scopeKey sessionId scope = .ok key ∧ key ≤ floor := by
  induction scopes generalizing start with
  | nil => exact ⟨le_of_eq (pure_eq_ok.mp folded), by simp⟩
  | cons scope rest ih =>
    rw [List.foldlM_cons] at folded
    obtain ⟨next, raised, later⟩ := bind_eq_ok.mp folded
    obtain ⟨key, read, isNext⟩ := bind_eq_ok.mp raised
    obtain ⟨nextLe, restKeys⟩ := ih later
    rw [pure_eq_ok] at isNext
    have keyLe : key ≤ floor := by omega
    refine ⟨by omega, fun other member => ?_⟩
    rcases List.mem_cons.mp member with rfl | inRest
    · exact ⟨key, read, keyLe⟩
    · exact restKeys other inRest

/-- From a safe start, scopes whose keys read have a floor. -/
theorem foldlM_raiseFloor_of_scopeKey
    {scopes : List String} {start : Nat} (safe : (start : Int) ≤ maxSafeInteger)
    (keys : ∀ scope ∈ scopes, ∃ key, scopeKey sessionId scope = .ok key) :
    ∃ floor : Nat,
      scopes.foldlM (raiseFloor sessionId) start = .ok floor ∧
        (floor : Int) ≤ maxSafeInteger := by
  induction scopes generalizing start with
  | nil => exact ⟨start, rfl, safe⟩
  | cons scope rest ih =>
    obtain ⟨key, read⟩ := keys scope List.mem_cons_self
    have bound := scopeKey_le read
    have raisedSafe : ((max start key : Nat) : Int) ≤ maxSafeInteger := by omega
    obtain ⟨floor, folded, floorSafe⟩ := ih raisedSafe
      fun other member => keys other (List.mem_cons_of_mem _ member)
    refine ⟨floor, ?_, floorSafe⟩
    rw [List.foldlM_cons, raiseFloor, read]
    exact folded

theorem countCompleted_le
    {count next : Nat} {row : MessageRow} (counted : countCompleted count row = .ok next) :
    count ≤ next := by
  obtain ⟨completed, _, isNext⟩ := bind_eq_ok.mp counted
  rw [pure_eq_ok] at isNext
  split at isNext <;> omega

theorem completedParts_error
    {text : Bool} {parts : List JsValue} (refused : completedParts text parts = .error refusal) :
    refusal = .historyInvalid := by
  induction parts generalizing text with
  | nil => exact absurd refused (by simp [completedParts])
  | cons part rest ih =>
    rw [completedParts] at refused
    split at refused
    · exact (Except.error.inj refused).symm
    · split at refused
      · cases refused
      · exact ih refused

theorem completedAssistant_error
    {contentParts content : Option JsString}
    (refused : completedAssistant contentParts content = .error refusal) :
    refusal = .historyInvalid := by
  unfold completedAssistant at refused
  split at refused
  · cases refused
  · split at refused
    · exact completedParts_error refused
    · exact (Except.error.inj refused).symm

theorem legacyFloor_error (refused : legacyFloor tables sessionId = .error refusal) :
    refusal = .historyInvalid := by
  obtain counting | ⟨completed, _, rest⟩ := bind_eq_error.mp refused
  · obtain ⟨count, row, stopped⟩ := foldlM_error counting
    obtain invalid | ⟨_, _, later⟩ := bind_eq_error.mp stopped
    · exact completedAssistant_error invalid
    · exact absurd later (by simp [pure, Except.pure])
  · obtain raising | ⟨floor, _, unsafeFloor⟩ := bind_eq_error.mp rest
    · obtain ⟨reached, scope, stopped⟩ := foldlM_error raising
      obtain invalid | ⟨_, _, later⟩ := bind_eq_error.mp stopped
      · exact scopeKey_error invalid
      · exact absurd later (by simp [pure, Except.pure])
    · exact safeKey_error unsafeFloor

/-- Whether some effect is journaled under a turn key of a session. -/
def Journaled (tables : SessionTables) (sessionId : String)
    (turnKey : Nat) : Prop :=
  ∃ identity row,
    tables.effects.get identity = some row ∧ identity.scope = turnScope sessionId turnKey

/-- The scopes of a session are those of its journal rows. -/
theorem mem_sessionScopes_iff :
    scope ∈ sessionScopes tables sessionId ↔
      inScope sessionId scope = true ∧
        ∃ identity row, tables.effects.get identity = some row ∧ identity.scope = scope := by
  unfold sessionScopes OrderedMap.keys
  rw [List.mem_filter, List.mem_map, and_comm]
  refine and_congr_right fun _ => ⟨?_, ?_⟩
  · rintro ⟨identity, member, isScope⟩
    obtain ⟨⟨address, row⟩, entry, rfl⟩ := List.mem_map.mp member
    exact ⟨address, row, (OrderedMap.mem_entries_iff ..).mp entry, isScope⟩
  · rintro ⟨identity, row, found, isScope⟩
    exact ⟨identity,
      List.mem_map.mpr ⟨(identity, row), (OrderedMap.mem_entries_iff ..).mpr found, rfl⟩,
      isScope⟩

/-- A journaled key is at most the floor. -/
theorem le_legacyFloor
    {floor turnKey : Nat} (valid : legacyFloor tables sessionId = .ok floor)
    (journaled : Journaled tables sessionId turnKey) :
    turnKey ≤ floor := by
  obtain ⟨identity, row, found, isScope⟩ := journaled
  obtain ⟨completed, _, rest⟩ := bind_eq_ok.mp valid
  obtain ⟨reached, folded, isFloor⟩ := bind_eq_ok.mp rest
  obtain ⟨key, read, bound⟩ := (scopeKey_of_foldlM folded).2 _
    (mem_sessionScopes_iff.mpr ⟨inScope_turnScope, identity, row, found, isScope⟩)
  have same := scopeKey_turnScope read
  have reachedIs := (safeKey_eq_ok_iff.mp isFloor).1
  omega

theorem legacyFloor_safe {floor : Nat} (valid : legacyFloor tables sessionId = .ok floor) :
    (floor : Int) ≤ maxSafeInteger := by
  obtain ⟨completed, _, rest⟩ := bind_eq_ok.mp valid
  obtain ⟨reached, _, isFloor⟩ := bind_eq_ok.mp rest
  obtain ⟨isKey, safe⟩ := safeKey_eq_ok_iff.mp isFloor
  omega

/-- With more messages and no fewer effects, valid evidence was valid before. -/
theorem legacyFloor_of_later
    {messages : List MessageRow} (appended : later.messages = tables.messages ++ messages)
    (kept : ∀ identity row,
      inScope sessionId identity.scope = true →
        tables.effects.get identity = some row →
          ∃ laterRow, later.effects.get identity = some laterRow)
    {laterFloor : Nat}
    (valid : legacyFloor later sessionId = .ok laterFloor) :
    ∃ floor, legacyFloor tables sessionId = .ok floor := by
  obtain ⟨laterCompleted, counted, rest⟩ := bind_eq_ok.mp valid
  obtain ⟨reached, folded, isFloor⟩ := bind_eq_ok.mp rest
  have split : assistantMessages later sessionId =
      assistantMessages tables sessionId ++
        messages.filter fun row =>
          decide (row.sessionId = sessionId ∧ row.role = "assistant") := by
    rw [assistantMessages, appended, List.filter_append]
    rfl
  rw [split, List.foldlM_append] at counted
  obtain ⟨completed, countedFirst, countedRest⟩ := bind_eq_ok.mp counted
  have fewer := le_of_foldlM (fun _ _ _ => countCompleted_le) countedRest
  have more := (scopeKey_of_foldlM folded).1
  obtain ⟨isKey, safe⟩ := safeKey_eq_ok_iff.mp isFloor
  obtain ⟨floor, foldedFirst, floorSafe⟩ :=
    @foldlM_raiseFloor_of_scopeKey sessionId (sessionScopes tables sessionId) completed
      (by omega) fun scope member => by
        obtain ⟨inside, identity, row, found, isScope⟩ := mem_sessionScopes_iff.mp member
        obtain ⟨laterRow, foundLater⟩ := kept identity row (isScope ▸ inside) found
        obtain ⟨key, read, _⟩ := (scopeKey_of_foldlM folded).2 scope
          (mem_sessionScopes_iff.mpr ⟨inside, identity, laterRow, foundLater, isScope⟩)
        exact ⟨key, read⟩
  refine ⟨floor, ?_⟩
  rw [legacyFloor, bind_eq_ok]
  refine ⟨completed, countedFirst, bind_eq_ok.mpr ⟨floor, foldedFirst, ?_⟩⟩
  exact safeKey_eq_ok_iff.mpr ⟨rfl, floorSafe⟩

end Floor

end Relavium.Store
