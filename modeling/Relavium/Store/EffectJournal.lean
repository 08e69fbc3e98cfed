import Relavium.Library.JsonStringify
import Relavium.Library.OrderedMap

/-!
# The effect journal

The `run_effects` table: at most one row for an effect identity.  A row is
written before the effect leaves the process and settled after it; only a
prepared row is settled or released.  Every operation is one immediate
transaction.
-/

namespace Relavium.Store

open Library

/-- `EFFECT_STATES`. -/
inductive EffectState
  | prepared
  | dispatched
  | committed
  | ambiguous
  | needsAttention
  deriving DecidableEq

/-- `EFFECT_TIERS`. -/
inductive EffectTier
  | one
  | two
  | three

structure EffectIdentity where
  scope : String
  slot : Int
  toolId : String
  deriving DecidableEq

/-- A `run_effects` row, without the columns of its identity. -/
structure EffectRow where
  id : String
  tier : EffectTier
  state : EffectState
  argsDigest : String
  resultJson : Option JsString

/-- The table, unique on the identity. -/
abbrev EffectJournal := OrderedMap EffectIdentity EffectRow

inductive EffectError
  /-- `EffectConflictError`. -/
  | conflict (identity : EffectIdentity)
  /-- `EffectTransitionError`. -/
  | transition (identity : EffectIdentity) (state : EffectState) (changed : Nat)
  /-- The result has no JSON text. -/
  | unserializable
  deriving DecidableEq

inductive EffectPrepareVerdict
  | proceed
  | replay (result : JsValue)

/-- `identity.scope.startsWith('session:')`. -/
def EffectIdentity.ofSession (identity : EffectIdentity) : Bool :=
  "session:".toList.isPrefixOf identity.scope.toList

/-- The result that stands in for a call under a held row: a run's own committed
one, for the same arguments. -/
def retainedResult (identity : EffectIdentity) (held : EffectRow)
    (argsDigest : String) : Option JsValue :=
  if identity.ofSession = false ∧ held.state = .committed ∧
      held.argsDigest = argsDigest then
    held.resultJson.bind JsonParse.parse
  else none

/-- What a settle does to `result_json`: a session keeps no result, and a settle
without a result leaves the column alone. -/
def resultUpdate (exoticText : Option JsString) (identity : EffectIdentity)
    (result : Option JsValue) : Option (Option JsString → Option JsString) :=
  if identity.ofSession then some fun _ => none
  else
    match result with
    | none => some id
    | some result =>
      (JsonText.write exoticText result).map fun text _ => some text

namespace EffectJournal

/-- `prepare`. -/
def prepare
    (journal : EffectJournal) (identity : EffectIdentity) (id : String) (tier : EffectTier)
    (argsDigest : String) :
    Except EffectError EffectPrepareVerdict × EffectJournal :=
  match journal.get identity with
  | some held =>
    match retainedResult identity held argsDigest with
    | some result => (.ok (.replay result), journal)
    | none => (.error (.conflict identity), journal)
  | none =>
    (.ok .proceed,
      journal.set identity
        { id, tier, state := .prepared, argsDigest, resultJson := none })

/-- `settle`: only out of `prepared`, and anything else is reported. -/
def settle
    (exoticText : Option JsString) (journal : EffectJournal) (identity : EffectIdentity)
    (state : EffectState)
    (result : Option JsValue) : Except EffectError Unit × EffectJournal :=
  match resultUpdate exoticText identity result with
  | none => (.error .unserializable, journal)
  | some update =>
    match journal.get identity with
    | some row =>
      if row.state = .prepared then
        (.ok (),
          journal.set identity
            { row with state, resultJson := update row.resultJson })
      else (.error (.transition identity state 0), journal)
    | none => (.error (.transition identity state 0), journal)

/-- `discard`: releases a prepared claim. -/
def discard (journal : EffectJournal)
    (identity : EffectIdentity) : EffectJournal :=
  match journal.get identity with
  | some row => if row.state = .prepared then journal.delete identity else journal
  | none => journal

/-- `flagForAttention`. -/
def flagForAttention (journal : EffectJournal)
    (identity : EffectIdentity) : EffectJournal :=
  match journal.get identity with
  | some row => journal.set identity { row with state := .needsAttention }
  | none => journal

end EffectJournal

/-! ## What the operations keep -/

/-- A later row that records the same effect: at most it was flagged. -/
def Retained (row later : EffectRow) : Prop :=
  later = row ∨ later = { row with state := .needsAttention }

/-- Every row that is past `prepared` is still there. -/
def KeepsSettled (journal later : EffectJournal) : Prop :=
  ∀ identity row,
    journal.get identity = some row → row.state ≠ .prepared →
      ∃ kept, later.get identity = some kept ∧ Retained row kept

section Operations

variable
  {exoticText : Option JsString}
  {journal : EffectJournal}
  {identity other : EffectIdentity}

theorem KeepsSettled.refl (journal : EffectJournal) :
    KeepsSettled journal journal :=
  fun _ row found _ => ⟨row, found, Or.inl rfl⟩

/-- Writing under an identity without a settled row keeps the settled rows. -/
theorem keepsSettled_set
    {row : EffectRow}
    (unsettled : ∀ held, journal.get identity = some held → held.state = .prepared) :
    KeepsSettled journal (journal.set identity row) := by
  intro other settled found past
  have different : other ≠ identity := by
    rintro rfl
    exact past (unsettled settled found)
  exact ⟨settled, by rw [OrderedMap.get_set_of_ne _ different, found], Or.inl rfl⟩

variable
  {id : String}
  {tier : EffectTier}
  {later : EffectJournal}
  {argsDigest : String}

/-- A prepare that proceeds has found no row and written a prepared one. -/
theorem prepare_proceed
    (prepared : journal.prepare identity id tier argsDigest = (.ok .proceed, later)) :
    journal.get identity = none ∧
      later = journal.set identity
        { id, tier, state := .prepared, argsDigest, resultJson := none } := by
  unfold EffectJournal.prepare at prepared
  split at prepared
  · next held found =>
    split at prepared
    · exact absurd (Prod.mk.inj prepared).1 (by simp)
    · exact absurd (Prod.mk.inj prepared).1 (by simp)
  · next absent => exact ⟨absent, (Prod.mk.inj prepared).2.symm⟩

/-- A prepare that does not proceed writes nothing. -/
theorem prepare_refused
    {answer : Except EffectError EffectPrepareVerdict}
    (prepared : journal.prepare identity id tier argsDigest = (answer, later))
    (notProceed : answer ≠ .ok .proceed) :
    later = journal := by
  unfold EffectJournal.prepare at prepared
  split at prepared
  · split at prepared
    · exact (Prod.mk.inj prepared).2.symm
    · exact (Prod.mk.inj prepared).2.symm
  · exact absurd (Prod.mk.inj prepared).1.symm notProceed

variable
  {state : EffectState}
  {result : Option JsValue}

/-- Settling writes the outcome over a prepared row. -/
theorem settle_ok (settled : journal.settle exoticText identity state result = (.ok (), later)) :
    ∃ row update,
      journal.get identity = some row ∧
        row.state = .prepared ∧
        resultUpdate exoticText identity result = some update ∧
        later = journal.set identity
          { row with state, resultJson := update row.resultJson } := by
  unfold EffectJournal.settle at settled
  split at settled
  · exact absurd (Prod.mk.inj settled).1 (by simp)
  next update written =>
    split at settled
    · next row found =>
      split at settled
      · next prepared =>
        exact ⟨row, update, found, prepared, written, (Prod.mk.inj settled).2.symm⟩
      · exact absurd (Prod.mk.inj settled).1 (by simp)
    · exact absurd (Prod.mk.inj settled).1 (by simp)

/-- A settle that is refused leaves the journal alone. -/
theorem settle_error {refusal : EffectError}
    (settled : journal.settle exoticText identity state result = (.error refusal, later)) :
    later = journal := by
  unfold EffectJournal.settle at settled
  split at settled
  · exact (Prod.mk.inj settled).2.symm
  split at settled
  · split at settled
    · exact absurd (Prod.mk.inj settled).1 (by simp)
    · exact (Prod.mk.inj settled).2.symm
  · exact (Prod.mk.inj settled).2.symm

/-- A discard leaves the journal alone, or drops a prepared row. -/
theorem discard_cases (journal : EffectJournal) (identity : EffectIdentity) :
    journal.discard identity = journal ∨
      journal.discard identity = journal.delete identity ∧
        ∃ row, journal.get identity = some row ∧ row.state = .prepared := by
  unfold EffectJournal.discard
  split
  · next row found =>
    split
    · next prepared => exact Or.inr ⟨rfl, row, found, prepared⟩
    · exact Or.inl rfl
  · exact Or.inl rfl

/-- Settling keeps every settled row. -/
theorem settle_keepsSettled {result : Option JsValue} :
    KeepsSettled journal (journal.settle exoticText identity state result).2 := by
  cases settled : journal.settle exoticText identity state result with
  | mk answer later =>
    cases answer with
    | error refusal =>
      rw [settle_error settled]
      exact .refl journal
    | ok _ =>
      obtain ⟨row, _, found, prepared, _, rfl⟩ := settle_ok settled
      exact keepsSettled_set fun held same =>
        Option.some.inj (found.symm.trans same) ▸ prepared

/-- Discarding removes prepared rows only. -/
theorem discard_keepsSettled :
    KeepsSettled journal (journal.discard identity) := by
  obtain same | ⟨dropped, row, found, prepared⟩ := discard_cases journal identity
  · rw [same]
    exact .refl journal
  · rw [dropped]
    intro other settled foundOther past
    have different : other ≠ identity := by
      rintro rfl
      exact past (Option.some.inj (found.symm.trans foundOther) ▸ prepared)
    exact ⟨settled, by rw [OrderedMap.get_delete_of_ne _ different, foundOther],
      Or.inl rfl⟩

/-! ## Which identities have a row -/

theorem get_settle_eq_none_iff {result : Option JsValue} :
    (journal.settle exoticText identity state result).2.get other = none ↔
      journal.get other = none := by
  cases settled : journal.settle exoticText identity state result with
  | mk answer later =>
    cases answer with
    | error refusal => rw [settle_error settled]
    | ok _ =>
      obtain ⟨row, _, found, _, _, rfl⟩ := settle_ok settled
      by_cases same : other = identity
      · subst same
        simp [found]
      · rw [OrderedMap.get_set_of_ne _ same]

theorem get_prepare_of_ne (different : other ≠ identity) :
    (journal.prepare identity id tier argsDigest).2.get other = journal.get other := by
  unfold EffectJournal.prepare
  split
  · split <;> rfl
  · exact OrderedMap.get_set_of_ne _ different _

theorem get_settle_of_ne (different : other ≠ identity) :
    (journal.settle exoticText identity state result).2.get other =
      journal.get other := by
  cases settled : journal.settle exoticText identity state result with
  | mk answer later =>
    cases answer with
    | error refusal => rw [settle_error settled]
    | ok _ =>
      obtain ⟨row, _, _, _, _, rfl⟩ := settle_ok settled
      exact OrderedMap.get_set_of_ne _ different _

theorem get_discard_of_ne (different : other ≠ identity) :
    (journal.discard identity).get other = journal.get other := by
  obtain same | ⟨dropped, _⟩ := discard_cases journal identity
  · rw [same]
  · rw [dropped, OrderedMap.get_delete_of_ne _ different]

/-- Flagging keeps every row but its state. -/
theorem get_flagForAttention {row : EffectRow} (found : journal.get other = some row) :
    ∃ kept, (journal.flagForAttention identity).get other = some kept ∧
      Retained row kept := by
  unfold EffectJournal.flagForAttention
  split
  · next flagged held =>
    by_cases same : other = identity
    · subst same
      rw [OrderedMap.get_set_self]
      exact ⟨_, rfl, Or.inr (Option.some.inj (held.symm.trans found) ▸ rfl)⟩
    · exact ⟨row, by rw [OrderedMap.get_set_of_ne _ same, found], Or.inl rfl⟩
  · exact ⟨row, found, Or.inl rfl⟩

theorem flagForAttention_keepsSettled :
    KeepsSettled journal (journal.flagForAttention identity) :=
  fun _ _ found _ => get_flagForAttention found

theorem get_flagForAttention_eq_none_iff :
    (journal.flagForAttention identity).get other = none ↔
      journal.get other = none := by
  unfold EffectJournal.flagForAttention
  split
  · next row found =>
    by_cases same : other = identity
    · subst same
      simp [found]
    · rw [OrderedMap.get_set_of_ne _ same]
  · exact Iff.rfl

end Operations

end Relavium.Store
