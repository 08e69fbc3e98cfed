import Relavium.Budget.AllowanceInvariant

/-!
# Conservation of dispatch allowances

Effects never readmit a barred token and never change what a token was granted.
The charges read off the history of calls are those recorded in the debits, so
an admitted estimate always fits in what the grant has left.
-/

namespace Relavium.Budget

open Library
open DispatchAllowanceBook

/-! ## What becomes of an owner -/

namespace Owner

/-- An owner keeps its grant and never becomes admissible again. -/
structure Ages (owner later : Owner) : Prop where
  nodeId : later.nodeId = owner.nodeId
  initial : later.initial = owner.initial
  closed : owner.closed = true → later.closed = true
  exhausted : owner.exhausted = true → later.exhausted = true

theorem Ages.refl (owner : Owner) : owner.Ages owner :=
  ⟨rfl, rfl, id, id⟩

theorem Weakens.ages {owner weaker : Owner} (weakens : owner.Weakens weaker) :
    owner.Ages weaker where
  nodeId := by rw [weakens.rest]
  initial := by rw [weakens.rest]
  closed := weakens.closed
  exhausted := weakens.exhausted

/-- Reconciliation touches neither the grant nor a bar, whatever the amounts. -/
theorem ages_reconcile (owner : Owner) (estimate : Option Int) (closing : Closing) :
    owner.Ages (owner.reconcile estimate closing) := by
  unfold reconcile
  constructor <;> grind

end Owner

theorem Finishes.ages
    {book : DispatchAllowanceBook} {debit : Debit} {closing : Closing} {owner after : Owner}
    (finishes : Finishes book debit closing owner after) :
    owner.Ages after := by
  cases finishes with
  | inactive => exact ⟨rfl, rfl, id, id⟩
  | revoked => exact ⟨rfl, rfl, fun _ => rfl, id⟩
  | reconciled =>
    have ages := owner.ages_reconcile debit.estimate closing
    exact ⟨ages.nodeId, ages.initial, ages.closed, ages.exhausted⟩

section Owners

variable {book next : DispatchAllowanceBook} {call : BookCall}

/-- Closing the prior owner of a node only ages owners. -/
theorem closePrior_owner
    (nodeId : String) {token : Nat} {owner : Owner}
    (present : book.tokens.get token = some owner) :
    ∃ later, (book.closePrior nodeId).tokens.get token = some later ∧
      owner.Ages later := by
  unfold closePrior
  split
  · exact ⟨owner, present, .refl owner⟩
  · rename_i prior _
    cases old : book.tokens.get prior with
    | none =>
      rw [modifyOwner_of_none old]
      exact ⟨owner, present, .refl owner⟩
    | some replaced =>
      rw [get_modifyOwner old]
      split
      · rename_i same
        obtain rfl := Option.some.inj (old.symm.trans (same ▸ present))
        exact ⟨_, rfl, replaced.weakens_close.ages⟩
      · exact ⟨owner, present, .refl owner⟩

/-- Closing the prior owner of a node changes tokens only. -/
theorem closePrior_eq (book : DispatchAllowanceBook) (nodeId : String) :
    book.closePrior nodeId =
      { book with tokens := (book.closePrior nodeId).tokens } := by
  unfold closePrior
  split
  · rfl
  · exact modifyOwner_eq _ _ _

/-- Every call leaves each owner in the book, aged at most. -/
theorem Effect.owner
    (sound : Sound book) (taken : Effect book call next) {token : Nat} {owner : Owner}
    (present : book.tokens.get token = some owner) :
    ∃ later, next.tokens.get token = some later ∧ owner.Ages later := by
  cases taken with
  | kept _ _ tables =>
    rw [tables]
    exact ⟨owner, present, .refl owner⟩
  | weakened changed old weaker _ _ isOld weakens tokens =>
    rw [tokens]
    split
    · rename_i same
      cases isOld.symm.trans (same ▸ present)
      exact ⟨weaker, rfl, weakens.ages⟩
    · exact ⟨owner, present, .refl owner⟩
  | installed nodeId dispatchId amount rest _ _ _ _ tables =>
    subst tables
    obtain ⟨later, isLater, ages⟩ :=
      @closePrior_owner { book with suspended := rest } nodeId token owner
        present
    refine ⟨later, ?_, ages⟩
    have issued := (sound.owner token owner present).issued
    rw [closePrior_eq]
    simp only [install]
    rw [OrderedMap.get_set_of_ne _ (Nat.ne_of_lt issued)]
    exact isLater
  | admitted changed old estimate _ _ current _ _ _ tables =>
    subst tables
    simp only [admitNew, OrderedMap.get_set]
    split
    · rename_i same
      have isOld := ((book.current_eq_some_iff changed old).mp current).1
      cases isOld.symm.trans (same ▸ present)
      exact ⟨_, rfl, ⟨rfl, rfl, id, id⟩⟩
    · exact ⟨owner, present, .refl owner⟩
  | accepted _ _ _ _ _ _ _ _ tables =>
    subst tables
    exact ⟨owner, present, .refl owner⟩
  | finished id debit closing old after _ _ _ _ isOld finishes tokens =>
    rw [tokens]
    split
    · rename_i same
      cases isOld.symm.trans (same ▸ present)
      exact ⟨after, rfl, finishes.ages⟩
    · exact ⟨owner, present, .refl owner⟩

/-- A node's newest token is replaced by newer tokens only. -/
theorem Effect.newest (taken : Effect book call next) (nodeId : String) :
    next.owners.get nodeId = book.owners.get nodeId ∨
      next.owners.get nodeId = some book.nextToken := by
  cases taken with
  | kept _ _ tables | weakened _ _ _ _ _ _ _ _ tables => exact Or.inl (by rw [tables])
  | installed replaced dispatchId amount rest _ _ _ _ tables =>
    subst tables
    rw [closePrior_eq]
    simp only [install, OrderedMap.get_set]
    split
    · exact Or.inr rfl
    · exact Or.inl rfl
  | admitted _ _ _ _ _ _ _ _ _ tables => exact Or.inl (by rw [tables]; rfl)
  | accepted _ _ _ _ _ _ _ _ tables | finished _ _ _ _ _ _ _ _ _ _ _ _ tables =>
    exact Or.inl (by rw [tables])

end Owners

/-! ## Barred tokens -/

/-- A token that is closed, exhausted, or replaced by a newer dispatch of its
node. -/
def Barred (book : DispatchAllowanceBook) (token : Nat) : Prop :=
  ∃ owner, book.tokens.get token = some owner ∧
    (owner.closed = true ∨ owner.exhausted = true ∨
      book.owners.get owner.nodeId ≠ some token)

variable
  {book next : DispatchAllowanceBook}
  {call : BookCall}

/-- A token that is barred stays barred. -/
theorem Effect.barred
    (sound : Sound book) (taken : Effect book call next) {token : Nat}
    (barred : Barred book token) :
    Barred next token := by
  obtain ⟨owner, present, bar⟩ := barred
  obtain ⟨later, isLater, ages⟩ := taken.owner sound present
  refine ⟨later, isLater, ?_⟩
  rcases bar with isClosed | isExhausted | replaced
  · exact Or.inl (ages.closed isClosed)
  · exact Or.inr (Or.inl (ages.exhausted isExhausted))
  · refine Or.inr (Or.inr ?_)
    rw [ages.nodeId]
    rcases taken.newest owner.nodeId with same | newer
    · rwa [same]
    · rw [newer]
      intro equal
      have issued := (sound.owner token owner present).issued
      exact absurd (Option.some.inj equal) (Nat.ne_of_gt issued)

/-- A barred token is given no debit. -/
theorem Effect.not_admitted_of_barred
    (taken : Effect book call next) {token : Nat} (barred : Barred book token) {debit : Nat}
    {estimate : Option Int} :
    admission call ≠ some (debit, token, estimate) := by
  intro isAdmission
  cases taken with
  | kept none | weakened _ _ _ none | installed _ _ _ _ none
  | accepted _ _ _ none | finished _ _ _ _ _ none =>
    simp [none] at isAdmission
  | admitted admittedToken owner _ isThis _ current admitting =>
    obtain ⟨-, rfl, -⟩ : _ ∧ admittedToken = token ∧ _ := by
      simpa [isThis] using isAdmission
    obtain ⟨present, isOpen, newest⟩ :=
      (book.current_eq_some_iff admittedToken owner).mp current
    obtain ⟨barredOwner, isBarred, bar⟩ := barred
    cases present.symm.trans isBarred
    simp [isOpen, admitting, newest] at bar

/-! ## The history and the debits -/

/-- The debits of a book record the admissions and the first closings of its
history. -/
structure Records (history : List BookCall)
    (book : DispatchAllowanceBook) : Prop where
  closings : ∀ id, firstClosing history id = (book.debits.get id).bind (·.state.closing)
  admitted : admissions history =
    book.debits.entries.map fun entry =>
      (entry.1, entry.2.token, entry.2.estimate)

namespace Records

variable {history : List BookCall} {book next : DispatchAllowanceBook}
  {call : BookCall}

theorem fresh : Records [] DispatchAllowanceBook.fresh where
  closings := by simp [firstClosing, DispatchAllowanceBook.fresh]
  admitted := rfl

/-- A call that admits nothing and closes closed debits only keeps the records. -/
theorem keep (records : Records history book) (noAdmission : admission call = none)
    (closings : ∀ id closing, closingOn id call = some closing →
      ∃ debit, book.debits.get id = some debit ∧
        debit.state.closing.isSome = true)
    (debits : next.debits = book.debits) :
    Records (history ++ [call]) next where
  closings := by
    intro id
    rw [firstClosing_snoc, records.closings, debits]
    cases asked : closingOn id call with
    | none => simp
    | some closing =>
      obtain ⟨debit, found, closed⟩ := closings id closing asked
      obtain ⟨earlier, isEarlier⟩ := Option.isSome_iff_exists.mp closed
      simp [found, isEarlier]
  admitted := by
    rw [admissions_snoc, noAdmission, debits, records.admitted]
    simp

/-- A debit that moves to another state is recorded with its closing, if it has one now. -/
theorem move
    (records : Records history book) {id : Nat} {debit : Debit} {state : DebitState}
    (noAdmission : admission call = none) (found : book.debits.get id = some debit)
    (moved : debit.state.closing = none ∧
        closingCall call = state.closing.map (id, ·) ∨
      debit.state.closing = state.closing ∧ closingCall call = none)
    (debits : next.debits = book.debits.set id { debit with state }) :
    Records (history ++ [call]) next where
  closings := by
    intro other
    rw [firstClosing_snoc, records.closings, debits, OrderedMap.get_set]
    unfold closingOn
    split
    · rename_i same
      subst same
      rcases moved with ⟨untouched, asked⟩ | ⟨unchanged, silent⟩
      · cases closing : state.closing <;> simp [found, untouched, asked, closing]
      · simp [found, unchanged, silent]
    · rename_i different
      rcases moved with ⟨-, asked⟩ | ⟨-, silent⟩
      · cases closing : state.closing <;>
          simp [asked, closing, Ne.symm different]
      · simp [silent]
  admitted := by
    rw [admissions_snoc, noAdmission, debits, records.admitted,
      Option.toList_none, List.append_nil]
    refine (OrderedMap.map_entries_set_of_some found ?_).symm
    rfl

/-- A new debit is recorded as admitted and open. -/
theorem admitNew
    (records : Records history book) {token : Nat} {estimate : Option Int}
    (isAdmission : admission call = some (book.nextDebit, token, estimate))
    (noClosing : closingCall call = none) (absent : book.debits.get book.nextDebit = none)
    (debits : next.debits =
      book.debits.set book.nextDebit { token, estimate, state := .admitted }) :
    Records (history ++ [call]) next where
  closings := by
    intro other
    rw [firstClosing_snoc, records.closings, debits, OrderedMap.get_set]
    simp only [closingOn, noClosing, Option.bind_none, Option.or_none]
    split
    · next same => simp [same, absent, DebitState.closing]
    · rfl
  admitted := by
    rw [admissions_snoc, isAdmission, debits, records.admitted,
      OrderedMap.entries_set_of_none absent]
    simp

/-- Every effect keeps the debits in step with the history. -/
theorem effect
    (records : Records history book) (sound : Sound book) (taken : Effect book call next) :
    Records (history ++ [call]) next := by
  cases taken with
  | kept noAdmission closings tables =>
    exact records.keep noAdmission closings (by rw [tables])
  | weakened token owner weaker noAdmission noClosing _ _ _ tables =>
    exact records.keep noAdmission (by simp [closingOn, noClosing])
      (by rw [tables])
  | installed nodeId dispatchId amount rest noAdmission noClosing _ _ tables =>
    refine records.keep noAdmission (by simp [closingOn, noClosing]) ?_
    rw [tables, closePrior_eq]
    rfl
  | admitted token owner estimate isAdmission noClosing _ _ _ _ tables =>
    refine records.admitNew isAdmission noClosing ?_ (by rw [tables]; rfl)
    by_contra taken
    obtain ⟨debit, found⟩ := Option.ne_none_iff_exists'.mp taken
    exact Nat.lt_irrefl _ (sound.debit _ debit found).issued
  | accepted id debit closing noAdmission isClosing _ found state tables =>
    have debits : next.debits =
        book.debits.set id { debit with state := .finishing closing } := by
      rw [tables]
    have untouched : debit.state.closing = none := by rw [state]; rfl
    refine records.move noAdmission found ?_ debits
    exact Or.inl ⟨untouched, isClosing⟩
  | finished id debit closing owner after noAdmission origin _ found _ _ _
      tables =>
      have debits : next.debits =
          book.debits.set id { debit with state := .finished closing } := by
        rw [tables]
      refine records.move noAdmission found ?_ debits
      rcases origin with ⟨state, isClosing, -⟩ | ⟨state, noClosing, -⟩
      · exact Or.inl ⟨by rw [state]; rfl, isClosing⟩
      · exact Or.inr ⟨by rw [state]; rfl, noClosing⟩

end Records

/-! ## Runs -/

/-- One call takes a book to the next. -/
abbrev BookStep :
    DispatchAllowanceBook → BookCall → DispatchAllowanceBook → Prop :=
  Answers perform

theorem BookStep.effect (sound : Sound book) (step : BookStep book call next) :
    Effect book call next := by
  obtain ⟨asked, outcome⟩ := call
  have answered : book.perform asked = (outcome, next) := step
  have taken := effect_perform sound asked
  rwa [answered] at taken

section Runs

variable {start book : DispatchAllowanceBook} {history : List BookCall}

theorem sound_of_run (sound : Sound start) (run : Run BookStep start history book) :
    Sound book :=
  run.invariant (fun _ => Sound) sound fun _ _ _ _ _ sound step =>
    sound.effect (step.effect sound)

/-- The debits of a book are those its history admits, each as the history closes it. -/
theorem records_of_run (run : Run BookStep fresh history book) :
    Records history book :=
  run.invariant Records .fresh fun _ _ _ _ earlier records step =>
    have sound := sound_of_run sound_fresh earlier
    records.effect sound (step.effect sound)

/-- From a barred token on, no call of a run admits a debit of it. -/
theorem not_admitted_after_barred
    (sound : Sound start) {token : Nat} (barred : Barred start token)
    (run : Run BookStep start history book) :
    ∀ call ∈ history, ∀ debit estimate,
      admission call ≠ some (debit, token, estimate) := by
  refine (run.invariant
    (fun history book => Barred book token ∧ ∀ call ∈ history,
      ∀ debit estimate, admission call ≠ some (debit, token, estimate))
    ⟨barred, by simp⟩ ?_).2
  rintro history state call next earlier ⟨barred, silent⟩ step
  have taken := step.effect (sound_of_run sound earlier)
  refine ⟨taken.barred (sound_of_run sound earlier) barred, ?_⟩
  intro other member
  rcases List.mem_append.mp member with old | new
  · exact silent other old
  · obtain rfl := List.mem_singleton.mp new
    intro debit estimate
    exact taken.not_admitted_of_barred barred

/-- The amount an owner starts with never changes. -/
theorem initial_of_run
    (sound : Sound start) {token : Nat} {owner : Owner}
    (present : start.tokens.get token = some owner) (run : Run BookStep start history book) :
    ∃ later, book.tokens.get token = some later ∧
      later.initial = owner.initial := by
  refine run.invariant
    (fun _ book => ∃ later, book.tokens.get token = some later ∧
      later.initial = owner.initial) ⟨owner, present, rfl⟩ ?_
  rintro history state call next earlier ⟨before, isBefore, initial⟩ step
  have sound := sound_of_run sound earlier
  obtain ⟨later, isLater, ages⟩ := (step.effect sound).owner sound isBefore
  exact ⟨later, isLater, ages.initial.trans initial⟩

end Runs

/-- What a history charges to a token is the sum over its closed debits. -/
theorem Records.chargesOn_eq
    {history : List BookCall} {book : DispatchAllowanceBook} (records : Records history book)
    (token : Nat) :
    chargesOn history token = book.debits.total fun _ debit =>
      if debit.token = token then
        (debit.state.closing.map (·.charge debit.estimate)).getD 0
      else 0 := by
  unfold chargesOn OrderedMap.total
  rw [records.admitted, List.map_map]
  refine congrArg List.sum (List.map_congr_left ?_)
  rintro ⟨id, debit⟩ member
  have found := (book.debits.mem_entries_iff id debit).mp member
  simp [records.closings, found]

/-- An admission fits what its owner was issued, after everything charged before. -/
theorem Effect.charges_le
    {history : List BookCall} (records : Records history book) (sound : Sound book)
    (taken : Effect book call next) {token debit : Nat} {estimate : Option Int}
    (isAdmission : admission call = some (debit, token, estimate)) :
    ∃ owner, book.tokens.get token = some owner ∧
      chargesOn history token + estimate.getD 0 ≤ owner.initial := by
  cases taken with
  | kept none | weakened _ _ _ none | installed _ _ _ _ none
  | accepted _ _ _ none | finished _ _ _ _ _ none =>
    simp [none] at isAdmission
  | admitted admittedToken owner amount isThis _ current admitting free
      affordable =>
      obtain ⟨-, rfl, rfl⟩ : _ ∧ admittedToken = token ∧ amount = estimate := by
        simpa [isThis] using isAdmission
      obtain ⟨present, isOpen, -⟩ :=
        (book.current_eq_some_iff admittedToken owner).mp current
      refine ⟨owner, present, ?_⟩
      have ownerSound := sound.owner admittedToken owner present
      have ledger := ownerSound.ledger isOpen admitting
      have charges : chargesOn history admittedToken =
          book.debits.total (held admittedToken) := by
        rw [records.chargesOn_eq]
        refine OrderedMap.total_congr ?_
        intro id other found
        unfold held
        split
        · rename_i onToken
          have finished := sound.finished_of_free present free found onToken
          cases state : other.state with
          | admitted | finishing =>
            simp [state, DebitState.unfinished] at finished
          | finished closing => rfl
        · rfl
      have within : amount.getD 0 ≤ owner.remaining := by
        cases amount with
        | none => exact ownerSound.remainingNonneg
        | some amount => exact (affordable amount rfl).2
      omega

/-- In every run of a book: owners stay within their grant, one debit of a
token is unfinished at most, a barred token is never admitted again, and an
admitted estimate fits in the grant beside the charges finalised before. -/
theorem allowance_conserved
    {history : List BookCall} {book : DispatchAllowanceBook}
    (run : Run BookStep fresh history book) :
    (∀ token owner, book.tokens.get token = some owner →
      0 ≤ owner.remaining ∧ owner.remaining ≤ owner.initial) ∧
    (∀ first second firstDebit secondDebit,
      book.debits.get first = some firstDebit →
      book.debits.get second = some secondDebit →
      firstDebit.token = secondDebit.token →
      firstDebit.state.unfinished = true →
      secondDebit.state.unfinished = true →
      first = second) ∧
    (∀ after later token,
      Barred book token →
      Run BookStep book after later →
      ∀ estimate debit, (.acquire token estimate, .admitted debit) ∉ after) ∧
    (∀ before after token estimate debit,
      history =
        before ++ (.acquire token estimate, .admitted debit) :: after →
      ∃ owner, book.tokens.get token = some owner ∧
        chargesOn before token + (estimate.bind Quantity.nonNegativeSafe).getD 0 ≤
          owner.initial) := by
  have sound := sound_of_run sound_fresh run
  refine ⟨?_, sound.oneUnfinished, ?_, ?_⟩
  · intro token owner present
    have ownerSound := sound.owner token owner present
    exact ⟨ownerSound.remainingNonneg, ownerSound.remainingLe⟩
  · intro after later token barred rest estimate debit member
    exact not_admitted_after_barred sound barred rest _ member debit
      (estimate.bind Quantity.nonNegativeSafe) rfl
  · rintro before after token estimate debit rfl
    obtain ⟨middle, reached, rest⟩ := run.split
    rw [← List.singleton_append] at rest
    obtain ⟨next, first, rest⟩ := rest.split
    have middleSound := sound_of_run sound_fresh reached
    have taken := (Run.step_of_singleton first).effect middleSound
    obtain ⟨owner, present, fits⟩ := taken.charges_le (records_of_run reached) middleSound rfl
    obtain ⟨aged, isAged, ages⟩ := taken.owner middleSound present
    obtain ⟨later, isLater, initial⟩ := initial_of_run (middleSound.effect taken) isAged rest
    refine ⟨later, isLater, ?_⟩
    rw [initial, ages.initial]
    exact fits

/-- A tranche of 100 is spent by two debits, with a settlement that asks the
host while the first debit still holds the slot. -/
def twoDebits : List AllowanceCall :=
  [.activate "writer" (.integer 1) (.integer 100), .answer (some true),
    .acquire 0 (some (.integer 60)), .settle 0 (.integer 45),
    .acquire 0 (some (.integer 10)), .answer (some true),
    .acquire 0 (some (.integer 55)), .retain 1, .answer (some true),
    .settle 1 (.integer 3), .acquire 0 (some (.integer 0))]

theorem allowance_conserved_two_debits :
    (replay perform fresh twoDebits).1.map Prod.snd =
        [.asks, .issued 0, .admitted 0, .asks, .refused .inFlight, .done,
          .admitted 1, .asks, .done, .done, .refused .exhausted] ∧
      ∃ owner, (replay perform fresh twoDebits).2.tokens.get 0 = some owner ∧
        chargesOn ((replay perform fresh twoDebits).1.take 6) 0 + 55 ≤
          owner.initial :=
  ⟨by decide,
    (allowance_conserved (run_replay perform fresh twoDebits)).2.2.2
      ((replay perform fresh twoDebits).1.take 6)
      ((replay perform fresh twoDebits).1.drop 7) 0 (some (.integer 55)) 1
      (by decide)⟩

end Relavium.Budget
