import Relavium.Budget.DispatchAllowance
import Relavium.Library.Trace

/-!
# What one call does to a book

The invariant of the book, a reading of the calls made on it, and the complete
list of the effects that one call can have on a book that meets the invariant.
-/

namespace Relavium.Budget

open Library

/-- A call together with what it answered. -/
abbrev BookCall := AllowanceCall × AllowanceOutcome

namespace Debit

/-- What a debit removes from its owner while it is unfinished. -/
def estimated (debit : Debit) : Int :=
  debit.estimate.getD 0

end Debit

namespace Closing

/-- What a finalised debit costs its owner: the actual of a settlement, the
estimate of a retained debit, nothing for a released one. -/
def charge (closing : Closing) (estimate : Option Int) : Int :=
  if closing.released then 0 else closing.actual.getD (estimate.getD 0)

end Closing

/-! ## Reading a history -/

/-- The debit that an acquisition admits, with its token and its estimate. -/
def admission : BookCall → Option (Nat × Nat × Option Int)
  | (.acquire token estimate, .admitted debit) =>
    some (debit, token, estimate.bind Quantity.nonNegativeSafe)
  | _ => none

/-- A closing call returned, or went on to ask the host. -/
def returned : AllowanceOutcome → Bool
  | .asks => true
  | .done => true
  | _ => false

/-- The closing that a returned closing call asks for. -/
def closingCall : BookCall → Option (Nat × Closing)
  | (.settle debit actual, outcome) =>
    if returned outcome then
      some (debit, { actual := actual.nonNegativeSafe, released := false })
    else none
  | (.release debit, outcome) =>
    if returned outcome then
      some (debit, { actual := none, released := true })
    else none
  | (.retain debit, outcome) =>
    if returned outcome then
      some (debit, { actual := none, released := false })
    else none
  | _ => none

/-- The closing that a call asks for on one debit. -/
def closingOn (debit : Nat) (call : BookCall) : Option Closing :=
  (closingCall call).bind fun closed =>
    if closed.1 = debit then some closed.2 else none

/-- Admitted debits, in order. -/
def admissions (history : List BookCall) : List (Nat × Nat × Option Int) :=
  history.filterMap admission

/-- The first closing of a debit, which is the one that counts. -/
def firstClosing (history : List BookCall) (debit : Nat) : Option Closing :=
  history.findSome? (closingOn debit)

/-- Charges already finalised on a token. -/
def chargesOn (history : List BookCall) (token : Nat) : Int :=
  ((admissions history).map fun admitted =>
    if admitted.2.1 = token then
      ((firstClosing history admitted.1).map (·.charge admitted.2.2)).getD 0
    else 0).sum

theorem admissions_snoc (history : List BookCall) (call : BookCall) :
    admissions (history ++ [call]) =
      admissions history ++ (admission call).toList := by
  unfold admissions
  rw [List.filterMap_append]
  cases admitted : admission call <;> simp [admitted]

theorem firstClosing_snoc (history : List BookCall) (call : BookCall) (debit : Nat) :
    firstClosing (history ++ [call]) debit =
      (firstClosing history debit).or (closingOn debit call) := by
  unfold firstClosing
  rw [List.findSome?_append]
  cases closed : closingOn debit call <;> simp [closed]

/-! ## The invariant -/

namespace DispatchAllowanceBook

/-- What an unfinished debit still holds, or a finished one has cost, on a
token. -/
def held (token : Nat) (_id : Nat) (debit : Debit) : Int :=
  if debit.token = token then
    match debit.state with
    | .finished closing => closing.charge debit.estimate
    | _ => debit.estimated
  else 0

/-- The debits whose reconciliation is suspended at the host predicate. -/
def finishingFrames (suspended : List Suspended) : List Nat :=
  suspended.filterMap fun operation =>
    match operation with
    | .finishing debit => some debit
    | _ => none

/-- Suspended activations of a book are old ones or carry a checked amount. -/
def ActivationsFrom (book next : DispatchAllowanceBook) : Prop :=
  ∀ nodeId dispatchId amount,
    .activating nodeId dispatchId amount ∈ next.suspended →
      .activating nodeId dispatchId amount ∈ book.suspended ∨ 0 ≤ amount

/-- What holds of the record behind a token. -/
structure OwnerSound (book : DispatchAllowanceBook) (token : Nat)
    (owner : Owner) : Prop where
  issued : token < book.nextToken
  remainingNonneg : 0 ≤ owner.remaining
  remainingLe : owner.remaining ≤ owner.initial
  /-- Only the newest dispatch of a node has an open owner. -/
  newest : owner.closed = false → book.owners.get owner.nodeId = some token
  ledger : owner.closed = false → owner.exhausted = false →
    owner.remaining = owner.initial - book.debits.total (held token)

/-- What holds of a debit. -/
structure DebitSound (book : DispatchAllowanceBook) (id : Nat)
    (debit : Debit) : Prop where
  issued : id < book.nextDebit
  estimateNonneg : ∀ estimate, debit.estimate = some estimate → 0 ≤ estimate
  actualNonneg : ∀ closing actual, debit.state.closing = some closing →
    closing.actual = some actual → 0 ≤ actual
  /-- An unfinished debit holds the slot of its owner, and can be refunded. -/
  owned : ∃ owner, book.tokens.get debit.token = some owner ∧
    (debit.state.unfinished = true →
      owner.inFlight = true ∧
        owner.remaining + debit.estimated ≤ owner.initial)

/-- The invariant of a book. -/
structure Sound (book : DispatchAllowanceBook) : Prop where
  owner : ∀ token owner, book.tokens.get token = some owner →
    book.OwnerSound token owner
  debit : ∀ id debit, book.debits.get id = some debit →
    book.DebitSound id debit
  /-- The slot of an owner is held by one debit at most. -/
  oneUnfinished : ∀ first second firstDebit secondDebit,
    book.debits.get first = some firstDebit →
    book.debits.get second = some secondDebit →
    firstDebit.token = secondDebit.token →
    firstDebit.state.unfinished = true →
    secondDebit.state.unfinished = true →
    first = second
  framesNodup : (finishingFrames book.suspended).Nodup
  frames : ∀ id, id ∈ finishingFrames book.suspended ↔
    ∃ debit closing, book.debits.get id = some debit ∧
      debit.state = .finishing closing
  amountNonneg : ∀ nodeId dispatchId amount,
    .activating nodeId dispatchId amount ∈ book.suspended → 0 ≤ amount

/-! ## Reading operations -/

/-- The current owner of a token is open, and its node has no newer one. -/
theorem current_eq_some_iff (book : DispatchAllowanceBook) (token : Nat) (owner : Owner) :
    book.current token = some owner ↔
      book.tokens.get token = some owner ∧ owner.closed = false ∧
        book.owners.get owner.nodeId = some token := by
  unfold current
  cases found : book.tokens.get token with
  | none => simp
  | some present =>
    simp only [Option.ite_none_right_eq_some, Bool.and_eq_true,
      Bool.not_eq_true', beq_iff_eq, Option.some.injEq]
    constructor
    · rintro ⟨open', rfl⟩
      exact ⟨rfl, open'⟩
    · rintro ⟨rfl, open'⟩
      exact ⟨open', rfl⟩

/-- Modifying an owner changes that owner and no other. -/
theorem get_modifyOwner
    {book : DispatchAllowanceBook} {token : Nat} {owner : Owner}
    (present : book.tokens.get token = some owner) (change : Owner → Owner) (other : Nat) :
    (book.modifyOwner token change).tokens.get other =
      if other = token then some (change owner) else book.tokens.get other := by
  simp only [modifyOwner, present, OrderedMap.get_set]

/-- Rewriting an owner leaves everything but the owners' records. -/
theorem modifyOwner_eq (book : DispatchAllowanceBook) (token : Nat) (change : Owner → Owner) :
    book.modifyOwner token change =
      { book with tokens := (book.modifyOwner token change).tokens } := by
  unfold modifyOwner
  cases book.tokens.get token <;> rfl

theorem modifyOwner_of_none
    {book : DispatchAllowanceBook} {token : Nat} (absent : book.tokens.get token = none)
    (change : Owner → Owner) :
    book.modifyOwner token change = book := by
  simp only [modifyOwner, absent]

end DispatchAllowanceBook

namespace Owner

/-- An owner that only loses its right to be admitted again. -/
structure Weakens (owner next : Owner) : Prop where
  rest : next =
    { owner with closed := next.closed, exhausted := next.exhausted }
  closed : owner.closed = true → next.closed = true
  exhausted : owner.exhausted = true → next.exhausted = true

/-- Closing an owner only takes rights from it. -/
theorem weakens_close (owner : Owner) :
    owner.Weakens (DispatchAllowanceBook.closeOwner owner) where
  rest := rfl
  closed := fun _ => rfl
  exhausted := id

/-- Exhausting an owner only takes rights from it. -/
theorem weakens_exhaust (owner : Owner) :
    owner.Weakens (DispatchAllowanceBook.exhaustOwner owner) where
  rest := rfl
  closed := id
  exhausted := fun _ => rfl

end Owner

open DispatchAllowanceBook

/-! ## The effects of a call -/

/-- How the owner of a debit ends up when the debit is finished with a closing. -/
inductive Finishes (book : DispatchAllowanceBook) (debit : Debit) (closing : Closing)
    (owner : Owner) : Owner → Prop
  /-- The owner can not be admitted again: only its slot is freed. -/
  | inactive :
      owner.closed = true →
      Finishes book debit closing owner (freeSlot owner)
  | revoked : Finishes book debit closing owner (freeSlot (closeOwner owner))
  | reconciled :
      owner.closed = false →
      Finishes book debit closing owner (freeSlot (owner.reconcile debit.estimate closing))

/-- Everything that one call can do to a sound book. -/
inductive Effect (book : DispatchAllowanceBook) (call : BookCall)
    (next : DispatchAllowanceBook) : Prop
  /-- Neither an owner nor a debit changes. -/
  | kept :
      admission call = none →
      (∀ id closing, closingOn id call = some closing →
        ∃ debit, book.debits.get id = some debit ∧
          debit.state.closing.isSome = true) →
      next = { book with suspended := next.suspended } →
      finishingFrames next.suspended = finishingFrames book.suspended →
      book.ActivationsFrom next →
      Effect book call next
  /-- One owner loses its right to be admitted again. -/
  | weakened (token : Nat) (owner weaker : Owner) :
      admission call = none →
      closingCall call = none →
      book.tokens.get token = some owner →
      owner.Weakens weaker →
      (∀ other, next.tokens.get other =
        if other = token then some weaker else book.tokens.get other) →
      next =
        { book with tokens := next.tokens, suspended := next.suspended } →
      finishingFrames next.suspended = finishingFrames book.suspended →
      book.ActivationsFrom next →
      Effect book call next
  /-- A new owner replaces the one of its node. -/
  | installed (nodeId : String) (dispatchId amount : Int) (rest : List Suspended) :
      admission call = none →
      closingCall call = none →
      0 ≤ amount →
      book.suspended = .activating nodeId dispatchId amount :: rest →
      next = (({ book with suspended := rest } : DispatchAllowanceBook).closePrior
        nodeId).install nodeId dispatchId amount →
      Effect book call next
  /-- A debit is admitted on a current owner. -/
  | admitted (token : Nat) (owner : Owner) (estimate : Option Int) :
      admission call = some (book.nextDebit, token, estimate) →
      closingCall call = none →
      book.current token = some owner →
      owner.exhausted = false →
      owner.inFlight = false →
      (∀ amount, estimate = some amount →
        0 ≤ amount ∧ amount ≤ owner.remaining) →
      next = (book.admitNew token owner estimate).2 →
      Effect book call next
  /-- A debit accepts its closing and asks the host. -/
  | accepted (id : Nat) (debit : Debit) (closing : Closing) :
      admission call = none →
      closingCall call = some (id, closing) →
      (∀ actual, closing.actual = some actual → 0 ≤ actual) →
      book.debits.get id = some debit →
      debit.state = .admitted →
      next =
        { book with
          debits := book.debits.set id { debit with state := .finishing closing }
          suspended := .finishing id :: book.suspended } →
      Effect book call next
  /-- A debit is finished, at once or after the host answered. -/
  | finished (id : Nat) (debit : Debit) (closing : Closing) (owner after : Owner) :
      admission call = none →
      (debit.state = .admitted ∧ closingCall call = some (id, closing) ∧
          finishingFrames next.suspended = finishingFrames book.suspended ∨
        debit.state = .finishing closing ∧ closingCall call = none ∧
          finishingFrames book.suspended =
            id :: finishingFrames next.suspended) →
      (∀ actual, closing.actual = some actual → 0 ≤ actual) →
      book.debits.get id = some debit →
      book.tokens.get debit.token = some owner →
      Finishes book debit closing owner after →
      (∀ other, next.tokens.get other =
        if other = debit.token then some after else book.tokens.get other) →
      next =
        { book with
          tokens := next.tokens
          debits := book.debits.set id { debit with state := .finished closing }
          suspended := next.suspended } →
      book.ActivationsFrom next →
      Effect book call next

section Operations

variable {book : DispatchAllowanceBook}

theorem DispatchAllowanceBook.ActivationsFrom.of_subset
    {next : DispatchAllowanceBook} (subset : next.suspended ⊆ book.suspended) :
    book.ActivationsFrom next :=
  fun _ _ _ member => Or.inl (subset member)

/-- A call that answers without a change. -/
theorem Effect.of_eq
    {call : BookCall} (noAdmission : admission call = none)
    (noClosing : closingCall call = none) :
    Effect book call book := by
  refine .kept noAdmission ?_ rfl rfl (.of_subset (List.Subset.refl _))
  simp [closingOn, noClosing]

/-- A call that weakens one owner at most, and resumes nothing new. -/
theorem Effect.of_weaken
    {call : BookCall} (token : Nat) {change : Owner → Owner}
    (weakens : ∀ owner : Owner, owner.Weakens (change owner))
    (noAdmission : admission call = none) (noClosing : closingCall call = none)
    {suspended : List Suspended}
    (frames : finishingFrames suspended = finishingFrames book.suspended)
    (subset : suspended ⊆ book.suspended) :
    Effect book call
      (({ book with suspended := suspended } :
        DispatchAllowanceBook).modifyOwner token change) := by
  cases found : book.tokens.get token with
  | none =>
    rw [modifyOwner_of_none (by exact found)]
    refine .kept noAdmission ?_ rfl frames (.of_subset subset)
    simp [closingOn, noClosing]
  | some owner =>
    refine .weakened token owner (change owner) noAdmission noClosing found
      (weakens owner) (get_modifyOwner (by exact found) change) ?_ ?_ ?_
    · rw [modifyOwner_eq]
    · rw [modifyOwner_eq]
      exact frames
    · rw [modifyOwner_eq]
      exact .of_subset subset

private theorem effect_activate (nodeId : String) (dispatchId amount : Quantity) :
    Effect book
      (.activate nodeId dispatchId amount, (book.activate nodeId dispatchId amount).1)
      (book.activate nodeId dispatchId amount).2 := by
  unfold activate
  split
  · exact .of_eq rfl rfl
  · exact .of_eq rfl rfl
  · split
    · exact .of_eq rfl rfl
    · rename_i checked
      split
      · exact .of_eq rfl rfl
      · refine .kept rfl (by simp [closingOn, closingCall]) rfl rfl ?_
        intro nodeId' dispatchId' amount' member
        rw [Quantity.nonNegativeSafe_eq_some_iff] at checked
        simp only [suspend, List.mem_cons, Suspended.activating.injEq] at member
        rcases member with ⟨-, -, rfl⟩ | member
        · exact Or.inr checked.2.1
        · exact Or.inl member

private theorem effect_validateLive (token : Nat) (alreadyAdmitted : Bool) :
    Effect book
      (.validateLive token alreadyAdmitted, (book.validateLive token alreadyAdmitted).1)
      (book.validateLive token alreadyAdmitted).2 := by
  unfold validateLive
  split
  · exact .of_eq rfl rfl
  · refine .kept rfl (by simp [closingOn, closingCall]) rfl rfl ?_
    intro nodeId dispatchId amount member
    exact Or.inl (by simpa [suspend] using member)

private theorem effect_acquire (token : Nat) (estimate : Option Quantity) :
    Effect book (.acquire token estimate, (book.acquire token estimate).1)
      (book.acquire token estimate).2 := by
  unfold acquire
  split
  · exact .of_eq rfl rfl
  · rename_i owner current
    split
    · exact .of_eq rfl rfl
    · rename_i notExhausted
      split
      · exact .of_eq rfl rfl
      · rename_i free
        have slotFree : owner.inFlight = false := by simpa using free
        have stillAdmitting : owner.exhausted = false := by
          simpa using notExhausted
        cases estimate with
        | none =>
          exact .admitted token owner none rfl rfl current stillAdmitting slotFree (by simp) rfl
        | some quantity =>
          cases checked : quantity.nonNegativeSafe with
          | none =>
            simp only [checked]
            exact .of_eq rfl rfl
          | some amount =>
            simp only [checked]
            split
            · exact .of_weaken token Owner.weakens_exhaust rfl rfl rfl (List.Subset.refl _)
            · rename_i affordable
              refine .admitted token owner (some amount) ?_ rfl current
                stillAdmitting slotFree ?_ rfl
              · simp [admission, admitNew, checked]
              · rw [Quantity.nonNegativeSafe_eq_some_iff] at checked
                simp only [Option.some.injEq, forall_eq']
                omega

/-- Closing a debit again changes nothing. -/
theorem Effect.of_closed
    {call : BookCall} {id : Nat} {debit : Debit} {closing : Closing}
    (noAdmission : admission call = none) (closingIs : closingCall call = some (id, closing))
    (found : book.debits.get id = some debit) (closed : debit.state.closing.isSome = true) :
    Effect book call book := by
  refine .kept noAdmission ?_ rfl rfl (.of_subset (List.Subset.refl _))
  intro other otherClosing isClosing
  simp only [closingOn, closingIs, Option.bind_some, Option.ite_none_right_eq_some] at isClosing
  exact ⟨debit, isClosing.1 ▸ found, closed⟩

/-- An owner that is not current is closed. -/
theorem DispatchAllowanceBook.Sound.closed_of_not_current
    (sound : Sound book) {token : Nat} {owner : Owner}
    (present : book.tokens.get token = some owner) (notCurrent : book.current token = none) :
    owner.closed = true := by
  by_contra isOpen
  have stillOpen : owner.closed = false := by simpa using isOpen
  have newest := (sound.owner token owner present).newest stillOpen
  have current := (book.current_eq_some_iff token owner).mpr ⟨present, stillOpen, newest⟩
  simp [notCurrent] at current

/-- Freeing a debit frees the slot of its owner and nothing else. -/
theorem get_freeDebit
    {id : Nat} {debit : Debit} {closing : Closing} {owner : Owner}
    (present : book.tokens.get debit.token = some owner) (other : Nat) :
    (book.freeDebit id debit closing).tokens.get other =
      if other = debit.token then some (freeSlot owner)
      else book.tokens.get other := by
  unfold freeDebit
  exact get_modifyOwner (by exact present) freeSlot other

theorem freeDebit_eq
    (book : DispatchAllowanceBook) (id : Nat) (debit : Debit) (closing : Closing) :
    book.freeDebit id debit closing =
      { book with
        tokens := (book.freeDebit id debit closing).tokens
        debits :=
          book.debits.set id { debit with state := .finished closing } } := by
  unfold freeDebit
  exact modifyOwner_eq _ _ _

private theorem effect_finish
    (sound : Sound book) {asked : AllowanceCall} {id : Nat} {closing : Closing}
    (noAdmission : ∀ outcome, admission (asked, outcome) = none)
    (closingIs : ∀ outcome, closingCall (asked, outcome) =
      if returned outcome then some (id, closing) else none)
    (actualNonneg : ∀ actual, closing.actual = some actual → 0 ≤ actual) :
    Effect book (asked, (book.finish id closing).1)
      (book.finish id closing).2 := by
  unfold finish
  cases found : book.debits.get id with
  | none => exact .of_eq (noAdmission _) (by rw [closingIs]; rfl)
  | some debit =>
    simp only
    cases state : debit.state with
    | finishing earlier | finished earlier =>
      simp only
      exact .of_closed (noAdmission _) (closingIs _) found (by rw [state]; rfl)
    | admitted =>
      simp only
      obtain ⟨owner, present, -⟩ := (sound.debit id debit found).owned
      cases current : book.current debit.token with
      | none =>
        simp only
        refine .finished id debit closing owner (freeSlot owner)
          (noAdmission _) (Or.inl ⟨state, closingIs _, ?_⟩) actualNonneg
          found present (.inactive ?_) (get_freeDebit present) ?_ ?_
        · rw [freeDebit_eq]
        · exact sound.closed_of_not_current present current
        · refine (freeDebit_eq book id debit closing).trans ?_
          rw [freeDebit_eq]
        · rw [freeDebit_eq]
          exact .of_subset (List.Subset.refl _)
      | some _ =>
        refine .accepted id debit closing (noAdmission _) (closingIs _)
          actualNonneg found state rfl

private theorem effect_settle (sound : Sound book) (id : Nat) (actual : Quantity) :
    Effect book (.settle id actual, (book.settle id actual).1)
      (book.settle id actual).2 := by
  unfold settle
  cases found : book.debits.get id with
  | none => exact .of_eq rfl rfl
  | some debit =>
    simp only
    split
    · next closed => exact .of_closed rfl rfl found closed
    · cases checked : actual.nonNegativeSafe with
      | none => exact .of_eq rfl rfl
      | some amount =>
        refine effect_finish sound (fun _ => rfl) ?_ ?_
        · intro outcome
          simp only [closingCall, checked]
        · rw [Quantity.nonNegativeSafe_eq_some_iff] at checked
          intro charged isCharged
          obtain rfl : amount = charged := by simpa using isCharged
          exact checked.2.1

/-- A debit that finishes reconciles its owner. -/
private theorem effect_finished
    {rest : List Suspended} {id : Nat} {debit : Debit} {closing : Closing} {owner : Owner}
    {change : Owner → Owner} {call : BookCall} (noAdmission : admission call = none)
    (noClosing : closingCall call = none) (suspended : book.suspended = .finishing id :: rest)
    (actualNonneg : ∀ actual, closing.actual = some actual → 0 ≤ actual)
    (found : book.debits.get id = some debit) (state : debit.state = .finishing closing)
    (present : book.tokens.get debit.token = some owner)
    (finishes : Finishes book debit closing owner (freeSlot (change owner))) :
    Effect book call
      ((({ book with suspended := rest } : DispatchAllowanceBook).modifyOwner
        debit.token change).freeDebit id debit closing) := by
  have changed : ∀ other,
      (({ book with suspended := rest } : DispatchAllowanceBook).modifyOwner
        debit.token change).tokens.get other =
        if other = debit.token then some (change owner)
        else book.tokens.get other :=
    get_modifyOwner (by exact present) change
  have rewritten := modifyOwner_eq { book with suspended := rest } debit.token
    change
  have freed := @get_freeDebit
    (({ book with suspended := rest } : DispatchAllowanceBook).modifyOwner
      debit.token change) id debit closing _
    ((changed debit.token).trans (if_pos rfl))
  refine .finished id debit closing owner (freeSlot (change owner)) noAdmission
    (Or.inr ⟨state, noClosing, ?_⟩) actualNonneg found present finishes ?_ ?_ ?_
  · rw [freeDebit_eq, rewritten, suspended]
    rfl
  · intro other
    rw [freed, changed]
    split <;> rfl
  · rw [freeDebit_eq]
    conv_lhs => rw [rewritten]
    rw [rewritten]
  · rw [freeDebit_eq, rewritten]
    refine .of_subset ?_
    rw [suspended]
    exact List.subset_cons_self _ _

private theorem effect_resumeFinish
    (sound : Sound book) (live : Option Bool) {rest : List Suspended} {id : Nat}
    (suspended : book.suspended = .finishing id :: rest) :
    Effect book
      (.answer live,
        (({ book with suspended := rest } : DispatchAllowanceBook).resumeFinish
          id (live.getD false)).1)
      (({ book with suspended := rest } : DispatchAllowanceBook).resumeFinish
        id (live.getD false)).2 := by
  obtain ⟨debit, closing, found, state⟩ :=
    (sound.frames id).mp (by simp [finishingFrames, suspended])
  have debitSound := sound.debit id debit found
  obtain ⟨owner, present, -⟩ := debitSound.owned
  have actualNonneg : ∀ actual, closing.actual = some actual → 0 ≤ actual :=
    fun actual charged =>
      debitSound.actualNonneg closing actual (by rw [state]; rfl) charged
  have finished {change : Owner → Owner} := @effect_finished book rest id debit
    closing owner change (.answer live, .done) rfl rfl suspended actualNonneg
    found state present
  unfold resumeFinish
  simp only [found, state]
  split
  · rename_i currentOwner _ current
    obtain ⟨present', isOpen, -⟩ :=
      (current_eq_some_iff _ _ _).mp current
    obtain rfl : owner = currentOwner :=
      Option.some.inj (present.symm.trans present')
    exact finished (.reconciled isOpen)
  · exact finished .revoked

private theorem effect_resumeActivate
    (sound : Sound book) (live : Option Bool) {rest : List Suspended} {nodeId : String}
    {dispatchId amount : Int}
    (suspended : book.suspended = .activating nodeId dispatchId amount :: rest) :
    Effect book
      (.answer live,
        (({ book with suspended := rest } : DispatchAllowanceBook).resumeActivate
          nodeId dispatchId amount (live.getD false)).1)
      (({ book with suspended := rest } : DispatchAllowanceBook).resumeActivate
        nodeId dispatchId amount (live.getD false)).2 := by
  have popped (outcome : AllowanceOutcome) :
      Effect book (.answer live, outcome) { book with suspended := rest } := by
    refine .kept (by cases outcome <;> rfl) ?_ rfl ?_ (.of_subset ?_)
    · intro id closing asked
      cases outcome <;> simp [closingOn, closingCall] at asked
    · simp [suspended, finishingFrames]
    · simp [suspended]
  unfold resumeActivate
  split
  · exact popped _
  · split
    · exact popped _
    · refine .installed nodeId dispatchId amount rest rfl rfl ?_ suspended rfl
      exact sound.amountNonneg nodeId dispatchId amount (by simp [suspended])

private theorem effect_resumeValidate
    (live : Option Bool) {rest : List Suspended} {token : Nat} {alreadyAdmitted : Bool}
    (suspended : book.suspended = .validating token alreadyAdmitted :: rest) :
    Effect book
      (.answer live,
        (({ book with suspended := rest } : DispatchAllowanceBook).resumeValidate
          token alreadyAdmitted (live.getD false)).1)
      (({ book with suspended := rest } : DispatchAllowanceBook).resumeValidate
        token alreadyAdmitted (live.getD false)).2 := by
  have frames : finishingFrames rest = finishingFrames book.suspended := by
    simp [suspended, finishingFrames]
  have subset : rest ⊆ book.suspended := by simp [suspended]
  unfold resumeValidate
  split
  · refine .kept rfl ?_ rfl frames (.of_subset subset)
    intro id closing asked
    simp [closingOn, closingCall] at asked
  · exact .of_weaken token Owner.weakens_close rfl rfl frames subset

/-- Every call of the book has one of the effects. -/
theorem effect_perform (sound : Sound book) (call : AllowanceCall) :
    Effect book (call, (book.perform call).1) (book.perform call).2 := by
  cases call with
  | activate nodeId dispatchId amount =>
    exact effect_activate nodeId dispatchId amount
  | validateLive token alreadyAdmitted =>
    exact effect_validateLive token alreadyAdmitted
  | acquire token estimate => exact effect_acquire token estimate
  | settle debit actual => exact effect_settle sound debit actual
  | release debit | retain debit =>
    exact effect_finish sound (fun _ => rfl) (fun _ => rfl) (by simp)
  | exhaust token =>
    simp only [perform, exhaust]
    split
    · exact .of_eq rfl rfl
    · exact .of_weaken token Owner.weakens_exhaust rfl rfl rfl (List.Subset.refl _)
  | close token =>
    exact .of_weaken token Owner.weakens_close rfl rfl rfl (List.Subset.refl _)
  | answer live =>
    simp only [perform, resume]
    split
    · exact .of_eq rfl rfl
    · rename_i operation rest suspended
      cases operation with
      | activating nodeId dispatchId amount =>
        exact effect_resumeActivate sound live suspended
      | validating token alreadyAdmitted =>
        exact effect_resumeValidate live suspended
      | finishing debit => exact effect_resumeFinish sound live suspended

end Operations

end Relavium.Budget
