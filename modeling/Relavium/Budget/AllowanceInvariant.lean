import Relavium.Budget.AllowanceEffect

/-!
# The invariant of dispatch allowances

Every effect of a call on a book keeps the invariant: an owner stays within
what it was granted, its slot is held by one debit at most, and while it admits
debits its remaining amount is what its debits have left of the grant.
-/

namespace Relavium.Budget

open Library
open DispatchAllowanceBook

/-! ## Finishing a debit -/

namespace Owner

/-- What reconciling a refundable owner does. -/
structure Reconciles (owner after : Owner)
    (estimated charge : Int) : Prop where
  nodeId : after.nodeId = owner.nodeId
  initial : after.initial = owner.initial
  remainingNonneg : 0 ≤ after.remaining
  remainingLe : after.remaining ≤ after.initial
  closed : owner.closed = true → after.closed = true
  exhausted : owner.exhausted = true → after.exhausted = true
  ledger : after.closed = false → after.exhausted = false →
    after.remaining = owner.remaining + estimated - charge

/-- Reconciling keeps what remains between zero and the issued amount. -/
theorem reconciles_reconcile
    {owner : Owner} {estimate : Option Int} {closing : Closing}
    (remainingNonneg : 0 ≤ owner.remaining)
    (refundable : owner.remaining + estimate.getD 0 ≤ owner.initial)
    (estimatedNonneg : 0 ≤ estimate.getD 0) (chargeNonneg : 0 ≤ closing.charge estimate) :
    owner.Reconciles (owner.reconcile estimate closing) (estimate.getD 0)
      (closing.charge estimate) := by
  have delta :
      (if closing.released then -(estimate.getD 0)
        else closing.actual.getD (estimate.getD 0) - estimate.getD 0) =
        closing.charge estimate - estimate.getD 0 := by
    unfold Closing.charge
    split <;> omega
  unfold reconcile
  simp only [delta]
  generalize closing.charge estimate = charge at *
  generalize estimate.getD 0 = estimated at *
  split
  · split <;> constructor <;> grind
  · split
    · split <;> split <;> constructor <;> grind
    · split <;> constructor <;> grind

end Owner

/-- So does finishing a debit, in whichever way its owner takes it. -/
theorem Finishes.reconciles
    {book : DispatchAllowanceBook} {debit : Debit} {closing : Closing} {owner after : Owner}
    (finishes : Finishes book debit closing owner after) (remainingNonneg : 0 ≤ owner.remaining)
    (refundable : owner.remaining + debit.estimated ≤ owner.initial)
    (estimatedNonneg : 0 ≤ debit.estimated) (chargeNonneg : 0 ≤ closing.charge debit.estimate) :
    owner.Reconciles after debit.estimated (closing.charge debit.estimate) ∧
      after.inFlight = false := by
  cases finishes with
  | inactive isClosed =>
    refine ⟨?_, rfl⟩
    constructor <;> simp [freeSlot, isClosed] <;> omega
  | revoked =>
    refine ⟨?_, rfl⟩
    constructor <;> simp [freeSlot, closeOwner] <;> omega
  | reconciled isOpen =>
    have reconciles := Owner.reconciles_reconcile remainingNonneg refundable
      estimatedNonneg chargeNonneg
    exact ⟨⟨reconciles.nodeId, reconciles.initial, reconciles.remainingNonneg,
      reconciles.remainingLe, reconciles.closed, reconciles.exhausted,
      reconciles.ledger⟩, rfl⟩

/-- A flag that stays set is not set before it is unset. -/
theorem unset_of_kept {flag later : Bool} (kept : flag = true → later = true)
    (unset : later = false) :
    flag = false := by
  by_contra isSet
  rw [kept (Bool.of_not_eq_false isSet)] at unset
  cases unset

/-! ## What every effect preserves -/

namespace DispatchAllowanceBook

theorem sound_fresh : Sound fresh where
  owner := by simp [fresh]
  debit := by simp [fresh]
  oneUnfinished := by simp [fresh]
  framesNodup := List.nodup_nil
  frames := by simp [fresh, finishingFrames]
  amountNonneg := by simp [fresh]

namespace Sound

variable {book next : DispatchAllowanceBook}

variable {id : Nat} {debit : Debit} {token : Nat}

/-- No debit is estimated below zero. -/
theorem estimated_nonneg (sound : Sound book) (found : book.debits.get id = some debit) :
    0 ≤ debit.estimated := by
  unfold Debit.estimated
  cases estimate : debit.estimate with
  | none => exact le_refl 0
  | some amount => exact (sound.debit id debit found).estimateNonneg amount estimate

theorem amounts_nonneg (sound : Sound book) (activations : book.ActivationsFrom next) :
    ∀ nodeId dispatchId amount,
      .activating nodeId dispatchId amount ∈ next.suspended → 0 ≤ amount := by
  intro nodeId dispatchId amount member
  rcases activations nodeId dispatchId amount member with old | checked
  · exact sound.amountNonneg nodeId dispatchId amount old
  · exact checked

/-- Weakening an owner keeps the book sound. -/
theorem weaken
    (sound : Sound book) {owner weaker : Owner} (present : book.tokens.get token = some owner)
    (weakens : owner.Weakens weaker)
    (tokens : ∀ other, next.tokens.get other =
      if other = token then some weaker else book.tokens.get other)
    (tables : next =
      { book with tokens := next.tokens, suspended := next.suspended })
    (frames : finishingFrames next.suspended = finishingFrames book.suspended)
    (activations : book.ActivationsFrom next) :
    Sound next := by
  have owners : next.owners = book.owners := by rw [tables]
  have debits : next.debits = book.debits := by rw [tables]
  have nextToken : next.nextToken = book.nextToken := by rw [tables]
  have nextDebit : next.nextDebit = book.nextDebit := by rw [tables]
  have ownerSound := sound.owner token owner present
  have openBefore := unset_of_kept weakens.closed
  have admittingBefore := unset_of_kept weakens.exhausted
  have nodeId : weaker.nodeId = owner.nodeId := by rw [weakens.rest]
  have initial : weaker.initial = owner.initial := by rw [weakens.rest]
  have remaining : weaker.remaining = owner.remaining := by rw [weakens.rest]
  have inFlight : weaker.inFlight = owner.inFlight := by rw [weakens.rest]
  refine ⟨?_, ?_, ?_, ?_, ?_, sound.amounts_nonneg activations⟩
  · intro other found isOwner
    rw [tokens] at isOwner
    split at isOwner
    · obtain rfl : weaker = found := Option.some.inj isOwner
      rename_i same
      subst same
      refine ⟨?_, ?_, ?_, ?_, ?_⟩
      · rw [nextToken]
        exact ownerSound.issued
      · rw [remaining]
        exact ownerSound.remainingNonneg
      · rw [remaining, initial]
        exact ownerSound.remainingLe
      · rw [owners, nodeId]
        exact fun isOpen => ownerSound.newest (openBefore isOpen)
      · rw [debits, remaining, initial]
        exact fun isOpen admitting =>
          ownerSound.ledger (openBefore isOpen) (admittingBefore admitting)
    · have foundSound := sound.owner other found isOwner
      exact ⟨nextToken ▸ foundSound.issued, foundSound.remainingNonneg,
        foundSound.remainingLe, owners ▸ foundSound.newest,
        debits ▸ foundSound.ledger⟩
  · intro id debit found
    rw [debits] at found
    have debitSound := sound.debit id debit found
    refine ⟨nextDebit ▸ debitSound.issued, debitSound.estimateNonneg, debitSound.actualNonneg, ?_⟩
    obtain ⟨holder, isHolder, holds⟩ := debitSound.owned
    rw [tokens]
    split
    · rename_i same
      obtain rfl : owner = holder :=
        Option.some.inj (present.symm.trans (same ▸ isHolder))
      exact ⟨weaker, rfl, by rwa [inFlight, remaining, initial]⟩
    · exact ⟨holder, isHolder, holds⟩
  · rw [debits]
    exact sound.oneUnfinished
  · rw [frames]
    exact sound.framesNodup
  · rw [frames, debits]
    exact sound.frames

/-- Changing only what is suspended, outside reconciliations. -/
theorem keep
    (sound : Sound book) (tables : next = { book with suspended := next.suspended })
    (frames : finishingFrames next.suspended = finishingFrames book.suspended)
    (activations : book.ActivationsFrom next) :
    Sound next := by
  have tokens : next.tokens = book.tokens := by rw [tables]
  have owners : next.owners = book.owners := by rw [tables]
  have debits : next.debits = book.debits := by rw [tables]
  have nextToken : next.nextToken = book.nextToken := by rw [tables]
  have nextDebit : next.nextDebit = book.nextDebit := by rw [tables]
  refine ⟨?_, ?_, ?_, ?_, ?_, sound.amounts_nonneg activations⟩
  · intro token owner found
    have ownerSound := sound.owner token owner (tokens ▸ found)
    exact ⟨nextToken ▸ ownerSound.issued, ownerSound.remainingNonneg,
      ownerSound.remainingLe, owners ▸ ownerSound.newest,
      debits ▸ ownerSound.ledger⟩
  · intro id debit found
    have debitSound := sound.debit id debit (debits ▸ found)
    exact ⟨nextDebit ▸ debitSound.issued, debitSound.estimateNonneg,
      debitSound.actualNonneg, tokens ▸ debitSound.owned⟩
  · rw [debits]
    exact sound.oneUnfinished
  · rw [frames]
    exact sound.framesNodup
  · rw [frames, debits]
    exact sound.frames

/-- Closing the owner that an activation replaces leaves none open. -/
theorem closePrior (sound : Sound book) (nodeId : String) :
    Sound (book.closePrior nodeId) ∧
      ∀ token owner, (book.closePrior nodeId).tokens.get token = some owner →
        owner.closed = false → owner.nodeId ≠ nodeId := by
  unfold DispatchAllowanceBook.closePrior
  cases newest : book.owners.get nodeId with
  | none =>
    refine ⟨sound, ?_⟩
    rintro token owner found isOpen rfl
    simp [(sound.owner token owner found).newest isOpen] at newest
  | some prior =>
    simp only
    have priorOpen : ∀ token owner, book.tokens.get token = some owner →
        owner.closed = false → owner.nodeId = nodeId → token = prior := by
      rintro token owner found isOpen rfl
      have := (sound.owner token owner found).newest isOpen
      exact Option.some.inj (this.symm.trans newest)
    cases present : book.tokens.get prior with
    | none =>
      rw [modifyOwner_of_none present]
      refine ⟨sound, ?_⟩
      intro token owner found isOpen sameNode
      obtain rfl := priorOpen token owner found isOpen sameNode
      simp [present] at found
    | some old =>
      have tokens := get_modifyOwner present closeOwner
      refine ⟨sound.weaken present old.weakens_close tokens ?_ ?_ ?_, ?_⟩
      · refine (modifyOwner_eq book prior closeOwner).trans ?_
        rw [modifyOwner_eq]
      · rw [modifyOwner_eq]
      · rw [modifyOwner_eq]
        exact .of_subset (List.Subset.refl _)
      · intro token owner found isOpen sameNode
        rw [tokens] at found
        split at found
        · cases found
          simp [closeOwner] at isOpen
        · next different => exact different (priorOpen token owner found isOpen sameNode)

/-- Installing a fresh token for a node without an open owner. -/
theorem install (sound : Sound book) {nodeId : String} {dispatchId amount : Int}
    (vacant : ∀ token owner, book.tokens.get token = some owner →
      owner.closed = false → owner.nodeId ≠ nodeId)
    (amountNonneg : 0 ≤ amount) :
    Sound (book.install nodeId dispatchId amount) := by
  have fresh : ∀ token owner, book.tokens.get token = some owner →
      token ≠ book.nextToken := fun token owner found =>
    Nat.ne_of_lt (sound.owner token owner found).issued
  refine ⟨?_, ?_, sound.oneUnfinished, sound.framesNodup, sound.frames, sound.amountNonneg⟩
  · intro token owner found
    simp only [DispatchAllowanceBook.install, OrderedMap.get_set] at found
    split at found
    · rename_i same
      cases found
      subst same
      refine ⟨Nat.lt_succ_self _, amountNonneg, le_refl _, ?_, ?_⟩
      · simp [DispatchAllowanceBook.install]
      · intro _ _
        have nothingHeld : book.debits.total (held book.nextToken) = 0 := by
          refine OrderedMap.total_eq_zero ?_
          intro id debit isDebit
          obtain ⟨holder, isHolder, -⟩ := (sound.debit id debit isDebit).owned
          simp [held, fresh debit.token holder isHolder]
        simp [DispatchAllowanceBook.install, nothingHeld]
    · have ownerSound := sound.owner token owner found
      refine ⟨Nat.lt_succ_of_lt ownerSound.issued, ownerSound.remainingNonneg,
        ownerSound.remainingLe, ?_, ownerSound.ledger⟩
      intro isOpen
      simp only [DispatchAllowanceBook.install]
      rw [OrderedMap.get_set_of_ne _ (vacant token owner found isOpen)]
      exact ownerSound.newest isOpen
  · intro id debit found
    have debitSound := sound.debit id debit found
    refine ⟨debitSound.issued, debitSound.estimateNonneg, debitSound.actualNonneg, ?_⟩
    obtain ⟨holder, isHolder, holds⟩ := debitSound.owned
    refine ⟨holder, ?_, holds⟩
    simp only [DispatchAllowanceBook.install]
    rw [OrderedMap.get_set_of_ne _ (fresh debit.token holder isHolder)]
    exact isHolder

/-- The slot of a current owner without a debit in flight is held by none. -/
theorem finished_of_free
    (sound : Sound book) {owner : Owner} (present : book.tokens.get token = some owner)
    (free : owner.inFlight = false) (found : book.debits.get id = some debit)
    (onToken : debit.token = token) :
    debit.state.unfinished = false := by
  obtain ⟨holder, isHolder, holds⟩ := (sound.debit id debit found).owned
  obtain rfl : owner = holder :=
    Option.some.inj (present.symm.trans (onToken ▸ isHolder))
  by_contra unfinished
  rw [Bool.not_eq_false] at unfinished
  simp [(holds unfinished).1] at free

/-- Admitting a debit on an owner whose slot is free. -/
theorem admitNew
    (sound : Sound book) {owner : Owner} {estimate : Option Int}
    (present : book.tokens.get token = some owner) (free : owner.inFlight = false)
    (affordable : ∀ amount, estimate = some amount →
      0 ≤ amount ∧ amount ≤ owner.remaining) :
    Sound (book.admitNew token owner estimate).2 := by
  have ownerSound := sound.owner token owner present
  have remainingNonneg := ownerSound.remainingNonneg
  have remainingLe := ownerSound.remainingLe
  have range : 0 ≤ estimate.getD 0 ∧ estimate.getD 0 ≤ owner.remaining := by
    cases estimate with
    | none => exact ⟨le_refl 0, remainingNonneg⟩
    | some amount => exact affordable amount rfl
  have freshDebit : book.debits.get book.nextDebit = none := by
    by_contra taken
    obtain ⟨debit, found⟩ := Option.ne_none_iff_exists'.mp taken
    exact Nat.lt_irrefl _ (sound.debit _ debit found).issued
  have oldDebit : ∀ id debit, book.debits.get id = some debit →
      id ≠ book.nextDebit := by
    rintro id debit found rfl
    simp [freshDebit] at found
  refine ⟨?_, ?_, ?_, sound.framesNodup, ?_, sound.amountNonneg⟩
  · intro other found isOwner
    simp only [DispatchAllowanceBook.admitNew, OrderedMap.get_set] at isOwner
    split at isOwner
    · rename_i same
      cases isOwner
      subst same
      refine ⟨ownerSound.issued, ?_, ?_, ownerSound.newest, ?_⟩
      · simp only
        omega
      · simp only
        omega
      · intro isOpen admitting
        have before := ownerSound.ledger isOpen admitting
        simp only [DispatchAllowanceBook.admitNew,
          OrderedMap.total_set_of_none _ freshDebit, held, if_true,
          Debit.estimated]
        omega
    · rename_i different
      have foundSound := sound.owner other found isOwner
      refine ⟨foundSound.issued, foundSound.remainingNonneg,
        foundSound.remainingLe, foundSound.newest, ?_⟩
      intro isOpen admitting
      rw [foundSound.ledger isOpen admitting]
      simp [DispatchAllowanceBook.admitNew,
        OrderedMap.total_set_of_none _ freshDebit, held, Ne.symm different]
  · intro id debit found
    simp only [DispatchAllowanceBook.admitNew, OrderedMap.get_set] at found
    split at found
    · rename_i same
      cases found
      subst same
      refine ⟨Nat.lt_succ_self _, fun amount given => (affordable amount given).1,
        by simp [DebitState.closing], ?_⟩
      refine ⟨_, OrderedMap.get_set_self _ _ _, fun _ => ⟨rfl, ?_⟩⟩
      simp only [Debit.estimated]
      omega
    · have debitSound := sound.debit id debit found
      refine ⟨Nat.lt_succ_of_lt debitSound.issued, debitSound.estimateNonneg,
        debitSound.actualNonneg, ?_⟩
      obtain ⟨holder, isHolder, holds⟩ := debitSound.owned
      simp only [DispatchAllowanceBook.admitNew, OrderedMap.get_set]
      split
      · rename_i onToken
        refine ⟨_, rfl, fun unfinished => ?_⟩
        simp [sound.finished_of_free present free found onToken] at unfinished
      · exact ⟨holder, isHolder, holds⟩
  · intro first second firstDebit secondDebit isFirst isSecond sameToken
      firstUnfinished secondUnfinished
    simp only [DispatchAllowanceBook.admitNew, OrderedMap.get_set] at isFirst isSecond
    split at isFirst <;> split at isSecond
    · simp_all
    · cases isFirst
      simp [sound.finished_of_free present free isSecond sameToken.symm] at secondUnfinished
    · cases isSecond
      simp [sound.finished_of_free present free isFirst sameToken] at firstUnfinished
    · exact sound.oneUnfinished first second firstDebit secondDebit isFirst
        isSecond sameToken firstUnfinished secondUnfinished
  · intro id
    refine (sound.frames id).trans ?_
    simp only [DispatchAllowanceBook.admitNew, OrderedMap.get_set]
    split
    · next same => simp [same, freshDebit]
    · exact Iff.rfl

/-- Accepting a closing moves nothing until the host has answered. -/
theorem accept
    (sound : Sound book) {closing : Closing}
    (actualNonneg : ∀ actual, closing.actual = some actual → 0 ≤ actual)
    (found : book.debits.get id = some debit) (state : debit.state = .admitted) :
    Sound
      { book with
        debits := book.debits.set id { debit with state := .finishing closing }
        suspended := .finishing id :: book.suspended } := by
  have debitSound := sound.debit id debit found
  have sameTotal (token : Nat) :
      (book.debits.set id { debit with state := .finishing closing }).total
        (held token) = book.debits.total (held token) := by
    rw [OrderedMap.total_set, OrderedMap.weightAt_of_some found]
    simp [held, state, Debit.estimated]
  have before {other : Nat} {changed : Debit}
      (isChanged : (book.debits.set id
        { debit with state := .finishing closing }).get other = some changed) :
      ∃ old, book.debits.get other = some old ∧ old.token = changed.token ∧
        old.estimate = changed.estimate ∧
        old.state.unfinished = changed.state.unfinished := by
    rw [OrderedMap.get_set] at isChanged
    split at isChanged
    · rename_i same
      cases isChanged
      exact ⟨debit, same ▸ found, rfl, rfl, by rw [state]; rfl⟩
    · exact ⟨changed, isChanged, rfl, rfl, rfl⟩
  have notFraming : id ∉ finishingFrames book.suspended := by
    rw [sound.frames]
    rintro ⟨other, earlier, isOther, finishing⟩
    cases found.symm.trans isOther
    simp [state] at finishing
  refine ⟨?_, ?_, ?_, List.nodup_cons.mpr ⟨notFraming, sound.framesNodup⟩, ?_, ?_⟩
  · intro token owner present
    have ownerSound := sound.owner token owner present
    refine ⟨ownerSound.issued, ownerSound.remainingNonneg,
      ownerSound.remainingLe, ownerSound.newest, ?_⟩
    simp only [sameTotal]
    exact ownerSound.ledger
  · intro other changed isChanged
    obtain ⟨old, isOld, sameToken, sameEstimate, sameUnfinished⟩ :=
      before isChanged
    have oldSound := sound.debit other old isOld
    refine ⟨oldSound.issued, sameEstimate ▸ oldSound.estimateNonneg, ?_, ?_⟩
    · simp only [OrderedMap.get_set] at isChanged
      split at isChanged
      · cases isChanged
        intro accepted actual isAccepted
        obtain rfl : closing = accepted := by
          simpa [DebitState.closing] using isAccepted
        exact actualNonneg actual
      · exact (sound.debit other changed isChanged).actualNonneg
    · obtain ⟨holder, isHolder, holds⟩ := oldSound.owned
      refine ⟨holder, sameToken ▸ isHolder, ?_⟩
      rw [← sameUnfinished]
      simpa only [Debit.estimated, sameEstimate] using holds
  · intro first second firstDebit secondDebit isFirst isSecond sameToken
      firstUnfinished secondUnfinished
    obtain ⟨firstOld, wasFirst, firstToken, -, firstState⟩ := before isFirst
    obtain ⟨secondOld, wasSecond, secondToken, -, secondState⟩ := before isSecond
    exact sound.oneUnfinished first second firstOld secondOld wasFirst wasSecond
      (firstToken.trans (sameToken.trans secondToken.symm))
      (firstState.trans firstUnfinished) (secondState.trans secondUnfinished)
  · intro other
    simp only [finishingFrames, List.filterMap_cons, List.mem_cons]
    rw [OrderedMap.get_set]
    split
    · next same => simp [same]
    · rename_i different
      simp only [different, false_or]
      exact sound.frames other
  · intro nodeId dispatchId amount member
    exact sound.amountNonneg nodeId dispatchId amount (by simpa using member)

/-- A step that finishes a debit: as it is closed, or once the host has answered. -/
structure FinishesDebit (book next : DispatchAllowanceBook) (id : Nat) (debit : Debit)
    (closing : Closing) (owner after : Owner) : Prop where
  origin : debit.state = .admitted ∧
      finishingFrames next.suspended = finishingFrames book.suspended ∨
    debit.state = .finishing closing ∧
      finishingFrames book.suspended = id :: finishingFrames next.suspended
  actualNonneg : ∀ actual, closing.actual = some actual → 0 ≤ actual
  found : book.debits.get id = some debit
  present : book.tokens.get debit.token = some owner
  finishes : Finishes book debit closing owner after
  tokens : ∀ other, next.tokens.get other =
    if other = debit.token then some after else book.tokens.get other
  tables : next =
    { book with
      tokens := next.tokens
      debits := book.debits.set id { debit with state := .finished closing }
      suspended := next.suspended }
  activations : book.ActivationsFrom next

namespace FinishesDebit

variable {closing : Closing} {owner after : Owner}

theorem debits_eq (step : FinishesDebit book next id debit closing owner after) :
    next.debits = book.debits.set id { debit with state := .finished closing } := by
  rw [step.tables]

theorem unfinished (step : FinishesDebit book next id debit closing owner after) :
    debit.state.unfinished = true := by
  rcases step.origin with ⟨state, -⟩ | ⟨state, -⟩ <;> rw [state] <;> rfl

/-- The debit that is finished, or another one. -/
theorem debit_cases
    (step : FinishesDebit book next id debit closing owner after) {other : Nat} {changed : Debit}
    (isChanged : next.debits.get other = some changed) :
    (other = id ∧ changed = { debit with state := .finished closing }) ∨
      (other ≠ id ∧ book.debits.get other = some changed) := by
  rw [step.debits_eq, OrderedMap.get_set] at isChanged
  split at isChanged
  · next same => exact Or.inl ⟨same, (Option.some.inj isChanged).symm⟩
  · next different => exact Or.inr ⟨different, isChanged⟩

/-- What the debit held is refunded, and its charge is taken. -/
theorem reconciles
    (step : FinishesDebit book next id debit closing owner after) (sound : Sound book) :
    owner.Reconciles after debit.estimated (closing.charge debit.estimate) := by
  have estimatedNonneg := sound.estimated_nonneg step.found
  have chargeNonneg : 0 ≤ closing.charge debit.estimate := by
    unfold Closing.charge
    split
    · exact le_refl 0
    · cases charged : closing.actual with
      | none => exact estimatedNonneg
      | some actual => exact step.actualNonneg actual charged
  have refundable : owner.remaining + debit.estimated ≤ owner.initial := by
    obtain ⟨holder, isHolder, holds⟩ := (sound.debit id debit step.found).owned
    cases step.present.symm.trans isHolder
    exact (holds step.unfinished).2
  exact (step.finishes.reconciles (sound.owner debit.token owner step.present).remainingNonneg
    refundable estimatedNonneg chargeNonneg).1

/-- The charge takes the place of what the debit held. -/
theorem total_held (step : FinishesDebit book next id debit closing owner after) (token : Nat) :
    next.debits.total (held token) =
      book.debits.total (held token) +
        (if debit.token = token then
          closing.charge debit.estimate - debit.estimated else 0) := by
  have heldBefore : held token id debit =
      if debit.token = token then debit.estimated else 0 := by
    unfold held
    rcases step.origin with ⟨state, -⟩ | ⟨state, -⟩ <;> rw [state]
  rw [step.debits_eq, OrderedMap.total_set, OrderedMap.weightAt_of_some step.found, heldBefore]
  simp only [held]
  split <;> omega

/-- Every owner is sound after a debit has finished. -/
theorem ownerSound
    (step : FinishesDebit book next id debit closing owner after) (sound : Sound book)
    {found : Owner} (isOwner : next.tokens.get token = some found) :
    next.OwnerSound token found := by
  have owners : next.owners = book.owners := by rw [step.tables]
  have nextToken : next.nextToken = book.nextToken := by rw [step.tables]
  have reconciles := step.reconciles sound
  rw [step.tokens] at isOwner
  split at isOwner
  · rename_i same
    cases isOwner
    subst same
    have before := sound.owner debit.token owner step.present
    have openBefore := unset_of_kept reconciles.closed
    refine ⟨nextToken ▸ before.issued, reconciles.remainingNonneg,
      reconciles.remainingLe, ?_, ?_⟩
    · intro isOpen
      rw [owners, reconciles.nodeId]
      exact before.newest (openBefore isOpen)
    · intro isOpen admitting
      have ledger := before.ledger (openBefore isOpen)
        (unset_of_kept reconciles.exhausted admitting)
      have now := reconciles.ledger isOpen admitting
      have initial := reconciles.initial
      rw [step.total_held, if_pos rfl]
      omega
  · rename_i different
    have before := sound.owner token found isOwner
    refine ⟨nextToken ▸ before.issued, before.remainingNonneg,
      before.remainingLe, owners ▸ before.newest, ?_⟩
    rw [step.total_held, if_neg (Ne.symm different), Int.add_zero]
    exact before.ledger

/-- Every debit is sound after one of them has finished. -/
theorem debitSound
    (step : FinishesDebit book next id debit closing owner after) (sound : Sound book)
    {other : Nat} {changed : Debit} (isChanged : next.debits.get other = some changed) :
    next.DebitSound other changed := by
  have nextDebit : next.nextDebit = book.nextDebit := by rw [step.tables]
  rcases step.debit_cases isChanged with ⟨rfl, rfl⟩ | ⟨different, wasChanged⟩
  · have before := sound.debit other debit step.found
    refine ⟨nextDebit ▸ before.issued, before.estimateNonneg, ?_,
      after, by rw [step.tokens, if_pos rfl], by simp [DebitState.unfinished]⟩
    intro accepted actual isAccepted
    obtain rfl : closing = accepted := by
      simpa [DebitState.closing] using isAccepted
    exact step.actualNonneg actual
  · have before := sound.debit other changed wasChanged
    refine ⟨nextDebit ▸ before.issued, before.estimateNonneg, before.actualNonneg, ?_⟩
    obtain ⟨holder, isHolder, holds⟩ := before.owned
    rw [step.tokens]
    split
    · rename_i sameToken
      refine ⟨after, rfl, fun stillUnfinished => ?_⟩
      exact absurd (sound.oneUnfinished other id changed debit wasChanged step.found
        sameToken stillUnfinished step.unfinished) different
    · exact ⟨holder, isHolder, holds⟩

/-- The frame of a finished debit is gone. -/
theorem frames
    (step : FinishesDebit book next id debit closing owner after) (sound : Sound book)
    (other : Nat) :
    other ∈ finishingFrames next.suspended ↔
      ∃ changed accepted, next.debits.get other = some changed ∧
        changed.state = .finishing accepted := by
  have framesBefore := sound.frames other
  have nodup := sound.framesNodup
  by_cases same : other = id
  · subst same
    constructor
    · intro member
      rcases step.origin with ⟨state, frames⟩ | ⟨-, frames⟩
      · obtain ⟨old, earlier, isOld, finishing⟩ := framesBefore.mp (frames ▸ member)
        cases step.found.symm.trans isOld
        simp [state] at finishing
      · rw [frames] at nodup
        exact absurd member (List.nodup_cons.mp nodup).1
    · rintro ⟨changed, earlier, isChanged, finishing⟩
      rw [step.debits_eq, OrderedMap.get_set_self] at isChanged
      cases isChanged
      simp at finishing
  · rw [step.debits_eq, OrderedMap.get_set_of_ne _ same, ← framesBefore]
    rcases step.origin with ⟨-, frames⟩ | ⟨-, frames⟩
    · rw [frames]
    · simp [frames, same]

end FinishesDebit

/-- Finishing a debit turns what it held into its charge. -/
theorem finish
    (sound : Sound book) {closing : Closing} {owner after : Owner}
    (step : FinishesDebit book next id debit closing owner after) :
    Sound next where
  owner _ _ := step.ownerSound sound
  debit _ _ := step.debitSound sound
  oneUnfinished := by
    intro first second firstDebit secondDebit isFirst isSecond sameToken
      firstUnfinished secondUnfinished
    rcases step.debit_cases isFirst with ⟨-, rfl⟩ | ⟨-, wasFirst⟩
    · simp [DebitState.unfinished] at firstUnfinished
    · rcases step.debit_cases isSecond with ⟨-, rfl⟩ | ⟨-, wasSecond⟩
      · simp [DebitState.unfinished] at secondUnfinished
      · exact sound.oneUnfinished first second firstDebit secondDebit wasFirst
          wasSecond sameToken firstUnfinished secondUnfinished
  framesNodup := by
    have nodup := sound.framesNodup
    rcases step.origin with ⟨-, frames⟩ | ⟨-, frames⟩
    · rwa [frames]
    · rw [frames] at nodup
      exact (List.nodup_cons.mp nodup).2
  frames := step.frames sound
  amountNonneg := sound.amounts_nonneg step.activations

/-- Every effect of a call keeps a book sound. -/
theorem effect (sound : Sound book) {call : BookCall} (taken : Effect book call next) :
    Sound next := by
  cases taken with
  | kept _ _ tables frames activations => exact sound.keep tables frames activations
  | weakened token owner weaker _ _ present weakens tokens tables frames
      activations =>
      exact sound.weaken present weakens tokens tables frames activations
  | installed nodeId dispatchId amount rest _ _ amountNonneg suspended tables =>
    subst tables
    have popped : Sound { book with suspended := rest } := by
      refine sound.keep rfl ?_ (.of_subset ?_)
      · simp [suspended, finishingFrames]
      · simp [suspended]
    have closed := popped.closePrior nodeId
    exact closed.1.install closed.2 amountNonneg
  | admitted token owner estimate _ _ current _ free affordable tables =>
    subst tables
    exact sound.admitNew ((book.current_eq_some_iff token owner).mp current).1 free affordable
  | accepted id debit closing _ _ actualNonneg found state tables =>
    subst tables
    exact sound.accept actualNonneg found state
  | finished id debit closing owner after _ origin actualNonneg found present
      finishes tokens tables activations =>
      refine sound.finish ⟨?_, actualNonneg, found, present, finishes, tokens, tables,
        activations⟩
      rcases origin with ⟨state, -, frames⟩ | ⟨state, -, frames⟩
      · exact Or.inl ⟨state, frames⟩
      · exact Or.inr ⟨state, frames⟩

end Sound

end DispatchAllowanceBook

end Relavium.Budget
