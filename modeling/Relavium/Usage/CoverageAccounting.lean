import Relavium.Library.Counting
import Relavium.Library.Trace
import Relavium.Usage.CoverageFold
import Mathlib.Order.Interval.Finset.Nat

/-!
# What the coverage counters count

The counters of the fold are compared with a reading of the calls alone: the
invocations whose pending call was accepted, and for each of them the accepted
dispositions and completions in order.  An invocation counts as pending while
it has none of these, and as unknown while the last one is an incomplete
disposition.
-/

namespace Relavium.Usage

open Library

/-- A call together with what it answered. -/
abbrev Call := Operation × Outcome

/-- An invocation as the caller names it: raw model and correlation. -/
abbrev Attribution := String × UsageInvocation

/-- One call takes the fold to its next state and answers as recorded. -/
abbrev Step : UsageCoverageFold → Call → UsageCoverageFold → Prop :=
  Answers perform

/-- How an accepted call moved an invocation. -/
inductive Transition
  | disposed (disposition : UsageDisposition)
  | completed
  deriving DecidableEq

/-! ## Reading a history -/

/-- The invocation that an accepted pending call introduces. -/
def acceptedPending : Call → Option Attribution
  | (.pending model invocation, .done) => some (model, invocation)
  | _ => none

/-- The invocation that an accepted disposition or completion moves. -/
def acceptedTransition : Call → Option (Attribution × Transition)
  | (.disposition model invocation disposition _, .answered true) =>
    some ((model, invocation), .disposed disposition)
  | (.complete model invocation, .answered true) =>
    some ((model, invocation), .completed)
  | _ => none

/-- Accepted pending invocations, in order. -/
def acceptedPendings (history : List Call) : List Attribution :=
  history.filterMap acceptedPending

/-- Accepted transitions of one invocation, in order. -/
def transitionsOf (history : List Call)
    (attribution : Attribution) : List Transition :=
  history.filterMap fun call =>
    (acceptedTransition call).bind fun moved =>
      if moved.1 = attribution then some moved.2 else none

/-- No disposition or completion of the invocation was accepted. -/
def awaits (history : List Call) (attribution : Attribution) : Bool :=
  (transitionsOf history attribution).isEmpty

/-- The last accepted transition is an incomplete disposition. -/
def endsIncomplete (history : List Call) (attribution : Attribution) : Bool :=
  (transitionsOf history attribution).getLast? == some (.disposed .incomplete)

/-- Number of accepted pending invocations of the selected models with a
property. -/
def countOf (select : String → Bool) (property : Attribution → Bool)
    (history : List Call) : Int :=
  (acceptedPendings history).countP fun attribution =>
    select attribution.1 && property attribution

theorem countOf_nonneg
    (select : String → Bool) (property : Attribution → Bool) (history : List Call) :
    0 ≤ countOf select property history :=
  Int.natCast_nonneg _

theorem acceptedPendings_snoc (history : List Call) (call : Call) :
    acceptedPendings (history ++ [call]) =
      acceptedPendings history ++ (acceptedPending call).toList := by
  cases accepted : acceptedPending call <;>
    simp [acceptedPendings, List.filterMap_append, accepted]

theorem transitionsOf_snoc (history : List Call) (call : Call) (attribution : Attribution) :
    transitionsOf (history ++ [call]) attribution =
      transitionsOf history attribution ++
        ((acceptedTransition call).bind fun moved =>
          if moved.1 = attribution then some moved.2 else none).toList := by
  simp only [transitionsOf, List.filterMap_append, List.filterMap_cons, List.filterMap_nil]
  split <;> simp_all

variable
  {call : Call}

theorem transitionsOf_snoc_of_none
    (history : List Call) (silent : acceptedTransition call = none) (attribution : Attribution) :
    transitionsOf (history ++ [call]) attribution =
      transitionsOf history attribution := by
  simp [transitionsOf_snoc, silent]

variable
  {attribution : Attribution}
  {transition : Transition}

theorem transitionsOf_snoc_self
    (history : List Call) (moved : acceptedTransition call = some (attribution, transition)) :
    transitionsOf (history ++ [call]) attribution =
      transitionsOf history attribution ++ [transition] := by
  simp [transitionsOf_snoc, moved]

theorem transitionsOf_snoc_of_ne
    (history : List Call) {attribution other : Attribution}
    (moved : acceptedTransition call = some (attribution, transition))
    (different : other ≠ attribution) :
    transitionsOf (history ++ [call]) other = transitionsOf history other := by
  simp [transitionsOf_snoc, moved, Ne.symm different]

/-! ## What one call can do -/

/-- The counters after a call: the owner and the named model move together by
the two amounts, and every other model keeps its counters. -/
structure CountersMove (fold next : UsageCoverageFold) (name : String)
    (pending unknown : Int) : Prop where
  totalPending : next.total.pendingInvocations = fold.total.pendingInvocations + pending
  totalUnknown : next.total.unknownCalls = fold.total.unknownCalls + unknown
  model : ∀ other,
    (next.model other).pendingInvocations =
        (fold.model other).pendingInvocations +
          (if other = name then pending else 0) ∧
      (next.model other).unknownCalls =
        (fold.model other).unknownCalls + (if other = name then unknown else 0)
  sumPending :
    next.models.total (fun _ coverage => coverage.pendingInvocations) =
      fold.models.total (fun _ coverage => coverage.pendingInvocations) + pending
  sumUnknown :
    next.models.total (fun _ coverage => coverage.unknownCalls) =
      fold.models.total (fun _ coverage => coverage.unknownCalls) + unknown

namespace CountersMove

/-- Weights of absent models agree with the counters created for them. -/
private theorem weightAt_model (fold : UsageCoverageFold) (name : String) :
    fold.models.weightAt (fun _ coverage => coverage.pendingInvocations) name =
        (fold.model name).pendingInvocations ∧
      fold.models.weightAt (fun _ coverage => coverage.unknownCalls) name =
        (fold.model name).unknownCalls := by
  cases found : fold.models.get name <;>
    simp [OrderedMap.weightAt, UsageCoverageFold.model, UsageCoverage.empty, found]

/-- Shifting the counters of a model moves exactly these counters. -/
theorem of_adjust (fold : UsageCoverageFold) (name : String) (pending unknown : Int) :
    CountersMove fold (fold.adjust name pending unknown) name pending unknown where
  totalPending := rfl
  totalUnknown := rfl
  model := by
    intro other
    by_cases same : other = name
    · simp [UsageCoverageFold.adjust, UsageCoverageFold.model, same]
    · simp [UsageCoverageFold.adjust, UsageCoverageFold.model,
        OrderedMap.get_set, same, UsageCoverage.adjust, UsageCoverage.empty]
  sumPending := by
    simp only [UsageCoverageFold.adjust, OrderedMap.total_set,
      (weightAt_model fold name).1, UsageCoverage.adjust_pendingInvocations]
    omega
  sumUnknown := by
    simp only [UsageCoverageFold.adjust, OrderedMap.total_set,
      (weightAt_model fold name).2, UsageCoverage.adjust_unknownCalls]
    omega

/-- Moves of the same model compose. -/
theorem trans
    {first second third : UsageCoverageFold} {name : String}
    {pending pending' unknown unknown' : Int}
    (earlier : CountersMove first second name pending unknown)
    (later : CountersMove second third name pending' unknown') :
    CountersMove first third name (pending + pending') (unknown + unknown') where
  totalPending := by
    rw [later.totalPending, earlier.totalPending, Int.add_assoc]
  totalUnknown := by
    rw [later.totalUnknown, earlier.totalUnknown, Int.add_assoc]
  model := by
    intro other
    rw [(later.model other).1, (later.model other).2, (earlier.model other).1,
      (earlier.model other).2]
    split <;> omega
  sumPending := by rw [later.sumPending, earlier.sumPending, Int.add_assoc]
  sumUnknown := by rw [later.sumUnknown, earlier.sumUnknown, Int.add_assoc]

theorem of_counters_eq
    {fold fold' next next' : UsageCoverageFold} {name : String} {pending unknown : Int}
    (move : CountersMove fold next name pending unknown) (foldTotal : fold'.total = fold.total)
    (foldModels : fold'.models = fold.models) (nextTotal : next'.total = next.total)
    (nextModels : next'.models = next.models) :
    CountersMove fold' next' name pending unknown where
  totalPending := by rw [nextTotal, foldTotal, move.totalPending]
  totalUnknown := by rw [nextTotal, foldTotal, move.totalUnknown]
  model := by
    intro other
    simp only [UsageCoverageFold.model, nextTotal, nextModels, foldTotal, foldModels]
    exact move.model other
  sumPending := by rw [nextModels, foldModels, move.sumPending]
  sumUnknown := by rw [nextModels, foldModels, move.sumUnknown]

/-- A step that keeps the per-model counters moves nothing. -/
theorem none_of_models_eq {fold next : UsageCoverageFold}
    (totalPending : next.total.pendingInvocations = fold.total.pendingInvocations)
    (totalUnknown : next.total.unknownCalls = fold.total.unknownCalls)
    (models : next.models = fold.models)
    (name : String) :
    CountersMove fold next name 0 0 where
  totalPending := by rw [totalPending, Int.add_zero]
  totalUnknown := by rw [totalUnknown, Int.add_zero]
  model := by
    intro other
    simp only [UsageCoverageFold.model, models, ite_self, Int.add_zero]
    cases fold.models.get other <;> simp [UsageCoverage.empty]
  sumPending := by rw [models, Int.add_zero]
  sumUnknown := by rw [models, Int.add_zero]

end CountersMove

/-- Everything that one call can do to the fold. -/
inductive Effect (fold : UsageCoverageFold) (call : Call)
    (next : UsageCoverageFold) : Prop
  /-- Nothing was accepted: no counter moves and no entry appears. -/
  | silent :
      acceptedPending call = none →
      acceptedTransition call = none →
      (∀ name, CountersMove fold next name 0 0) →
      (∀ key entry, next.pending.get key = some entry →
        fold.pending.get key = some entry) →
      next.highWater = fold.highWater →
      Effect fold call next
  /-- A pending call was accepted. -/
  | entered (name : String) (invocation : UsageInvocation) :
      acceptedPending call = some (name, invocation) →
      acceptedTransition call = none →
      fold.highWater < invocation.ordinal →
      CountersMove fold next name 1 0 →
      next.pending = fold.pending.set (keyOf invocation)
        { model := name, invocation, state := .pending } →
      next.highWater = invocation.ordinal →
      Effect fold call next
  /-- A disposition or completion was accepted for an open entry. -/
  | moved (name : String) (invocation : UsageInvocation) (transition : Transition)
      (entry : PendingEntry) :
      acceptedPending call = none →
      acceptedTransition call = some ((name, invocation), transition) →
      fold.openEntry name invocation = some entry →
      CountersMove fold next name (-indicator (entry.state == .pending))
        (indicator (transition == .disposed .incomplete) -
          indicator (entry.state == .unknown)) →
      (next.pending = fold.pending.delete (keyOf invocation) ∨
        transition = .disposed .incomplete ∧
          next.pending = fold.pending.set (keyOf invocation)
            { entry with state := .unknown }) →
      next.highWater = fold.highWater →
      Effect fold call next

private theorem Effect.of_eq
    (fold : UsageCoverageFold) (pending : acceptedPending call = none)
    (transition : acceptedTransition call = none) :
    Effect fold call fold :=
  .silent pending transition (CountersMove.none_of_models_eq rfl rfl rfl)
    (fun _ _ found => found) rfl

private theorem effect_start (fold : UsageCoverageFold) (basis : UsageCoverageBasis) :
    Effect fold (.start basis, (perform fold (.start basis)).1)
      (perform fold (.start basis)).2 := by
  by_cases started : fold.started
  · simp only [perform, UsageCoverageFold.start, started, if_true]
    exact .of_eq fold rfl rfl
  · simp only [perform, UsageCoverageFold.start, started, if_false, Bool.false_eq_true]
    exact .silent rfl rfl (CountersMove.none_of_models_eq rfl rfl rfl)
      (fun _ _ found => found) rfl

private theorem effect_pending
    (fold : UsageCoverageFold) (name : String) (invocation : UsageInvocation) :
    Effect fold (.pending name invocation, (perform fold (.pending name invocation)).1)
      (perform fold (.pending name invocation)).2 := by
  by_cases stale : invocation.ordinal ≤ fold.highWater
  · simp only [perform, UsageCoverageFold.recordPending, stale, if_true]
    exact .of_eq fold rfl rfl
  · simp only [perform, UsageCoverageFold.recordPending, stale, if_false]
    exact .entered name invocation rfl rfl (Nat.lt_of_not_le stale)
      ((CountersMove.of_adjust fold name 1 0).of_counters_eq rfl rfl rfl rfl)
      rfl rfl

private theorem effect_disposition
    (fold : UsageCoverageFold) (name : String) (invocation : UsageInvocation)
    (disposition : UsageDisposition) (receiptPending : Bool) :
    Effect fold
      (.disposition name invocation disposition receiptPending,
        (perform fold (.disposition name invocation disposition receiptPending)).1)
      (perform fold
        (.disposition name invocation disposition receiptPending)).2 := by
  cases found : fold.openEntry name invocation with
  | none =>
    simp only [perform, UsageCoverageFold.disposition, found]
    exact .of_eq fold rfl rfl
  | some entry =>
    cases state : entry.state with
    | unknown =>
      by_cases refused : disposition ≠ .incomplete ∨ receiptPending
      · simp only [perform, UsageCoverageFold.disposition, found, state, refused, if_true]
        exact .of_eq fold rfl rfl
      · simp only [perform, UsageCoverageFold.disposition, found, state, refused, if_false]
        obtain rfl : disposition = .incomplete := by
          by_contra different
          exact refused (Or.inl different)
        refine .moved name invocation (.disposed .incomplete) entry rfl rfl
          found ?_ (Or.inl rfl) rfl
        rw [state]
        exact CountersMove.none_of_models_eq
          (show (fold.dropEntry invocation).total.pendingInvocations =
            fold.total.pendingInvocations from rfl) rfl rfl name
    | pending =>
      have left := CountersMove.of_adjust fold name (-1) 0
      by_cases incomplete : disposition = .incomplete
      · subst incomplete
        have moved := left.trans (CountersMove.of_adjust (fold.adjust name (-1) 0) name 0 1)
        cases receiptPending with
        | true =>
          simp only [perform, UsageCoverageFold.disposition, found, state, if_true]
          refine .moved name invocation (.disposed .incomplete) entry rfl
            rfl found ?_ (Or.inr ⟨rfl, ?_⟩) rfl
          · rw [state]
            exact moved.of_counters_eq rfl rfl rfl rfl
          · rw [← ((fold.openEntry_eq_some_iff name invocation entry).mp found).2.2]
            rfl
        | false =>
          simp only [perform, UsageCoverageFold.disposition, found, state,
            if_true, Bool.false_eq_true, if_false]
          refine .moved name invocation (.disposed .incomplete) entry rfl
            rfl found ?_ (Or.inl rfl) rfl
          rw [state]
          exact moved.of_counters_eq rfl rfl rfl rfl
      · simp only [perform, UsageCoverageFold.disposition, found, state, incomplete, if_false]
        refine .moved name invocation (.disposed disposition) entry rfl rfl
          found ?_ (Or.inl rfl) rfl
        have closed : (Transition.disposed disposition ==
            .disposed .incomplete) = false := by
          simpa using incomplete
        rw [state, closed]
        exact left.of_counters_eq rfl rfl rfl rfl

private theorem effect_complete
    (fold : UsageCoverageFold) (name : String) (invocation : UsageInvocation) :
    Effect fold (.complete name invocation, (perform fold (.complete name invocation)).1)
      (perform fold (.complete name invocation)).2 := by
  cases found : fold.openEntry name invocation with
  | none =>
    simp only [perform, UsageCoverageFold.complete, found]
    exact .of_eq fold rfl rfl
  | some entry =>
    cases state : entry.state with
    | pending =>
      simp only [perform, UsageCoverageFold.complete, found, state]
      have left := CountersMove.of_adjust fold name (-1) 0
      refine .moved name invocation .completed entry rfl rfl found ?_ (Or.inl rfl) rfl
      rw [state]
      exact left.of_counters_eq rfl rfl rfl rfl
    | unknown =>
      simp only [perform, UsageCoverageFold.complete, found, state]
      have left := CountersMove.of_adjust fold name 0 (-1)
      refine .moved name invocation .completed entry rfl rfl found ?_ (Or.inl rfl) rfl
      rw [state]
      exact left.of_counters_eq rfl rfl rfl rfl

variable
  {fold next : UsageCoverageFold}

theorem Step.effect (step : Step fold call next) :
    Effect fold call next := by
  obtain ⟨operation, outcome⟩ := call
  have answered : (perform fold operation).1 = outcome := congrArg Prod.fst step
  have reached : (perform fold operation).2 = next := congrArg Prod.snd step
  rw [← answered, ← reached]
  cases operation with
  | start basis => exact effect_start fold basis
  | pending name invocation => exact effect_pending fold name invocation
  | disposition name invocation disposition receiptPending =>
    exact effect_disposition fold name invocation disposition receiptPending
  | complete name invocation => exact effect_complete fold name invocation
  | retire =>
    exact .silent rfl rfl (CountersMove.none_of_models_eq rfl rfl rfl)
      (fun _ _ found => by simp [perform, UsageCoverageFold.retire] at found)
      rfl

/-! ## The counters agree with the history -/

/-- The counters of a fold count the calls that led to it. -/
structure Counted (history : List Call) (fold : UsageCoverageFold) : Prop where
  totalPending : fold.total.pendingInvocations = countOf (fun _ => true) (awaits history) history
  totalUnknown : fold.total.unknownCalls =
    countOf (fun _ => true) (endsIncomplete history) history
  model : ∀ name,
    (fold.model name).pendingInvocations =
        countOf (· == name) (awaits history) history ∧
      (fold.model name).unknownCalls = countOf (· == name) (endsIncomplete history) history
  sumPending : fold.total.pendingInvocations =
    fold.models.total fun _ coverage => coverage.pendingInvocations
  sumUnknown : fold.total.unknownCalls = fold.models.total fun _ coverage => coverage.unknownCalls

/-- Agreement of a fold with the calls that led to it. -/
structure Accounts (history : List Call) (fold : UsageCoverageFold) : Prop
    extends Counted history fold where
  distinct : ((acceptedPendings history).map fun attribution =>
    attribution.2.ordinal).Nodup
  bounded : ∀ attribution ∈ acceptedPendings history,
    0 < attribution.2.ordinal ∧ attribution.2.ordinal ≤ fold.highWater
  introduced : ∀ attribution, transitionsOf history attribution ≠ [] →
    attribution ∈ acceptedPendings history
  retained : ∀ key entry, fold.pending.get key = some entry →
    key = keyOf entry.invocation ∧
    (entry.model, entry.invocation) ∈ acceptedPendings history ∧
    awaits history (entry.model, entry.invocation) =
      (entry.state == .pending) ∧
    endsIncomplete history (entry.model, entry.invocation) = (entry.state == .unknown)

theorem accounts_fresh : Accounts [] UsageCoverageFold.fresh where
  distinct := List.nodup_nil
  bounded := by simp [acceptedPendings]
  introduced := by simp [transitionsOf]
  retained := by simp [UsageCoverageFold.fresh]
  totalPending := rfl
  totalUnknown := rfl
  model := by
    intro name
    exact ⟨rfl, rfl⟩
  sumPending := rfl
  sumUnknown := rfl

private theorem readings_of_silent
    (history : List Call) (pending : acceptedPending call = none)
    (transition : acceptedTransition call = none) :
    acceptedPendings (history ++ [call]) = acceptedPendings history ∧
      awaits (history ++ [call]) = awaits history ∧
      endsIncomplete (history ++ [call]) = endsIncomplete history := by
  refine ⟨by simp [acceptedPendings_snoc, pending], ?_, ?_⟩ <;>
    funext attribution <;>
    simp [awaits, endsIncomplete, transitionsOf_snoc_of_none _ transition]

variable
  {history : List Call}

/-- The counters go on counting where they and the counts of the calls move alike. -/
theorem Counted.move
    {name : String} {pending unknown : Int} (counted : Counted history fold)
    (move : CountersMove fold next name pending unknown)
    (awaiting : ∀ select, countOf select (awaits (history ++ [call])) (history ++ [call]) =
      countOf select (awaits history) history + if select name then pending else 0)
    (incomplete : ∀ select,
      countOf select (endsIncomplete (history ++ [call])) (history ++ [call]) =
        countOf select (endsIncomplete history) history + if select name then unknown else 0) :
    Counted (history ++ [call]) next where
  totalPending := by
    rw [move.totalPending, counted.totalPending, awaiting]
    simp
  totalUnknown := by
    rw [move.totalUnknown, counted.totalUnknown, incomplete]
    simp
  model := by
    intro other
    rw [(move.model other).1, (move.model other).2, (counted.model other).1,
      (counted.model other).2, awaiting, incomplete]
    by_cases same : other = name
    · simp [same]
    · simp [same, Ne.symm same]
  sumPending := by rw [move.totalPending, move.sumPending, counted.sumPending]
  sumUnknown := by rw [move.totalUnknown, move.sumUnknown, counted.sumUnknown]

theorem accounts_silent
    (accounts : Accounts history fold) (pending : acceptedPending call = none)
    (transition : acceptedTransition call = none)
    (counters : ∀ name, CountersMove fold next name 0 0)
    (entries : ∀ key entry, next.pending.get key = some entry →
      fold.pending.get key = some entry)
    (highWater : next.highWater = fold.highWater) :
    Accounts (history ++ [call]) next := by
  obtain ⟨pendings, awaiting, incomplete⟩ :=
    readings_of_silent history pending transition
  have counts : ∀ select property,
      countOf select property (history ++ [call]) =
        countOf select property history := by
    intro select property
    simp [countOf, pendings]
  exact
    { toCounted := accounts.move (counters "") (fun _ => by simp [counts, awaiting])
        fun _ => by simp [counts, incomplete]
      distinct := by rw [pendings]; exact accounts.distinct
      bounded := by rw [pendings, highWater]; exact accounts.bounded
      introduced := by
        intro attribution moved
        rw [transitionsOf_snoc_of_none _ transition] at moved
        rw [pendings]
        exact accounts.introduced attribution moved
      retained := by
        intro key entry found
        rw [pendings, awaiting, incomplete]
        exact accounts.retained key entry (entries key entry found) }

/-- The count after an accepted pending call: the new invocation joins with
the value that the property has for it. -/
private theorem countOf_entered
    (pending : acceptedPending call = some attribution) (select : String → Bool)
    (property : Attribution → Bool) :
    countOf select property (history ++ [call]) =
      countOf select property history +
        indicator (select attribution.1 && property attribution) := by
  simp only [countOf, acceptedPendings_snoc, pending, Option.toList_some,
    List.countP_append, List.countP_singleton]
  cases select attribution.1 && property attribution <;> simp

theorem accounts_entered
    {name : String} {invocation : UsageInvocation} (accounts : Accounts history fold)
    (pending : acceptedPending call = some (name, invocation))
    (transition : acceptedTransition call = none)
    (increasing : fold.highWater < invocation.ordinal) (move : CountersMove fold next name 1 0)
    (entries : next.pending = fold.pending.set (keyOf invocation)
      { model := name, invocation, state := .pending })
    (highWater : next.highWater = invocation.ordinal) :
    Accounts (history ++ [call]) next := by
  have pendings : acceptedPendings (history ++ [call]) =
      acceptedPendings history ++ [(name, invocation)] := by
    simp [acceptedPendings_snoc, pending]
  have transitions : ∀ attribution,
      transitionsOf (history ++ [call]) attribution =
        transitionsOf history attribution :=
    transitionsOf_snoc_of_none history transition
  have awaiting : awaits (history ++ [call]) = awaits history := by
    funext attribution
    simp [awaits, transitions]
  have incomplete :
      endsIncomplete (history ++ [call]) = endsIncomplete history := by
    funext attribution
    simp [endsIncomplete, transitions]
  have isNew : (name, invocation) ∉ acceptedPendings history := fun present =>
    absurd (accounts.bounded _ present).2 (Nat.not_le_of_lt increasing)
  have untouched : transitionsOf history (name, invocation) = [] := by
    by_contra moved
    exact isNew (accounts.introduced _ moved)
  have awaitsNew : awaits history (name, invocation) = true := by
    simp [awaits, untouched]
  have completeNew : endsIncomplete history (name, invocation) = false := by
    simp [endsIncomplete, untouched]
  exact
    { toCounted := accounts.move move
        (fun _ => by simp [countOf_entered pending, awaiting, awaitsNew, indicator])
        fun _ => by simp [countOf_entered pending, incomplete, completeNew]
      distinct := by
        rw [pendings, List.map_append, List.nodup_append]
        refine ⟨accounts.distinct, by simp, ?_⟩
        intro ordinal present other single
        obtain ⟨attribution, member, rfl⟩ := List.mem_map.mp present
        obtain rfl : other = invocation.ordinal := by simpa using single
        have := (accounts.bounded attribution member).2
        omega
      bounded := by
        intro attribution member
        rw [highWater]
        rw [pendings, List.mem_append, List.mem_singleton] at member
        rcases member with earlier | rfl
        · have := accounts.bounded attribution earlier
          omega
        · exact ⟨Nat.zero_lt_of_lt increasing, Nat.le_refl _⟩
      introduced := by
        intro attribution moved
        rw [transitions] at moved
        rw [pendings]
        exact List.mem_append_left _ (accounts.introduced attribution moved)
      retained := by
        intro key entry found
        rw [entries, OrderedMap.get_set] at found
        rw [awaiting, incomplete, pendings]
        by_cases same : key = keyOf invocation
        · rw [if_pos same, Option.some.injEq] at found
          subst found
          exact ⟨same, by simp, awaitsNew, completeNew⟩
        · rw [if_neg same] at found
          obtain ⟨keyed, member, rest⟩ := accounts.retained key entry found
          exact ⟨keyed, List.mem_append_left _ member, rest⟩ }

/-- The count after an accepted transition: only the moved invocation may
change its contribution. -/
private theorem countOf_moved
    {before after : Attribution → Bool} (distinct : (acceptedPendings history).Nodup)
    (member : attribution ∈ acceptedPendings history) (pending : acceptedPending call = none)
    (agree : ∀ other, other ≠ attribution → after other = before other) (select : String → Bool) :
    countOf select after (history ++ [call]) =
      countOf select before history +
        (if select attribution.1 then
          indicator (after attribution) - indicator (before attribution)
        else 0) := by
  have pendings : acceptedPendings (history ++ [call]) =
      acceptedPendings history := by
    simp [acceptedPendings_snoc, pending]
  unfold countOf
  rw [pendings, countP_of_eq_off distinct member
    (fun other _ different => by rw [agree other different])]
  cases select attribution.1 <;> simp
  omega

theorem accounts_moved
    {name : String} {invocation : UsageInvocation} {entry : PendingEntry}
    (accounts : Accounts history fold) (pending : acceptedPending call = none)
    (moved : acceptedTransition call = some ((name, invocation), transition))
    (found : fold.openEntry name invocation = some entry)
    (move : CountersMove fold next name (-indicator (entry.state == .pending))
      (indicator (transition == .disposed .incomplete) - indicator (entry.state == .unknown)))
    (entries : next.pending = fold.pending.delete (keyOf invocation) ∨
      transition = .disposed .incomplete ∧
        next.pending = fold.pending.set (keyOf invocation)
          { entry with state := .unknown })
    (highWater : next.highWater = fold.highWater) :
    Accounts (history ++ [call]) next := by
  obtain ⟨stored, rfl, rfl⟩ :=
    (fold.openEntry_eq_some_iff name invocation entry).mp found
  obtain ⟨-, member, awaitsBefore, incompleteBefore⟩ :=
    accounts.retained _ entry stored
  have pendings : acceptedPendings (history ++ [call]) =
      acceptedPendings history := by
    simp [acceptedPendings_snoc, pending]
  have distinct : (acceptedPendings history).Nodup :=
    List.Nodup.of_map _ accounts.distinct
  have transitionsSelf := transitionsOf_snoc_self history moved
  have transitionsOther : ∀ other, other ≠ (entry.model, entry.invocation) →
      transitionsOf (history ++ [call]) other = transitionsOf history other :=
    fun other different => transitionsOf_snoc_of_ne history moved different
  have awaitsAfter : awaits (history ++ [call])
      (entry.model, entry.invocation) = false := by
    simp [awaits, transitionsSelf]
  have incompleteAfter : endsIncomplete (history ++ [call])
      (entry.model, entry.invocation) =
        (transition == .disposed .incomplete) := by
    rw [endsIncomplete, transitionsSelf, List.getLast?_append]
    rfl
  have awaitsOther : ∀ other, other ≠ (entry.model, entry.invocation) →
      awaits (history ++ [call]) other = awaits history other := by
    intro other different
    simp [awaits, transitionsOther other different]
  have incompleteOther : ∀ other, other ≠ (entry.model, entry.invocation) →
      endsIncomplete (history ++ [call]) other =
        endsIncomplete history other := by
    intro other different
    simp [endsIncomplete, transitionsOther other different]
  -- An entry kept under another key belongs to another invocation.
  have retainedOther : ∀ key other, fold.pending.get key = some other →
      key ≠ keyOf entry.invocation →
      (other.model, other.invocation) ≠ (entry.model, entry.invocation) := by
    intro key other kept different equal
    apply different
    rw [(accounts.retained key other kept).1]
    exact congrArg (fun attribution => keyOf attribution.2) equal
  exact
    { toCounted := accounts.move move
        (fun _ => by simp [countOf_moved distinct member pending awaitsOther, awaitsAfter,
          awaitsBefore])
        fun _ => by simp [countOf_moved distinct member pending incompleteOther,
          incompleteAfter, incompleteBefore]
      distinct := by rw [pendings]; exact accounts.distinct
      bounded := by rw [pendings, highWater]; exact accounts.bounded
      introduced := by
        intro attribution transitions
        rw [pendings]
        by_cases same : attribution = (entry.model, entry.invocation)
        · exact same ▸ member
        · rw [transitionsOther attribution same] at transitions
          exact accounts.introduced attribution transitions
      retained := by
        intro key other kept
        rw [pendings]
        by_cases same : key = keyOf entry.invocation
        · rcases entries with deleted | ⟨incomplete, replaced⟩
          · rw [deleted, same, OrderedMap.get_delete_self] at kept
            simp at kept
          · rw [replaced, same, OrderedMap.get_set_self, Option.some.injEq] at kept
            subst kept
            refine ⟨same, member, awaitsAfter, ?_⟩
            rw [incompleteAfter, incomplete]
            rfl
        · have earlier : fold.pending.get key = some other := by
            rcases entries with deleted | ⟨-, replaced⟩
            · rwa [deleted, OrderedMap.get_delete_of_ne _ same] at kept
            · rwa [replaced, OrderedMap.get_set_of_ne _ same] at kept
          have different := retainedOther key other earlier same
          rw [awaitsOther _ different, incompleteOther _ different]
          exact accounts.retained key other earlier }

theorem accounts_step (accounts : Accounts history fold) (step : Step fold call next) :
    Accounts (history ++ [call]) next := by
  cases step.effect with
  | silent pending transition counters entries highWater =>
    exact accounts_silent accounts pending transition counters entries highWater
  | entered name invocation pending transition increasing move entries
      highWater =>
      exact accounts_entered accounts pending transition increasing move entries highWater
  | moved name invocation transition entry pending moved found move entries
      highWater =>
      exact accounts_moved accounts pending moved found move entries highWater

variable {fold : UsageCoverageFold}

theorem accounts_run (run : Run Step .fresh history fold) :
    Accounts history fold :=
  run.invariant Accounts accounts_fresh fun _ _ _ _ _ accounts step => accounts_step accounts step

/-- The number of accepted pending calls is at most the high-water mark: the
ordinals are distinct and positive.  Ordinals are safe integers, so no counter
ever reaches the range in which an increment would round. -/
theorem acceptedPendings_length_le_highWater (accounts : Accounts history fold) :
    (acceptedPendings history).length ≤ fold.highWater := by
  have inRange :
      ((acceptedPendings history).map fun attribution =>
        attribution.2.ordinal).toFinset ⊆ Finset.Icc 1 fold.highWater := by
    intro ordinal present
    obtain ⟨attribution, member, rfl⟩ :=
      List.mem_map.mp (List.mem_toFinset.mp present)
    exact Finset.mem_Icc.mpr (accounts.bounded attribution member)
  have bound := Finset.card_le_card inRange
  rw [List.toFinset_card_of_nodup accounts.distinct, List.length_map, Nat.card_Icc] at bound
  omega

/-- Both totals together stay below the high-water mark. -/
theorem counters_le_highWater (accounts : Accounts history fold) :
    fold.total.pendingInvocations + fold.total.unknownCalls ≤
      fold.highWater := by
  have exclusive : ∀ list : List Attribution,
      list.countP (fun attribution => awaits history attribution) +
        list.countP (fun attribution => endsIncomplete history attribution) ≤
          list.length := by
    intro list
    induction list with
    | nil => simp
    | cons head tail ih =>
      have notBoth : awaits history head = true →
          endsIncomplete history head = false := by
        intro waiting
        simp only [awaits, List.isEmpty_iff] at waiting
        simp [endsIncomplete, waiting]
      simp only [List.countP_cons, List.length_cons]
      cases waiting : awaits history head with
      | true =>
        rw [notBoth waiting]
        simp
        omega
      | false =>
        cases endsIncomplete history head <;> simp <;> omega
  have total := exclusive (acceptedPendings history)
  have length := acceptedPendings_length_le_highWater accounts
  rw [accounts.totalPending, accounts.totalUnknown]
  simp only [countOf, Bool.true_and]
  omega

/-! ## Leaving the pending count -/

/-- The invocation that a disposition or completion names. -/
def subject : Operation → Option Attribution
  | .disposition model invocation _ _ => some (model, invocation)
  | .complete model invocation => some (model, invocation)
  | _ => none

/-- A call about the invocation at which the total pending count drops. -/
def departs (fold : UsageCoverageFold) (attribution : Attribution)
    (call : Call) : Bool :=
  subject call.1 == some attribution &&
    decide ((perform fold call.1).2.total.pendingInvocations < fold.total.pendingInvocations)

/-- How often calls about an invocation lower the total pending count. -/
def departures (attribution : Attribution)
    (fold : UsageCoverageFold) : List Call → Nat
  | [] => 0
  | call :: rest =>
    (departs fold attribution call).toNat + departures attribution (perform fold call.1).2 rest

theorem departures_snoc
    (attribution : Attribution) (call : Call) {start middle : UsageCoverageFold}
    (reached : history.foldl (fun fold call => (perform fold call.1).2) start = middle) :
    departures attribution start (history ++ [call]) =
      departures attribution start history +
        (departs middle attribution call).toNat := by
  induction history generalizing start with
  | nil =>
    subst reached
    simp [departures]
  | cons head tail ih =>
    simp only [List.cons_append, departures]
    rw [ih reached, Nat.add_assoc]

theorem foldl_eq_of_run {start fold : UsageCoverageFold} (run : Run Step start history fold) :
    history.foldl (fun fold call => (perform fold call.1).2) start = fold := by
  induction run with
  | nil => rfl
  | snoc _ step ih =>
    rw [List.foldl_append, ih]
    exact congrArg Prod.snd step

theorem subject_of_acceptedTransition
    (moved : acceptedTransition call = some (attribution, transition)) :
    subject call.1 = some attribution := by
  unfold acceptedTransition at moved
  split at moved
  · cases moved
    rfl
  · cases moved
    rfl
  · cases moved

/-- A call about an invocation departs exactly at its first accepted
transition. -/
theorem departs_eq
    (accounts : Accounts history fold) (step : Step fold call next) (attribution : Attribution) :
    departs fold attribution call =
      (awaits history attribution &&
        !awaits (history ++ [call]) attribution) := by
  have reached : (perform fold call.1).2 = next := congrArg Prod.snd step
  unfold departs
  rw [reached]
  cases step.effect with
  | silent pending transition counters entries highWater =>
    have keeps := (counters "").totalPending
    have same : awaits (history ++ [call]) attribution =
        awaits history attribution := by
      simp [awaits, transitionsOf_snoc_of_none history transition]
    rw [keeps, same]
    simp
  | entered name invocation pending transition increasing move entries
      highWater =>
      have same : awaits (history ++ [call]) attribution =
          awaits history attribution := by
        simp [awaits, transitionsOf_snoc_of_none history transition]
      rw [move.totalPending, same]
      simp
  | moved name invocation transition entry pending moved found move entries
      highWater =>
      obtain ⟨stored, rfl, rfl⟩ :=
        (fold.openEntry_eq_some_iff name invocation entry).mp found
      obtain ⟨-, -, awaitsBefore, -⟩ := accounts.retained _ entry stored
      rw [subject_of_acceptedTransition moved, move.totalPending]
      by_cases same : attribution = (entry.model, entry.invocation)
      · subst same
        have awaitsAfter : awaits (history ++ [call])
            (entry.model, entry.invocation) = false := by
          simp [awaits, transitionsOf_snoc_self history moved]
        rw [awaitsBefore, awaitsAfter]
        cases entry.state with
        | pending => simp
        | unknown =>
          simp [show (PendingState.unknown == PendingState.pending) = false from rfl]
      · have unmoved : awaits (history ++ [call]) attribution =
            awaits history attribution := by
          simp [awaits, transitionsOf_snoc_of_ne history moved same]
        rw [unmoved]
        simp [Ne.symm same]

/-- Once moved, an invocation never awaits again. -/
theorem awaits_of_snoc (waiting : awaits (history ++ [call]) attribution = true) :
    awaits history attribution = true := by
  simp only [awaits, List.isEmpty_iff, transitionsOf_snoc, List.append_eq_nil_iff] at waiting
  simp [awaits, waiting.1]

/-- An invocation leaves the pending count once if any disposition or
completion of it was accepted, and never otherwise. -/
theorem departures_eq (run : Run Step .fresh history fold) (attribution : Attribution) :
    departures attribution .fresh history =
      (!awaits history attribution).toNat := by
  induction run with
  | nil => rfl
  | @snoc history middle finish call earlier step ih =>
    rw [departures_snoc attribution call (foldl_eq_of_run earlier), ih,
      departs_eq (accounts_run earlier) step attribution]
    cases after : awaits (history ++ [call]) attribution with
    | false => cases awaits history attribution <;> rfl
    | true =>
      rw [awaits_of_snoc after]
      rfl

/-! ## Usage-coverage accounting -/

/-- For every sequence of calls on a fresh fold, the counters are never
negative, the totals are the sums over the models, they count the accepted
invocations by their accepted transitions, and every accepted invocation
leaves the pending count exactly once, at its first accepted transition. -/
theorem coverage_accounting
    (history : List Call) (fold : UsageCoverageFold) (run : Run Step .fresh history fold) :
    (0 ≤ fold.total.pendingInvocations ∧ 0 ≤ fold.total.unknownCalls ∧
      ∀ name coverage, fold.models.get name = some coverage →
        0 ≤ coverage.pendingInvocations ∧ 0 ≤ coverage.unknownCalls) ∧
    (fold.total.pendingInvocations =
        fold.models.total (fun _ coverage => coverage.pendingInvocations) ∧
      fold.total.unknownCalls =
        fold.models.total (fun _ coverage => coverage.unknownCalls)) ∧
    (fold.total.pendingInvocations =
        ((acceptedPendings history).countP fun attribution =>
          transitionsOf history attribution = []) ∧
      fold.total.unknownCalls =
        ((acceptedPendings history).countP fun attribution =>
          (transitionsOf history attribution).getLast? =
            some (.disposed .incomplete))) ∧
    ∀ attribution ∈ acceptedPendings history,
      departures attribution .fresh history =
        if transitionsOf history attribution = [] then 0 else 1 := by
  have accounts := accounts_run run
  have pendingCount : fold.total.pendingInvocations =
      ((acceptedPendings history).countP fun attribution =>
        transitionsOf history attribution = []) := by
    rw [accounts.totalPending, countOf]
    congr 1
    apply List.countP_congr
    intro attribution _
    simp [awaits]
  have unknownCount : fold.total.unknownCalls =
      ((acceptedPendings history).countP fun attribution =>
        (transitionsOf history attribution).getLast? =
          some (.disposed .incomplete)) := by
    rw [accounts.totalUnknown, countOf]
    congr 1
    apply List.countP_congr
    intro attribution _
    simp [endsIncomplete]
  refine ⟨⟨?_, ?_, ?_⟩, ⟨accounts.sumPending, accounts.sumUnknown⟩,
    ⟨pendingCount, unknownCount⟩, ?_⟩
  · rw [pendingCount]
    exact Int.natCast_nonneg _
  · rw [unknownCount]
    exact Int.natCast_nonneg _
  · intro name coverage found
    have counters := accounts.model name
    simp only [UsageCoverageFold.model, found, Option.getD_some] at counters
    rw [counters.1, counters.2]
    exact ⟨countOf_nonneg _ _ _, countOf_nonneg _ _ _⟩
  · intro attribution _
    rw [departures_eq run attribution]
    cases transitions : transitionsOf history attribution with
    | nil | cons first rest => simp [awaits, transitions]

/-- An invocation whose receipt arrives late: pending, unknown with the receipt
still open, then complete, each sent twice. -/
def lateReceipt : List Operation :=
  let invocation : UsageInvocation :=
    { producerId := "p", ordinal := 1, dispatchId := "d", round := 0,
      chainAttempt := 1 }
  [ .pending "m" invocation, .pending "m" invocation,
    .disposition "m" invocation .incomplete true,
    .disposition "m" invocation .incomplete true,
    .complete "m" invocation,
    .complete "m" invocation ]

example : (replay perform .fresh lateReceipt).1.map Prod.snd =
    [.done, .threw .ordinalNotIncreasing, .answered true, .answered false,
      .answered true, .answered false] := by
  decide

theorem coverage_accounting_late_receipt :
    (replay perform .fresh lateReceipt).2.total.unknownCalls =
        (replay perform .fresh lateReceipt).2.models.total
          (fun _ coverage => coverage.unknownCalls) ∧
      ∀ attribution ∈ acceptedPendings (replay perform .fresh lateReceipt).1,
        departures attribution .fresh (replay perform .fresh lateReceipt).1 =
          if transitionsOf (replay perform .fresh lateReceipt).1 attribution = []
          then 0 else 1 :=
  have accounting := coverage_accounting _ _ (run_replay perform .fresh lateReceipt)
  ⟨accounting.2.1.2, accounting.2.2.2⟩

/-! ## Restarts -/

theorem ofSnapshot_snapshot (fold : UsageCoverageFold) :
    UsageCoverageFold.ofSnapshot fold.snapshot = fold.retire := by
  have models := OrderedMap.eq_of_entries (OrderedMap.entries_foldl_set_empty fold.models.nodupKeys)
  rw [UsageCoverageFold.ofSnapshot, UsageCoverageFold.snapshot, models]
  rfl

/-- A call, or a restart from the snapshot that a checkpoint holds. -/
def survive
    (fold : UsageCoverageFold) : Option Operation → UsageCoverageFold
  | some operation => (perform fold operation).2
  | none => .ofSnapshot fold.snapshot

/-- However calls and restarts follow each other, a restart counts like a fencing,
the totals are the sums over the models, and no more invocations are pending or
unknown than the ordinal reached. -/
theorem restarts_account (life : List (Option Operation)) :
    let fold := life.foldl survive .fresh
    fold = (replay perform .fresh (life.map (·.getD .retire))).2 ∧
      fold.total.pendingInvocations =
          fold.models.total (fun _ coverage => coverage.pendingInvocations) ∧
        fold.total.unknownCalls =
            fold.models.total (fun _ coverage => coverage.unknownCalls) ∧
          fold.total.pendingInvocations + fold.total.unknownCalls ≤ fold.highWater := by
  have replayed :
      life.foldl survive .fresh = (replay perform .fresh (life.map (·.getD .retire))).2 := by
    induction life using List.reverseRecOn with
    | nil => rfl
    | append_singleton life event ih =>
      rw [List.foldl_append, List.map_append, List.map_singleton, replay_snoc, ih]
      cases event with
      | none => exact ofSnapshot_snapshot _
      | some operation => rfl
  have accounts := accounts_run (run_replay perform .fresh (life.map (·.getD .retire)))
  rw [← replayed] at accounts
  exact ⟨replayed, accounts.sumPending, accounts.sumUnknown, counters_le_highWater accounts⟩

end Relavium.Usage
