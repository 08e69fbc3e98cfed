import Relavium.Llm.AttemptEvents

/-!
# What is seen of a plan

The events of a call lie at their entries in the order of the plan, and every entry that
is seen or passed has left a record.  What the attempts of an entry show, a visit of it
shows, and so does the whole call: the verdicts, the refreshes, the surfaced error and how
the ending follows from the records.
-/

namespace Relavium.Llm

open Library

variable {ε : Type}

/-! ## What a call shows of an entry -/

section Entries

variable
  {entry : FallbackPlanEntry}
  {index : Nat}
  {view later : CallView ε}
  {events : List (ChainEvent ε)}
  {ending : Option (CallEnding ε)}

theorem Visit.located (visit : Visit entry index view events ending later) :
    ∀ event ∈ events, event.index = index := by
  cases visit with
  | cutShort => simp
  | skipped | refused | unmaterialized => simp [ChainEvent.index]
  | attempted attempts => exact attempts.located

/-- The attempt budget of an entry: its own, and one more for each refresh granted. -/
theorem Visit.invocations_le (visit : Visit entry index view events ending later) :
    invocations events ≤ entry.maxAttempts + grants events := by
  cases visit with
  | cutShort | skipped | refused | unmaterialized => exact Nat.zero_le _
  | attempted attempts => exact attempts.invocations_le

theorem Visit.refreshes_le
    (visit : Visit entry index view events ending later) (provider : ProviderId) :
    refreshes provider events + refreshesSpent view.refreshed provider ≤
      refreshesSpent later.refreshed provider := by
  cases visit with
  | cutShort | skipped | refused | unmaterialized => exact Nat.le_of_eq (Nat.zero_add _)
  | attempted attempts => exact attempts.refreshes_le provider

theorem Visit.grants_le (visit : Visit entry index view events ending later) :
    grants events ≤ 1 := by
  cases visit with
  | cutShort | skipped | refused | unmaterialized => exact Nat.zero_le _
  | attempted attempts =>
    have := attempts.grants_le
    have := attempts.refreshes_le entry.provider.id
    have := refreshesSpent_le_one later.refreshed entry.provider.id
    omega

theorem Visit.reached (visit : Visit entry index view events ending later) :
    later.reached = view.reached ++ List.replicate (invocations events) entry := by
  cases visit with
  | cutShort | skipped | refused | unmaterialized => exact (List.append_nil _).symm
  | attempted attempts => exact attempts.reached

/-- A visit leaves a record, unless the call is cut short before the first attempt or
that never ends. -/
theorem Visit.recorded
    (visit : Visit entry index view events ending later) (positive : 0 < entry.maxAttempts) :
    records events ≠ [] ∨
      events = [] ∧ ending ≠ none ∨
      events = [.invoked index] ∧ ending = some .unanswered := by
  cases visit with
  | cutShort => exact .inr (.inl ⟨rfl, by simp⟩)
  | skipped | refused | unmaterialized => simp
  | attempted attempts =>
    refine attempts.recorded.imp_right (Or.imp_left ?_)
    rintro ⟨isEmpty, goesOn⟩
    exact ⟨isEmpty, fun isNone => positive.ne' (goesOn isNone)⟩

theorem Visit.skipped_or (visit : Visit entry index view events ending later) :
    (∃ record reason, events = [.recorded index record] ∧ record.outcome = .skipped reason) ∨
      skipReasons events = [] := by
  cases visit with
  | cutShort => exact .inr rfl
  | @skipped record reason isSkipped => exact .inl ⟨record, reason, rfl, isSkipped⟩
  | refused isFailed => exact .inr (by simp [skipReasons, AttemptRecord.of_failed isFailed])
  | unmaterialized isFailed =>
    exact .inr (by simp [skipReasons, AttemptRecord.of_failed isFailed])
  | attempted attempts => exact .inr attempts.skipReasons_eq

theorem Visit.pairwise (visit : Visit entry index view events ending later) :
    events.Pairwise MayFollow := by
  cases visit with
  | cutShort => exact .nil
  | skipped | refused | unmaterialized => exact List.pairwise_singleton ..
  | attempted attempts => exact attempts.pairwise

theorem Visit.verdict
    (visit : Visit entry index view events ending later) {place : Nat} {error : LlmError ε}
    {renewed : Bool} {verdict : Verdict}
    (isJudged : .judged place error renewed verdict ∈ events) :
    verdict = verdictOf error renewed ∧
      (verdict = .fatal → ending = some (.fatal error)) ∧
      (verdict = .advance → ending = none) := by
  cases visit with
  | cutShort | skipped | refused | unmaterialized => simp at isJudged
  | attempted attempts => exact attempts.verdict isJudged

theorem Visit.view_eq
    (visit : Visit entry index view events ending later) (goesOn : ending = none) :
    later.lastError = (failures events).getLast?.or view.lastError ∧
      later.skipped = view.skipped ++ skipReasons events := by
  cases visit with
  | cutShort => cases goesOn
  | skipped isSkipped =>
    simp [failures, skipReasons, AttemptRecord.error, AttemptRecord.skipReason, isSkipped]
  | refused => cases goesOn
  | unmaterialized isFailed =>
    simp [failures, skipReasons, AttemptRecord.of_failed isFailed]
  | attempted attempts =>
    rw [attempts.skipReasons_eq, List.append_nil]
    exact attempts.view_eq goesOn

theorem Visit.surfaced
    (visit : Visit entry index view events ending later) {final : CallEnding ε}
    (isFinal : ending = some final) {error : LlmError ε} (surfaces : final.error = some error) :
    (failures events).getLast? = some error := by
  cases visit with
  | @cutShort ending isCut =>
    obtain rfl := Option.some.inj isFinal
    cases ending <;> simp [CallEnding.cutShort, CallEnding.error] at isCut surfaces
  | skipped => cases isFinal
  | refused isFailed =>
    cases isFinal
    cases surfaces
    simp [failures, AttemptRecord.of_failed isFailed]
  | unmaterialized => cases isFinal
  | attempted attempts => exact attempts.surfaced isFinal surfaces

theorem Visit.follows
    (visit : Visit entry index view events ending later) {final : CallEnding ε}
    (isFinal : ending = some final) :
    final.Follows events ∧ ∀ error, final ≠ .exhausted error := by
  cases visit with
  | @cutShort ending isCut =>
    obtain rfl := Option.some.inj isFinal
    cases ending <;> simp [CallEnding.cutShort, CallEnding.Follows] at isCut ⊢
  | skipped => cases isFinal
  | @refused record error isFailed =>
    cases isFinal
    exact ⟨⟨index, record, rfl, isFailed⟩, by simp⟩
  | unmaterialized => cases isFinal
  | attempted attempts => exact attempts.follows isFinal

theorem Visit.succeeded
    (visit : Visit entry index view events ending later) {record : AttemptRecord ε}
    (isSuccess : record.outcome = .succeeded) (member : record ∈ records events) :
    ending = some (.returned none) ∨ ending = some .thrown := by
  cases visit with
  | cutShort => simp [records] at member
  | skipped isSkipped =>
    obtain rfl := List.mem_singleton.mp member
    exact absurd (isSuccess.symm.trans isSkipped) (by simp)
  | refused isFailed | unmaterialized isFailed =>
    obtain rfl := List.mem_singleton.mp member
    exact absurd (isSuccess.symm.trans isFailed) (by simp)
  | attempted attempts => exact attempts.succeeded isSuccess member

theorem eventsAt_eq_self (located : ∀ event ∈ events, event.index = index) :
    eventsAt index events = events :=
  List.filter_eq_self.mpr fun event member => by simpa using located event member

theorem eventsAt_eq_nil (elsewhere : ∀ event ∈ events, event.index ≠ index) :
    eventsAt index events = [] :=
  List.filter_eq_nil_iff.mpr fun event member => by simpa using elsewhere event member

/-- The invocations of one entry. -/
theorem invokedEntries_of_located
    {plan : List FallbackPlanEntry} (isEntry : plan[index]? = some entry)
    (located : ∀ event ∈ events, event.index = index) :
    invokedEntries plan events = List.replicate (invocations events) entry := by
  induction events with
  | nil => rfl
  | cons event events ih =>
    have rest := ih fun other member => located other (List.mem_cons_of_mem _ member)
    have isHere := located event List.mem_cons_self
    cases event with
    | invoked place =>
      obtain rfl : place = index := isHere
      have one : invokedEntries plan ([.invoked place] : List (ChainEvent ε)) = [entry] := by
        simp [invokedEntries, ChainEvent.invocation?, isEntry]
      rw [← List.singleton_append, invokedEntries_append, invocations_append, one, rest,
        List.replicate_add]
      rfl
    | _ => exact rest

end Entries

/-! ## What a call shows of its plan -/

section Plans

variable
  {exhausted : List String → LlmError ε}
  {index : Nat}
  {plan : List FallbackPlanEntry}
  {view later : CallView ε}
  {events : List (ChainEvent ε)}
  {ending : CallEnding ε}

theorem Visits.located (visits : Visits exhausted index plan view events ending later) :
    ∀ event ∈ events, index ≤ event.index ∧ event.index < index + plan.length := by
  induction visits with
  | exhausted => simp
  | last visit =>
    intro event member
    rw [visit.located event member, List.length_cons]
    omega
  | next visit _ ih =>
    intro event member
    rw [List.length_cons]
    obtain here | rest := List.mem_append.mp member
    · rw [visit.located event here]
      omega
    · have := ih event rest
      omega

/-- The events at an entry that is seen are those of one visit, which ends as the call
does unless the call goes on. -/
theorem Visits.eventsAt_eq
    (visits : Visits exhausted index plan view events ending later) {place : Nat}
    {entry : FallbackPlanEntry} (isEntry : plan[place]? = some entry) :
    eventsAt (index + place) events = [] ∨
      ∃ before final after,
        Visit entry (index + place) before (eventsAt (index + place) events) final after ∧
          (final = none ∨ final = some ending) := by
  induction visits generalizing place with
  | exhausted => simp at isEntry
  | @last index head _ view later events ending visit =>
    cases place with
    | zero =>
      obtain rfl : head = entry := by simpa using isEntry
      rw [Nat.add_zero, eventsAt_eq_self visit.located]
      exact .inr ⟨view, some ending, later, visit, .inr rfl⟩
    | succ place =>
      left
      refine eventsAt_eq_nil fun event member => ?_
      rw [visit.located event member]
      omega
  | @next index head _ view middle _ events rest _ visit visits ih =>
    rw [eventsAt_append]
    cases place with
    | zero =>
      obtain rfl : head = entry := by simpa using isEntry
      have noMore : eventsAt index rest = [] := by
        refine eventsAt_eq_nil fun event member => ?_
        have := (visits.located event member).1
        omega
      rw [Nat.add_zero, eventsAt_eq_self visit.located, noMore, List.append_nil]
      exact .inr ⟨view, none, middle, visit, .inl rfl⟩
    | succ place =>
      have notHere : eventsAt (index + (place + 1)) events = [] := by
        refine eventsAt_eq_nil fun event member => ?_
        rw [visit.located event member]
        omega
      rw [notHere, List.nil_append, show index + (place + 1) = index + 1 + place by omega]
      exact ih (by simpa using isEntry)

/-- An entry that is passed has left a record. -/
theorem Visits.recorded
    (visits : Visits exhausted index plan view events ending later)
    (positive : ∀ entry ∈ plan, 0 < entry.maxAttempts) {place : Nat}
    (isPlace : place < plan.length)
    (passed : (∃ event ∈ events, index + place < event.index) ∨
      ∃ error, ending = .exhausted error) :
    records (eventsAt (index + place) events) ≠ [] := by
  induction visits generalizing place with
  | exhausted => simp at isPlace
  | last visit =>
    exfalso
    obtain ⟨event, member, isLater⟩ | ⟨error, rfl⟩ := passed
    · rw [visit.located event member] at isLater
      omega
    · exact (visit.follows rfl).2 error rfl
  | @next index head _ view middle _ events rest _ visit visits ih =>
    rw [eventsAt_append, records_append]
    cases place with
    | zero =>
      rw [Nat.add_zero, eventsAt_eq_self visit.located]
      obtain isRecorded | ⟨-, stops⟩ | ⟨-, stops⟩ :=
        visit.recorded (positive _ List.mem_cons_self)
      · exact fun none => isRecorded (List.append_eq_nil_iff.mp none).1
      · exact absurd rfl stops
      · cases stops
    | succ place =>
      intro none
      have stillPlace : place < _ := Nat.lt_of_succ_lt_succ isPlace
      refine ih (fun entry member => positive entry (List.mem_cons_of_mem _ member))
        stillPlace ?_ ?_
      · refine passed.imp_left ?_
        rintro ⟨event, member, isLater⟩
        obtain here | rest := List.mem_append.mp member
        · rw [visit.located event here] at isLater
          omega
        · exact ⟨event, rest, by omega⟩
      · rw [show index + 1 + place = index + (place + 1) by omega]
        exact (List.append_eq_nil_iff.mp none).2

theorem Visits.pairwise (visits : Visits exhausted index plan view events ending later) :
    events.Pairwise MayFollow := by
  induction visits with
  | exhausted => exact .nil
  | last visit => exact visit.pairwise
  | next visit visits ih =>
    refine List.pairwise_append.mpr ⟨visit.pairwise, ih, ?_⟩
    intro first isFirst second isSecond
    have isHere := visit.located first isFirst
    have isLater := (visits.located second isSecond).1
    refine ⟨by omega, ?_⟩
    rintro _ error renewed verdict rfl
    have goesOn := (visit.verdict isFirst).2.1
    simp only [ChainEvent.index] at isHere
    exact ⟨fun isFatal => absurd (goesOn isFatal) (by simp), fun _ => by omega⟩

theorem Visits.verdict
    (visits : Visits exhausted index plan view events ending later) {place : Nat}
    {error : LlmError ε} {renewed : Bool} {verdict : Verdict} :
    .judged place error renewed verdict ∈ events →
    verdict = verdictOf error renewed ∧ (verdict = .fatal → ending = .fatal error) := by
  induction visits with
  | exhausted => simp
  | last visit =>
    intro member
    obtain ⟨isVerdict, isFatal, -⟩ := visit.verdict member
    exact ⟨isVerdict, fun fatal => Option.some.inj (isFatal fatal)⟩
  | next visit _ ih =>
    intro member
    obtain here | rest := List.mem_append.mp member
    · obtain ⟨isVerdict, isFatal, -⟩ := visit.verdict here
      exact ⟨isVerdict, fun fatal => absurd (isFatal fatal) (by simp)⟩
    · exact ih rest

theorem Visits.refreshes_le
    (visits : Visits exhausted index plan view events ending later) (provider : ProviderId) :
    refreshes provider events + refreshesSpent view.refreshed provider ≤
      refreshesSpent later.refreshed provider := by
  induction visits with
  | exhausted => exact Nat.le_of_eq (Nat.zero_add _)
  | last visit => exact visit.refreshes_le provider
  | next visit _ ih =>
    have := visit.refreshes_le provider
    rw [refreshes_append]
    omega

/-- Requests are handed out as the call invokes its providers. -/
theorem Visits.reached
    {whole : List FallbackPlanEntry}
    (visits : Visits exhausted index plan view events ending later) :
    (∀ place, whole[index + place]? = plan[place]?) →
    later.reached = view.reached ++ invokedEntries whole events := by
  induction visits with
  | exhausted => exact fun _ => (List.append_nil _).symm
  | last visit =>
    intro isPlan
    rw [visit.reached, invokedEntries_of_located (isPlan 0) visit.located]
  | next visit _ ih =>
    intro isPlan
    have rest := ih fun place => by
      rw [Nat.add_assoc, Nat.add_comm 1 place]
      exact isPlan (place + 1)
    rw [rest, visit.reached, invokedEntries_append,
      invokedEntries_of_located (isPlan 0) visit.located, List.append_assoc]

/-- A call surfaces the last failure, or where there is none, what the reasons of all
skipped entries say. -/
theorem Visits.surfaced
    (visits : Visits exhausted index plan view events ending later) {error : LlmError ε} :
    ending.error = some error →
    error = ((failures events).getLast?.or view.lastError).getD
      (exhausted (view.skipped ++ skipReasons events)) := by
  induction visits with
  | exhausted =>
    intro surfaces
    simpa [failures, skipReasons, records] using (Option.some.inj surfaces).symm
  | last visit =>
    intro surfaces
    rw [visit.surfaced rfl surfaces]
    rfl
  | next visit _ ih =>
    intro surfaces
    obtain ⟨isLast, isSkipped⟩ := visit.view_eq rfl
    rw [ih surfaces, isLast, isSkipped, failures_append, skipReasons_append,
      List.getLast?_append, Option.or_assoc, List.append_assoc]

theorem Visits.follows (visits : Visits exhausted index plan view events ending later) :
    ending.Follows events := by
  induction visits with
  | exhausted => trivial
  | last visit => exact (visit.follows rfl).1
  | next _ _ ih => exact ih.append _

/-- A call with a record of success returns its result, unless a host fault leaves the
chain. -/
theorem Visits.succeeded
    (visits : Visits exhausted index plan view events ending later) {record : AttemptRecord ε}
    (isSuccess : record.outcome = .succeeded) :
    record ∈ records events →
    ending = .returned none ∨ ending = .thrown := by
  induction visits with
  | exhausted => simp [records]
  | last visit =>
    intro member
    exact (visit.succeeded isSuccess member).imp Option.some.inj Option.some.inj
  | next visit _ ih =>
    intro member
    rw [records_append] at member
    obtain here | rest := List.mem_append.mp member
    · obtain stops | stops := visit.succeeded isSuccess here <;> cases stops
    · exact ih rest

end Plans

end Relavium.Llm
