import Relavium.Library.Trace

/-!
# Run leases

Ownership of a run across processes.  The `run_leases` table holds at most one
row for a run; every operation reads and writes that row in one transaction, at
the store's own clock.  The pair of owner and generation is the fence that its
holder carries on every durable write.
-/

namespace Relavium.Store

open Library

/-- The fence a caller carries after a successful acquire. -/
structure Fence where
  ownerId : String
  generation : Nat
  deriving DecidableEq

/-- The `run_leases` row of a run. -/
structure RunLeaseRow where
  ownerId : String
  generation : Nat
  /-- When the lease stops being live, in epoch ms. -/
  expiresAt : Nat
  createdAt : Nat
  updatedAt : Nat
  deriving DecidableEq

/-- What a successful acquire answers. -/
structure RunLease where
  ownerId : String
  generation : Nat
  expiresAt : Nat
  deriving DecidableEq

/-- The pair a row recognises. -/
def RunLeaseRow.fence (row : RunLeaseRow) : Fence :=
  { ownerId := row.ownerId, generation := row.generation }

/-- The pair a holder carries. -/
def RunLease.fence (lease : RunLease) : Fence :=
  { ownerId := lease.ownerId, generation := lease.generation }

/-- `leases.acquire`: a different owner holding a live lease is the only
refusal.  The row comes back with the next generation. -/
def acquire (now : Nat) (ownerId : String) (ttlMs : Nat)
    (current : Option RunLeaseRow) : Option RunLease × Option RunLeaseRow :=
  match current with
  | none =>
    (some { ownerId, generation := 0 + 1, expiresAt := now + ttlMs },
      some {
        ownerId
        generation := 0 + 1
        expiresAt := now + ttlMs
        createdAt := now
        updatedAt := now })
  | some row =>
    if row.ownerId ≠ ownerId ∧ row.expiresAt > now then
      (none, some row)
    else
      (some {
          ownerId
          generation := row.generation + 1
          expiresAt := now + ttlMs },
        some {
          row with
          ownerId
          generation := row.generation + 1
          expiresAt := now + ttlMs
          updatedAt := now })

/-- `leases.heartbeat`: pushes the expiry forward, and tells whether a row
matched owner and generation. -/
def heartbeat (now : Nat) (ownerId : String) (generation : Nat) (ttlMs : Nat)
    (current : Option RunLeaseRow) : Bool × Option RunLeaseRow :=
  match current with
  | none => (false, none)
  | some row =>
    if row.ownerId = ownerId ∧ row.generation = generation then
      (true, some { row with expiresAt := now + ttlMs, updatedAt := now })
    else
      (false, some row)

/-- `leases.release`: deletes the row of this owner and generation, and tells
whether the statement deleted one. -/
def release (ownerId : String) (generation : Nat)
    (current : Option RunLeaseRow) : Bool × Option RunLeaseRow :=
  match current with
  | none => (false, none)
  | some row =>
    if row.ownerId = ownerId ∧ row.generation = generation then
      (true, none)
    else
      (false, some row)

/-- `LeaseFencedError`: the fence that was presented and the generation found. -/
structure LeaseFencedError where
  ownerId : String
  generation : Nat
  actualGeneration : Option Nat
  deriving DecidableEq

/-- The fence check of a durable write: a missing row is a refusal too. -/
def checkFence (fence : Option Fence)
    (lease : Option RunLeaseRow) : Except LeaseFencedError Unit :=
  match fence with
  | none => .ok ()
  | some fence =>
    if lease.map RunLeaseRow.fence = some fence then
      .ok ()
    else
      .error {
        ownerId := fence.ownerId
        generation := fence.generation
        actualGeneration := lease.map RunLeaseRow.generation }

/-! ## What a fence is good for -/

/-- A fence that no write, renewal or release gets through with. -/
structure Refused (fence : Fence)
    (lease : Option RunLeaseRow) : Prop where
  /-- A durable write under the fence fails. -/
  write : checkFence (some fence) lease = .error {
    ownerId := fence.ownerId
    generation := fence.generation
    actualGeneration := lease.map RunLeaseRow.generation }
  /-- A heartbeat matches nothing and changes nothing. -/
  heartbeat : ∀ now ttlMs,
    heartbeat now fence.ownerId fence.generation ttlMs lease = (false, lease)
  /-- A release deletes nothing. -/
  release : release fence.ownerId fence.generation lease = (false, lease)

variable
  {fence : Fence}

/-- A fence is refused as soon as the row does not hold exactly its pair. -/
theorem refused_of_ne
    {lease : Option RunLeaseRow} (differs : lease.map RunLeaseRow.fence ≠ some fence) :
    Refused fence lease := by
  cases lease with
  | none => exact ⟨rfl, fun _ _ => rfl, rfl⟩
  | some row =>
    have unmatched :
        ¬(row.ownerId = fence.ownerId ∧ row.generation = fence.generation) := by
      rintro ⟨sameOwner, sameGeneration⟩
      exact differs (by simp [RunLeaseRow.fence, sameOwner, sameGeneration])
    refine ⟨?_, fun now ttlMs => ?_, ?_⟩
    · rw [checkFence, if_neg differs]
    · rw [Store.heartbeat, if_neg unmatched]
    · rw [Store.release, if_neg unmatched]

/-- A fence that is not refused is the one held. -/
theorem matches_of_not_refused {lease : Option RunLeaseRow} (accepted : ¬Refused fence lease) :
    lease.map RunLeaseRow.fence = some fence := by
  by_contra differs
  exact accepted (refused_of_ne differs)

/-! ## Histories of lease transactions -/

/-- A call of a lease operation of the run. -/
inductive LeaseCall
  | acquire (ownerId : String) (ttlMs : Nat)
  | heartbeat (ownerId : String) (generation : Nat) (ttlMs : Nat)
  | release (ownerId : String) (generation : Nat)

/-- The time to live a call asks for is positive. -/
def LeaseCall.PositiveTtl : LeaseCall → Prop
  | .acquire _ ttlMs => 0 < ttlMs
  | .heartbeat _ _ ttlMs => 0 < ttlMs
  | .release _ _ => True

/-- What the transaction of a call found. -/
inductive LeaseAnswer
  | acquired (lease : Option RunLease)
  | renewed (held : Bool)
  | released (deleted : Bool)
  deriving DecidableEq

/-- The transaction of a call at a time of the store's clock. -/
def LeaseCall.perform (now : Nat)
    (current : Option RunLeaseRow) : LeaseCall → LeaseAnswer × Option RunLeaseRow
  | .acquire ownerId ttlMs =>
    let (lease, next) := Store.acquire now ownerId ttlMs current
    (.acquired lease, next)
  | .heartbeat ownerId generation ttlMs =>
    let (held, next) := Store.heartbeat now ownerId generation ttlMs current
    (.renewed held, next)
  | .release ownerId generation =>
    let (deleted, next) := Store.release ownerId generation current
    (.released deleted, next)

/-- A transaction as it was committed. -/
structure LeaseTransaction where
  now : Nat
  call : LeaseCall
  answer : LeaseAnswer

/-- The fence a transaction granted. -/
def LeaseTransaction.granted (transaction : LeaseTransaction) : Option Fence :=
  match transaction.answer with
  | .acquired (some lease) => some lease.fence
  | _ => none

/-- Whether a transaction deleted the lease row. -/
def LeaseTransaction.deleted (transaction : LeaseTransaction) : Bool :=
  transaction.answer = .released true

/-- The clock of the store and the lease row of the run. -/
structure LeaseStore where
  clock : Nat
  lease : Option RunLeaseRow

/-- One transaction, at a time no earlier than the one before. -/
structure LeaseStep (store : LeaseStore) (transaction : LeaseTransaction)
    (next : LeaseStore) : Prop where
  monotone : store.clock ≤ transaction.now
  positiveTtl : transaction.call.PositiveTtl
  performed : transaction.call.perform transaction.now store.lease =
    (transaction.answer, next.lease)
  ticked : next.clock = transaction.now

/-- What one transaction may do to the lease row. -/
inductive LeaseEffect (before : Option RunLeaseRow) (transaction : LeaseTransaction)
    (after : Option RunLeaseRow) : Prop
  | granted (row : RunLeaseRow) (grant : transaction.granted = some row.fence)
      (next : row.generation = (before.map RunLeaseRow.generation).getD 0 + 1)
      (kept : transaction.deleted = false)
      (isAfter : after = some row)
  | kept (ungranted : transaction.granted = none) (keeps : transaction.deleted = false)
      (same : after.map RunLeaseRow.fence = before.map RunLeaseRow.fence)
  | deleted (ungranted : transaction.granted = none) (deletes : transaction.deleted = true)
      (gone : after = none)

/-- Every transaction grants the next generation, keeps the fence or deletes
the row. -/
theorem lease_effect
    {store next : LeaseStore} {transaction : LeaseTransaction}
    (step : LeaseStep store transaction next) :
    LeaseEffect store.lease transaction next.lease := by
  obtain ⟨now, call, answer⟩ := transaction
  have performed := step.performed
  cases call with
  | acquire ownerId ttlMs =>
    cases current : store.lease with
    | none =>
      simp only [LeaseCall.perform, acquire, current, Prod.mk.injEq] at performed
      obtain ⟨rfl, isNext⟩ := performed
      exact .granted _ rfl rfl rfl isNext.symm
    | some row =>
      simp only [LeaseCall.perform, acquire, current] at performed
      split at performed
      · obtain ⟨rfl, isNext⟩ := Prod.mk.inj performed
        exact .kept rfl rfl (by rw [← isNext])
      · obtain ⟨rfl, isNext⟩ := Prod.mk.inj performed
        exact .granted _ rfl rfl rfl isNext.symm
  | heartbeat ownerId generation ttlMs =>
    cases current : store.lease with
    | none =>
      simp only [LeaseCall.perform, heartbeat, current, Prod.mk.injEq] at performed
      obtain ⟨rfl, isNext⟩ := performed
      exact .kept rfl rfl (by rw [← isNext])
    | some row =>
      simp only [LeaseCall.perform, heartbeat, current] at performed
      split at performed
      · obtain ⟨rfl, isNext⟩ := Prod.mk.inj performed
        exact .kept rfl rfl (by rw [← isNext]; rfl)
      · obtain ⟨rfl, isNext⟩ := Prod.mk.inj performed
        exact .kept rfl rfl (by rw [← isNext])
  | release ownerId generation =>
    cases current : store.lease with
    | none =>
      simp only [LeaseCall.perform, release, current, Prod.mk.injEq] at performed
      obtain ⟨rfl, isNext⟩ := performed
      exact .kept rfl rfl (by rw [← isNext])
    | some row =>
      simp only [LeaseCall.perform, release, current] at performed
      split at performed
      · obtain ⟨rfl, isNext⟩ := Prod.mk.inj performed
        exact .deleted rfl rfl isNext.symm
      · obtain ⟨rfl, isNext⟩ := Prod.mk.inj performed
        exact .kept rfl rfl (by rw [← isNext])

variable
  {start finish : LeaseStore}
  {history : List LeaseTransaction}

/-- While the row is kept, generations only grow. -/
theorem generation_le
    (run : Run LeaseStep start history finish)
    (keeps : ∀ transaction ∈ history, transaction.deleted = false) :
    (start.lease.map RunLeaseRow.generation).getD 0 ≤
      (finish.lease.map RunLeaseRow.generation).getD 0 := by
  induction run with
  | nil => exact Nat.le_refl _
  | @snoc history middle finish transaction _ taken ih =>
    have earlier := ih fun other member =>
      keeps other (List.mem_append_left _ member)
    cases lease_effect taken with
    | granted row _ next _ isAfter =>
      rw [isAfter]
      simp only [Option.map_some, Option.getD_some]
      omega
    | kept _ _ same =>
      have generations := congrArg (Option.map Fence.generation) same
      simp only [Option.map_map] at generations
      rw [show RunLeaseRow.generation = Fence.generation ∘ RunLeaseRow.fence
        from rfl] at earlier ⊢
      rw [generations]
      exact earlier
    | deleted _ deletes _ =>
      have keeping := keeps transaction (by simp)
      rw [deletes] at keeping
      cases keeping

/-- The row holds the fence that was granted last, or nothing was granted and
it holds the fence it held before. -/
theorem fence_of_last_grant
    (run : Run LeaseStep start history finish)
    (holds : finish.lease.map RunLeaseRow.fence = some fence) :
    (∃ first grant last, history = first ++ grant :: last ∧
      grant.granted = some fence ∧
      ∀ transaction ∈ last, transaction.granted = none) ∨
    (∀ transaction ∈ history, transaction.granted = none) := by
  induction run with
  | nil => exact .inr (by simp)
  | @snoc history middle finish transaction _ taken ih =>
    cases lease_effect taken with
    | granted row grant _ _ isAfter =>
      rw [isAfter, Option.map_some] at holds
      exact .inl ⟨history, transaction, [], rfl, grant.trans holds, by simp⟩
    | kept ungranted _ same =>
      rcases ih (same ▸ holds) with
        ⟨first, grant, last, rfl, granted, quiet⟩ | quiet
      · refine .inl ⟨first, grant, last ++ [transaction], by simp, granted, ?_⟩
        simpa [or_imp, forall_and] using ⟨quiet, ungranted⟩
      · refine .inr ?_
        simpa [or_imp, forall_and] using ⟨quiet, ungranted⟩
    | deleted _ _ gone => simp [gone] at holds

/-- A fence that is granted again, with no later grant, after the row was
deleted. -/
def RegrantedAfterDeletion (fence : Fence)
    (history : List LeaseTransaction) : Prop :=
  ∃ first grant last, history = first ++ grant :: last ∧
    (∃ deletion ∈ first, deletion.deleted = true) ∧
    grant.granted = some fence ∧
    ∀ transaction ∈ last, transaction.granted = none

/-- A grant holds the lease under the next generation. -/
theorem lease_of_granted
    {store next : LeaseStore} {transaction : LeaseTransaction}
    (step : LeaseStep store transaction next) (granted : transaction.granted = some fence) :
    next.lease.map RunLeaseRow.fence = some fence ∧
      fence.generation =
        (store.lease.map RunLeaseRow.generation).getD 0 + 1 := by
  cases lease_effect step with
  | granted row grant isNext _ isAfter =>
    obtain rfl : row.fence = fence := by
      rw [grant] at granted
      exact Option.some.inj granted
    exact ⟨by rw [isAfter]; rfl, isNext⟩
  | kept ungranted | deleted ungranted => simp [ungranted] at granted

/-- Only a deletion of the row lets a fence that was superseded be held again. -/
theorem regranted_of_held
    (run : Run LeaseStep start history finish)
    (held : start.lease.map RunLeaseRow.fence = some fence)
    (superseded : ∃ later ∈ history, later.granted ≠ none)
    (holds : finish.lease.map RunLeaseRow.fence = some fence) :
    RegrantedAfterDeletion fence history := by
  obtain ⟨later, member, someGrant⟩ := superseded
  rcases fence_of_last_grant run holds with
    ⟨first, grant, last, rfl, granted, quiet⟩ | quiet
  · refine ⟨first, grant, last, rfl, ?_, granted, quiet⟩
    by_contra undeleted
    push Not at undeleted
    obtain ⟨middle, firstRun, lastRun⟩ := run.split
    have grantRun : Run LeaseStep middle ([grant] ++ last) finish := lastRun
    obtain ⟨next, taken, _⟩ := grantRun.split
    have rises := generation_le firstRun fun transaction inFirst => by
      simpa using undeleted transaction inFirst
    have generation := (lease_of_granted taken.step_of_singleton granted).2
    have startGeneration :
        (start.lease.map RunLeaseRow.generation).getD 0 = fence.generation := by
      cases isLease : start.lease with
      | none => simp [isLease] at held
      | some row =>
        rw [isLease, Option.map_some, Option.some.injEq] at held
        rw [← held]
        rfl
    omega
  · exact absurd (quiet later member) someGrant

/-- Over every history of lease transactions of a run: a different owner
acquires only an absent or expired lease, and once a later acquire succeeded a
fence is refused by every write, heartbeat and release, unless the row was
deleted in between and the latest acquire granted that same pair again. -/
theorem run_lease_fencing
    {start store : LeaseStore} {history : List LeaseTransaction}
    (run : Run LeaseStep start history store) :
    (∀ now ownerId ttlMs lease row,
      (acquire now ownerId ttlMs store.lease).1 = some lease →
      store.lease = some row →
      row.ownerId ≠ ownerId →
      row.expiresAt ≤ now) ∧
    (∀ before taken between later after fence newer,
      history = before ++ taken :: (between ++ later :: after) →
      taken.granted = some fence →
      later.granted = some newer →
      Refused fence store.lease ∨
        RegrantedAfterDeletion fence (between ++ later :: after)) := by
  constructor
  · intro now ownerId ttlMs lease row granted isRow differs
    rw [isRow, acquire] at granted
    split at granted
    · simp at granted
    · rename_i notLive
      by_contra live
      exact notLive ⟨differs, by omega⟩
  · rintro before taken between later after fence newer rfl granted laterGrant
    by_cases refused : Refused fence store.lease
    · exact .inl refused
    refine .inr ?_
    obtain ⟨middle, _, rest⟩ := run.split
    have takenRun : Run LeaseStep middle ([taken] ++ (between ++ later :: after)) store := rest
    obtain ⟨next, step, restRun⟩ := takenRun.split
    have held := (lease_of_granted step.step_of_singleton granted).1
    exact regranted_of_held restRun held
      ⟨later, by simp, by simp [laterGrant]⟩ (matches_of_not_refused refused)

/-- An acquire of engine A that takes the run for ten milliseconds. -/
def acquireByA (now : Nat) : LeaseTransaction where
  now
  call := .acquire "A" 10
  answer := .acquired (some {
    ownerId := "A", generation := 1, expiresAt := now + 10 })

/-- Engine A parks the run at a gate. -/
def releaseByA (now : Nat) : LeaseTransaction where
  now
  call := .release "A" 1
  answer := .released true

/-- Engine A takes the run, parks it and takes it again. -/
theorem run_park_reclaim :
    Run LeaseStep { clock := 0, lease := none }
      [acquireByA 0, releaseByA 1, acquireByA 2]
      { clock := 2, lease := some {
          ownerId := "A", generation := 1, expiresAt := 12,
          createdAt := 2, updatedAt := 2 } } := by
  have taken : Run LeaseStep { clock := 0, lease := none } [acquireByA 0]
      { clock := 0, lease := some {
          ownerId := "A", generation := 1, expiresAt := 10,
          createdAt := 0, updatedAt := 0 } } :=
    .snoc .nil ⟨by decide, Nat.succ_pos 9, rfl, rfl⟩
  have parked : Run LeaseStep { clock := 0, lease := none }
      [acquireByA 0, releaseByA 1] { clock := 1, lease := none } :=
    .snoc taken ⟨by decide, trivial, by decide, rfl⟩
  exact .snoc parked ⟨by decide, Nat.succ_pos 9, rfl, rfl⟩

theorem run_lease_fencing_reclaim :
    RegrantedAfterDeletion { ownerId := "A", generation := 1 }
      [releaseByA 1, acquireByA 2] := by
  have fencing :=
    (run_lease_fencing run_park_reclaim).2 [] (acquireByA 0) [releaseByA 1]
      (acquireByA 2) [] { ownerId := "A", generation := 1 }
      { ownerId := "A", generation := 1 } rfl rfl rfl
  rcases fencing with refused | regranted
  · exact absurd refused.write (by decide)
  · exact regranted

/-- A fence is not refused for ever after a later acquire: engine A holds the
same fence again when it takes the run it parked. -/
theorem run_lease_fence_returns :
    ¬∀ (store : LeaseStore) (history before between after : List LeaseTransaction)
        (taken later : LeaseTransaction) (fence newer : Fence),
      Run LeaseStep { clock := 0, lease := none } history store →
      history = before ++ taken :: (between ++ later :: after) →
      taken.granted = some fence →
      later.granted = some newer →
      Refused fence store.lease := by
  intro safe
  have refused := safe _ _ [] [releaseByA 1] [] (acquireByA 0) (acquireByA 2)
    { ownerId := "A", generation := 1 } { ownerId := "A", generation := 1 }
    run_park_reclaim rfl rfl rfl
  exact absurd refused.write (by decide)

end Relavium.Store
