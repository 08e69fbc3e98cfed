import Relavium.Run.HostWorkQuiescence

/-!
# Joins of host work

A join that did not leave its loop is held by the registry or by a microtask.  The
registry holds none while it is idle, but for the time that `#finish` waits for
`onChange`.  Microtasks run in the order in which they were queued, and while the
registry stays idle each of them lets a join leave.
-/

namespace Relavium.Run

open Library

/-- Whether a step runs a microtask. -/
def HostWorkStep.isJob : HostWorkStep → Bool
  | .job => true
  | _ => false

namespace HostWork

variable {work next : HostWork}

/-- Where every join and every settled promise is to be found. -/
structure Joins (work : HostWork) : Prop where
  waiting : ∀ join, .joined join ∈ work.log →
    .left join ∈ work.log ∨ join ∈ work.idleWaiters ∨ .resume join ∈ work.jobs
  busy : work.idleWaiters ≠ [] → work.pending ≠ 0 ∨
    ∃ operation reply, .finishing operation reply ∈ work.stack

/-- What the log says of the promises that operations gave. -/
structure Settlements (work : HostWork) : Prop where
  settled : ∀ promise ∈ work.settled, .settled promise ∈ work.log
  reactions : ∀ reaction ∈ work.reactions,
    .awaited reaction.2.operation reaction.1 ∈ work.log
  jobs : ∀ slot, .settled slot ∈ work.jobs →
    ∃ raw, .awaited slot.operation raw ∈ work.log ∧ .settled raw ∈ work.log
  ended : ∀ operation, .ended operation .settled ∈ work.log →
    ∃ raw, .awaited operation raw ∈ work.log ∧ .settled raw ∈ work.log

section JoinLoop

variable
  (work : HostWork)
  (join : Nat)

@[simp] theorem jobs_joinLoop : (work.joinLoop join).jobs = work.jobs := by
  unfold joinLoop
  split <;> rfl

end JoinLoop

/-! ## What a step adds to the log -/

/-- A step only adds to the log, and lets a join leave only while the registry is idle. -/
structure Grows (work next : HostWork) : Prop where
  news : ∃ news, next.log = work.log ++ news ∧
    ∀ join, .left join ∈ news → work.isIdle = true ∧ next.isIdle = true

theorem Grows.mem (grows : Grows work next) {event : HostWorkEvent} (isSeen : event ∈ work.log) :
    event ∈ next.log := by
  obtain ⟨news, log, -⟩ := grows.news
  rw [log]
  exact List.mem_append_left _ isSeen

/-! ## Promises -/

theorem Settlements.of_same
    (settlements : Settlements work) (grows : Grows work next)
    (settled : next.settled = work.settled) (reactions : next.reactions = work.reactions)
    (jobs : ∀ slot, .settled slot ∈ next.jobs → .settled slot ∈ work.jobs)
    (ended : ∀ operation, .ended operation .settled ∈ next.log →
      .ended operation .settled ∈ work.log) :
    Settlements next where
  settled promise isSettled := by
    rw [settled] at isSettled
    exact grows.mem (settlements.settled promise isSettled)
  reactions reaction isReaction := by
    rw [reactions] at isReaction
    exact grows.mem (settlements.reactions reaction isReaction)
  jobs slot isJob := by
    obtain ⟨raw, awaited, isSettled⟩ := settlements.jobs slot (jobs slot isJob)
    exact ⟨raw, grows.mem awaited, grows.mem isSettled⟩
  ended operation isEnded := by
    obtain ⟨raw, awaited, isSettled⟩ := settlements.ended operation (ended operation isEnded)
    exact ⟨raw, grows.mem awaited, grows.mem isSettled⟩

/-- A promise that an operation gave is observed: the reaction waits for it, or is a
microtask. -/
theorem Settlements.awaited
    (settlements : Settlements work) {slot : HostWorkSlot} {raw : Nat} (grows : Grows work next)
    (settled : next.settled = work.settled)
    (reactions : next.reactions = work.reactions ++
      if raw ∈ work.settled then [] else [(raw, slot)])
    (jobs : next.jobs = work.jobs ++ if raw ∈ work.settled then [.settled slot] else [])
    (log : next.log =
      work.log ++ [.awaited slot.operation raw, .replied slot.operation (.raw raw)]) :
    Settlements next where
  settled promise isSettled := by
    rw [settled] at isSettled
    exact grows.mem (settlements.settled promise isSettled)
  reactions reaction isReaction := by
    rw [reactions] at isReaction
    obtain isOld | isNew := List.mem_append.mp isReaction
    · exact grows.mem (settlements.reactions reaction isOld)
    · split at isNew
      · simp at isNew
      · obtain rfl := List.mem_singleton.mp isNew
        simp [log]
  jobs held isJob := by
    rw [jobs] at isJob
    obtain isOld | isNew := List.mem_append.mp isJob
    · obtain ⟨given, awaited, isSettled⟩ := settlements.jobs held isOld
      exact ⟨given, grows.mem awaited, grows.mem isSettled⟩
    · split at isNew
      · rename_i known
        obtain rfl := HostWorkJob.settled.inj (List.mem_singleton.mp isNew)
        exact ⟨raw, by simp [log], grows.mem (settlements.settled raw known)⟩
      · simp at isNew
  ended operation isEnded := by
    have wasEnded : .ended operation .settled ∈ work.log := by
      simpa [log] using isEnded
    obtain ⟨given, awaited, isSettled⟩ := settlements.ended operation wasEnded
    exact ⟨given, grows.mem awaited, grows.mem isSettled⟩

/-- A step that holds every join where it was held. -/
theorem Joins.of_same
    (joins : Joins work) (grows : Grows work next)
    (joined : ∀ join, .joined join ∈ next.log → .joined join ∈ work.log)
    (idleWaiters : next.idleWaiters = work.idleWaiters)
    (jobs : ∀ join, .resume join ∈ work.jobs → .resume join ∈ next.jobs)
    (busy : work.pending ≠ 0 ∨
        (∃ operation reply, .finishing operation reply ∈ work.stack) →
      next.pending ≠ 0 ∨ ∃ operation reply, .finishing operation reply ∈ next.stack) :
    Joins next where
  waiting join isJoined := by
    obtain hasLeft | isHeld | isJob := joins.waiting join (joined join isJoined)
    · exact .inl (grows.mem hasLeft)
    · exact .inr (.inl (by rw [idleWaiters]; exact isHeld))
    · exact .inr (.inr (jobs join isJob))
  busy isHeld := by
    rw [idleWaiters] at isHeld
    exact busy (joins.busy isHeld)

/-- The registry is busy while it is not idle. -/
theorem pending_ne_zero_of_not_idle (notIdle : ¬work.isIdle = true) :
    work.pending ≠ 0 := by
  intro zero
  exact notIdle (by rw [isIdle, zero]; rfl)

/-- A join goes round its loop: it leaves, or the registry holds it again. -/
theorem Joins.joinLoop
    (joins : Joins work) {middle : HostWork} (join : Nat)
    (log : ∀ event ∈ work.log, event ∈ middle.log)
    (joined : ∀ other, other ≠ join → .joined other ∈ middle.log → .joined other ∈ work.log)
    (idleWaiters : middle.idleWaiters = work.idleWaiters)
    (jobs : ∀ other, other ≠ join → .resume other ∈ work.jobs → .resume other ∈ middle.jobs)
    (pending : middle.pending = work.pending) (stack : middle.stack = work.stack) :
    Joins (middle.joinLoop join) := by
  by_cases idle : middle.isIdle = true
  · have leaves : middle.joinLoop join = { middle with log := middle.log ++ [.left join] } :=
      if_pos idle
    rw [leaves]
    refine ⟨fun other isJoined => ?_, fun isHeld => ?_⟩
    · by_cases same : other = join
      · exact .inl (by simp [same])
      · have wasJoined := joined other same (by simpa using isJoined)
        obtain hasLeft | isHeld | isJob := joins.waiting other wasJoined
        · exact .inl (List.mem_append_left _ (log _ hasLeft))
        · exact .inr (.inl (idleWaiters ▸ isHeld))
        · exact .inr (.inr (jobs other same isJob))
    · rw [pending, stack]
      exact joins.busy (idleWaiters ▸ isHeld)
  · have waits : middle.joinLoop join =
        { middle with idleWaiters := middle.idleWaiters ++ [join] } := if_neg idle
    rw [waits]
    refine ⟨fun other isJoined => ?_, fun _ => .inl (pending_ne_zero_of_not_idle idle)⟩
    by_cases same : other = join
    · exact .inr (.inl (by simp [same]))
    · obtain hasLeft | isHeld | isJob := joins.waiting other (joined other same isJoined)
      · exact .inl (log _ hasLeft)
      · exact .inr (.inl (List.mem_append_left _ (idleWaiters ▸ isHeld)))
      · exact .inr (.inr (jobs other same isJob))

/-- `#finish` ends: where the registry is idle, its joins become microtasks. -/
theorem Joins.finished
    (joins : Joins work) (grows : Grows work next)
    (joined : ∀ join, .joined join ∈ next.log → .joined join ∈ work.log)
    (idleWaiters : next.idleWaiters = work.wakeWaiters.idleWaiters)
    (jobs : next.jobs = work.wakeWaiters.jobs) (pending : next.pending = work.pending) :
    Joins next := by
  by_cases idle : work.isIdle = true
  · have woken : work.wakeWaiters = { work with
        idleWaiters := []
        jobs := work.jobs ++ work.idleWaiters.map .resume } := if_pos idle
    rw [woken] at idleWaiters jobs
    refine ⟨fun join isJoined => ?_, fun isHeld => absurd idleWaiters isHeld⟩
    obtain hasLeft | isHeld | isJob := joins.waiting join (joined join isJoined)
    · exact .inl (grows.mem hasLeft)
    · refine .inr (.inr ?_)
      rw [jobs]
      exact List.mem_append_right _ (List.mem_map_of_mem isHeld)
    · refine .inr (.inr ?_)
      rw [jobs]
      exact List.mem_append_left _ isJob
  · have same : work.wakeWaiters = work := if_neg idle
    rw [same] at idleWaiters jobs
    exact joins.of_same grows joined idleWaiters (fun _ isJob => jobs ▸ isJob)
      fun _ => .inl (by rw [pending]; exact pending_ne_zero_of_not_idle idle)

/-- What holds of a registry after every run. -/
structure Books (work : HostWork) : Prop where
  counted : Counted work
  settlements : Settlements work
  joins : Joins work

end HostWork

end Relavium.Run
