import Relavium.Tools.EffectDispatch

/-!
# At most one dispatch reaches the target

A dispatch that holds the claim on an identity holds it alone, and gives it up only
by settling the row or, when its call proved never to have left, by releasing it.
So a second call starts only after the first one was unavailable.
-/

namespace Relavium.Tools

open Library
open Store

/-! ## The moves of one dispatch -/

namespace DispatchPhase

/-- The dispatch holds the claim of its row. -/
def holdsClaim : DispatchPhase → Bool
  | .claimed | .dispatching | .releasing _ | .recordingAmbiguous _ | .answered _
  | .settling _ => true
  | _ => false

/-- The call has not started and will not without passing through `claimed`. -/
def beforeCall : DispatchPhase → Bool
  | .admitted | .approved | .claimed => true
  | _ => false

end DispatchPhase

/-- The call was answered with the missing capability. -/
def unavailableAnswer : DispatchEvent :=
  .answer (.threw (.dispatchError .unavailable))

/-- The event neither starts a call nor tells that one was unavailable. -/
def OffCall (event : DispatchEvent) : Prop :=
  event ≠ .start none ∧ event ≠ unavailableAnswer

/-- What one move of a dispatch does to its phase and to the journal. -/
inductive DispatchMove
    (exoticText : Option JsString) (call : DispatchCall) (journal : EffectJournal)
    (state : DispatchState)
    (event : DispatchEvent) : EffectJournal → DispatchState → Prop
  /-- The call starts. -/
  | start
      {next : DispatchState}
      (starts : event = .start none)
      (claimed : state.phase = .claimed)
      (dispatching : next.phase = .dispatching) :
      DispatchMove exoticText call journal state event journal next
  /-- The call is answered with the missing capability. -/
  | unavailable
      {next : DispatchState}
      {thrown : Thrown}
      (answers : event = unavailableAnswer)
      (dispatching : state.phase = .dispatching)
      (releasing : next.phase = .releasing thrown) :
      DispatchMove exoticText call journal state event journal next
  /-- No claim is gained and none is about to be released for another reason than
  before. -/
  | quiet
      {next : DispatchState}
      (offCall : OffCall event)
      (keepsClaim : next.phase.holdsClaim = true → state.phase.holdsClaim = true)
      (unstarted : next.phase.beforeCall = true → state.phase.beforeCall = true)
      (releasing : ∀ thrown, next.phase = .releasing thrown →
        state.phase.beforeCall = true ∨ state.phase = .releasing thrown) :
      DispatchMove exoticText call journal state event journal next
  /-- A prepared row is written where there was none. -/
  | claim
      {next : DispatchState}
      (rowId : String)
      (offCall : OffCall event)
      (absent : journal.get call.identity = none)
      (approved : state.phase = .approved)
      (notReleasing : ∀ thrown, next.phase ≠ .releasing thrown) :
      DispatchMove exoticText call journal state event
        (journal.set call.identity
          { id := rowId
            tier := call.tier
            state := .prepared
            argsDigest := call.argsDigest
            resultJson := none })
        next
  /-- The claim of a call that never left is released. -/
  | release
      {next : DispatchState}
      {thrown : Thrown}
      (offCall : OffCall event)
      (releasing : state.phase = .releasing thrown)
      (isOver : next.isOpen = false) :
      DispatchMove exoticText call journal state event (journal.discard call.identity) next
  /-- The row is settled, if that is possible. -/
  | settle
      {next : DispatchState}
      (settled : EffectState)
      (result : Option JsValue)
      (offCall : OffCall event)
      (held : state.phase.holdsClaim = true)
      (isOver : next.isOpen = false) :
      DispatchMove exoticText call journal state event
        (journal.settle exoticText call.identity settled result).2 next

section Moves

variable
  {exoticText : Option JsString}
  {rendering : ResultRendering}
  {call : DispatchCall}
  {journal : EffectJournal}
  {state next : DispatchState}
  {event : DispatchEvent}

theorem holdsClaim_of_over (isOver : next.isOpen = false) :
    next.phase.holdsClaim = false := by
  unfold DispatchState.isOpen at isOver
  split at isOver
  · next ended => rw [ended]; rfl
  · next ended => rw [ended]; rfl
  · next ended => rw [ended]; rfl
  · cases isOver

theorem beforeCall_of_over (isOver : next.isOpen = false) :
    next.phase.beforeCall = false := by
  unfold DispatchState.isOpen at isOver
  split at isOver
  · next ended => rw [ended]; rfl
  · next ended => rw [ended]; rfl
  · next ended => rw [ended]; rfl
  · cases isOver

theorem not_releasing_of_over (isOver : next.isOpen = false) (thrown : Thrown) :
    next.phase ≠ .releasing thrown := by
  intro releasing
  have held := holdsClaim_of_over isOver
  rw [releasing] at held
  cases held

theorem DispatchMove.ending (offCall : OffCall event) (isOver : next.isOpen = false) :
    DispatchMove exoticText call journal state event journal next := by
  refine .quiet offCall (fun held => ?_) (fun before => ?_) fun thrown releasing => ?_
  · exact absurd (held.symm.trans (holdsClaim_of_over isOver)) (by decide)
  · exact absurd (before.symm.trans (beforeCall_of_over isOver)) (by decide)
  · exact absurd releasing (not_releasing_of_over isOver thrown)

theorem offCall_prepare (rowId : String) (fault : WriteFault) :
    OffCall (.prepare rowId fault) :=
  ⟨by simp, by simp [unavailableAnswer]⟩

theorem applyPrepare_move
    (rowId : String) (fault : WriteFault) (approved : state.phase = .approved) :
    DispatchMove exoticText call journal state (.prepare rowId fault)
      (applyPrepare call rowId fault journal state).1
      (applyPrepare call rowId fault journal state).2 := by
  have offCall := offCall_prepare rowId fault
  unfold applyPrepare
  split
  · exact .ending offCall rfl
  split
  · exact .ending offCall rfl
  cases prepared : journal.prepare call.identity rowId call.tier call.argsDigest with
  | mk answer later =>
    dsimp only
    by_cases proceeds : answer = .ok .proceed
    · subst proceeds
      obtain ⟨absent, rfl⟩ := prepare_proceed prepared
      split
      · exact .claim rowId offCall absent approved fun _ => by
          simp [DispatchState.throwing]
      · exact .claim rowId offCall absent approved fun _ => by simp
    · rw [prepare_refused prepared proceeds]
      split
      · exact .ending offCall rfl
      split
      · exact absurd rfl proceeds
      · refine .quiet offCall (fun held => ?_) (fun before => ?_) fun _ => by simp
        · cases held
        · cases before
      · exact .ending offCall rfl
      · exact .ending offCall rfl

theorem afterAnswer_move (answer : TargetAnswer) (dispatching : state.phase = .dispatching) :
    DispatchMove exoticText call journal state (.answer answer) journal
      { state with phase := afterAnswer answer } := by
  have held : state.phase.holdsClaim = true := by
    rw [dispatching]
    rfl
  cases answer with
  | returned value media =>
    have offCall : OffCall (.answer (.returned value media)) :=
      ⟨by simp, by simp [unavailableAnswer]⟩
    cases media with
    | true | false =>
      exact .quiet offCall (fun _ => held) (fun before => by cases before)
        fun _ => by simp [afterAnswer]
  | threw thrown =>
    by_cases never : thrown = .dispatchError .unavailable
    · subst never
      exact .unavailable rfl dispatching rfl
    · have leaves : neverLeftTheProcess thrown = false := decide_eq_false never
      have after : afterAnswer (.threw thrown) = .recordingAmbiguous thrown := by
        simp [afterAnswer, leaves]
      rw [after]
      exact .quiet ⟨by simp, by simpa [unavailableAnswer] using never⟩
        (fun _ => held) (fun before => by cases before) fun _ => by simp

theorem applySettle_move
    (outcome : ToolDispatchOutcome) (fault : WriteFault) (held : state.phase.holdsClaim = true) :
    DispatchMove exoticText call journal state (.settle fault)
      (applySettle exoticText call outcome fault journal state).1
      (applySettle exoticText call outcome fault journal state).2 := by
  have offCall : OffCall (.settle fault) := ⟨by simp, by simp [unavailableAnswer]⟩
  have settle : ∀ next : DispatchState, next.isOpen = false →
      DispatchMove exoticText call journal state (.settle fault)
        (journal.settle exoticText call.identity .committed
          (some (toStoredEnvelope (recordedEnvelope call outcome)))).2 next :=
    fun next isOver => .settle .committed _ offCall held isOver
  unfold applySettle
  split
  · exact .ending offCall rfl
  split
  · next refusal later settled =>
    rw [settled] at settle
    exact settle _ rfl
  · next later settled =>
    rw [settled] at settle
    split
    · exact settle _ rfl
    · refine settle _ ?_
      unfold DispatchState.unlessAborted DispatchState.isOpen
      cases state.aborted with
      | true | false => rfl

theorem applyDispatch_move {later : EffectJournal}
    (taken : applyDispatch exoticText rendering call journal state event = some (later, next)) :
    DispatchMove exoticText call journal state event later next := by
  unfold applyDispatch at taken
  split at taken
  · cases taken
    exact .quiet ⟨by simp, by simp [unavailableAnswer]⟩ id id fun _ => Or.inr
  · split at taken
    · cases taken
      exact .ending ⟨by simp, by simp [unavailableAnswer]⟩ rfl
    · cases taken
  · next refused phase =>
    cases taken
    have offCall : OffCall (.confirm refused) :=
      ⟨by simp, by simp [unavailableAnswer]⟩
    split
    · exact .ending offCall rfl
    split
    · exact .ending offCall rfl
    · refine .quiet offCall (fun held => ?_) (fun _ => ?_) fun _ => by simp
      · cases held
      · rw [phase]
        rfl
  · next rowId fault phase =>
    obtain ⟨rfl, rfl⟩ := Prod.mk.inj (Option.some.inj taken)
    exact applyPrepare_move rowId fault phase
  · next refused phase =>
    cases taken
    cases refused with
    | none => exact .start rfl phase rfl
    | some thrown =>
      refine .quiet ⟨by simp, by simp [unavailableAnswer]⟩ (fun _ => ?_)
        (fun before => ?_) fun _ _ => Or.inl ?_
      · rw [phase]
        rfl
      · cases before
      · rw [phase]
        rfl
  · next envelope phase =>
    cases taken
    have offCall : OffCall .redeliver := ⟨by simp, by simp [unavailableAnswer]⟩
    unfold applyRedeliver
    split
    · exact .ending offCall rfl
    split
    · exact .ending offCall rfl
    · exact .ending offCall rfl
  · next answer phase =>
    cases taken
    exact afterAnswer_move answer phase
  · next thrown fault phase =>
    cases taken
    have offCall : OffCall (.release fault) := ⟨by simp, by simp [unavailableAnswer]⟩
    split
    · exact .ending offCall rfl
    · exact .release offCall phase rfl
  · next thrown fault phase =>
    cases taken
    have offCall : OffCall (.recordAmbiguous fault) :=
      ⟨by simp, by simp [unavailableAnswer]⟩
    split
    · exact .ending offCall rfl
    · exact .settle .ambiguous none offCall (by rw [phase]; rfl) rfl
  · next output spill phase =>
    cases taken
    have offCall : OffCall (.bound spill) := ⟨by simp, by simp [unavailableAnswer]⟩
    unfold applyBound
    split
    · exact .ending offCall rfl
    split
    · refine .quiet offCall (fun _ => ?_) (fun before => ?_) fun _ => by simp
      · rw [phase]
        rfl
      · cases before
    · exact .ending offCall rfl
  · next outcome fault phase =>
    obtain ⟨rfl, rfl⟩ := Prod.mk.inj (Option.some.inj taken)
    exact applySettle_move outcome fault (by rw [phase]; rfl)
  · cases taken

end Moves

/-! ## The invariant of all dispatches -/

/-- The call of a dispatch has started. -/
def Started (history : List EffectEvent) (id : DispatchId) : Prop :=
  .dispatch id (.start none) ∈ history

/-- The call of a dispatch proved never to have left. -/
def Unavailable (history : List EffectEvent) (id : DispatchId) : Prop :=
  .dispatch id unavailableAnswer ∈ history

structure EffectInvariant (calls : DispatchId → DispatchCall) (history : List EffectEvent)
    (world : EffectWorld) : Prop where
  /-- A claim is backed by a row. -/
  claimed :
    ∀ id, (world.dispatches id).phase.holdsClaim = true →
      world.journal.get (calls id).identity ≠ none
  /-- A claim is held alone. -/
  alone :
    ∀ id other,
      (world.dispatches id).phase.holdsClaim = true →
        (world.dispatches other).phase.holdsClaim = true →
          (calls other).identity = (calls id).identity → other = id
  /-- A started call that was not unavailable keeps its row, and everyone else from
  claiming it. -/
  started :
    ∀ id, Started history id → ¬Unavailable history id →
      world.journal.get (calls id).identity ≠ none ∧
        ∀ other,
          (world.dispatches other).phase.holdsClaim = true →
            (calls other).identity = (calls id).identity → other = id
  beforeCall :
    ∀ id, (world.dispatches id).phase.beforeCall = true →
      ¬Started history id ∧ ¬Unavailable history id
  /-- A claim is only released by a call that has not started or was unavailable. -/
  releasing :
    ∀ id thrown, (world.dispatches id).phase = .releasing thrown →
      Started history id → Unavailable history id

theorem effectInvariant_start (calls : DispatchId → DispatchCall) (journal : EffectJournal) :
    EffectInvariant calls [] (.start journal) where
  claimed _ held := by cases held
  alone _ _ held := by cases held
  started _ started := absurd started List.not_mem_nil
  beforeCall _ _ := ⟨List.not_mem_nil, List.not_mem_nil⟩
  releasing _ _ releasing := by cases releasing

section Preservation

variable
  {exoticText : Option JsString}
  {calls : DispatchId → DispatchCall}
  {history : List EffectEvent}
  {world : EffectWorld}
  {mover : DispatchId}
  {event : DispatchEvent}
  {next : DispatchState}

theorem started_snoc_iff (other : DispatchId) :
    Started (history ++ [.dispatch mover event]) other ↔
      Started history other ∨ other = mover ∧ event = .start none := by
  simp [Started, eq_comm]

theorem unavailable_snoc_iff (other : DispatchId) :
    Unavailable (history ++ [.dispatch mover event]) other ↔
      Unavailable history other ∨ other = mover ∧ event = unavailableAnswer := by
  simp [Unavailable, eq_comm]

theorem OffCall.started_iff (offCall : OffCall event) (other : DispatchId) :
    Started (history ++ [.dispatch mover event]) other ↔ Started history other := by
  rw [started_snoc_iff]
  exact or_iff_left fun new => offCall.1 new.2

theorem OffCall.unavailable_iff (offCall : OffCall event) (other : DispatchId) :
    Unavailable (history ++ [.dispatch mover event]) other ↔
      Unavailable history other := by
  rw [unavailable_snoc_iff]
  exact or_iff_left fun new => offCall.2 new.2

theorem moved_cases
    (dispatches : DispatchId → DispatchState) (mover : DispatchId) (next : DispatchState)
    (other : DispatchId) :
    other = mover ∧ Function.update dispatches mover next other = next ∨
      other ≠ mover ∧
        Function.update dispatches mover next other = dispatches other := by
  by_cases same : other = mover
  · subst same
    exact Or.inl ⟨rfl, Function.update_self _ _ _⟩
  · exact Or.inr ⟨same, Function.update_of_ne same _ _⟩

theorem claims_of_moved
    (claims : next.phase.holdsClaim = true →
      (world.dispatches mover).phase.holdsClaim = true)
    (other : DispatchId)
    (held : (Function.update world.dispatches mover next other).phase.holdsClaim = true) :
    (world.dispatches other).phase.holdsClaim = true := by
  obtain ⟨rfl, now⟩ | ⟨_, now⟩ := moved_cases world.dispatches mover next other
  · rw [now] at held
    exact claims held
  · rw [now] at held
    exact held

/-- A step after which every identity still has its row and no claim is gained keeps
the invariant. -/
theorem EffectInvariant.keeping
    (invariant : EffectInvariant calls history world) {later : EffectWorld}
    {longer : List EffectEvent}
    (rows : ∀ identity,
      later.journal.get identity = none → world.journal.get identity = none)
    (sameStarted : ∀ other, Started longer other ↔ Started history other)
    (sameUnavailable : ∀ other, Unavailable longer other ↔ Unavailable history other)
    (claims : ∀ other, (later.dispatches other).phase.holdsClaim = true →
      (world.dispatches other).phase.holdsClaim = true)
    (unstarted : ∀ other, (later.dispatches other).phase.beforeCall = true →
      (world.dispatches other).phase.beforeCall = true)
    (releasing : ∀ other thrown, (later.dispatches other).phase = .releasing thrown →
      (world.dispatches other).phase.beforeCall = true ∨
        (world.dispatches other).phase = .releasing thrown) :
    EffectInvariant calls longer later where
  claimed other held absent :=
    invariant.claimed other (claims other held) (rows _ absent)
  alone other another held alsoHeld :=
    invariant.alone other another (claims other held) (claims another alsoHeld)
  started other started available := by
    obtain ⟨row, alone⟩ := invariant.started other ((sameStarted other).mp started)
      fun unavailable => available ((sameUnavailable other).mpr unavailable)
    exact ⟨fun absent => row (rows _ absent), fun another held =>
      alone another (claims another held)⟩
  beforeCall other before := by
    rw [sameStarted, sameUnavailable]
    exact invariant.beforeCall other (unstarted other before)
  releasing other thrown releases started := by
    rw [sameStarted] at started
    rw [sameUnavailable]
    obtain before | before := releasing other thrown releases
    · exact absurd started (invariant.beforeCall other before).1
    · exact invariant.releasing other thrown before started

theorem EffectInvariant.moving
    (invariant : EffectInvariant calls history world) {later : EffectJournal}
    (rows : ∀ identity,
      later.get identity = none → world.journal.get identity = none)
    (offCall : OffCall event)
    (claims : next.phase.holdsClaim = true →
      (world.dispatches mover).phase.holdsClaim = true)
    (unstarted : next.phase.beforeCall = true →
      (world.dispatches mover).phase.beforeCall = true)
    (releasing : ∀ thrown, next.phase = .releasing thrown →
      (world.dispatches mover).phase.beforeCall = true ∨
        (world.dispatches mover).phase = .releasing thrown) :
    EffectInvariant calls (history ++ [.dispatch mover event])
      { journal := later
        dispatches := Function.update world.dispatches mover next } := by
  refine invariant.keeping rows offCall.started_iff offCall.unavailable_iff
    (claims_of_moved claims) (fun other before => ?_) fun other thrown releases => ?_
  · obtain ⟨rfl, now⟩ | ⟨_, now⟩ := moved_cases world.dispatches mover next other
    · exact unstarted (now ▸ before)
    · exact now ▸ before
  · obtain ⟨rfl, now⟩ | ⟨_, now⟩ := moved_cases world.dispatches mover next other
    · exact releasing thrown (now ▸ releases)
    · exact Or.inr (now ▸ releases)

theorem EffectInvariant.starting
    (invariant : EffectInvariant calls history world)
    (claimed : (world.dispatches mover).phase = .claimed)
    (dispatching : next.phase = .dispatching) :
    EffectInvariant calls (history ++ [.dispatch mover (.start none)])
      { world with dispatches := Function.update world.dispatches mover next } := by
  have holds : (world.dispatches mover).phase.holdsClaim = true := by
    rw [claimed]
    rfl
  have claims : ∀ other,
      (Function.update world.dispatches mover next other).phase.holdsClaim = true →
        (world.dispatches other).phase.holdsClaim = true :=
    claims_of_moved fun _ => holds
  have sameUnavailable : ∀ other,
      Unavailable (history ++ [.dispatch mover (.start none)]) other ↔
        Unavailable history other := by
    intro other
    rw [unavailable_snoc_iff]
    exact or_iff_left fun new => by simp [unavailableAnswer] at new
  constructor
  · exact fun other held => invariant.claimed other (claims other held)
  · exact fun other another held alsoHeld =>
      invariant.alone other another (claims other held) (claims another alsoHeld)
  · intro other started available
    rw [sameUnavailable] at available
    obtain earlier | ⟨rfl, _⟩ := (started_snoc_iff other).mp started
    · obtain ⟨row, alone⟩ := invariant.started other earlier available
      exact ⟨row, fun another held => alone another (claims another held)⟩
    · exact ⟨invariant.claimed other holds, fun another held =>
        invariant.alone other another holds (claims another held)⟩
  · intro other before
    rw [sameUnavailable]
    obtain ⟨rfl, now⟩ | ⟨different, now⟩ :=
      moved_cases world.dispatches mover next other
    · dsimp only at before
      rw [now, dispatching] at before
      cases before
    · obtain ⟨notStarted, available⟩ := invariant.beforeCall other (now ▸ before)
      refine ⟨fun started => ?_, available⟩
      obtain earlier | ⟨same, _⟩ := (started_snoc_iff other).mp started
      · exact notStarted earlier
      · exact different same
  · intro other thrown releases started
    rw [sameUnavailable]
    obtain ⟨rfl, now⟩ | ⟨different, now⟩ :=
      moved_cases world.dispatches mover next other
    · dsimp only at releases
      rw [now, dispatching] at releases
      cases releases
    · obtain earlier | ⟨same, _⟩ := (started_snoc_iff other).mp started
      · exact invariant.releasing other thrown (now ▸ releases) earlier
      · exact absurd same different

theorem EffectInvariant.answering
    (invariant : EffectInvariant calls history world) {thrown : Thrown}
    (dispatching : (world.dispatches mover).phase = .dispatching)
    (releases : next.phase = .releasing thrown) :
    EffectInvariant calls (history ++ [.dispatch mover unavailableAnswer])
      { world with dispatches := Function.update world.dispatches mover next } := by
  have claims : ∀ other,
      (Function.update world.dispatches mover next other).phase.holdsClaim = true →
        (world.dispatches other).phase.holdsClaim = true :=
    claims_of_moved fun _ => by
      rw [dispatching]
      rfl
  have sameStarted : ∀ other,
      Started (history ++ [.dispatch mover unavailableAnswer]) other ↔
        Started history other := by
    intro other
    rw [started_snoc_iff]
    exact or_iff_left fun new => by simp [unavailableAnswer] at new
  constructor
  · exact fun other held => invariant.claimed other (claims other held)
  · exact fun other another held alsoHeld =>
      invariant.alone other another (claims other held) (claims another alsoHeld)
  · intro other started available
    rw [sameStarted] at started
    obtain ⟨row, alone⟩ := invariant.started other started fun unavailable =>
      available ((unavailable_snoc_iff other).mpr (Or.inl unavailable))
    exact ⟨row, fun another held => alone another (claims another held)⟩
  · intro other before
    rw [sameStarted]
    obtain ⟨rfl, now⟩ | ⟨different, now⟩ :=
      moved_cases world.dispatches mover next other
    · dsimp only at before
      rw [now, releases] at before
      cases before
    · obtain ⟨notStarted, available⟩ := invariant.beforeCall other (now ▸ before)
      refine ⟨notStarted, fun unavailable => ?_⟩
      obtain earlier | ⟨same, _⟩ := (unavailable_snoc_iff other).mp unavailable
      · exact available earlier
      · exact different same
  · intro other thrown releases started
    rw [sameStarted] at started
    rw [unavailable_snoc_iff]
    obtain ⟨rfl, now⟩ | ⟨different, now⟩ :=
      moved_cases world.dispatches mover next other
    · exact Or.inr ⟨rfl, rfl⟩
    · exact Or.inl (invariant.releasing other thrown (now ▸ releases) started)

theorem EffectInvariant.claiming
    (invariant : EffectInvariant calls history world) (offCall : OffCall event)
    (absent : world.journal.get (calls mover).identity = none) (row : EffectRow)
    (approved : (world.dispatches mover).phase = .approved)
    (notReleasing : ∀ thrown, next.phase ≠ .releasing thrown) :
    EffectInvariant calls (history ++ [.dispatch mover event])
      { journal := world.journal.set (calls mover).identity row
        dispatches := Function.update world.dispatches mover next } := by
  have present : ∀ identity, world.journal.get identity ≠ none →
      (world.journal.set (calls mover).identity row).get identity ≠ none := by
    intro identity present
    rw [OrderedMap.get_set]
    split
    · exact Option.some_ne_none row
    · exact present
  -- whoever holds another claim holds it on another identity
  have elsewhere : ∀ other, (world.dispatches other).phase.holdsClaim = true →
      (calls other).identity ≠ (calls mover).identity := fun other held same =>
    invariant.claimed other held (same ▸ absent)
  constructor
  · intro other held
    obtain ⟨rfl, now⟩ | ⟨_, now⟩ := moved_cases world.dispatches mover next other
    · rw [OrderedMap.get_set_self]
      exact Option.some_ne_none row
    · exact present _ (invariant.claimed other (now ▸ held))
  · intro other another held alsoHeld same
    obtain ⟨rfl, _⟩ | ⟨_, first⟩ := moved_cases world.dispatches mover next other
    · obtain ⟨rfl, _⟩ | ⟨_, second⟩ :=
        moved_cases world.dispatches other next another
      · rfl
      · exact absurd same (elsewhere another (second ▸ alsoHeld))
    · obtain ⟨rfl, _⟩ | ⟨_, second⟩ :=
        moved_cases world.dispatches mover next another
      · exact absurd same.symm (elsewhere other (first ▸ held))
      · exact invariant.alone other another (first ▸ held) (second ▸ alsoHeld) same
  · intro other started available
    rw [offCall.started_iff] at started
    rw [offCall.unavailable_iff] at available
    obtain ⟨held, alone⟩ := invariant.started other started available
    refine ⟨present _ held, fun another alsoHeld same => ?_⟩
    obtain ⟨rfl, _⟩ | ⟨_, now⟩ := moved_cases world.dispatches mover next another
    · exact absurd (same ▸ absent) held
    · exact alone another (now ▸ alsoHeld) same
  · intro other before
    rw [offCall.started_iff, offCall.unavailable_iff]
    obtain ⟨rfl, _⟩ | ⟨_, now⟩ := moved_cases world.dispatches mover next other
    · exact invariant.beforeCall other (by rw [approved]; rfl)
    · exact invariant.beforeCall other (now ▸ before)
  · intro other thrown releases started
    rw [offCall.started_iff] at started
    rw [offCall.unavailable_iff]
    obtain ⟨rfl, now⟩ | ⟨_, now⟩ := moved_cases world.dispatches mover next other
    · exact absurd (now ▸ releases) (notReleasing thrown)
    · exact invariant.releasing other thrown (now ▸ releases) started

/-- The claim of a call that never left is released. -/
theorem EffectInvariant.discarding
    (invariant : EffectInvariant calls history world) (offCall : OffCall event) {thrown : Thrown}
    (releases : (world.dispatches mover).phase = .releasing thrown)
    (isOver : next.isOpen = false) :
    EffectInvariant calls (history ++ [.dispatch mover event])
      { journal := world.journal.discard (calls mover).identity
        dispatches := Function.update world.dispatches mover next } := by
  have holds : (world.dispatches mover).phase.holdsClaim = true := by
    rw [releases]
    rfl
  have unclaimed := holdsClaim_of_over isOver
  -- all but the row is as after a move that leaves the journal alone
  have moved : EffectInvariant calls (history ++ [.dispatch mover event])
      { world with dispatches := Function.update world.dispatches mover next } :=
    invariant.moving (fun _ absent => absent) offCall
      (fun held => absurd (held.symm.trans unclaimed) (by decide))
      (fun before => absurd (before.symm.trans (beforeCall_of_over isOver)) (by decide))
      (fun other releasing => absurd releasing (not_releasing_of_over isOver other))
  constructor
  · intro other held
    dsimp only at held
    obtain ⟨rfl, now⟩ | ⟨different, now⟩ :=
      moved_cases world.dispatches mover next other
    · rw [now] at held
      exact absurd (held.symm.trans unclaimed) (by decide)
    · rw [now] at held
      rw [get_discard_of_ne fun same =>
        different (invariant.alone mover other holds held same)]
      exact invariant.claimed other held
  · exact moved.alone
  · intro other started available
    obtain ⟨row, alone⟩ := moved.started other started available
    refine ⟨?_, alone⟩
    rw [get_discard_of_ne]
    · exact row
    · intro same
      rw [offCall.started_iff] at started
      rw [offCall.unavailable_iff] at available
      obtain rfl := (invariant.started other started available).2 mover holds same.symm
      exact available (invariant.releasing mover thrown releases started)
  · exact moved.beforeCall
  · exact moved.releasing

theorem effectInvariant_step
    {rendering : ResultRendering} {taken : EffectEvent} {later : EffectWorld}
    (invariant : EffectInvariant calls history world)
    (step : EffectStep exoticText rendering calls world taken later) :
    EffectInvariant calls (history ++ [taken]) later := by
  unfold EffectStep EffectWorld.apply at step
  cases taken with
  | flag identity =>
    cases step
    refine invariant.keeping (fun other => get_flagForAttention_eq_none_iff.mp)
      (fun other => by simp [Started]) (fun other => by simp [Unavailable])
      (fun _ => id) (fun _ => id) fun _ _ => Or.inr
  | dispatch mover event =>
    obtain ⟨⟨journal, next⟩, moved, rfl⟩ := Option.map_eq_some_iff.mp step
    cases applyDispatch_move moved with
    | start starts claimed dispatching =>
      subst starts
      exact invariant.starting claimed dispatching
    | unavailable answers dispatching releasing =>
      subst answers
      exact invariant.answering dispatching releasing
    | quiet offCall keepsClaim unstarted releasing =>
      exact invariant.moving (fun _ => id) offCall keepsClaim unstarted releasing
    | claim rowId offCall absent approved notReleasing =>
      exact invariant.claiming offCall absent _ approved notReleasing
    | release offCall releasing isOver =>
      exact invariant.discarding offCall releasing isOver
    | settle settled result offCall held isOver =>
      refine invariant.moving (fun _ => get_settle_eq_none_iff.mp) offCall
        (fun _ => held) (fun before => ?_) fun thrown releasing => ?_
      · exact absurd (before.symm.trans (beforeCall_of_over isOver)) (by decide)
      · exact absurd releasing (not_releasing_of_over isOver thrown)

theorem effectInvariant_run {rendering : ResultRendering} {journal : EffectJournal}
    (run : Run (EffectStep exoticText rendering calls) (.start journal) history world) :
    EffectInvariant calls history world := by
  refine run.invariant (EffectInvariant calls) (effectInvariant_start calls journal) ?_
  intro _ _ _ _ _ invariant step
  exact effectInvariant_step invariant step

end Preservation

/-! ## Runs -/

section Runs

variable
  {exoticText : Option JsString}
  {rendering : ResultRendering}
  {calls : DispatchId → DispatchCall}
  {journal : EffectJournal}
  {history : List EffectEvent}
  {world later : EffectWorld}

theorem claimed_of_start {caller : DispatchId}
    (step : EffectStep exoticText rendering calls world (.dispatch caller (.start none)) later) :
    (world.dispatches caller).phase = .claimed := by
  unfold EffectStep EffectWorld.apply at step
  obtain ⟨⟨_, next⟩, moved, _⟩ := Option.map_eq_some_iff.mp step
  cases applyDispatch_move moved with
  | start _ claimed _ => exact claimed
  | unavailable answers => simp [unavailableAnswer] at answers
  | quiet offCall | claim _ offCall | release offCall | settle _ _ offCall =>
    exact absurd rfl offCall.1

theorem exists_claimed {caller : DispatchId} {before after : List EffectEvent}
    (run : Run (EffectStep exoticText rendering calls) (.start journal)
      (before ++ [.dispatch caller (.start none)] ++ after) world) :
    ∃ middle,
      EffectInvariant calls before middle ∧
        (middle.dispatches caller).phase = .claimed := by
  obtain ⟨_, upTo, _⟩ := run.split
  obtain ⟨middle, earlier, last⟩ := upTo.split
  exact ⟨middle, effectInvariant_run earlier, claimed_of_start last.step_of_singleton⟩

/-- Between two calls under one identity the first one proves unavailable. -/
theorem unavailable_between {first second : DispatchId} {before between after : List EffectEvent}
    (run : Run (EffectStep exoticText rendering calls) (.start journal)
      (before ++ [.dispatch first (.start none)] ++ between ++
        [.dispatch second (.start none)] ++ after) world)
    (sameIdentity : (calls first).identity = (calls second).identity) :
    .dispatch first unavailableAnswer ∈ between := by
  obtain ⟨middle, invariant, claimed⟩ := exists_claimed run
  have held : (middle.dispatches second).phase.holdsClaim = true := by
    rw [claimed]
    rfl
  have fresh := invariant.beforeCall second (by rw [claimed]; rfl)
  have started :
      Started (before ++ [.dispatch first (.start none)] ++ between) first := by
    simp [Started]
  have unavailable :
      Unavailable (before ++ [.dispatch first (.start none)] ++ between) first := by
    by_contra available
    obtain rfl := (invariant.started first started available).2 second held sameIdentity.symm
    exact fresh.1 started
  have regrouped : Run (EffectStep exoticText rendering calls) (.start journal)
      (before ++ [.dispatch first (.start none)] ++
        (between ++ [.dispatch second (.start none)] ++ after)) world := by
    simpa using run
  obtain ⟨earlier, early, firstClaimed⟩ := exists_claimed regrouped
  have notBefore := (early.beforeCall first (by rw [firstClaimed]; rfl)).2
  unfold Unavailable at unavailable notBefore
  rw [List.mem_append, List.mem_append] at unavailable
  obtain (inBefore | atStart) | found := unavailable
  · exact absurd inBefore notBefore
  · simp [unavailableAnswer] at atStart
  · exact found

theorem reached_unique
    (run : Run (EffectStep exoticText rendering calls) (.start journal) history world)
    {first second : DispatchId}
    (firstStarted : Started history first)
    (secondStarted : Started history second)
    (sameIdentity : (calls first).identity = (calls second).identity)
    (firstReached : ¬Unavailable history first)
    (secondReached : ¬Unavailable history second) :
    first = second := by
  by_contra different
  obtain ⟨before, rest, rfl⟩ := List.append_of_mem firstStarted
  unfold Started at secondStarted
  rw [List.mem_append, List.mem_cons] at secondStarted
  obtain earlier | same | later := secondStarted
  · obtain ⟨start, between, rfl⟩ := List.append_of_mem earlier
    have regrouped : Run (EffectStep exoticText rendering calls) (.start journal)
        (start ++ [.dispatch second (.start none)] ++ between ++
          [.dispatch first (.start none)] ++ rest) world := by
      simpa using run
    have found := unavailable_between regrouped sameIdentity.symm
    exact secondReached (by simp [Unavailable, found])
  · exact different (by simpa using same.symm)
  · obtain ⟨between, last, rfl⟩ := List.append_of_mem later
    have regrouped : Run (EffectStep exoticText rendering calls) (.start journal)
        (before ++ [.dispatch first (.start none)] ++ between ++
          [.dispatch second (.start none)] ++ last) world := by
      simpa using run
    have found := unavailable_between regrouped sameIdentity
    exact firstReached (by simp [Unavailable, found])

/-- No step touches a settled row, except that an operator may flag it. -/
theorem effectStep_keepsSettled
    {event : EffectEvent} (step : EffectStep exoticText rendering calls world event later) :
    KeepsSettled world.journal later.journal := by
  unfold EffectStep EffectWorld.apply at step
  cases event with
  | flag identity =>
    cases step
    exact flagForAttention_keepsSettled
  | dispatch mover event =>
    obtain ⟨⟨_, next⟩, moved, rfl⟩ := Option.map_eq_some_iff.mp step
    cases applyDispatch_move moved with
    | start | unavailable | quiet => exact .refl _
    | claim rowId offCall absent =>
      exact keepsSettled_set fun held found =>
        absurd (found.symm.trans absent) (by simp)
    | release => exact discard_keepsSettled
    | settle => exact settle_keepsSettled

/-- A dispatch whose settle returns has moved exactly its prepared row. -/
theorem settled_of_returned
    {caller : DispatchId} {fault : WriteFault} {outcome : ToolDispatchOutcome}
    (step : EffectStep exoticText rendering calls world (.dispatch caller (.settle fault)) later)
    (returned : (later.dispatches caller).phase = .returned outcome) :
    ∃ row update,
      world.journal.get (calls caller).identity = some row ∧
        row.state = .prepared ∧
        resultUpdate exoticText (calls caller).identity
          (some (toStoredEnvelope (recordedEnvelope (calls caller) outcome))) =
            some update ∧
        later.journal = world.journal.set (calls caller).identity
          { row with state := .committed, resultJson := update row.resultJson } := by
  unfold EffectStep EffectWorld.apply at step
  obtain ⟨⟨journal, next⟩, moved, rfl⟩ := Option.map_eq_some_iff.mp step
  dsimp only at returned ⊢
  rw [Function.update_self] at returned
  obtain ⟨settling, phase⟩ :
      ∃ settling, (world.dispatches caller).phase = .settling settling := by
    cases phase : (world.dispatches caller).phase with
    | settling settling => exact ⟨settling, rfl⟩
    | _ => simp [applyDispatch, phase] at moved
  simp only [applyDispatch, phase, Option.some.injEq] at moved
  unfold applySettle at moved
  split at moved
  · cases moved
    simp [DispatchState.throwing] at returned
  split at moved
  · cases moved
    simp [DispatchState.throwing] at returned
  · next written settled =>
    split at moved
    · cases moved
      simp [DispatchState.throwing] at returned
    · cases moved
      have same : settling = outcome := by
        unfold DispatchState.unlessAborted at returned
        cases aborted : (world.dispatches caller).aborted with
        | true => simp [aborted] at returned
        | false => simpa [aborted] using returned
      exact same ▸ settle_ok settled

/-- Every effect is dispatched at most once: a second call under an identity starts only
after the first one was unavailable, so at most one of them reached the target.  Settled
rows stay, and only a settle that moved exactly the prepared row lets a dispatch
return. -/
theorem effect_dispatched_at_most_once
    (run : Run (EffectStep exoticText rendering calls) (.start journal) history world) :
    (∀ first second before between after,
      history = before ++ [.dispatch first (.start none)] ++ between ++
          [.dispatch second (.start none)] ++ after →
        (calls first).identity = (calls second).identity →
          .dispatch first unavailableAnswer ∈ between) ∧
      (∀ first second,
        Started history first → Started history second →
          (calls first).identity = (calls second).identity →
            ¬Unavailable history first → ¬Unavailable history second →
              first = second) ∧
      (∀ event later, EffectStep exoticText rendering calls world event later →
        KeepsSettled world.journal later.journal) ∧
      (∀ identity state result later,
        world.journal.settle exoticText identity state result = (.ok (), later) →
          ∃ row update,
            world.journal.get identity = some row ∧
              row.state = .prepared ∧
              resultUpdate exoticText identity result = some update ∧
              later = world.journal.set identity
                { row with state, resultJson := update row.resultJson }) ∧
      ∀ caller fault outcome later,
        EffectStep exoticText rendering calls world
            (.dispatch caller (.settle fault)) later →
          (later.dispatches caller).phase = .returned outcome →
            ∃ row update,
              world.journal.get (calls caller).identity = some row ∧
                row.state = .prepared ∧
                resultUpdate exoticText (calls caller).identity
                  (some (toStoredEnvelope
                    (recordedEnvelope (calls caller) outcome))) = some update ∧
                later.journal = world.journal.set (calls caller).identity
                  { row with
                    state := .committed
                    resultJson := update row.resultJson } := by
  refine ⟨?_, ?_, ?_, ?_, ?_⟩
  · rintro first second before between after rfl sameIdentity
    exact unavailable_between run sameIdentity
  · intro first second firstStarted secondStarted sameIdentity
    exact reached_unique run firstStarted secondStarted sameIdentity
  · intro event later step
    exact effectStep_keepsSettled step
  · intro identity state result later settled
    exact settle_ok settled
  · intro caller fault outcome later step returned
    exact settled_of_returned step returned

/-- Results that are shown as `null`. -/
def nullRendering : ResultRendering where
  text _ := jsText "null"
  omittedBytes _ := 0
  summary _ := jsText "null"
  makePreview text _ := text

/-- A call that mutates something outside. -/
def postCall : DispatchCall where
  identity := ⟨"run:r:n", 0, "http_request"⟩
  tier := .three
  argsDigest := "digest"
  unsettled := []
  recoverable := false
  outputMapping := none
  limits := ⟨50 * 1024, 2000⟩

/-- The first dispatch finds no capability, the second one commits. -/
def retriedEvents : List EffectEvent :=
  [.dispatch 0 (.confirm none), .dispatch 1 (.confirm none),
    .dispatch 0 (.prepare "a" .none), .dispatch 0 (.start none),
    .dispatch 0 unavailableAnswer, .dispatch 0 (.release .none),
    .dispatch 1 (.prepare "b" .none), .dispatch 1 (.start none),
    .dispatch 1 (.answer (.returned .null false)), .dispatch 1 (.bound .noStore),
    .dispatch 1 (.settle .none)]

theorem effect_dispatched_at_most_once_retried :
    ∃ world,
      Run (EffectStep none nullRendering fun _ => postCall) (.start .empty)
          retriedEvents world ∧
        (world.journal.get postCall.identity).any
          (fun row => decide (row.state = .committed)) = true ∧
        .dispatch 0 unavailableAnswer ∈
          [EffectEvent.dispatch 0 unavailableAnswer, .dispatch 0 (.release .none),
            .dispatch 1 (.prepare "b" .none)] := by
  have ends :
      (retriedEvents.foldlM (EffectWorld.apply none nullRendering fun _ => postCall)
        (EffectWorld.start .empty)).any
          (fun world => (world.journal.get postCall.identity).any
            fun row => decide (row.state = .committed)) = true := by
    decide
  obtain ⟨world, taken, committed⟩ := (Option.any_eq_true _ _).mp ends
  have run : Run (EffectStep none nullRendering fun _ => postCall) (.start .empty)
      retriedEvents world := .of_foldlM taken
  exact ⟨world, run, committed,
    (effect_dispatched_at_most_once run).1 0 1
      [.dispatch 0 (.confirm none), .dispatch 1 (.confirm none),
        .dispatch 0 (.prepare "a" .none)] _
      [.dispatch 1 (.answer (.returned .null false)), .dispatch 1 (.bound .noStore),
        .dispatch 1 (.settle .none)] rfl rfl⟩

end Runs

end Relavium.Tools
