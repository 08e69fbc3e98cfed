import Relavium.Store.MediaCollection
import Relavium.Library.Trace
import Relavium.Store.MediaLedger

/-!
# What collection passes rely on

The invariant of producers and collection passes.  A handle that a pass has
chosen is neither live nor about to be admitted, and whatever a producer
published since a sweep passed its gate is too young for the age guard.  A step
that advances the world in the sense defined here keeps what the passes that do
not move rely on.
-/

namespace Relavium.Store

open Library
open Shared

/-! ## What passes and producers hold -/

namespace PassStage

/-- The handles that are chosen and not yet unlinked. -/
def pending : PassStage → List JsString
  | .collecting doomed => doomed
  | .listing _ _ _ orphans => orphans
  | .sweeping orphans => orphans
  | _ => []

/-- When the pass found no other active run, until its listing is complete. -/
def gateAt : PassStage → Option Int
  | .past gateAt => some gateAt
  | .knowing gateAt _ => some gateAt
  | .listing gateAt _ _ _ => some gateAt
  | _ => none

/-- The handles that had a row when the pass asked. -/
def known : PassStage → Option (List JsString)
  | .knowing _ known => some known
  | .listing _ known _ _ => some known
  | _ => none

/-- The limit of the age guard. -/
def settledBefore : PassStage → Option Int
  | .listing _ _ settledBefore _ => some settledBefore
  | _ => none

end PassStage

namespace MediaWorld

/-- A producer of an active run has published the handle and not yet admitted it. -/
def Unadmitted (world : MediaWorld)
    (handle : JsString) : Prop :=
  ∃ producer ∈ world.producers.values,
    producer.stage = .published handle ∧ world.Active producer.run

instance (world : MediaWorld) (handle : JsString) : Decidable (world.Unadmitted handle) :=
  inferInstanceAs (Decidable (∃ _ ∈ _, _))

/-- A pass has chosen the handle and not yet unlinked it. -/
def Chosen (world : MediaWorld)
    (handle : JsString) : Prop :=
  ∃ pass ∈ world.passes.values, handle ∈ pass.stage.pending

instance (world : MediaWorld) (handle : JsString) : Decidable (world.Chosen handle) :=
  inferInstanceAs (Decidable (∃ _ ∈ _, _))

/-- A time no earlier than the gate of any pass that is still listing. -/
def AfterGates (world : MediaWorld)
    (time : Int) : Prop :=
  ∀ pass ∈ world.passes.values, ∀ gateAt ∈ pass.stage.gateAt, gateAt ≤ time

instance (world : MediaWorld) (time : Int) : Decidable (world.AfterGates time) :=
  inferInstanceAs (Decidable (∀ _ ∈ _, ∀ _ ∈ _, _))

/-- The conditions on a step.  A handle is not published while a pass has it
chosen; a blob is not adopted that is older than the gate of a pass; no handle is
collected that a producer has still to admit; and the clock is read less than
the minimum age after the gate. -/
def Careful
    (world : MediaWorld) : MediaAction → Prop
  | .publish _ handle => ¬world.Chosen handle
  | .adopt _ handle =>
    ¬world.Chosen handle ∧
      ∀ mtimeMs ∈ world.blobs.get handle, world.AfterGates mtimeMs
  | .reclaim id ts =>
    ∀ pass ∈ world.passes.get id,
      ∀ handle ∈ world.tables.expired (ts - pass.graceMs), ¬world.Unadmitted handle
  | .readClock id =>
    ∀ pass ∈ world.passes.get id, ∀ gateAt ∈ pass.stage.gateAt,
      world.clock < gateAt + pass.orphanMinAgeMs
  | _ => True

instance (world : MediaWorld) : DecidablePred world.Careful
  | .tick _ | .beginRun _ | .settleRun _ | .write _ _ | .admitHandle _ _ _
  | .referRun _ _ | .startPass _ _ _ _ | .retry _ _ | .unlink _ _ | .passGate _
  | .listKnown _ | .observe _ _ | .finishListing _ => inferInstanceAs (Decidable True)
  | .publish _ handle => inferInstanceAs (Decidable (¬world.Chosen handle))
  | .adopt _ handle =>
    inferInstanceAs (Decidable (¬world.Chosen handle ∧ ∀ _ ∈ _, _))
  | .reclaim _ _ => inferInstanceAs (Decidable (∀ _ ∈ _, ∀ _ ∈ _, ¬_))
  | .readClock _ => inferInstanceAs (Decidable (∀ _ ∈ _, ∀ _ ∈ _, _))

/-- A step that meets the conditions. -/
def carefulStep (world : MediaWorld)
    (action : MediaAction) : Option MediaWorld :=
  if world.Careful action then world.step action else none

/-- The blob of every live row is in the store. -/
def BytesKept (world : MediaWorld) : Prop :=
  ∀ entry ∈ world.tables.objects.entries,
    entry.2.deletedAt = none → world.blobs.has entry.1 = true

instance (world : MediaWorld) : Decidable world.BytesKept :=
  inferInstanceAs (Decidable (∀ _ ∈ _, _))

/-- The blob of the handle is there and no older than the given time. -/
def Younger (world : MediaWorld) (time : Int)
    (handle : JsString) : Prop :=
  ∃ mtimeMs, world.blobs.get handle = some mtimeMs ∧ time ≤ mtimeMs

theorem active_iff {world : MediaWorld} {run : JsString} :
    world.Active run ↔ ∃ startedAt, world.runs.get run = some (.active startedAt) := by
  unfold Active
  cases world.runs.get run with
  | none => simp
  | some phase => cases phase <;> simp [MediaRunPhase.isActive]

/-! ## The invariant -/

/-- What a pass may rely on. -/
structure PassSound (world : MediaWorld)
    (pass : CollectionPass) : Prop where
  current : ∀ run ∈ pass.currentRunId, world.runs.get run = some .settled
  pending : ∀ handle ∈ pass.stage.pending,
    ¬world.tables.Live handle ∧ ¬world.Unadmitted handle
  clock : ∀ gateAt ∈ pass.stage.gateAt, gateAt ≤ world.clock
  active : ∀ gateAt ∈ pass.stage.gateAt, ∀ run startedAt,
    world.runs.get run = some (.active startedAt) → gateAt ≤ startedAt
  unadmitted : ∀ gateAt ∈ pass.stage.gateAt, ∀ handle,
    world.Unadmitted handle → world.Younger gateAt handle
  unknown : ∀ gateAt ∈ pass.stage.gateAt, ∀ known ∈ pass.stage.known,
    ∀ handle, handle ∉ known → world.tables.Live handle → world.Younger gateAt handle
  settledBefore : ∀ gateAt ∈ pass.stage.gateAt,
    ∀ settledBefore ∈ pass.stage.settledBefore, settledBefore < gateAt

/-- What holds between two steps. -/
structure Sound (world : MediaWorld) : Prop where
  owned : ∀ id producer, world.producers.get id = some producer →
    world.runs.has producer.run = true
  started : ∀ run startedAt, world.runs.get run = some (.active startedAt) →
    startedAt ≤ world.clock
  written : ∀ id producer writtenAt startedAt,
    world.producers.get id = some producer → producer.stage = .writing writtenAt →
    world.runs.get producer.run = some (.active startedAt) → startedAt ≤ writtenAt
  kept : ∀ handle, world.tables.Live handle ∨ world.Unadmitted handle →
    world.blobs.has handle = true
  passes : ∀ pass ∈ world.passes.values, world.PassSound pass

/-- What a step does to what passes rely on. -/
structure Advances (world next : MediaWorld) : Prop where
  clock : world.clock ≤ next.clock
  settled : ∀ run, world.runs.get run = some .settled →
    next.runs.get run = some .settled
  active : ∀ run startedAt, next.runs.get run = some (.active startedAt) →
    world.runs.get run = some (.active startedAt) ∨ world.clock ≤ startedAt
  live : ∀ handle, next.tables.Live handle →
    world.tables.Live handle ∨ world.Unadmitted handle
  unadmitted : ∀ handle, next.Unadmitted handle →
    world.Unadmitted handle ∨ ¬world.Chosen handle ∧
      ∃ mtimeMs, next.blobs.get handle = some mtimeMs ∧ world.AfterGates mtimeMs
  blobs : ∀ handle mtimeMs, world.blobs.get handle = some mtimeMs →
    world.Chosen handle ∨
      ∃ later, next.blobs.get handle = some later ∧
        (later = mtimeMs ∨ world.AfterGates later)

/-- A live or unadmitted handle is not chosen by any pass. -/
theorem Sound.not_chosen
    {world : MediaWorld} {handle : JsString} (sound : world.Sound)
    (holds : world.tables.Live handle ∨ world.Unadmitted handle) :
    ¬world.Chosen handle := by
  rintro ⟨pass, isPass, isPending⟩
  obtain ⟨notLive, notUnadmitted⟩ := (sound.passes pass isPass).pending handle isPending
  exact holds.elim notLive notUnadmitted

variable {world next : MediaWorld}

/-- A blob that nothing has chosen stays as young as it was for every pass. -/
theorem Advances.younger
    {pass : CollectionPass} {gateAt : Int} {handle : JsString} (advances : world.Advances next)
    (isPass : pass ∈ world.passes.values) (isGate : gateAt ∈ pass.stage.gateAt)
    (notChosen : ¬world.Chosen handle) (younger : world.Younger gateAt handle) :
    next.Younger gateAt handle := by
  obtain ⟨mtimeMs, isBlob, young⟩ := younger
  obtain chosen | ⟨later, isLater, rfl | after⟩ := advances.blobs handle mtimeMs isBlob
  · exact absurd chosen notChosen
  · exact ⟨later, isLater, young⟩
  · exact ⟨later, isLater, after pass isPass gateAt isGate⟩

/-- A pass that does not move keeps what it relies on. -/
theorem PassSound.advance
    {pass : CollectionPass} (passSound : world.PassSound pass) (sound : world.Sound)
    (advances : world.Advances next) (isPass : pass ∈ world.passes.values) :
    next.PassSound pass where
  current run isRun := advances.settled run (passSound.current run isRun)
  pending handle isPending := by
    obtain ⟨notLive, notUnadmitted⟩ := passSound.pending handle isPending
    refine ⟨fun live => ?_, fun unadmitted => ?_⟩
    · exact (advances.live handle live).elim notLive notUnadmitted
    · obtain before | ⟨notChosen, -⟩ := advances.unadmitted handle unadmitted
      · exact notUnadmitted before
      · exact notChosen ⟨pass, isPass, isPending⟩
  clock gateAt isGate := (passSound.clock gateAt isGate).trans advances.clock
  active gateAt isGate run startedAt isActive := by
    obtain before | began := advances.active run startedAt isActive
    · exact passSound.active gateAt isGate run startedAt before
    · exact (passSound.clock gateAt isGate).trans began
  unadmitted gateAt isGate handle unadmitted := by
    obtain before | ⟨-, mtimeMs, isBlob, after⟩ := advances.unadmitted handle unadmitted
    · exact advances.younger isPass isGate (sound.not_chosen (.inr before))
        (passSound.unadmitted gateAt isGate handle before)
    · exact ⟨mtimeMs, isBlob, after pass isPass gateAt isGate⟩
  unknown gateAt isGate known isKnown handle notKnown live := by
    obtain before | unadmitted := advances.live handle live
    · exact advances.younger isPass isGate (sound.not_chosen (.inl before))
        (passSound.unknown gateAt isGate known isKnown handle notKnown before)
    · exact advances.younger isPass isGate (sound.not_chosen (.inr unadmitted))
        (passSound.unadmitted gateAt isGate handle unadmitted)
  settledBefore := passSound.settledBefore

/-- An advance keeps the blob of every handle live or unadmitted after it. -/
theorem Advances.kept
    (sound : world.Sound) (advances : world.Advances next) (handle : JsString)
    (holds : next.tables.Live handle ∨ next.Unadmitted handle) :
    next.blobs.has handle = true := by
  have of_before : world.tables.Live handle ∨ world.Unadmitted handle →
      next.blobs.has handle = true := by
    intro before
    obtain ⟨mtimeMs, isBlob⟩ :=
      (OrderedMap.has_iff _ _).mp (sound.kept handle before)
    obtain chosen | ⟨later, isLater, -⟩ := advances.blobs handle mtimeMs isBlob
    · exact absurd chosen (sound.not_chosen before)
    · exact (OrderedMap.has_iff _ _).mpr ⟨later, isLater⟩
  obtain live | unadmitted := holds
  · exact of_before (advances.live handle live)
  · obtain before | ⟨-, mtimeMs, isBlob, -⟩ := advances.unadmitted handle unadmitted
    · exact of_before (.inr before)
    · exact (OrderedMap.has_iff _ _).mpr ⟨mtimeMs, isBlob⟩

/-- The invariant after a step, from what the step does to runs, producers and
passes. -/
theorem Sound.advance
    (sound : world.Sound) (advances : world.Advances next)
    (owned : ∀ id producer, next.producers.get id = some producer →
      next.runs.has producer.run = true)
    (started : ∀ run startedAt, next.runs.get run = some (.active startedAt) →
      startedAt ≤ next.clock)
    (written : ∀ id producer writtenAt startedAt,
      next.producers.get id = some producer → producer.stage = .writing writtenAt →
      next.runs.get producer.run = some (.active startedAt) → startedAt ≤ writtenAt)
    (passes : ∀ pass ∈ next.passes.values,
      pass ∈ world.passes.values ∨ next.PassSound pass) :
    next.Sound where
  owned := owned
  started := started
  written := written
  kept := advances.kept sound
  passes pass isPass := by
    obtain before | isSound := passes pass isPass
    · exact (sound.passes pass before).advance sound advances before
    · exact isSound

theorem mem_values_set
    [DecidableEq κ] {map : OrderedMap κ ν} {key : κ} {value other : ν}
    (member : other ∈ (map.set key value).values) :
    other = value ∨ other ∈ map.values := by
  obtain ⟨given, found⟩ := (OrderedMap.mem_values_iff _ _).mp member
  rw [OrderedMap.get_set] at found
  split at found
  · exact .inl (Option.some.inj found).symm
  · exact .inr ((OrderedMap.mem_values_iff _ _).mpr ⟨given, found⟩)

end MediaWorld
end Relavium.Store
