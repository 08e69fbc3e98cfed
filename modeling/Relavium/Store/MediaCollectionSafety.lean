import Relavium.Store.MediaCollectionInvariant

/-!
# Collection keeps the bytes of live rows

Every step of a producer or a collection pass that meets the conditions keeps
the invariant, so that in every such interleaving the blob of a live row is in
the store.
-/

namespace Relavium.Store

open Library
open Shared

namespace MediaWorld

/-! ## Runs -/

variable
  {world next : MediaWorld}

theorem Sound.tick {later : Int} (sound : world.Sound) (taken : world.tick later = some next) :
    next.Sound := by
  unfold MediaWorld.tick at taken
  split at taken
  · rename_i isLater
    cases taken
    refine sound.advance ?_ sound.owned
      (fun run startedAt isActive => (sound.started run startedAt isActive).trans isLater)
      sound.written (fun pass isPass => .inl isPass)
    exact ⟨isLater, fun _ isSettled => isSettled, fun _ _ isActive => .inl isActive,
      fun _ live => .inl live, fun _ unadmitted => .inl unadmitted,
      fun _ mtimeMs isBlob => .inr ⟨mtimeMs, isBlob, .inl rfl⟩⟩
  · cases taken

variable
  {run : JsString}

theorem Sound.beginRun (sound : world.Sound) (taken : world.beginRun run = some next) :
    next.Sound := by
  unfold MediaWorld.beginRun at taken
  split at taken
  · cases taken
  · rename_i isFresh
    cases taken
    have other : ∀ id producer, world.producers.get id = some producer →
        producer.run ≠ run := by
      intro id producer isProducer same
      exact isFresh (same ▸ sound.owned id producer isProducer)
    have phaseOf : ∀ given, given ≠ run →
        (world.runs.set run (.active world.clock)).get given = world.runs.get given :=
      fun given differs => OrderedMap.get_set_of_ne _ differs _
    refine sound.advance ?_ ?_ ?_ ?_ fun pass isPass => .inl isPass
    · refine ⟨le_rfl, fun given isSettled => ?_, fun given startedAt isActive => ?_,
        fun _ live => .inl live, fun handle unadmitted => .inl ?_,
        fun _ mtimeMs isBlob => .inr ⟨mtimeMs, isBlob, .inl rfl⟩⟩
      · rw [phaseOf given, isSettled]
        rintro rfl
        exact isFresh ((OrderedMap.has_iff _ _).mpr ⟨_, isSettled⟩)
      · by_cases isRun : given = run
        · subst isRun
          rw [OrderedMap.get_set_self] at isActive
          injection isActive with sameTime
          injection sameTime with sameTime
          exact .inr (le_of_eq sameTime)
        · rw [phaseOf given isRun] at isActive
          exact .inl isActive
      · obtain ⟨producer, isProducer, isStage, isActive⟩ := unadmitted
        obtain ⟨id, found⟩ := (OrderedMap.mem_values_iff _ _).mp isProducer
        refine ⟨producer, isProducer, isStage, ?_⟩
        rw [active_iff] at isActive ⊢
        rwa [phaseOf _ (other id producer found)] at isActive
    · intro id producer isProducer
      rw [OrderedMap.has, phaseOf _ (other id producer isProducer)]
      exact sound.owned id producer isProducer
    · intro given startedAt isActive
      by_cases isRun : given = run
      · subst isRun
        rw [OrderedMap.get_set_self] at isActive
        injection isActive with sameTime
        injection sameTime with sameTime
        exact le_of_eq sameTime.symm
      · rw [phaseOf given isRun] at isActive
        exact sound.started given startedAt isActive
    · intro id producer writtenAt startedAt isProducer isStage isActive
      rw [phaseOf _ (other id producer isProducer)] at isActive
      exact sound.written id producer writtenAt startedAt isProducer isStage isActive

theorem Sound.settleRun (sound : world.Sound) (taken : world.settleRun run = some next) :
    next.Sound := by
  unfold MediaWorld.settleRun at taken
  split at taken
  · rename_i wasActive
    cases taken
    have active_before : ∀ given startedAt,
        (world.runs.set run .settled).get given = some (.active startedAt) →
          world.runs.get given = some (.active startedAt) := by
      intro given startedAt isActive
      rw [OrderedMap.get_set] at isActive
      split at isActive
      · cases isActive
      · exact isActive
    refine sound.advance ?_ ?_ ?_ ?_ fun pass isPass => .inl isPass
    · refine ⟨le_rfl, fun given isSettled => ?_,
        fun given startedAt isActive => .inl (active_before given startedAt isActive),
        fun _ live => .inl live, fun handle unadmitted => .inl ?_,
        fun _ mtimeMs isBlob => .inr ⟨mtimeMs, isBlob, .inl rfl⟩⟩
      · rw [OrderedMap.get_set]
        split
        · rfl
        · exact isSettled
      · obtain ⟨producer, isProducer, isStage, isActive⟩ := unadmitted
        refine ⟨producer, isProducer, isStage, ?_⟩
        obtain ⟨startedAt, found⟩ := active_iff.mp isActive
        exact active_iff.mpr ⟨startedAt, active_before _ startedAt found⟩
    · intro id producer isProducer
      obtain ⟨phase, found⟩ :=
        (OrderedMap.has_iff _ _).mp (sound.owned id producer isProducer)
      rw [OrderedMap.has_iff, OrderedMap.get_set]
      split
      · exact ⟨_, rfl⟩
      · exact ⟨phase, found⟩
    · intro given startedAt isActive
      exact sound.started given startedAt (active_before given startedAt isActive)
    · intro id producer writtenAt startedAt isProducer isStage isActive
      exact sound.written id producer writtenAt startedAt isProducer isStage
        (active_before _ startedAt isActive)
  · cases taken

/-! ## Producers -/

variable
  {id : Nat}
  {handle : JsString}

theorem unadmitted_of_set_producer
    (world : MediaWorld) {next : MediaWorld} {producer : MediaProducer}
    (unadmitted : next.Unadmitted handle)
    (producers : next.producers = world.producers.set id producer)
    (runs : next.runs = world.runs) :
    world.Unadmitted handle ∨ producer.stage = .published handle := by
  obtain ⟨given, isProducer, isStage, isActive⟩ := unadmitted
  rw [Active, runs] at isActive
  rw [producers] at isProducer
  obtain rfl | before := mem_values_set isProducer
  · exact .inr isStage
  · exact .inl ⟨given, before, isStage, isActive⟩

/-- A change to one producer keeps the invariant. -/
theorem Sound.set_producer
    {producer : MediaProducer} (sound : world.Sound) (advances : world.Advances next)
    (runs : next.runs = world.runs) (clock : next.clock = world.clock)
    (passes : next.passes = world.passes)
    (producers : next.producers = world.producers.set id producer)
    (isActive : world.Active producer.run)
    (writesNow : ∀ writtenAt, producer.stage = .writing writtenAt →
      writtenAt = world.clock) :
    next.Sound := by
  refine sound.advance advances ?_ ?_ ?_ fun pass isPass => .inl (passes ▸ isPass)
  · intro given other isOther
    rw [producers, OrderedMap.get_set] at isOther
    rw [runs]
    split at isOther
    · cases isOther
      obtain ⟨startedAt, found⟩ := active_iff.mp isActive
      exact (OrderedMap.has_iff _ _).mpr ⟨_, found⟩
    · exact sound.owned given other isOther
  · rw [runs, clock]
    exact sound.started
  · intro given other writtenAt startedAt isOther isStage isRun
    rw [producers, OrderedMap.get_set] at isOther
    rw [runs] at isRun
    split at isOther
    · cases isOther
      rw [writesNow writtenAt isStage]
      exact sound.started _ startedAt isRun
    · exact sound.written given other writtenAt startedAt isOther isStage isRun

theorem Sound.write (sound : world.Sound) (taken : world.write id run = some next) :
    next.Sound := by
  have isNext : world.Active run ∧ next =
      { world with
        producers := world.producers.set id { run, stage := .writing world.clock } } := by
    unfold MediaWorld.write at taken
    split at taken
    · rename_i isActive
      split at taken
      · exact ⟨isActive, (Option.some.inj taken).symm⟩
      · split at taken
        · exact ⟨isActive, (Option.some.inj taken).symm⟩
        · cases taken
      · cases taken
    · cases taken
  obtain ⟨isActive, rfl⟩ := isNext
  refine sound.set_producer ?_ rfl rfl rfl rfl isActive fun writtenAt isStage => ?_
  · refine ⟨le_rfl, fun _ isSettled => isSettled, fun _ _ active => .inl active,
      fun _ live => .inl live, fun handle unadmitted => .inl ?_,
      fun _ mtimeMs isBlob => .inr ⟨mtimeMs, isBlob, .inl rfl⟩⟩
    obtain before | published := unadmitted_of_set_producer world unadmitted rfl rfl
    · exact before
    · cases published
  · injection isStage with same
    exact same.symm

/-- Whatever a producer of an active run has written is younger than the gates. -/
theorem Sound.afterGates
    {world : MediaWorld} {writtenAt : Int} (sound : world.Sound)
    (isProducer : world.producers.get id = some { run, stage := .writing writtenAt })
    (isActive : world.Active run) :
    world.AfterGates writtenAt := by
  intro pass isPass gateAt isGate
  obtain ⟨startedAt, found⟩ := active_iff.mp isActive
  exact ((sound.passes pass isPass).active gateAt isGate run startedAt found).trans
    (sound.written id _ writtenAt startedAt isProducer rfl found)

theorem Sound.publish
    (sound : world.Sound) (notChosen : ¬world.Chosen handle)
    (taken : world.publish id handle = some next) :
    next.Sound := by
  unfold MediaWorld.publish at taken
  split at taken
  · rename_i run writtenAt isProducer
    split at taken
    · rename_i isActive
      cases taken
      have after := sound.afterGates isProducer isActive
      refine sound.set_producer ?_ rfl rfl rfl rfl isActive
        fun _ isStage => absurd isStage (by simp)
      refine ⟨le_rfl, fun _ isSettled => isSettled, fun _ _ active => .inl active,
        fun _ live => .inl live, fun other unadmitted => ?_,
        fun other mtimeMs isBlob => .inr ?_⟩
      · obtain before | published := unadmitted_of_set_producer world unadmitted rfl rfl
        · exact .inl before
        · injection published with same
          subst same
          exact .inr ⟨notChosen, writtenAt, OrderedMap.get_set_self _ _ _, after⟩
      · by_cases isHandle : other = handle
        · subst isHandle
          exact ⟨writtenAt, OrderedMap.get_set_self _ _ _, .inr after⟩
        · exact ⟨mtimeMs, (OrderedMap.get_set_of_ne _ isHandle _).trans isBlob, .inl rfl⟩
    · cases taken
  · cases taken

/-- A put that adopts a young blob no pass has chosen keeps the invariant. -/
theorem Sound.adopt
    (sound : world.Sound) (notChosen : ¬world.Chosen handle)
    (young : ∀ mtimeMs ∈ world.blobs.get handle, world.AfterGates mtimeMs)
    (taken : world.adopt id handle = some next) :
    next.Sound := by
  unfold MediaWorld.adopt at taken
  split at taken
  · rename_i run writtenAt isProducer
    split at taken
    · rename_i holds
      obtain ⟨isActive, isThere⟩ := holds
      cases taken
      obtain ⟨found, isBlob⟩ := (OrderedMap.has_iff _ _).mp isThere
      refine sound.set_producer ?_ rfl rfl rfl rfl isActive
        fun _ isStage => absurd isStage (by simp)
      refine ⟨le_rfl, fun _ isSettled => isSettled, fun _ _ active => .inl active,
        fun _ live => .inl live, fun other unadmitted => ?_,
        fun _ mtimeMs isBlob => .inr ⟨mtimeMs, isBlob, .inl rfl⟩⟩
      obtain before | published := unadmitted_of_set_producer world unadmitted rfl rfl
      · exact .inl before
      · injection published with same
        subst same
        exact .inr ⟨notChosen, found, isBlob, young found isBlob⟩
    · cases taken
  · cases taken

/-! ## Transactions -/

/-- A transaction makes live only what it admits. -/
theorem live_of_effect
    {stamped : StampedMediaCall} {before after : MediaTables}
    {outcome : Except MediaRefusal MediaAnswer}
    (effect : MediaEffect stamped before outcome after) (live : after.Live handle) :
    before.Live handle ∨ handle ∈ stamped.call.admitted := by
  obtain ⟨row, isRow, isLive⟩ := live
  cases effect with
  | refused => exact .inl ⟨row, isRow, isLive⟩
  | admitted admits =>
    by_cases isAdmitted : handle ∈ stamped.call.admitted
    · exact .inr isAdmitted
    · rw [admits.others handle isAdmitted] at isRow
      exact .inl ⟨row, isRow, isLive⟩
  | referenced isCall makes =>
    rw [makes.objects] at isRow
    obtain ⟨earlier, isEarlier, rfl⟩ := Option.map_eq_some_iff.mp isRow
    refine .inl ⟨earlier, isEarlier, ?_⟩
    split at isLive <;> exact isLive
  | removed isCall removes =>
    rw [removes.objects] at isRow
    obtain ⟨earlier, isEarlier, rfl⟩ := Option.map_eq_some_iff.mp isRow
    refine .inl ⟨earlier, isEarlier, ?_⟩
    split at isLive <;> exact isLive
  | reclaimed isCall updates =>
    rw [updates.objects] at isRow
    obtain ⟨earlier, isEarlier, rfl⟩ := Option.map_eq_some_iff.mp isRow
    refine .inl ⟨earlier, isEarlier, ?_⟩
    split at isLive
    · cases isLive
    · exact isLive

/-- A call that admits nothing makes no handle live. -/
theorem live_of_perform
    {stamped : StampedMediaCall} {before : MediaTables} (nothing : stamped.call.admitted = [])
    (live : (stamped.perform before).2.Live handle) :
    before.Live handle := by
  obtain earlier | isAdmitted := live_of_effect (media_effect stamped before) live
  · exact earlier
  · rw [nothing] at isAdmitted
    exact absurd isAdmitted List.not_mem_nil

variable
  {ts : Int}

theorem Sound.admitHandle
    {batch : DescriptorBatch} (sound : world.Sound)
    (taken : world.admitHandle id ts batch = some next) :
    next.Sound := by
  unfold MediaWorld.admitHandle at taken
  split at taken
  · rename_i run handle isProducer
    simp only at taken
    split at taken
    · rename_i holds
      obtain ⟨isActive, -, ofHandle⟩ := holds
      have unadmitted : world.Unadmitted handle :=
        ⟨_, (OrderedMap.mem_values_iff _ _).mpr ⟨id, isProducer⟩, rfl, isActive⟩
      have live : ∀ other,
          ((StampedMediaCall.mk ts (.admitProducedMedia batch)).perform
            world.tables).2.Live other →
          world.tables.Live other ∨ world.Unadmitted other := by
        intro other isLive
        obtain earlier | isAdmitted := live_of_effect (media_effect _ _) isLive
        · exact .inl earlier
        · right
          unfold MediaCall.admitted batchHandles at isAdmitted
          simp only at isAdmitted
          cases reconciled : reconcileMediaDescriptors batch with
          | error code => simp [reconciled] at isAdmitted
          | ok owned =>
            rw [reconciled] at isAdmitted ofHandle
            obtain ⟨input, isInput, rfl⟩ := List.mem_map.mp isAdmitted
            rw [ofHandle owned rfl input isInput]
            exact unadmitted
      split at taken
      · cases taken
        refine sound.set_producer ?_ rfl rfl rfl rfl isActive
          fun _ isStage => absurd isStage (by simp)
        refine ⟨le_rfl, fun _ isSettled => isSettled, fun _ _ active => .inl active,
          live, fun other isUnadmitted => .inl ?_,
          fun _ mtimeMs isBlob => .inr ⟨mtimeMs, isBlob, .inl rfl⟩⟩
        obtain before | published := unadmitted_of_set_producer world isUnadmitted rfl rfl
        · exact before
        · cases published
      · cases taken
        refine sound.advance ?_ sound.owned sound.started sound.written
          fun pass isPass => .inl isPass
        exact ⟨le_rfl, fun _ isSettled => isSettled, fun _ _ active => .inl active,
          live, fun _ isUnadmitted => .inl isUnadmitted,
          fun _ mtimeMs isBlob => .inr ⟨mtimeMs, isBlob, .inl rfl⟩⟩
    · cases taken
  · cases taken

theorem Sound.referRun (sound : world.Sound) (taken : world.referRun id ts = some next) :
    next.Sound := by
  unfold MediaWorld.referRun at taken
  split at taken
  · rename_i run handle isProducer
    simp only at taken
    split at taken
    · rename_i holds
      cases taken
      refine sound.set_producer ?_ rfl rfl rfl rfl holds.1
        fun _ isStage => absurd isStage (by simp)
      refine ⟨le_rfl, fun _ isSettled => isSettled, fun _ _ active => .inl active,
        fun _ isLive => .inl (live_of_perform rfl isLive), fun other isUnadmitted => .inl ?_,
        fun _ mtimeMs isBlob => .inr ⟨mtimeMs, isBlob, .inl rfl⟩⟩
      obtain before | published := unadmitted_of_set_producer world isUnadmitted rfl rfl
      · exact before
      · cases published
    · cases taken
  · cases taken

/-! ## Collection passes -/

/-- What a pass may rely on does not depend on the passes. -/
theorem PassSound.moveTo
    {world : MediaWorld} {pass other : CollectionPass} (passSound : world.PassSound pass)
    (id : Nat) (stage : PassStage) :
    (world.moveTo id other stage).PassSound pass :=
  ⟨passSound.current, passSound.pending, passSound.clock, passSound.active,
    passSound.unadmitted, passSound.unknown, passSound.settledBefore⟩

variable
  {pass : CollectionPass}

variable {world : MediaWorld}

/-- The invariant after a pass has moved to a stage it can rely on. -/
theorem Sound.moveTo
    {stage : PassStage} (sound : world.Sound) (moved : world.PassSound { pass with stage }) :
    (world.moveTo id pass stage).Sound := by
  refine ⟨sound.owned, sound.started, sound.written, sound.kept, ?_⟩
  intro other isOther
  obtain rfl | before := mem_values_set isOther
  · exact moved.moveTo id stage
  · exact (sound.passes other before).moveTo id stage

/-- A stage with nothing chosen and before the gate relies on nothing. -/
theorem PassSound.idle
    (current : ∀ run ∈ pass.currentRunId, world.runs.get run = some .settled)
    (pending : pass.stage.pending = []) (gateAt : pass.stage.gateAt = none) :
    world.PassSound pass := by
  refine ⟨current, ?_, ?_, ?_, ?_, ?_, ?_⟩ <;> simp [pending, gateAt]

/-- Other tables in which no more is live keep the invariant. -/
theorem Sound.with_tables
    {tables : MediaTables} (sound : world.Sound)
    (live : ∀ handle, tables.Live handle → world.tables.Live handle) :
    ({ world with tables } : MediaWorld).Sound := by
  refine sound.advance ?_ sound.owned sound.started sound.written fun pass isPass => .inl isPass
  exact ⟨le_rfl, fun _ isSettled => isSettled, fun _ _ active => .inl active,
    fun handle isLive => .inl (live handle isLive),
    fun _ unadmitted => .inl unadmitted,
    fun _ mtimeMs isBlob => .inr ⟨mtimeMs, isBlob, .inl rfl⟩⟩

theorem Sound.passAt (sound : world.Sound) (isPass : world.passes.get id = some pass) :
    world.PassSound pass :=
  sound.passes pass ((OrderedMap.mem_values_iff _ _).mpr ⟨id, isPass⟩)

theorem Sound.startPass
    {currentRunId : Option JsString} {graceMs orphanMinAgeMs : Nat} (sound : world.Sound)
    (taken : world.startPass id currentRunId graceMs orphanMinAgeMs = some next) :
    next.Sound := by
  unfold MediaWorld.startPass at taken
  split at taken
  · rename_i holds
    cases taken
    exact @Sound.moveTo id
      { currentRunId, graceMs, orphanMinAgeMs,
        stage := .retrying world.tables.runReferenceRunIds } world _ sound
      (.idle holds.2.1 rfl rfl)
  · cases taken

theorem Sound.retry (sound : world.Sound) (taken : world.retry id ts = some next) :
    next.Sound := by
  unfold MediaWorld.retry at taken
  split at taken
  · rename_i pass isPass
    have current := (sound.passAt isPass).current
    split at taken
    · split at taken
      · cases taken
        exact sound.moveTo (.idle current rfl rfl)
      · split at taken
        · cases taken
          exact (sound.with_tables fun _ isLive => live_of_perform rfl isLive).moveTo
            (.idle current rfl rfl)
        · cases taken
    · cases taken
  · cases taken

/-- A pass that reclaims no unadmitted handle keeps the invariant. -/
theorem Sound.reclaim (sound : world.Sound)
    (careful : ∀ pass ∈ world.passes.get id,
      ∀ handle ∈ world.tables.expired (ts - pass.graceMs), ¬world.Unadmitted handle)
    (taken : world.reclaim id ts = some next) :
    next.Sound := by
  unfold MediaWorld.reclaim at taken
  split at taken
  · rename_i pass isPass
    split at taken
    · simp only at taken
      split at taken
      · rename_i handles tables performed
        split at taken
        · cases taken
          have effect := media_effect ⟨ts, .reclaimExpired pass.graceMs⟩ world.tables
          rw [performed] at effect
          cases effect with
          | @reclaimed graceMs _ isCall updates =>
            obtain rfl : pass.graceMs = graceMs := MediaCall.reclaimExpired.inj isCall
            refine (sound.with_tables fun handle isLive => ?_).moveTo ?_
            · obtain ⟨row, isRow, notDeleted⟩ := isLive
              rw [updates.objects] at isRow
              obtain ⟨earlier, isEarlier, rfl⟩ := Option.map_eq_some_iff.mp isRow
              refine ⟨earlier, isEarlier, ?_⟩
              split at notDeleted
              · cases notDeleted
              · exact notDeleted
            · refine ⟨(sound.passAt isPass).current, fun handle isPending => ?_,
                by simp [PassStage.gateAt], by simp [PassStage.gateAt],
                by simp [PassStage.gateAt], by simp [PassStage.gateAt],
                by simp [PassStage.gateAt]⟩
              refine ⟨?_, careful pass isPass handle isPending⟩
              rintro ⟨row, isRow, notDeleted⟩
              rw [updates.objects] at isRow
              obtain ⟨earlier, -, rfl⟩ := Option.map_eq_some_iff.mp isRow
              split at notDeleted
              · cases notDeleted
              · next notExpired => exact notExpired isPending
        · cases taken
      · cases taken
    · cases taken
  · cases taken

/-- Deleting a chosen blob keeps the invariant. -/
theorem Sound.without_blob (sound : world.Sound) (isChosen : world.Chosen handle) :
    ({ world with blobs := world.blobs.delete handle } : MediaWorld).Sound := by
  refine sound.advance ?_ sound.owned sound.started sound.written fun pass isPass => .inl isPass
  refine ⟨le_rfl, fun _ isSettled => isSettled, fun _ _ active => .inl active,
    fun _ isLive => .inl isLive, fun _ unadmitted => .inl unadmitted,
    fun other mtimeMs isBlob => ?_⟩
  by_cases isHandle : other = handle
  · subst isHandle
    exact .inl isChosen
  · refine .inr ⟨mtimeMs, ?_, .inl rfl⟩
    exact (OrderedMap.get_delete_of_ne _ isHandle).trans isBlob

/-- A pass that has fewer handles to unlink, after the gate or before it. -/
theorem PassSound.fewer
    {stage : PassStage} (passSound : world.PassSound pass)
    (fewer : ∀ handle ∈ stage.pending, handle ∈ pass.stage.pending) (gateAt : stage.gateAt = none) :
    world.PassSound { pass with stage } := by
  refine ⟨passSound.current, fun handle isPending =>
    passSound.pending handle (fewer handle isPending), ?_, ?_, ?_, ?_, ?_⟩ <;>
    simp [gateAt]

theorem Sound.unlink (sound : world.Sound) (taken : world.unlink id handle = some next) :
    next.Sound := by
  unfold MediaWorld.unlink at taken
  split at taken
  · rename_i pass isPass
    have member := (OrderedMap.mem_values_iff _ _).mpr ⟨id, isPass⟩
    simp only at taken
    split at taken
    · rename_i doomed isStage
      split at taken
      · rename_i isDoomed
        cases taken
        have isPending : handle ∈ pass.stage.pending := by rw [isStage]; exact isDoomed
        have gone := sound.without_blob ⟨pass, member, isPending⟩
        refine gone.moveTo ((gone.passes pass member).fewer ?_ rfl)
        intro other isOther
        rw [isStage]
        exact List.mem_of_mem_filter isOther
      · cases taken
    · rename_i orphans isStage
      split at taken
      · rename_i isOrphan
        cases taken
        have isPending : handle ∈ pass.stage.pending := by rw [isStage]; exact isOrphan
        have gone := sound.without_blob ⟨pass, member, isPending⟩
        refine gone.moveTo ((gone.passes pass member).fewer ?_ rfl)
        intro other isOther
        rw [isStage]
        exact List.mem_of_mem_filter isOther
      · cases taken
    · cases taken
  · cases taken

/-! ## The orphan sweep -/

/-- At a gate that holds, no run is active. -/
theorem PassSound.none_active
    (passSound : world.PassSound pass) (gate : world.hasOtherActiveRuns pass.currentRunId = false)
    (run : JsString) (startedAt : Int) :
    world.runs.get run ≠ some (.active startedAt) := by
  intro isActive
  have quiet := List.any_eq_false.mp gate (run, .active startedAt)
    ((OrderedMap.mem_entries_iff _ _ _).mpr isActive)
  simp only [MediaRunPhase.isActive, Bool.true_and, decide_eq_true_eq, not_not] at quiet
  have settled := passSound.current run quiet.symm
  rw [isActive] at settled
  cases settled

theorem Sound.passGate (sound : world.Sound) (taken : world.passGate id = some next) :
    next.Sound := by
  unfold MediaWorld.passGate at taken
  split at taken
  · rename_i pass isPass
    have passSound := sound.passAt isPass
    split at taken
    · rename_i holds
      cases taken
      have quiet := passSound.none_active holds.2
      refine sound.moveTo ⟨passSound.current, by simp [PassStage.pending], ?_, ?_, ?_,
        by simp [PassStage.known], by simp [PassStage.settledBefore]⟩
      · intro gateAt isGate
        exact le_of_eq (Option.some.inj isGate).symm
      · intro _ _ run startedAt isActive
        exact absurd isActive (quiet run startedAt)
      · rintro _ _ _ ⟨producer, -, -, isActive⟩
        obtain ⟨startedAt, found⟩ := active_iff.mp isActive
        exact absurd found (quiet _ startedAt)
    · cases taken
  · cases taken

theorem Sound.listKnown (sound : world.Sound) (taken : world.listKnown id = some next) :
    next.Sound := by
  unfold MediaWorld.listKnown at taken
  split at taken
  · rename_i pass isPass
    have passSound := sound.passAt isPass
    split at taken
    · rename_i gateAt isStage
      cases taken
      have sameGate : (PassStage.knowing gateAt world.tables.listObjectHandles).gateAt =
          pass.stage.gateAt := by rw [isStage]; rfl
      refine sound.moveTo ⟨passSound.current, by simp [PassStage.pending],
        sameGate ▸ passSound.clock, sameGate ▸ passSound.active,
        sameGate ▸ passSound.unadmitted, ?_, by simp [PassStage.settledBefore]⟩
      rintro _ _ known isKnown handle notKnown ⟨row, isRow, -⟩
      cases isKnown
      exact absurd ((OrderedMap.mem_keys_iff _ _).mpr
        ((OrderedMap.has_iff _ _).mpr ⟨row, isRow⟩)) notKnown
    · cases taken
  · cases taken

/-- A pass whose age outlives the gate keeps the invariant. -/
theorem Sound.readClock (sound : world.Sound)
    (careful : ∀ pass ∈ world.passes.get id, ∀ gateAt ∈ pass.stage.gateAt,
      world.clock < gateAt + pass.orphanMinAgeMs)
    (taken : world.readClock id = some next) :
    next.Sound := by
  unfold MediaWorld.readClock at taken
  split at taken
  · rename_i pass isPass
    have passSound := sound.passAt isPass
    split at taken
    · rename_i gateAt known isStage
      cases taken
      have isGate : gateAt ∈ pass.stage.gateAt := by rw [isStage]; rfl
      have soon := careful pass isPass gateAt isGate
      have sameGate : (PassStage.listing gateAt known
          (world.clock - pass.orphanMinAgeMs) []).gateAt = pass.stage.gateAt := by
        rw [isStage]; rfl
      have sameKnown : (PassStage.listing gateAt known
          (world.clock - pass.orphanMinAgeMs) []).known = pass.stage.known := by
        rw [isStage]; rfl
      refine sound.moveTo ⟨passSound.current, by simp [PassStage.pending],
        sameGate ▸ passSound.clock, sameGate ▸ passSound.active,
        sameGate ▸ passSound.unadmitted, ?_, ?_⟩
      · intro given isGiven
        simp only [sameGate, sameKnown] at isGiven ⊢
        exact passSound.unknown given isGiven
      · intro given isGiven settledBefore isLimit
        cases isGiven
        cases isLimit
        omega
    · cases taken
  · cases taken

theorem Sound.observe (sound : world.Sound) (taken : world.observe id handle = some next) :
    next.Sound := by
  unfold MediaWorld.observe at taken
  split at taken
  · rename_i pass isPass
    have passSound := sound.passAt isPass
    split at taken
    · rename_i gateAt known settledBefore orphans mtimeMs isStage isBlob
      split at taken
      · rename_i holds
        obtain ⟨notKnown, aged⟩ := holds
        cases taken
        have isGate : gateAt ∈ pass.stage.gateAt := by rw [isStage]; rfl
        have isKnown : known ∈ pass.stage.known := by rw [isStage]; rfl
        have limit : settledBefore < gateAt :=
          passSound.settledBefore gateAt isGate settledBefore (by rw [isStage]; rfl)
        have notYounger : ¬world.Younger gateAt handle := by
          rintro ⟨given, isGiven, young⟩
          obtain rfl : mtimeMs = given := Option.some.inj (isBlob.symm.trans isGiven)
          omega
        have sameGate : (PassStage.listing gateAt known settledBefore
            (orphans ++ [handle])).gateAt = pass.stage.gateAt := by rw [isStage]; rfl
        have sameKnown : (PassStage.listing gateAt known settledBefore
            (orphans ++ [handle])).known = pass.stage.known := by rw [isStage]; rfl
        have sameLimit : (PassStage.listing gateAt known settledBefore
            (orphans ++ [handle])).settledBefore = pass.stage.settledBefore := by
          rw [isStage]; rfl
        refine sound.moveTo ⟨passSound.current, fun other isPending => ?_,
          sameGate ▸ passSound.clock, sameGate ▸ passSound.active,
          sameGate ▸ passSound.unadmitted, ?_, ?_⟩
        · obtain before | added := List.mem_append.mp isPending
          · exact passSound.pending other (by rw [isStage]; exact before)
          · obtain rfl := List.mem_singleton.mp added
            exact ⟨fun live => notYounger
                (passSound.unknown gateAt isGate known isKnown _ notKnown live),
              fun unadmitted => notYounger (passSound.unadmitted gateAt isGate _ unadmitted)⟩
        · intro given isGiven
          simp only [sameGate, sameKnown] at isGiven ⊢
          exact passSound.unknown given isGiven
        · intro given isGiven
          simp only [sameGate, sameLimit] at isGiven ⊢
          exact passSound.settledBefore given isGiven
      · cases taken
        exact sound
    · cases taken
  · cases taken

theorem Sound.finishListing (sound : world.Sound) (taken : world.finishListing id = some next) :
    next.Sound := by
  unfold MediaWorld.finishListing at taken
  split at taken
  · rename_i pass isPass
    split at taken
    · rename_i gateAt known settledBefore orphans isStage
      cases taken
      refine sound.moveTo ((sound.passAt isPass).fewer (fun handle isPending => ?_) rfl)
      rw [isStage]
      exact isPending
    · cases taken
  · cases taken

/-! ## Every run -/

/-- A step that meets the conditions keeps the invariant. -/
theorem Sound.carefulStep
    {action : MediaAction} (sound : world.Sound) (taken : world.carefulStep action = some next) :
    next.Sound := by
  unfold MediaWorld.carefulStep at taken
  split at taken
  · rename_i careful
    cases action with
    | tick later => exact sound.tick taken
    | beginRun run => exact sound.beginRun taken
    | settleRun run => exact sound.settleRun taken
    | write producer run => exact sound.write taken
    | publish producer handle => exact sound.publish careful taken
    | adopt producer handle => exact sound.adopt careful.1 careful.2 taken
    | admitHandle producer ts batch => exact sound.admitHandle taken
    | referRun producer ts => exact sound.referRun taken
    | startPass pass current graceMs orphanMinAgeMs => exact sound.startPass taken
    | retry pass ts => exact sound.retry taken
    | reclaim pass ts => exact sound.reclaim careful taken
    | unlink pass handle => exact sound.unlink taken
    | passGate pass => exact sound.passGate taken
    | listKnown pass => exact sound.listKnown taken
    | readClock pass => exact sound.readClock careful taken
    | observe pass handle => exact sound.observe taken
    | finishListing pass => exact sound.finishListing taken
  · cases taken

/-- The empty world is sound. -/
theorem sound_start : MediaWorld.start.Sound := by
  refine ⟨?_, ?_, ?_, ?_, ?_⟩
  · intro id producer isProducer
    simp [MediaWorld.start] at isProducer
  · intro run startedAt isActive
    simp [MediaWorld.start] at isActive
  · intro id producer writtenAt startedAt isProducer
    simp [MediaWorld.start] at isProducer
  · rintro handle (⟨row, isRow, -⟩ | ⟨producer, isProducer, -⟩)
    · simp [MediaWorld.start, MediaTables.empty] at isRow
    · exact absurd isProducer List.not_mem_nil
  · intro pass isPass
    exact absurd isPass List.not_mem_nil

/-- The run `run` puts, admits and references the object and is settled. -/
def producedBy (run : JsString) : List MediaAction :=
  [.beginRun run, .write 0 run, .publish 0 zeroHandle,
    .admitHandle 0 0 (.array [.data zeroDescriptor]), .referRun 0 0, .settleRun run]

/-- The first pass removes the references of that run and has to wait. -/
def releasedBy (run : JsString) : List MediaAction :=
  producedBy run ++ [.startPass 0 none 1 1, .retry 0 0, .tick 10]

/-- A run with a collection, a sweep and the same object put once more. -/
def collectedAndPutAgain : List MediaAction :=
  releasedBy (jsText "first") ++
    [.reclaim 0 10, .unlink 0 zeroHandle, .passGate 0, .listKnown 0, .readClock 0,
      .finishListing 0, .beginRun (jsText "second"), .write 1 (jsText "second"),
      .publish 1 zeroHandle, .admitHandle 1 10 (.array [.data zeroDescriptor])]

/-- In every run whose steps meet the conditions, every live row has its blob. -/
theorem bytesKept_of_careful
    {history : List MediaAction}
    (reached : history.foldlM MediaWorld.carefulStep .start = some world) :
    world.BytesKept := by
  have sound : world.Sound :=
    (Run.of_foldlM reached).invariant (fun _ world => world.Sound) sound_start
      fun _ _ _ _ _ before taken => before.carefulStep taken
  rintro ⟨handle, row⟩ isEntry live
  exact sound.kept handle (.inl ⟨row, (OrderedMap.mem_entries_iff _ _ _).mp isEntry, live⟩)

theorem bytesKept_of_careful_put_again :
    ∃ world, collectedAndPutAgain.foldlM MediaWorld.carefulStep .start = some world ∧
      world.BytesKept := by
  obtain ⟨world, reached⟩ := Option.isSome_iff_exists.mp
    (show (collectedAndPutAgain.foldlM MediaWorld.carefulStep .start).isSome = true by
      decide +kernel)
  exact ⟨world, reached, bytesKept_of_careful reached⟩

/-! ## Runs that lose the bytes of a live row -/

/-- The run puts an object and is settled without admitting it. -/
def abandonedBy (run : JsString) : List MediaAction :=
  [.beginRun run, .write 0 run, .publish 0 zeroHandle, .settleRun run, .tick 10,
    .startPass 0 none 1 1, .reclaim 0 10, .passGate 0, .listKnown 0, .readClock 0]

/-- One run for each of the conditions. -/
def lossyHistories : List (List MediaAction) :=
  let first := jsText "first"
  let second := jsText "second"
  let begins : List MediaAction := [.beginRun second, .write 1 second]
  let admits : MediaAction := .admitHandle 1 10 (.array [.data zeroDescriptor])
  -- Published and admitted between the collection and its unlink.
  [releasedBy first ++ [.reclaim 0 10] ++ begins ++
      [.publish 1 zeroHandle, admits, .unlink 0 zeroHandle],
    -- Collected and unlinked between the publication and the admission.
    releasedBy first ++ begins ++
      [.publish 1 zeroHandle, .reclaim 0 10, .unlink 0 zeroHandle, admits],
    -- An orphan is published again between the listing and its unlink.
    abandonedBy first ++ [.observe 0 zeroHandle, .finishListing 0] ++ begins ++
      [.publish 1 zeroHandle, admits, .unlink 0 zeroHandle],
    -- An orphan is adopted after the gate, and listed with its old age.
    abandonedBy first ++ begins ++
      [.adopt 1 zeroHandle, .observe 0 zeroHandle, .finishListing 0, admits,
        .unlink 0 zeroHandle],
    -- The clock is read so late that a blob put after the gate has aged.
    [.startPass 0 none 1 1, .reclaim 0 0, .passGate 0, .listKnown 0] ++ begins ++
      [.publish 1 zeroHandle, .tick 10, .readClock 0, .observe 0 zeroHandle,
        .finishListing 0, admits, .unlink 0 zeroHandle]]

/-- Each of these runs ends with a live row whose blob is gone. -/
theorem bytes_of_live_row_lost :
    lossyHistories.Forall fun history => ∃ world,
      history.foldlM MediaWorld.step .start = some world ∧ ¬world.BytesKept := by
  have lost : ∀ history ∈ lossyHistories,
      (history.foldlM MediaWorld.step .start).any
        (fun world => decide ¬world.BytesKept) = true := by
    decide +kernel
  refine List.forall_iff_forall_mem.mpr fun history isHistory => ?_
  obtain ⟨world, reached, gone⟩ := (Option.any_eq_true _ _).mp (lost history isHistory)
  exact ⟨world, reached, of_decide_eq_true gone⟩

end MediaWorld
end Relavium.Store
