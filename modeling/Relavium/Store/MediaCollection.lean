import Relavium.Store.MediaReferences

/-!
# Media collection beside its producers

Any number of processes share one media store and one database.  A producer
writes a temporary file, renames it to its content address, admits the handle
and references it from its run.  A collection pass removes the references of
settled runs, collects expired objects and unlinks them, and then sweeps the
blobs that have no row.  Each transaction, each rename, each unlink and each
reading is one step, and the steps of all processes interleave.
-/

namespace Relavium.Store

open Library
open Shared

/-- How far a run has come. -/
inductive MediaRunPhase
  | active (startedAt : Int)
  | settled
  deriving DecidableEq

/-- How far the production of one object has come. -/
inductive ProducerStage
  /-- The temporary file is there, last written at the given time. -/
  | writing (writtenAt : Int)
  /-- The object is in the store and its handle not yet admitted. -/
  | published (handle : JsString)
  | admitted (handle : JsString)
  | referenced
  deriving DecidableEq

/-- A producer, for a run. -/
structure MediaProducer where
  run : JsString
  stage : ProducerStage

/-- How far `runHostMediaGc` has come. -/
inductive PassStage
  /-- Step 1, with the runs it has still to look at. -/
  | retrying (runs : List JsString)
  /-- Step 2, with the collected handles it has still to unlink. -/
  | collecting (doomed : List JsString)
  /-- Step 3, past the check for other active runs. -/
  | past (gateAt : Int)
  /-- The handles that have a row are listed. -/
  | knowing (gateAt : Int) (known : List JsString)
  /-- The store is being listed, with the orphans found so far. -/
  | listing (gateAt : Int) (known : List JsString) (settledBefore : Int) (orphans : List JsString)
  /-- The orphans it has still to unlink. -/
  | sweeping (orphans : List JsString)
  deriving DecidableEq

/-- A collection pass with its parameters. -/
structure CollectionPass where
  currentRunId : Option JsString
  graceMs : Nat
  orphanMinAgeMs : Nat
  stage : PassStage

/-- The store, the database and everything under way. -/
structure MediaWorld where
  clock : Int
  /-- The modification times of the blobs, by handle. -/
  blobs : OrderedMap JsString Int
  tables : MediaTables
  runs : OrderedMap JsString MediaRunPhase
  producers : OrderedMap Nat MediaProducer
  passes : OrderedMap Nat CollectionPass

/-- An empty store and a new database. -/
def MediaWorld.start : MediaWorld where
  clock := 0
  blobs := .empty
  tables := .empty
  runs := .empty
  producers := .empty
  passes := .empty

/-- The run ids that `runReferenceRunIds` answers. -/
def MediaTables.runReferenceRunIds (tables : MediaTables) : List JsString :=
  (OrderedSet.ofList
    ((tables.references.keys.filter fun key => key.scopeKind = .run).map
      MediaReferenceKey.scopeId)).elements

/-- `listObjectHandles`. -/
def MediaTables.listObjectHandles (tables : MediaTables) : List JsString :=
  tables.objects.keys

def MediaRunPhase.isActive : MediaRunPhase → Bool
  | .active _ => true
  | .settled => false

namespace MediaWorld

/-- The run has begun and is not settled. -/
def Active (world : MediaWorld)
    (run : JsString) : Prop :=
  (world.runs.get run).any MediaRunPhase.isActive = true

instance (world : MediaWorld) (run : JsString) : Decidable (world.Active run) :=
  inferInstanceAs (Decidable (_ = _))

/-- `hasOtherActiveRuns`. -/
def hasOtherActiveRuns (world : MediaWorld)
    (currentRunId : Option JsString) : Bool :=
  world.runs.entries.any fun entry =>
    entry.2.isActive && decide (some entry.1 ≠ currentRunId)

/-! ## Runs and clocks -/

/-- Time passes. -/
def tick (later : Int)
    (world : MediaWorld) : Option MediaWorld :=
  if world.clock ≤ later then some { world with clock := later } else none

/-- A run begins, under an id that was not used before. -/
def beginRun (run : JsString)
    (world : MediaWorld) : Option MediaWorld :=
  if world.runs.has run then none
  else some { world with runs := world.runs.set run (.active world.clock) }

/-- A run comes to its terminal status. -/
def settleRun (run : JsString)
    (world : MediaWorld) : Option MediaWorld :=
  if world.Active run then
    some { world with runs := world.runs.set run .settled }
  else none

/-! ## Producers -/

/-- A producer of an active run opens its temporary file or writes more to it. -/
def write (id : Nat) (run : JsString)
    (world : MediaWorld) : Option MediaWorld :=
  let written :=
    some { world with
      producers := world.producers.set id { run, stage := .writing world.clock } }
  if world.Active run then
    match world.producers.get id with
    | none => written
    | some { run := owner, stage := .writing _ } => if owner = run then written else none
    | some _ => none
  else none

/-- The rename of `#publish`: the blob is as old as the temporary file. -/
def publish (id : Nat) (handle : JsString)
    (world : MediaWorld) : Option MediaWorld :=
  match world.producers.get id with
  | some { run, stage := .writing writtenAt } =>
    if world.Active run then
      some { world with
        blobs := world.blobs.set handle writtenAt
        producers := world.producers.set id { run, stage := .published handle } }
    else none
  | _ => none

/-- The rename is refused as contended and the blob that is there is taken. -/
def adopt (id : Nat) (handle : JsString)
    (world : MediaWorld) : Option MediaWorld :=
  match world.producers.get id with
  | some { run, stage := .writing _ } =>
    if world.Active run ∧ world.blobs.has handle then
      some { world with
        producers := world.producers.set id { run, stage := .published handle } }
    else none
  | _ => none

/-- The admission of the published handle.  A refused one may be tried again. -/
def admitHandle (id : Nat) (ts : Int) (batch : DescriptorBatch)
    (world : MediaWorld) : Option MediaWorld :=
  match world.producers.get id with
  | some { run, stage := .published handle } =>
    let stamped : StampedMediaCall := { ts, call := .admitProducedMedia batch }
    let next := (stamped.perform world.tables).2
    if world.Active run ∧ ts ≤ world.clock ∧
        (∀ owned ∈ (reconcileMediaDescriptors batch).toOption,
          ∀ input ∈ owned, input.handle = handle) then
      match (stamped.perform world.tables).1 with
      | .ok _ =>
        some { world with
          tables := next
          producers := world.producers.set id { run, stage := .admitted handle } }
      | .error _ => some { world with tables := next }
    else none
  | _ => none

/-- The reference of the admitted handle from the run. -/
def referRun (id : Nat) (ts : Int)
    (world : MediaWorld) : Option MediaWorld :=
  match world.producers.get id with
  | some { run, stage := .admitted handle } =>
    let stamped : StampedMediaCall :=
      { ts, call := .addReference { handle, scopeKind := .run, scopeId := run } }
    if world.Active run ∧ ts ≤ world.clock then
      some { world with
        tables := (stamped.perform world.tables).2
        producers := world.producers.set id { run, stage := .referenced } }
    else none
  | _ => none

/-! ## Collection passes -/

/-- A pass begins, for a run that is settled. -/
def startPass (id : Nat) (currentRunId : Option JsString) (graceMs orphanMinAgeMs : Nat)
    (world : MediaWorld) : Option MediaWorld :=
  if world.passes.has id = false ∧
      (∀ run ∈ currentRunId, world.runs.get run = some .settled) ∧
      0 < graceMs ∧ 0 < orphanMinAgeMs then
    some { world with
      passes := world.passes.set id
        { currentRunId
          graceMs
          orphanMinAgeMs
          stage := .retrying world.tables.runReferenceRunIds } }
  else none

/-- The pass with another stage. -/
def moveTo (world : MediaWorld) (id : Nat) (pass : CollectionPass)
    (stage : PassStage) : MediaWorld :=
  { world with passes := world.passes.set id { pass with stage } }

/-- One turn of step 1: the references of a run are removed when it is not the
current one and not active. -/
def retry (id : Nat) (ts : Int)
    (world : MediaWorld) : Option MediaWorld :=
  match world.passes.get id with
  | some pass =>
    match pass.stage with
    | .retrying (run :: rest) =>
      if some run = pass.currentRunId ∨ world.Active run then
        some (world.moveTo id pass (.retrying rest))
      else if ts ≤ world.clock then
        let stamped : StampedMediaCall := { ts, call := .removeRunReferences run }
        some (({ world with tables := (stamped.perform world.tables).2 }).moveTo
          id pass (.retrying rest))
      else none
    | _ => none
  | none => none

/-- The transaction of step 2. -/
def reclaim (id : Nat) (ts : Int)
    (world : MediaWorld) : Option MediaWorld :=
  match world.passes.get id with
  | some pass =>
    match pass.stage with
    | .retrying [] =>
      let stamped : StampedMediaCall := { ts, call := .reclaimExpired pass.graceMs }
      match stamped.perform world.tables with
      | (.ok (.reclaimed handles), tables) =>
        if ts ≤ world.clock then
          some (({ world with tables }).moveTo id pass (.collecting handles))
        else none
      | _ => none
    | _ => none
  | none => none

/-- One unlink of `deleteJoined`, of step 2 or of step 3. -/
def unlink (id : Nat) (handle : JsString)
    (world : MediaWorld) : Option MediaWorld :=
  match world.passes.get id with
  | some pass =>
    let gone : MediaWorld := { world with blobs := world.blobs.delete handle }
    match pass.stage with
    | .collecting doomed =>
      if handle ∈ doomed then
        some (gone.moveTo id pass (.collecting (doomed.filter (· ≠ handle))))
      else none
    | .sweeping orphans =>
      if handle ∈ orphans then
        some (gone.moveTo id pass (.sweeping (orphans.filter (· ≠ handle))))
      else none
    | _ => none
  | none => none

/-- Step 3 goes on when no other run is active, after all of step 2 has joined. -/
def passGate (id : Nat)
    (world : MediaWorld) : Option MediaWorld :=
  match world.passes.get id with
  | some pass =>
    if pass.stage = .collecting [] ∧ world.hasOtherActiveRuns pass.currentRunId = false then
      some (world.moveTo id pass (.past world.clock))
    else none
  | none => none

/-- The handles with a row are listed. -/
def listKnown (id : Nat)
    (world : MediaWorld) : Option MediaWorld :=
  match world.passes.get id with
  | some pass =>
    match pass.stage with
    | .past gateAt =>
      some (world.moveTo id pass (.knowing gateAt world.tables.listObjectHandles))
    | _ => none
  | none => none

/-- The clock is read for the age guard. -/
def readClock (id : Nat)
    (world : MediaWorld) : Option MediaWorld :=
  match world.passes.get id with
  | some pass =>
    match pass.stage with
    | .knowing gateAt known =>
      some (world.moveTo id pass (.listing gateAt known (world.clock - pass.orphanMinAgeMs) []))
    | _ => none
  | none => none

/-- The listing comes upon a blob, which is an orphan when it has no row and has
aged. -/
def observe (id : Nat) (handle : JsString)
    (world : MediaWorld) : Option MediaWorld :=
  match world.passes.get id with
  | some pass =>
    match pass.stage, world.blobs.get handle with
    | .listing gateAt known settledBefore orphans, some mtimeMs =>
      if handle ∉ known ∧ mtimeMs ≤ settledBefore then
        some (world.moveTo id pass (.listing gateAt known settledBefore (orphans ++ [handle])))
      else some world
    | _, _ => none
  | none => none

/-- The listing is complete. -/
def finishListing (id : Nat)
    (world : MediaWorld) : Option MediaWorld :=
  match world.passes.get id with
  | some pass =>
    match pass.stage with
    | .listing _ _ _ orphans => some (world.moveTo id pass (.sweeping orphans))
    | _ => none
  | none => none

end MediaWorld

/-- One step of one of the processes. -/
inductive MediaAction
  | tick (later : Int)
  | beginRun (run : JsString)
  | settleRun (run : JsString)
  | write (producer : Nat) (run : JsString)
  | publish (producer : Nat) (handle : JsString)
  | adopt (producer : Nat) (handle : JsString)
  | admitHandle (producer : Nat) (ts : Int) (batch : DescriptorBatch)
  | referRun (producer : Nat) (ts : Int)
  | startPass (pass : Nat) (currentRunId : Option JsString) (graceMs orphanMinAgeMs : Nat)
  | retry (pass : Nat) (ts : Int)
  | reclaim (pass : Nat) (ts : Int)
  | unlink (pass : Nat) (handle : JsString)
  | passGate (pass : Nat)
  | listKnown (pass : Nat)
  | readClock (pass : Nat)
  | observe (pass : Nat) (handle : JsString)
  | finishListing (pass : Nat)

/-- The world after a step, when the step can be taken. -/
def MediaWorld.step
    (world : MediaWorld) : MediaAction → Option MediaWorld
  | .tick later => world.tick later
  | .beginRun run => world.beginRun run
  | .settleRun run => world.settleRun run
  | .write producer run => world.write producer run
  | .publish producer handle => world.publish producer handle
  | .adopt producer handle => world.adopt producer handle
  | .admitHandle producer ts batch => world.admitHandle producer ts batch
  | .referRun producer ts => world.referRun producer ts
  | .startPass pass currentRunId graceMs orphanMinAgeMs =>
    world.startPass pass currentRunId graceMs orphanMinAgeMs
  | .retry pass ts => world.retry pass ts
  | .reclaim pass ts => world.reclaim pass ts
  | .unlink pass handle => world.unlink pass handle
  | .passGate pass => world.passGate pass
  | .listKnown pass => world.listKnown pass
  | .readClock pass => world.readClock pass
  | .observe pass handle => world.observe pass handle
  | .finishListing pass => world.finishListing pass

end Relavium.Store
