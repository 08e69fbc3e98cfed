import Mathlib.Data.List.Nodup
import Mathlib.Data.List.TakeWhile
import Relavium.Library.Trace

/-!
# The primary event stream

Model of `BoundedEventStream` of `packages/core/src/engine/event-stream.ts`: a queue
between the pushes of a run and the pulls of one consumer.  A pull is parked while the
buffer is empty; producers may wait until the buffer is below its capacity.
-/

namespace Relavium.Run

open Library

/-- `EventConsumption`. -/
inductive EventConsumption
  | iterated
  | subscribeOnly
  deriving DecidableEq

/-- The fields of a stream.  Promises are known by their numbers. -/
structure BoundedEventStream (ε : Type u) where
  buffer : List ε
  capacity : Int
  eventConsumption : EventConsumption
  /-- The promise of the parked pull. -/
  waitingPull : Option Nat
  /-- The promises of the producers that wait. -/
  drainWaiters : List Nat
  closed : Bool
  publishedCount : Nat
  deliveredCount : Nat
  hasGap : Bool
  abandoned : Bool

/-- How the promise of a pull is settled. -/
inductive PullAnswer (ε : Type u)
  | value (event : ε)
  | done
  /-- Rejections of a `RunLoopInvariantError`. -/
  | concurrentConsumer
  | invalidConsumerMode

/-- What a call does to promises, and the call of `onClose`. -/
inductive StreamEvent (ε : Type u)
  | pulled (promise : Nat) (answer : PullAnswer ε)
  | drained (promise : Nat)
  | closeCallback

/-- `new BoundedEventStream`. -/
def BoundedEventStream.create (ε : Type u) (capacity : Int)
    (eventConsumption : EventConsumption) : BoundedEventStream ε where
  buffer := []
  capacity
  eventConsumption
  waitingPull := none
  drainWaiters := []
  closed := false
  publishedCount := 0
  deliveredCount := 0
  hasGap := false
  abandoned := false

namespace BoundedEventStream

variable {ε : Type u}

def push (stream : BoundedEventStream ε)
    (event : ε) : List (StreamEvent ε) × BoundedEventStream ε :=
  if stream.eventConsumption = .subscribeOnly then ([], stream)
  else
    let stream := { stream with publishedCount := stream.publishedCount + 1 }
    if stream.closed then ([], { stream with hasGap := true })
    else
      match stream.waitingPull with
      | some promise =>
        ([.pulled promise (.value event)],
          { stream with
            waitingPull := none
            deliveredCount := stream.deliveredCount + 1 })
      | none => ([], { stream with buffer := stream.buffer ++ [event] })

/-- `#wakeDrainWaiters`. -/
def wakeDrainWaiters
    (stream : BoundedEventStream ε) : List (StreamEvent ε) × BoundedEventStream ε :=
  if stream.closed ∨ stream.eventConsumption = .subscribeOnly then
    (stream.drainWaiters.map .drained, { stream with drainWaiters := [] })
  else
    let free := stream.capacity - stream.buffer.length
    if free ≤ 0 then ([], stream)
    else
      ((stream.drainWaiters.take free.toNat).map .drained,
        { stream with drainWaiters := stream.drainWaiters.drop free.toNat })

def close
    (stream : BoundedEventStream ε) : List (StreamEvent ε) × BoundedEventStream ε :=
  if stream.closed then ([], stream)
  else
    let pulled := stream.waitingPull.toList.map fun promise =>
      StreamEvent.pulled promise .done
    let (woken, stream) :=
      wakeDrainWaiters { stream with closed := true, waitingPull := none }
    (pulled ++ woken ++ [.closeCallback], stream)

/-- `whenDrained`, with the number of its promise. -/
def whenDrained (stream : BoundedEventStream ε)
    (promise : Nat) : List (StreamEvent ε) × BoundedEventStream ε :=
  if stream.closed ∨ stream.eventConsumption = .subscribeOnly ∨
      stream.buffer.length < stream.capacity then
    ([.drained promise], stream)
  else
    ([], { stream with drainWaiters := stream.drainWaiters ++ [promise] })

/-- `next`, with the number of its promise. -/
def next (stream : BoundedEventStream ε)
    (promise : Nat) : List (StreamEvent ε) × BoundedEventStream ε :=
  if stream.eventConsumption = .subscribeOnly then
    ([.pulled promise .invalidConsumerMode], stream)
  else
    match stream.buffer with
    | buffered :: rest =>
      let (woken, stream) :=
        wakeDrainWaiters
          { stream with
            buffer := rest
            deliveredCount := stream.deliveredCount + 1 }
      (woken ++ [.pulled promise (.value buffered)], stream)
    | [] =>
      if stream.closed then ([.pulled promise .done], stream)
      else if stream.waitingPull.isSome then
        ([.pulled promise .concurrentConsumer], stream)
      else ([], { stream with waitingPull := some promise })

/-- `return`. -/
def returnEarly
    (stream : BoundedEventStream ε) : List (StreamEvent ε) × BoundedEventStream ε :=
  let stream :=
    if !stream.closed ∨ stream.buffer.length > 0 then { stream with abandoned := true }
    else stream
  let (events, stream) := stream.close
  (events, { stream with buffer := [] })

end BoundedEventStream

/-! ## Runs -/

inductive StreamCall (ε : Type u)
  | push (event : ε)
  | close
  | whenDrained
  | next
  | returnEarly

/-- A stream, and how many promises it has made. -/
structure StreamWorld (ε : Type u) where
  stream : BoundedEventStream ε
  promises : Nat

/-- The promise that a call answers, if it makes one, and what it does to promises. -/
structure StreamOutput (ε : Type u) where
  promise : Nat
  events : List (StreamEvent ε)

variable {ε : Type u}

/-- One call. -/
def streamMachine (world : StreamWorld ε)
    (call : StreamCall ε) : StreamOutput ε × StreamWorld ε :=
  let promise := world.promises
  match call with
  | .push event =>
    let (events, stream) := world.stream.push event
    ({ promise, events }, { stream, promises := promise })
  | .close =>
    let (events, stream) := world.stream.close
    ({ promise, events }, { stream, promises := promise })
  | .whenDrained =>
    let (events, stream) := world.stream.whenDrained promise
    ({ promise, events }, { stream, promises := promise + 1 })
  | .next =>
    let (events, stream) := world.stream.next promise
    ({ promise, events }, { stream, promises := promise + 1 })
  | .returnEarly =>
    let (events, stream) := world.stream.returnEarly
    ({ promise, events }, { stream, promises := promise })

/-- An iterated stream before its first call. -/
def StreamWorld.iterated (ε : Type u) (capacity : Int) : StreamWorld ε where
  stream := .create ε capacity .iterated
  promises := 0

/-- The calls of a run with what they did, newest last. -/
abbrev StreamHistory (ε : Type u) := List (StreamCall ε × StreamOutput ε)

/-- The value that an event hands to the consumer. -/
def StreamEvent.value : StreamEvent ε → Option ε
  | .pulled _ (.value event) => some event
  | _ => none

/-- The pull that an event settles. -/
def StreamEvent.pull : StreamEvent ε → Option Nat
  | .pulled promise _ => some promise
  | _ => none

/-- The pull that an event reports the end to. -/
def StreamEvent.completed : StreamEvent ε → Option Nat
  | .pulled promise .done => some promise
  | _ => none

/-- The pull that an event rejects. -/
def StreamEvent.refused : StreamEvent ε → Option Nat
  | .pulled promise .concurrentConsumer => some promise
  | .pulled promise .invalidConsumerMode => some promise
  | _ => none

/-- The waiting producer that an event resumes. -/
def StreamEvent.waiter : StreamEvent ε → Option Nat
  | .drained promise => some promise
  | _ => none

/-- The values that the consumer was given, in order. -/
def delivered (history : StreamHistory ε) : List ε :=
  history.flatMap fun call => call.2.events.filterMap StreamEvent.value

/-- The pulls that were settled. -/
def settledPulls (history : StreamHistory ε) : List Nat :=
  history.flatMap fun call => call.2.events.filterMap StreamEvent.pull

/-- The pulls that the end was reported to. -/
def completed (history : StreamHistory ε) : List Nat :=
  history.flatMap fun call => call.2.events.filterMap StreamEvent.completed

/-- The pulls that were rejected: each while another one was outstanding. -/
def refused (history : StreamHistory ε) : List Nat :=
  history.flatMap fun call => call.2.events.filterMap StreamEvent.refused

/-- The producers that were resumed. -/
def resumed (history : StreamHistory ε) : List Nat :=
  history.flatMap fun call => call.2.events.filterMap StreamEvent.waiter

/-- The value of a push. -/
def StreamCall.pushed : StreamCall ε → Option ε
  | .push event => some event
  | _ => none

/-- A call that ends the stream. -/
def StreamCall.ends : StreamCall ε → Bool
  | .close | .returnEarly => true
  | _ => false

/-- All values pushed. -/
def pushed (history : StreamHistory ε) : List ε :=
  history.filterMap fun call => call.1.pushed

/-- The values pushed before the stream ended. -/
def pushedBeforeEnd (history : StreamHistory ε) : List ε :=
  pushed (history.takeWhile fun call => !call.1.ends)

/-- The promise of a pull. -/
def StreamCall.pull (promise : Nat) : StreamCall ε → Option Nat
  | .next => some promise
  | _ => none

/-- The promise of a producer that waits. -/
def StreamCall.waiter (promise : Nat) : StreamCall ε → Option Nat
  | .whenDrained => some promise
  | _ => none

/-- The promises of the pulls. -/
def pulls (history : StreamHistory ε) : List Nat :=
  history.filterMap fun call => call.1.pull call.2.promise

/-- The promises of the waiting producers. -/
def waiters (history : StreamHistory ε) : List Nat :=
  history.filterMap fun call => call.1.waiter call.2.promise

def ended (history : StreamHistory ε) : Bool :=
  history.any fun call => call.1.ends

def StreamCall.returns : StreamCall ε → Bool
  | .returnEarly => true
  | _ => false

def returned (history : StreamHistory ε) : Bool :=
  history.any fun call => call.1.returns

/-! ## One call more -/

/-- A call that ends the stream neither pushes, nor pulls, nor waits. -/
theorem StreamCall.quiet_of_ends {call : StreamCall ε} (isEnd : call.ends = true) :
    call.pushed = none ∧ ∀ promise, call.pull promise = none ∧ call.waiter promise = none := by
  cases call with
  | close | returnEarly => exact ⟨rfl, fun _ => ⟨rfl, rfl⟩⟩
  | push | whenDrained | next => cases isEnd

section Snoc

variable
  (history : StreamHistory ε)
  (call : StreamCall ε × StreamOutput ε)

@[simp] theorem delivered_snoc :
    delivered (history ++ [call]) =
      delivered history ++ call.2.events.filterMap StreamEvent.value := by
  simp [delivered]

@[simp] theorem settledPulls_snoc :
    settledPulls (history ++ [call]) =
      settledPulls history ++ call.2.events.filterMap StreamEvent.pull := by
  simp [settledPulls]

@[simp] theorem completed_snoc :
    completed (history ++ [call]) =
      completed history ++ call.2.events.filterMap StreamEvent.completed := by
  simp [completed]

@[simp] theorem resumed_snoc :
    resumed (history ++ [call]) =
      resumed history ++ call.2.events.filterMap StreamEvent.waiter := by
  simp [resumed]

@[simp] theorem pushed_snoc :
    pushed (history ++ [call]) = pushed history ++ call.1.pushed.toList := by
  rw [pushed, List.filterMap_append]
  cases isPushed : call.1.pushed with
  | none | some event => simp [pushed, isPushed]

@[simp] theorem ended_snoc :
    ended (history ++ [call]) = (ended history || call.1.ends) := by
  simp [ended]

@[simp] theorem returned_snoc :
    returned (history ++ [call]) = (returned history || call.1.returns) := by
  simp [returned]

@[simp] theorem pulls_snoc :
    pulls (history ++ [call]) = pulls history ++ (call.1.pull call.2.promise).toList := by
  rw [pulls, List.filterMap_append]
  cases isPull : call.1.pull call.2.promise with
  | none | some promise => simp [pulls, isPull]

@[simp] theorem waiters_snoc :
    waiters (history ++ [call]) = waiters history ++ (call.1.waiter call.2.promise).toList := by
  rw [waiters, List.filterMap_append]
  cases isWaiter : call.1.waiter call.2.promise with
  | none | some promise => simp [waiters, isWaiter]

@[simp] theorem pushedBeforeEnd_snoc :
    pushedBeforeEnd (history ++ [call]) = if ended history then pushedBeforeEnd history
      else pushedBeforeEnd history ++ call.1.pushed.toList := by
  have front : ended history = false →
      history.takeWhile (fun other => !other.1.ends) = history := by
    intro open'
    refine List.takeWhile_eq_self_iff.mpr fun other member => ?_
    rw [ended, List.any_eq_false] at open'
    simpa using open' other member
  cases isEnded : ended history with
  | true =>
    have stops : ¬∀ other ∈ history, (!other.1.ends) = true := by
      intro all
      obtain ⟨other, member, isEnd⟩ := List.any_eq_true.mp isEnded
      simpa [isEnd] using all other member
    rw [pushedBeforeEnd, List.takeWhile_append, if_neg, if_pos rfl, pushedBeforeEnd]
    intro whole
    refine stops fun other member => ?_
    rw [← List.takeWhile_prefix (p := fun other : StreamCall ε × StreamOutput ε =>
      !other.1.ends) |>.eq_of_length whole] at member
    exact List.mem_takeWhile_imp (p := fun other : StreamCall ε × StreamOutput ε =>
      !other.1.ends) member
  | false =>
    rw [pushedBeforeEnd, List.takeWhile_append, front isEnded, if_pos rfl]
    simp only [Bool.false_eq_true, if_false]
    rw [pushedBeforeEnd, front isEnded]
    cases isEnd : call.1.ends with
    | true =>
      simp [isEnd, (StreamCall.quiet_of_ends isEnd).1]
    | false =>
      rw [List.takeWhile_cons_of_pos (by simp [isEnd]), List.takeWhile_nil, pushed_snoc]

end Snoc

/-! ## What a call does -/

/-- Some waiting producers are resumed, in their order. -/
theorem wakeDrainWaiters_spec (stream : BoundedEventStream ε) :
    ∃ woken waiting, stream.drainWaiters = woken ++ waiting ∧
      stream.wakeDrainWaiters =
        (woken.map .drained, { stream with drainWaiters := waiting }) ∧
      (stream.closed = true → waiting = []) ∧
      (stream.closed = false → stream.eventConsumption = .iterated →
        woken = stream.drainWaiters.take (stream.capacity - stream.buffer.length).toNat) := by
  rw [BoundedEventStream.wakeDrainWaiters]
  split
  · rename_i all
    refine ⟨stream.drainWaiters, [], (List.append_nil _).symm, rfl, fun _ => rfl, ?_⟩
    intro isOpen isIterated
    simp [isOpen, isIterated] at all
  · rename_i notAll
    have isOpen : stream.closed = true → False := fun isClosed => notAll (.inl isClosed)
    dsimp only
    split
    · rename_i noneFree
      refine ⟨[], stream.drainWaiters, rfl, rfl, fun isClosed => (isOpen isClosed).elim, ?_⟩
      intro _ _
      rw [Int.toNat_of_nonpos noneFree, List.take_zero]
    · exact ⟨_, _, (List.take_append_drop _ _).symm, rfl,
        fun isClosed => (isOpen isClosed).elim, fun _ _ => rfl⟩

section Events

variable (promises : List Nat)

@[simp] theorem value_drained :
    promises.filterMap (StreamEvent.value ∘ (.drained : Nat → StreamEvent ε)) = [] :=
  List.filterMap_eq_nil_iff.mpr fun _ _ => rfl

@[simp] theorem pull_drained :
    promises.filterMap (StreamEvent.pull ∘ (.drained : Nat → StreamEvent ε)) = [] :=
  List.filterMap_eq_nil_iff.mpr fun _ _ => rfl

@[simp] theorem completed_drained :
    promises.filterMap (StreamEvent.completed ∘ (.drained : Nat → StreamEvent ε)) = [] :=
  List.filterMap_eq_nil_iff.mpr fun _ _ => rfl

@[simp] theorem refused_drained :
    promises.filterMap (StreamEvent.refused ∘ (.drained : Nat → StreamEvent ε)) = [] :=
  List.filterMap_eq_nil_iff.mpr fun _ _ => rfl

@[simp] theorem waiter_drained :
    promises.filterMap (StreamEvent.waiter ∘ (.drained : Nat → StreamEvent ε)) = promises :=
  List.filterMap_some

end Events

theorem close_spec (stream : BoundedEventStream ε) :
    (stream.closed = true ∧ stream.close = ([], stream)) ∨
      (stream.closed = false ∧
        stream.close =
          (stream.waitingPull.toList.map (fun promise => .pulled promise .done) ++
              stream.drainWaiters.map .drained ++ [.closeCallback],
            { stream with closed := true, waitingPull := none, drainWaiters := [] })) := by
  rw [BoundedEventStream.close]
  split
  · next isClosed => exact .inl ⟨isClosed, rfl⟩
  · rename_i isOpen
    exact .inr ⟨Bool.not_eq_true _ ▸ isOpen, by
      simp [BoundedEventStream.wakeDrainWaiters]⟩

theorem returnEarly_spec (stream : BoundedEventStream ε) :
    ∃ abandoned,
      (abandoned = false ↔ stream.abandoned = false ∧
        stream.closed = true ∧ stream.buffer = []) ∧
      stream.returnEarly =
        (stream.close.1, { stream.close.2 with buffer := [], abandoned }) := by
  by_cases drops : (!stream.closed) = true ∨ stream.buffer.length > 0
  · simp only [BoundedEventStream.returnEarly, if_pos drops]
    refine ⟨true, ?_, ?_⟩
    · constructor
      · intro impossible
        cases impossible
      · rintro ⟨-, isClosed, isEmpty⟩
        simp [isClosed, isEmpty] at drops
    · obtain ⟨isClosed, isClose⟩ | ⟨isOpen, isClose⟩ := close_spec stream
      · rw [isClose]
        simp [BoundedEventStream.close, isClosed]
      · rw [isClose]
        simp [BoundedEventStream.close, isOpen, BoundedEventStream.wakeDrainWaiters]
  · simp only [BoundedEventStream.returnEarly, if_neg drops]
    simp only [Bool.not_eq_true', gt_iff_lt, List.length_pos_iff, not_or,
      Bool.not_eq_false, ne_eq, not_not] at drops
    have isClose : stream.close = ([], stream) := by
      simp [BoundedEventStream.close, drops.1]
    refine ⟨stream.abandoned, by simp [drops], ?_⟩
    rw [isClose]

/-- What a call that ends a stream leaves of its buffer. -/
structure Leaves (stream : BoundedEventStream ε) (call : StreamCall ε) (buffer : List ε)
    (abandoned : Bool) : Prop where
  front : buffer <+: stream.buffer
  returned : call.returns = true → buffer = []
  closed : call.returns = false → buffer = stream.buffer ∧ abandoned = stream.abandoned
  whole : abandoned = false → stream.abandoned = false ∧ buffer = stream.buffer

/-- What a call of an iterated stream does to promises and to the fields. -/
inductive StreamEffect (stream : BoundedEventStream ε) (promise : Nat) :
    StreamCall ε → List (StreamEvent ε) → BoundedEventStream ε → Prop
  | late (event : ε) (isClosed : stream.closed = true) :
    StreamEffect stream promise (.push event) []
      { stream with publishedCount := stream.publishedCount + 1, hasGap := true }
  | handed (event : ε) {pull : Nat} (isOpen : stream.closed = false)
      (parked : stream.waitingPull = some pull) :
    StreamEffect stream promise (.push event) [.pulled pull (.value event)]
      { stream with
        publishedCount := stream.publishedCount + 1
        waitingPull := none
        deliveredCount := stream.deliveredCount + 1 }
  | buffered (event : ε) (isOpen : stream.closed = false) (unparked : stream.waitingPull = none) :
    StreamEffect stream promise (.push event) []
      { stream with
        publishedCount := stream.publishedCount + 1, buffer := stream.buffer ++ [event] }
  | again {call : StreamCall ε} {buffer : List ε} {abandoned : Bool} (isEnd : call.ends = true)
      (isClosed : stream.closed = true) (leaves : Leaves stream call buffer abandoned) :
    StreamEffect stream promise call [] { stream with buffer, abandoned }
  | ending {call : StreamCall ε} {buffer : List ε} {abandoned : Bool} (isEnd : call.ends = true)
      (isOpen : stream.closed = false) (leaves : Leaves stream call buffer abandoned) :
    StreamEffect stream promise call
      (stream.waitingPull.toList.map (fun pull => .pulled pull .done) ++
        stream.drainWaiters.map .drained ++ [.closeCallback])
      { stream with
        closed := true, waitingPull := none, drainWaiters := [], buffer, abandoned }
  | ready : StreamEffect stream promise .whenDrained [.drained promise] stream
  | waits (isOpen : stream.closed = false) :
    StreamEffect stream promise .whenDrained []
      { stream with drainWaiters := stream.drainWaiters ++ [promise] }
  | taken {event : ε} {rest : List ε} {woken waiting : List Nat}
      (isBuffer : stream.buffer = event :: rest)
      (isSplit : stream.drainWaiters = woken ++ waiting)
      (noneLeft : stream.closed = true → waiting = [])
      (isFirst : stream.closed = false →
        woken = stream.drainWaiters.take (stream.capacity - rest.length).toNat) :
    StreamEffect stream promise .next (woken.map .drained ++ [.pulled promise (.value event)])
      { stream with
        buffer := rest, deliveredCount := stream.deliveredCount + 1, drainWaiters := waiting }
  | done (isEmpty : stream.buffer = []) (isClosed : stream.closed = true) :
    StreamEffect stream promise .next [.pulled promise .done] stream
  | concurrent (isEmpty : stream.buffer = []) (isOpen : stream.closed = false)
      (parked : stream.waitingPull.isSome = true) :
    StreamEffect stream promise .next [.pulled promise .concurrentConsumer] stream
  | parks (isEmpty : stream.buffer = []) (isOpen : stream.closed = false)
      (unparked : stream.waitingPull = none) :
    StreamEffect stream promise .next [] { stream with waitingPull := some promise }

theorem effect_streamMachine
    {world : StreamWorld ε} (iterated : world.stream.eventConsumption = .iterated)
    (call : StreamCall ε) :
    StreamEffect world.stream world.promises call (streamMachine world call).1.events
      (streamMachine world call).2.stream := by
  have notSubscribed : ¬world.stream.eventConsumption = .subscribeOnly := by simp [iterated]
  cases call with
  | push event =>
    simp only [streamMachine, BoundedEventStream.push, if_neg notSubscribed]
    split
    · next isClosed => exact .late event isClosed
    · next isOpen =>
      rw [Bool.not_eq_true] at isOpen
      split
      · next parked => exact .handed event isOpen parked
      · next unparked => exact .buffered event isOpen unparked
  | close =>
    have leaves : Leaves world.stream .close world.stream.buffer world.stream.abandoned :=
      ⟨List.prefix_rfl, nofun, fun _ => ⟨rfl, rfl⟩, fun kept => ⟨kept, rfl⟩⟩
    obtain ⟨isClosed, isClose⟩ | ⟨isOpen, isClose⟩ := close_spec world.stream
    · simp only [streamMachine, isClose]
      exact .again rfl isClosed leaves
    · simp only [streamMachine, isClose]
      exact .ending rfl isOpen leaves
  | whenDrained =>
    simp only [streamMachine, BoundedEventStream.whenDrained]
    split
    · exact .ready
    · next notReady => exact .waits (Bool.not_eq_true _ ▸ fun isClosed => notReady (.inl isClosed))
  | next =>
    simp only [streamMachine, BoundedEventStream.next, if_neg notSubscribed]
    split
    · next event rest isBuffer =>
      obtain ⟨woken, waiting, isSplit, isWake, noneLeft, isFirst⟩ := wakeDrainWaiters_spec
        { world.stream with buffer := rest, deliveredCount := world.stream.deliveredCount + 1 }
      rw [isWake]
      exact .taken isBuffer isSplit noneLeft fun isOpen => isFirst isOpen iterated
    · next isEmpty =>
      split
      · next isClosed => exact .done isEmpty isClosed
      · next isOpen =>
        rw [Bool.not_eq_true] at isOpen
        split
        · next parked => exact .concurrent isEmpty isOpen parked
        · next unparked => exact .parks isEmpty isOpen (Option.not_isSome_iff_eq_none.mp unparked)
  | returnEarly =>
    obtain ⟨abandoned, keeps, isReturn⟩ := returnEarly_spec world.stream
    have leaves : Leaves world.stream .returnEarly [] abandoned :=
      ⟨List.nil_prefix, fun _ => rfl, nofun,
        fun kept => ⟨(keeps.mp kept).1, (keeps.mp kept).2.2.symm⟩⟩
    obtain ⟨isClosed, isClose⟩ | ⟨isOpen, isClose⟩ := close_spec world.stream
    · simp only [streamMachine, isReturn, isClose]
      exact .again rfl isClosed leaves
    · simp only [streamMachine, isReturn, isClose]
      exact .ending rfl isOpen leaves

/-! ## Promises are settled once -/

section Effects

variable
  {stream after : BoundedEventStream ε}
  {promise : Nat}
  {call : StreamCall ε}
  {events : List (StreamEvent ε)}

/-- A pull is settled or stays parked. -/
theorem StreamEffect.pulls (effect : StreamEffect stream promise call events after) :
    (events.filterMap StreamEvent.pull ++ after.waitingPull.toList).Perm
      (stream.waitingPull.toList ++ (call.pull promise).toList) := by
  cases effect with
  | late | buffered | ready | waits => simp [StreamCall.pull, StreamEvent.pull, List.filterMap_cons]
  | handed event isOpen parked => simp [StreamCall.pull, StreamEvent.pull, parked]
  | again isEnd => simp [(StreamCall.quiet_of_ends isEnd).2]
  | ending isEnd =>
    rw [((StreamCall.quiet_of_ends isEnd).2 promise).1]
    cases stream.waitingPull <;> simp [StreamEvent.pull]
  | taken | done | concurrent =>
    simpa [StreamCall.pull, StreamEvent.pull] using
      (List.perm_append_singleton promise stream.waitingPull.toList).symm
  | parks isEmpty isOpen unparked => simp [StreamCall.pull, unparked]

/-- A waiting producer is resumed or goes on waiting. -/
theorem StreamEffect.waiters (effect : StreamEffect stream promise call events after) :
    (events.filterMap StreamEvent.waiter ++ after.drainWaiters).Perm
      (stream.drainWaiters ++ (call.waiter promise).toList) := by
  cases effect with
  | late | handed | buffered | waits | done | concurrent | parks =>
    simp [StreamCall.waiter, StreamEvent.waiter, List.filterMap_cons]
  | again isEnd => simp [(StreamCall.quiet_of_ends isEnd).2]
  | ending isEnd =>
    rw [((StreamCall.quiet_of_ends isEnd).2 promise).2]
    cases stream.waitingPull <;> simp [StreamEvent.waiter, List.filterMap_cons]
  | ready =>
    simpa [StreamCall.waiter, StreamEvent.waiter] using
      (List.perm_append_singleton promise stream.drainWaiters).symm
  | taken isBuffer isSplit =>
    simp [StreamCall.waiter, StreamEvent.waiter, isSplit, List.filterMap_cons]

/-- The end is reported on an ended stream without buffered values. -/
theorem StreamEffect.completed
    (effect : StreamEffect stream promise call events after)
    (parked : stream.waitingPull.isSome = true → stream.buffer = [])
    (completes : events.filterMap StreamEvent.completed ≠ [] ∨
      stream.closed = true ∧ stream.buffer = []) :
    after.closed = true ∧ after.buffer = [] := by
  -- A call that settles nothing with the end has to start on an ended, empty stream.
  have wasEnded : events.filterMap StreamEvent.completed = [] →
      stream.closed = true ∧ stream.buffer = [] :=
    fun none => completes.resolve_left fun some => some none
  cases effect with
  | late | ready => exact wasEnded rfl
  | handed _ isOpen | buffered _ isOpen | waits isOpen | concurrent _ isOpen | parks _ isOpen =>
    cases isOpen.symm.trans (wasEnded rfl).1
  | again _ isClosed leaves =>
    refine ⟨isClosed, List.prefix_nil.mp ?_⟩
    exact (wasEnded rfl).2 ▸ leaves.front
  | ending _ isOpen leaves =>
    have isEmpty : stream.buffer = [] := by
      cases isWaiting : stream.waitingPull with
      | some pull => exact parked (by simp [isWaiting])
      | none =>
        exact (wasEnded (by simp [isWaiting, StreamEvent.completed, List.filterMap_cons])).2
    exact ⟨rfl, List.prefix_nil.mp (isEmpty ▸ leaves.front)⟩
  | taken isBuffer =>
    have isEmpty := (wasEnded (by simp [StreamEvent.completed, List.filterMap_cons])).2
    cases isBuffer.symm.trans isEmpty
  | done isEmpty isClosed => exact ⟨isClosed, isEmpty⟩

/-- No producer waits on an ended stream. -/
theorem StreamEffect.nothingWaits
    (effect : StreamEffect stream promise call events after)
    (nothingWaits : stream.closed = true → stream.drainWaiters = [])
    (isClosed : after.closed = true) : after.drainWaiters = [] := by
  cases effect with
  | late | handed | buffered | again | ready | done | concurrent | parks =>
    exact nothingWaits isClosed
  | ending => rfl
  | waits isOpen => cases isOpen.symm.trans isClosed
  | taken _ _ noneLeft => exact noneLeft isClosed

end Effects

/-! ## What the fields say about a run -/

/-- What the fields of a stream say about the calls that led to it. -/
structure Accounted (capacity : Int) (history : StreamHistory ε)
    (world : StreamWorld ε) : Prop where
  iterated : world.stream.eventConsumption = .iterated
  capacity : world.stream.capacity = capacity
  closed : world.stream.closed = ended history
  /-- A pull is parked only on an open stream without buffered values. -/
  parked : world.stream.waitingPull.isSome = true →
    world.stream.buffer = [] ∧ world.stream.closed = false
  deliveredCount : world.stream.deliveredCount = (delivered history).length
  publishedCount : world.stream.publishedCount = (pushed history).length
  /-- Nothing is lost, repeated or reordered but what an abandoned stream drops. -/
  order : delivered history ++ world.stream.buffer <+: pushedBeforeEnd history
  whole : world.stream.abandoned = false →
    delivered history ++ world.stream.buffer = pushedBeforeEnd history
  abandoned : returned history = false → world.stream.abandoned = false
  gap : world.stream.hasGap = false → pushed history = pushedBeforeEnd history
  /-- An abandoned stream is closed and empty. -/
  dropped : returned history = true →
    world.stream.closed = true ∧ world.stream.buffer = []

section Steps

variable
  {capacity : Int}
  {history : StreamHistory ε}
  {world : StreamWorld ε}

/-- The history with one call more. -/
abbrev andThen (history : StreamHistory ε) (world : StreamWorld ε)
    (call : StreamCall ε) : StreamHistory ε :=
  history ++ [(call, (streamMachine world call).1)]

theorem Accounted.open_whole
    (accounted : Accounted capacity history world) (isOpen : world.stream.closed = false) :
    returned history = false ∧ world.stream.abandoned = false ∧
      delivered history ++ world.stream.buffer = pushedBeforeEnd history := by
  have notReturned : returned history = false := by
    by_contra isReturned
    have isClosed := (accounted.dropped (Bool.of_not_eq_false isReturned)).1
    rw [isOpen] at isClosed
    cases isClosed
  exact ⟨notReturned, accounted.abandoned notReturned,
    accounted.whole (accounted.abandoned notReturned)⟩

theorem Accounted.unparked
    (accounted : Accounted capacity history world) (isClosed : world.stream.closed = true) :
    world.stream.waitingPull = none := by
  by_contra isParked
  have isOpen := (accounted.parked (Option.isSome_iff_ne_none.mpr isParked)).2
  cases isOpen.symm.trans isClosed

section OneCall

variable
  {call : StreamCall ε}
  {output : StreamOutput ε}
  {promises : Nat}
  {waitingPull : Option Nat}
  {drainWaiters : List Nat}

/-- A call that only parks pulls and producers. -/
theorem Accounted.of_quiet
    (accounted : Accounted capacity history world)
    (quiet : call.pushed = none ∧ call.ends = false ∧ call.returns = false)
    (noValue : output.events.filterMap StreamEvent.value = [])
    (parked : waitingPull.isSome = true → world.stream.buffer = [] ∧ world.stream.closed = false) :
    Accounted capacity (history ++ [(call, output)])
      { stream := { world.stream with waitingPull, drainWaiters }, promises } := by
  obtain ⟨noPush, noEnd, noReturn⟩ := quiet
  refine ⟨accounted.iterated, accounted.capacity, ?_, parked, ?_, ?_, ?_, ?_, ?_, ?_, ?_⟩
  · simpa [noEnd] using accounted.closed
  · simpa [noValue] using accounted.deliveredCount
  · simpa [noPush] using accounted.publishedCount
  · simpa [noValue, noPush] using accounted.order
  · simpa [noValue, noPush] using accounted.whole
  · simpa [noReturn] using accounted.abandoned
  · simpa [noPush] using accounted.gap
  · simpa [noReturn] using accounted.dropped

/-- A call that ends the stream. -/
theorem Accounted.of_end
    (accounted : Accounted capacity history world) {closed : Bool} {buffer : List ε}
    {abandoned : Bool} (isEnd : call.ends = true)
    (noValue : output.events.filterMap StreamEvent.value = [])
    (leaves : Leaves world.stream call buffer abandoned) (isClosed : closed = true)
    (unparked : waitingPull = none) :
    Accounted capacity (history ++ [(call, output)])
      { stream :=
          { world.stream with closed, waitingPull, drainWaiters, buffer, abandoned }
        promises } := by
  have noPush := (StreamCall.quiet_of_ends isEnd).1
  subst unparked
  refine ⟨accounted.iterated, accounted.capacity, ?_, nofun, ?_, ?_, ?_, fun kept => ?_,
    fun notReturned => ?_, ?_, fun isReturned => ⟨isClosed, ?_⟩⟩
  · simp [isClosed, isEnd]
  · simpa [noValue] using accounted.deliveredCount
  · simpa [noPush] using accounted.publishedCount
  · simpa [noValue, noPush] using
      ((List.prefix_append_right_inj _).mpr leaves.front).trans accounted.order
  · obtain ⟨wasKept, same⟩ := leaves.whole kept
    simpa [noValue, noPush, same] using accounted.whole wasKept
  · rw [returned_snoc, Bool.or_eq_false_iff] at notReturned
    exact (leaves.closed notReturned.2).2.trans (accounted.abandoned notReturned.1)
  · simpa [noPush] using accounted.gap
  · cases returns : call.returns with
    | true => exact leaves.returned returns
    | false =>
      exact (leaves.closed returns).1.trans
        (accounted.dropped (by simpa [returns] using isReturned)).2

/-- A value that is pushed on an open stream is handed out or buffered. -/
theorem Accounted.of_push
    (accounted : Accounted capacity history world) {event : ε} {values buffer : List ε}
    {deliveredCount : Nat} (isOpen : world.stream.closed = false)
    (isValues : output.events.filterMap StreamEvent.value = values)
    (isCount : deliveredCount = world.stream.deliveredCount + values.length)
    (isWhole : values ++ buffer = world.stream.buffer ++ [event])
    (unparked : waitingPull = none) :
    Accounted capacity (history ++ [(.push event, output)])
      { stream :=
          { world.stream with
            publishedCount := world.stream.publishedCount + 1
            waitingPull
            deliveredCount
            buffer }
        promises } := by
  have isEnded : ended history = false := accounted.closed.symm.trans isOpen
  obtain ⟨notReturned, notAbandoned, whole⟩ := accounted.open_whole isOpen
  have after : delivered history ++ values ++ buffer = pushedBeforeEnd history ++ [event] := by
    rw [List.append_assoc, isWhole, ← List.append_assoc, whole]
  subst unparked
  refine ⟨accounted.iterated, accounted.capacity, ?_, nofun, ?_, ?_, ?_, fun _ => ?_,
    fun _ => notAbandoned, ?_, ?_⟩
  · simp [isOpen, isEnded, StreamCall.ends]
  · simp [isValues, isCount, accounted.deliveredCount]
  · simp [StreamCall.pushed, accounted.publishedCount]
  · simp only [delivered_snoc, pushedBeforeEnd_snoc, isValues, after, isEnded]
    exact List.prefix_rfl
  · simp only [delivered_snoc, pushedBeforeEnd_snoc, isValues, after, isEnded]
    rfl
  · simpa [isEnded, StreamCall.pushed] using accounted.gap
  · simp [notReturned, StreamCall.returns]

end OneCall

theorem Accounted.of_effect
    (accounted : Accounted capacity history world) {call : StreamCall ε} {output : StreamOutput ε}
    {later : StreamWorld ε}
    (effect : StreamEffect world.stream world.promises call output.events later.stream) :
    Accounted capacity (history ++ [(call, output)]) later := by
  obtain ⟨answered, events⟩ := output
  obtain ⟨after, promises⟩ := later
  dsimp only at effect
  cases effect with
  | late event isClosed =>
    have isEnded : ended history = true := accounted.closed.symm.trans isClosed
    refine ⟨accounted.iterated, accounted.capacity, ?_, accounted.parked, ?_, ?_, ?_, ?_, ?_,
      nofun, ?_⟩
    · simp [isClosed, isEnded]
    · simpa using accounted.deliveredCount
    · simp [StreamCall.pushed, accounted.publishedCount]
    · simpa [isEnded] using accounted.order
    · simpa [isEnded] using accounted.whole
    · simpa [StreamCall.returns] using accounted.abandoned
    · simpa [StreamCall.returns] using accounted.dropped
  | @handed event pull isOpen parked =>
    have isEmpty := (accounted.parked (by simp [parked])).1
    have isValue : [StreamEvent.pulled pull (.value event)].filterMap StreamEvent.value = [event] :=
      rfl
    exact accounted.of_push isOpen isValue rfl (by simp [isEmpty]) rfl
  | buffered event isOpen unparked => exact accounted.of_push isOpen rfl rfl rfl unparked
  | again isEnd isClosed leaves =>
    exact accounted.of_end isEnd rfl leaves isClosed (accounted.unparked isClosed)
  | ending isEnd isOpen leaves =>
    refine accounted.of_end isEnd ?_ leaves rfl rfl
    cases world.stream.waitingPull <;> simp [StreamEvent.value, List.filterMap_cons]
  | ready | waits | done | concurrent => exact accounted.of_quiet ⟨rfl, rfl, rfl⟩ rfl accounted.parked
  | @taken event rest woken waiting isBuffer =>
    have isValue : (woken.map StreamEvent.drained ++
        [StreamEvent.pulled world.promises (.value event)]).filterMap StreamEvent.value =
          [event] := by
      simp [StreamEvent.value]
    have order := accounted.order
    have whole := accounted.whole
    rw [isBuffer] at order whole
    refine ⟨accounted.iterated, accounted.capacity, ?_, fun isParked => ?_, ?_, ?_, ?_, ?_, ?_, ?_,
      fun isReturned => ?_⟩
    · simpa [StreamCall.ends] using accounted.closed
    · cases isBuffer.symm.trans (accounted.parked isParked).1
    · simp [isValue, accounted.deliveredCount]
    · simpa [StreamCall.pushed] using accounted.publishedCount
    · simpa [isValue, StreamCall.pushed] using order
    · simpa [isValue, StreamCall.pushed] using whole
    · simpa [StreamCall.returns] using accounted.abandoned
    · simpa [StreamCall.pushed] using accounted.gap
    · rw [returned_snoc, show StreamCall.next.returns = false from rfl, Bool.or_false] at isReturned
      cases isBuffer.symm.trans (accounted.dropped isReturned).2
  | parks isEmpty isOpen => exact accounted.of_quiet ⟨rfl, rfl, rfl⟩ rfl fun _ => ⟨isEmpty, isOpen⟩

/-- A call makes the promise that it answers, and the next ones are new. -/
theorem promise_streamMachine (world : StreamWorld ε) (call : StreamCall ε) :
    (streamMachine world call).1.promise = world.promises ∧
      (streamMachine world call).2.promises =
        world.promises + ((call.pull world.promises).toList ++
          (call.waiter world.promises).toList).length := by
  cases call <;> exact ⟨rfl, rfl⟩

/-- Every settled pull got a value, the end or a rejection. -/
theorem length_settledPulls (history : StreamHistory ε) :
    (settledPulls history).length =
      (delivered history).length + (completed history).length + (refused history).length := by
  have events : ∀ events : List (StreamEvent ε),
      (events.filterMap StreamEvent.pull).length =
        (events.filterMap StreamEvent.value).length +
          (events.filterMap StreamEvent.completed).length +
            (events.filterMap StreamEvent.refused).length := by
    intro events
    induction events with
    | nil => rfl
    | cons event rest ih =>
      cases event with
      | pulled promise answer =>
        cases answer <;>
          simp [List.filterMap_cons, StreamEvent.pull, StreamEvent.value,
            StreamEvent.completed, StreamEvent.refused, ih] <;>
          omega
      | drained promise | closeCallback => exact ih
  induction history with
  | nil => rfl
  | cons call rest ih =>
    simp only [settledPulls, delivered, completed, refused, List.flatMap_cons,
      List.length_append] at ih ⊢
    have := events call.2.events
    omega

end Steps

/-! ## Whole runs -/

/-- What a run did to its promises. -/
structure Promised (history : StreamHistory ε)
    (world : StreamWorld ε) : Prop where
  pulls : (settledPulls history ++ world.stream.waitingPull.toList).Perm (pulls history)
  waiters : (resumed history ++ world.stream.drainWaiters).Perm (waiters history)
  distinct : (Run.pulls history).Nodup ∧ (Run.waiters history).Nodup
  known : (∀ promise ∈ Run.pulls history, promise < world.promises) ∧
    ∀ promise ∈ Run.waiters history, promise < world.promises
  nothingWaits : world.stream.closed = true → world.stream.drainWaiters = []
  completed : completed history ≠ [] →
    world.stream.closed = true ∧ world.stream.buffer = []

theorem perm_snoc
    {settled waiting made now later new : List Nat} (before : (settled ++ waiting).Perm made)
    (step : (now ++ later).Perm (waiting ++ new)) :
    (settled ++ now ++ later).Perm (made ++ new) := by
  calc settled ++ now ++ later = settled ++ (now ++ later) := List.append_assoc ..
    List.Perm _ (settled ++ (waiting ++ new)) := step.append_left settled
    _ = settled ++ waiting ++ new := (List.append_assoc ..).symm
    List.Perm _ (made ++ new) := before.append_right new

theorem nodup_snoc
    {made new : List Nat} {count later : Nat} (distinct : made.Nodup)
    (known : ∀ promise ∈ made, promise < count) (isNew : new = [] ∨ new = [count])
    (isLater : count + new.length ≤ later) :
    (made ++ new).Nodup ∧ ∀ promise ∈ made ++ new, promise < later := by
  obtain rfl | rfl := isNew
  · simp only [List.append_nil, List.length_nil] at isLater ⊢
    exact ⟨distinct, fun promise member => (known promise member).trans_le (by omega)⟩
  · simp only [List.length_singleton] at isLater
    refine ⟨List.nodup_append.mpr ⟨distinct, List.nodup_singleton count, ?_⟩, ?_⟩
    · intro promise member other isCount
      rw [List.mem_singleton] at isCount
      have := known promise member
      omega
    · intro promise member
      rw [List.mem_append, List.mem_singleton] at member
      obtain old | same := member
      · exact (known promise old).trans_le (by omega)
      · omega

variable
  {capacity : Int}
  {world : StreamWorld ε}
  {history : StreamHistory ε}

theorem Promised.call
    (accounted : Accounted capacity history world) (promised : Promised history world)
    (call : StreamCall ε) :
    Promised (andThen history world call) (streamMachine world call).2 := by
  have effect := effect_streamMachine accounted.iterated call
  obtain ⟨isPromise, isCount⟩ := promise_streamMachine world call
  rw [List.length_append] at isCount
  have isPull : (call.pull world.promises).toList = [] ∨
      (call.pull world.promises).toList = [world.promises] := by
    cases call <;> simp [StreamCall.pull]
  have isWaiter : (call.waiter world.promises).toList = [] ∨
      (call.waiter world.promises).toList = [world.promises] := by
    cases call <;> simp [StreamCall.waiter]
  have newPulls := nodup_snoc promised.distinct.1 promised.known.1 isPull
    (show _ ≤ (streamMachine world call).2.promises by omega)
  have newWaiters := nodup_snoc promised.distinct.2 promised.known.2 isWaiter
    (show _ ≤ (streamMachine world call).2.promises by omega)
  refine ⟨?_, ?_, ?_, ?_, effect.nothingWaits promised.nothingWaits, ?_⟩
  · simpa [isPromise] using perm_snoc promised.pulls effect.pulls
  · simpa [isPromise] using perm_snoc promised.waiters effect.waiters
  · simpa only [andThen, pulls_snoc, waiters_snoc, isPromise] using
      And.intro newPulls.1 newWaiters.1
  · simpa only [andThen, pulls_snoc, waiters_snoc, isPromise] using
      And.intro newPulls.2 newWaiters.2
  · intro completes
    rw [andThen, completed_snoc] at completes
    refine effect.completed (fun parked => (accounted.parked parked).1) ?_
    by_cases before : Run.completed history = []
    · rw [before, List.nil_append] at completes
      exact .inl completes
    · exact .inr (promised.completed before)

theorem accounted_of_run
    (run : Run (Answers streamMachine) (.iterated ε capacity) history world) :
    Accounted capacity history world ∧ Promised history world := by
  refine run.invariant
    (fun history world => Accounted capacity history world ∧ Promised history world) ?_ ?_
  · refine ⟨⟨rfl, rfl, rfl, nofun, rfl, rfl, List.prefix_rfl, fun _ => rfl, fun _ => rfl,
      fun _ => rfl, nofun⟩, ⟨.refl _, .refl _, ⟨List.nodup_nil, List.nodup_nil⟩, ?_, fun _ => rfl,
      fun some => absurd rfl some⟩⟩
    exact ⟨nofun, nofun⟩
  · rintro history world ⟨call, output⟩ next - ⟨accounted, promised⟩ answers
    have isOutput : (streamMachine world call).1 = output := congrArg Prod.fst answers
    have isNext : (streamMachine world call).2 = next := congrArg Prod.snd answers
    rw [← isOutput, ← isNext]
    exact ⟨accounted.of_effect (effect_streamMachine accounted.iterated call),
      promised.call accounted call⟩

/-! ## A waiting producer moves forward -/

/-- A pull that leaves the buffer below the capacity. -/
def pullsBelow
    (world : StreamWorld ε) : StreamCall ε → Bool
  | .next =>
    match world.stream.buffer with
    | _ :: rest => rest.length < world.stream.capacity
    | [] => false
  | _ => false

/-- As long as the stream is open, a waiting producer is resumed or keeps its place,
and a pull that leaves the buffer below the capacity brings it forward. -/
theorem StreamEffect.waiter
    {call : StreamCall ε} {events : List (StreamEvent ε)} {after : BoundedEventStream ε}
    (effect : StreamEffect world.stream world.promises call events after)
    (isOpen : after.closed = false) {ahead behind : List Nat} {promise : Nat}
    (waits : world.stream.drainWaiters = ahead ++ promise :: behind) :
    promise ∈ events.filterMap StreamEvent.waiter ∨
      ∃ nearer later,
        after.drainWaiters = nearer ++ promise :: later ∧
        nearer.length + (pullsBelow world call).toNat ≤ ahead.length := by
  cases effect with
  | late | handed | buffered | ready => exact .inr ⟨ahead, behind, waits, Nat.le_refl _⟩
  | again _ isClosed => cases isClosed.symm.trans isOpen
  | ending => cases isOpen
  | waits => exact .inr ⟨ahead, behind ++ [world.promises], by simp [waits], Nat.le_refl _⟩
  | done isEmpty | concurrent isEmpty | parks isEmpty =>
    exact .inr ⟨ahead, behind, waits, by simp [pullsBelow, isEmpty]⟩
  | @taken event rest woken waiting isBuffer isSplit noneLeft isFirst =>
    have isTaken := isFirst isOpen
    have isBelow : (pullsBelow world .next).toNat ≤
        (world.stream.capacity - rest.length).toNat := by
      rw [pullsBelow, isBuffer]
      by_cases below : (rest.length : Int) < world.stream.capacity
      · simp only [below, decide_true, Bool.toNat_true]
        omega
      · simp [below]
    generalize (world.stream.capacity - rest.length).toNat = free at isTaken isBelow
    have isLeft : waiting = world.stream.drainWaiters.drop free := by
      have same : woken ++ waiting = woken ++ world.stream.drainWaiters.drop free := by
        rw [← isSplit, isTaken, List.take_append_drop]
      exact List.append_cancel_left same
    rw [waits] at isTaken isLeft
    by_cases reached : ahead.length < free
    · left
      obtain ⟨more, isMore⟩ := Nat.exists_eq_add_of_lt reached
      have isWoken : promise ∈ woken := by
        rw [isTaken, List.take_append, isMore,
          show ahead.length + more + 1 - ahead.length = more + 1 by omega]
        simp
      exact List.mem_filterMap.mpr ⟨.drained promise, by simp [isWoken], rfl⟩
    · right
      refine ⟨ahead.drop free, behind, ?_, ?_⟩
      · rw [isLeft, List.drop_append_of_le_length (by omega)]
      · rw [List.length_drop]
        omega

@[simp] theorem resumed_append (first second : StreamHistory ε) :
    resumed (first ++ second) = resumed first ++ resumed second := by
  simp [resumed]

/-- A producer that waits is resumed when enough pulls have left the buffer below the
capacity. -/
theorem waiter_of_run
    {history later : StreamHistory ε} {start finish : StreamWorld ε}
    (earlier : Run (Answers streamMachine) (.iterated ε capacity) history start)
    (run : Run (Answers streamMachine) start later finish) {ahead behind : List Nat}
    {promise : Nat} (waits : start.stream.drainWaiters = ahead ++ promise :: behind) :
    finish.stream.closed = false →
    promise ∈ resumed later ∨
      ∃ nearer after,
        finish.stream.drainWaiters = nearer ++ promise :: after ∧
        nearer.length + countAlong streamMachine pullsBelow start (later.map Prod.fst) ≤
          ahead.length := by
  induction run with
  | nil => exact fun _ => .inr ⟨ahead, behind, waits, by simp [countAlong]⟩
  | @snoc later middle finish call run answers ih =>
    intro isOpen
    obtain ⟨call, output⟩ := call
    have accounted := (accounted_of_run (earlier.append run)).1
    have isOutput : (streamMachine middle call).1 = output := congrArg Prod.fst answers
    have isNext : (streamMachine middle call).2 = finish := congrArg Prod.snd answers
    have wasOpen : middle.stream.closed = false := by
      have isEnded := (accounted_of_run (earlier.append (.snoc run answers))).1.closed
      rw [isOpen, ← List.append_assoc, ended_snoc, ← accounted.closed] at isEnded
      exact (Bool.or_eq_false_iff.mp isEnded.symm).1
    rw [resumed_snoc, List.mem_append, countAlong_snoc pullsBelow run]
    obtain already | ⟨nearer, after, isWaiting, isNearer⟩ := ih wasOpen
    · exact .inl (.inl already)
    · rw [← isNext] at isOpen ⊢
      obtain now | ⟨nearest, later, stillWaits, isNearest⟩ :=
        (effect_streamMachine accounted.iterated call).waiter isOpen isWaiting
      · exact .inl (.inr (isOutput ▸ now))
      · refine .inr ⟨nearest, later, stillWaits, ?_⟩
        simp only at isNearest ⊢
        omega

/-! ## The consumer pulls one value at a time -/

/-- Whether a call is no pull, or no pull is outstanding. -/
def pullsAlone
    (world : StreamWorld ε) : StreamCall ε → Bool
  | .next => world.stream.waitingPull.isNone
  | _ => true

/-- Only a pull beside an outstanding one is rejected. -/
theorem StreamEffect.refused
    {call : StreamCall ε} {events : List (StreamEvent ε)} {after : BoundedEventStream ε}
    (effect : StreamEffect world.stream world.promises call events after)
    (alone : pullsAlone world call = true) : events.filterMap StreamEvent.refused = [] := by
  cases effect with
  | late | handed | buffered | again | ready | waits | done | parks => rfl
  | ending =>
    cases world.stream.waitingPull <;> simp [StreamEvent.refused, List.filterMap_cons]
  | taken => simp [StreamEvent.refused, List.filterMap_cons]
  | concurrent _ _ parked =>
    rw [pullsAlone, Option.isNone_iff_eq_none] at alone
    simp [alone] at parked

/-- A consumer with at most one outstanding pull has no pull rejected. -/
theorem refused_of_alone
    (run : Run (Answers streamMachine) (.iterated ε capacity) history world) :
    always streamMachine (.iterated ε capacity) (fun _ world call => pullsAlone world call)
        (history.map Prod.fst) = true →
      refused history = [] := by
  induction run with
  | nil => exact fun _ => rfl
  | @snoc history world next call run answers ih =>
    intro alone
    rw [List.map_append] at alone
    obtain ⟨before, now⟩ := always_of_run run alone
    have isOutput : (streamMachine world call.1).1 = call.2 := congrArg Prod.fst answers
    have none := (effect_streamMachine (accounted_of_run run).1.iterated call.1).refused now
    rw [isOutput] at none
    have earlier := ih before
    rw [refused] at earlier ⊢
    rw [List.flatMap_append, earlier, List.flatMap_singleton, none]
    rfl

/-! ## Delivery -/

/-- A pull of an ended stream that has nothing buffered reports the end. -/
theorem next_done
    (isIterated : world.stream.eventConsumption = .iterated)
    (isClosed : world.stream.closed = true) (isEmpty : world.stream.buffer = []) :
    (streamMachine world .next).1.events = [.pulled world.promises .done] := by
  simp [streamMachine, BoundedEventStream.next, isIterated, isClosed, isEmpty]

/-- A consumer that has pulled often enough has received every value. -/
theorem delivered_of_pulls
    (accounted : Accounted capacity history world) (promised : Promised history world)
    (notReturned : returned history = false)
    (enough : (pushedBeforeEnd history).length + (refused history).length ≤
      (pulls history).length) :
    delivered history = pushedBeforeEnd history := by
  have whole := accounted.whole (accounted.abandoned notReturned)
  have isSettled := promised.pulls.length_eq
  rw [List.length_append, length_settledPulls] at isSettled
  have isLength := congrArg List.length whole
  rw [List.length_append] at isLength
  suffices isEmpty : world.stream.buffer = [] by
    rwa [isEmpty, List.append_nil] at whole
  cases isWaiting : world.stream.waitingPull with
  | some promise => exact (accounted.parked (by simp [isWaiting])).1
  | none =>
    by_cases isCompleted : completed history = []
    · rw [isWaiting, isCompleted] at isSettled
      simp only [Option.toList_none, List.length_nil] at isSettled
      exact List.length_eq_zero_iff.mp (by omega)
    · exact (promised.completed isCompleted).2

/-- A waiting producer is resumed when the stream ends, or when enough pulls have left
the buffer below the capacity. -/
theorem resumed_whenDrained
    {history later : StreamHistory ε} {start finish : StreamWorld ε}
    (earlier : Run (Answers streamMachine) (.iterated ε capacity) history start)
    (run : Run (Answers streamMachine) (streamMachine start .whenDrained).2 later finish)
    (released : finish.stream.closed = true ∨
      start.stream.drainWaiters.length <
        countAlong streamMachine pullsBelow (streamMachine start .whenDrained).2
          (later.map Prod.fst)) :
    start.promises ∈ resumed (andThen history start .whenDrained ++ later) := by
  have waited : Run (Answers streamMachine) (.iterated ε capacity)
      (andThen history start .whenDrained) (streamMachine start .whenDrained).2 :=
    .snoc earlier rfl
  have promised := (accounted_of_run (waited.append run)).2
  by_cases isClosed : finish.stream.closed = true
  · have all := promised.waiters
    rw [promised.nothingWaits isClosed, List.append_nil] at all
    refine all.mem_iff.mpr ?_
    simp [waiters, StreamCall.waiter, (promise_streamMachine start .whenDrained).1]
  · have isOpen := Bool.not_eq_true _ ▸ isClosed
    have enough := released.resolve_left isClosed
    rw [resumed_append, List.mem_append]
    by_cases ready : start.stream.closed ∨ start.stream.eventConsumption = .subscribeOnly ∨
        start.stream.buffer.length < start.stream.capacity
    · left
      rw [andThen, resumed_snoc, streamMachine, BoundedEventStream.whenDrained]
      simp only [if_pos ready]
      exact List.mem_append_right _ (List.mem_singleton_self _)
    · right
      have waits : (streamMachine start .whenDrained).2.stream.drainWaiters =
          start.stream.drainWaiters ++ start.promises :: [] := by
        simp [streamMachine, BoundedEventStream.whenDrained, if_neg ready]
      obtain isResumed | ⟨nearer, after, -, isNearer⟩ := waiter_of_run waited run waits isOpen
      · exact isResumed
      · omega

/-- The primary delivery of an iterated stream, whatever calls are made in whatever
order.

The consumer gets a prefix of the values pushed before the end, in their order, and all
of them if it never returns early and has pulled as often as there are values; a pull
rejected beside an outstanding one does not count, and there is none if the consumer
waits for each pull.  After the last value every pull reports the end.  The counters
count, every promise of a pull is settled at most once and by the end at the latest, and
so is that of a producer that waits: it is resumed by the end, or by more pulls leaving
the buffer below the capacity than producers were waiting before it. -/
theorem boundedEventStream_delivers (ε : Type u) (capacity : Int) (calls : List (StreamCall ε)) :
    let history := (replay streamMachine (.iterated ε capacity) calls).1
    let world := (replay streamMachine (.iterated ε capacity) calls).2
    delivered history <+: pushedBeforeEnd history ∧
    (returned history = false →
      (pushedBeforeEnd history).length + (refused history).length ≤ (pulls history).length →
      delivered history = pushedBeforeEnd history) ∧
    (always streamMachine (.iterated ε capacity) (fun _ world call => pullsAlone world call)
        calls = true →
      refused history = []) ∧
    (ended history = true →
      delivered history = pushedBeforeEnd history ∨ returned history = true →
      (streamMachine world .next).1.events = [.pulled world.promises .done]) ∧
    world.stream.deliveredCount = (delivered history).length ∧
    world.stream.publishedCount = (pushed history).length ∧
    (world.stream.hasGap = false → world.stream.abandoned = false →
      world.stream.publishedCount - world.stream.deliveredCount =
        world.stream.buffer.length ∧
      world.stream.deliveredCount ≤ world.stream.publishedCount) ∧
    (settledPulls history).Nodup ∧
    (ended history = true → (settledPulls history).Perm (pulls history)) ∧
    (resumed history).Nodup ∧
    (ended history = true → (resumed history).Perm (waiters history)) ∧
    ∀ before after, calls = before ++ .whenDrained :: after →
      let start := (replay streamMachine (.iterated ε capacity) before).2
      ended history = true ∨
        start.stream.drainWaiters.length <
          countAlong streamMachine pullsBelow (streamMachine start .whenDrained).2 after →
      start.promises ∈ resumed history := by
  intro history world
  have run : Run (Answers streamMachine) (.iterated ε capacity) history world :=
    run_replay streamMachine (.iterated ε capacity) calls
  obtain ⟨accounted, promised⟩ := accounted_of_run run
  refine ⟨(List.prefix_append _ _).trans accounted.order,
    fun notReturned enough => delivered_of_pulls accounted promised notReturned enough,
    fun alone => refused_of_alone run ?_, ?_, accounted.deliveredCount,
    accounted.publishedCount, ?_, ?_, ?_, ?_, ?_, ?_⟩
  · rwa [show history.map Prod.fst = calls from map_replay ..]
  · intro isEnded complete
    have isClosed := accounted.closed.trans isEnded
    refine next_done accounted.iterated isClosed ?_
    obtain isAll | isReturned := complete
    · have order := accounted.order.length_le
      rw [← isAll, List.length_append] at order
      exact List.length_eq_zero_iff.mp (by omega)
    · exact (accounted.dropped isReturned).2
  · intro noGap notAbandoned
    have whole := congrArg List.length (accounted.whole notAbandoned)
    rw [List.length_append, ← accounted.gap noGap, ← accounted.deliveredCount,
      ← accounted.publishedCount] at whole
    omega
  · exact ((promised.pulls.nodup_iff.mpr promised.distinct.1).of_append_left)
  · intro isEnded
    simpa [accounted.unparked (accounted.closed.trans isEnded)] using promised.pulls
  · exact ((promised.waiters.nodup_iff.mpr promised.distinct.2).of_append_left)
  · intro isEnded
    simpa [promised.nothingWaits (accounted.closed.trans isEnded)] using promised.waiters
  · intro before after isCalls start released
    have isReplay := replay_append streamMachine (.iterated ε capacity)
      (before ++ [.whenDrained]) after
    rw [List.append_assoc, List.singleton_append, ← isCalls, replay_snoc] at isReplay
    have isHistory := congrArg Prod.fst isReplay
    have isWorld := congrArg Prod.snd isReplay
    simp only at isHistory isWorld
    rw [← accounted.closed, show world = _ from isWorld] at released
    rw [show history = _ from isHistory]
    refine resumed_whenDrained (run_replay streamMachine _ before)
      (run_replay streamMachine _ after) ?_
    rw [map_replay]
    exact released

end Relavium.Run
