import EzvizBridge.Basic
import EzvizBridge.Lib.Chunks
import EzvizBridge.Lib.EventSystem
import Mathlib.Logic.Function.Basic

/-!
# The raw stream hub

`RawStreamHub` (`hub.rs`, `hub_producer.rs`) lets any number of subscribers share one upstream
session of a camera. Its subscribers, the tasks that run the sessions, the tasks that wait out the
idle grace and the calls of `close` all run concurrently on one record of locks and atomics.

The model is an event system. What happens under one guard of a `std::sync::Mutex` is one step;
every `await`, and every gap between two guards, is a place where any other task may run. One field
is an exception: `producer_started` is set and taken in the same step as what is done under the
guard before it. It holds the time for a metric, and nothing that the hub does depends on it.

* a `subscribe` reads `closed` and takes its id (`Event.enter`), runs its critical section
  (`Event.join`: capacity check, `ensure_running`, insertion, all under the guard of the map),
  and hands the subscription over after the `await` on the metrics (`Event.hand`), unless its
  future is dropped there (`Event.abandon`);
* a producer task is a program counter (`Phase`) that `advance` moves through `run_producer` and
  `record_result`, one step between two suspension points;
* the idle task of `remove_subscriber` tests the map and cancels the producer in two steps, since
  the guard of the map is released before the producer is locked.

Generations and ids are natural numbers: both counters start near zero and would need 2^64
restarts to wrap. Instants are nanoseconds on a clock that `Event.tick` moves. The metrics are
left out (nothing reads them back); their `await`s are the suspension points named above.
-/

namespace EzvizBridge

/-- `StreamFailure`. -/
inductive StreamFailure
  | cameraOffline
  | upstreamUnavailable
  deriving DecidableEq, Repr

namespace StreamFailure

def fromError : BridgeError → StreamFailure
  | .cameraOffline => .cameraOffline
  | _ => .upstreamUnavailable

def intoError : StreamFailure → BridgeError
  | .cameraOffline => .cameraOffline
  | .upstreamUnavailable => .upstreamUnavailable

end StreamFailure

/-- `Duration::from_secs`, in nanoseconds. -/
def secs (n : ℕ) : ℕ := n * 1000000000

/-- `OFFLINE_COOLDOWN`: minimum pause before a new upstream session after the camera went
offline. -/
def offlineCooldown : ℕ := secs 30

/-- `Failures`. -/
structure Failures where
  count : ℕ := 0
  nextStart : Option ℕ := none
  deriving DecidableEq, Repr

/-- The failing branch of `record_result`: the next start is 2, 4, then 600 seconds away, and at
least the cooldown when the camera was offline. -/
def Failures.record (self : Failures) (error : BridgeError) (now : ℕ) : Failures :=
  let count := min (self.count + 1) 4294967295
  let backoff := if 3 ≤ count then secs 600 else secs (2 ^ count)
  let backoff := if error = .cameraOffline then max backoff offlineCooldown else backoff
  { count, nextStart := some (now + backoff) }

/-- Where a producer task stands in `run_producer` and `record_result`. A session's result is
`none` for `Ok(())` and `some error` for `Err(error)`. -/
inductive Phase
  /-- spawned, not polled yet -/
  | spawned
  /-- in the `select!` between the backoff and the cancellation -/
  | sleeping (wakeAt : ℕ)
  /-- returned from the `select!` because it was cancelled -/
  | givenUp
  /-- past the backoff, in the two `await`s on the metrics -/
  | starting
  /-- `stream_mpeg_ps` has been called and has not returned -/
  | streaming
  /-- the session returned; the generation is not compared yet -/
  | returned (result : Option BridgeError)
  /-- the generation was compared and is current; `record_result` is entered -/
  | recording (result : Option BridgeError)
  /-- `last_failure` is written -/
  | tallying (result : Option BridgeError)
  /-- a failure, in the `await` on `upstream_failures_total` -/
  | counting (error : BridgeError)
  /-- a success or a cancelled session; `failures` is not reset yet -/
  | resetting
  /-- `failures` is written; in the `await` on `upstream_active` before the map is cleared -/
  | draining
  /-- the map is cleared; in the last `await` -/
  | cleared
  | finished
  deriving DecidableEq, Repr

namespace Phase

def isFinished : Phase → Bool
  | .givenUp | .finished => true
  | _ => false

/-- `stream_mpeg_ps` has been called, so that a `Distributor` of this generation exists. -/
def opened : Phase → Bool
  | .spawned | .sleeping _ | .givenUp | .starting => false
  | _ => true

/-- Between the comparison of the generation and the clearing of the map. -/
def completing : Phase → Bool
  | .recording _ | .tallying _ | .counting _ | .resetting | .draining => true
  | _ => false

/-- `stream_mpeg_ps` has not been called yet, or it has not returned. -/
def mayStream : Phase → Bool
  | .spawned | .sleeping _ | .starting | .streaming => true
  | _ => false

end Phase

/-- A producer task: its cancellation token and its program counter. -/
structure Task where
  cancelled : Bool := false
  phase : Phase := .spawned
  deriving DecidableEq, Repr

/-- The bounded channel of one subscriber. `received` is what its receiver has read so far. -/
structure Channel where
  queue : List (List UInt8) := []
  alive : Bool := true
  received : List (List UInt8) := []
  deriving DecidableEq, Repr

/-- Everything that was ever put into the channel, read or not. -/
def Channel.delivered (self : Channel) : List (List UInt8) := self.received ++ self.queue

/-- `mpsc::Sender::try_send`: refused when the queue is full or the receiver is gone. -/
def Channel.trySend (capacity : ℕ) (self : Channel) (bytes : List UInt8) : Option Channel :=
  if self.alive ∧ self.queue.length < capacity then
    some { self with queue := self.queue ++ [bytes] }
  else none

/-- A read takes the first slice off the queue. -/
def Channel.read (self : Channel) : Channel :=
  match self.queue with
  | [] => self
  | bytes :: queue => { self with queue, received := self.received ++ [bytes] }

theorem Channel.delivered_read (c : Channel) : c.read.delivered = c.delivered := by
  rw [read]
  split
  · rfl
  · next bytes queue hqueue =>
    rw [delivered, delivered, hqueue, List.append_assoc, List.singleton_append]

theorem Channel.delivered_trySend {capacity : ℕ} {c c' : Channel} {bytes : List UInt8}
    (h : c.trySend capacity bytes = some c') : c'.delivered = c.delivered ++ [bytes] := by
  obtain ⟨-, rfl⟩ := EventSystem.guarded h
  exact (List.append_assoc _ _ _).symm

/-- History variables, which no step reads: the chunks each generation has handed to its
`Distributor`, the generation that was current when a subscriber was inserted, and how many chunks
each generation had handed over by then. -/
structure History where
  output : ℕ → List (List UInt8) := fun _ => []
  born : ℕ → ℕ := fun _ => 0
  mark : ℕ → ℕ → ℕ := fun _ _ => 0

/-- The parameters of `RawStreamHub::new`. -/
structure HubConfig where
  queueChunks : ℕ
  maxSubscribers : ℕ
  idleGrace : ℕ

def sampleConfig : HubConfig := { queueChunks := 2, maxSubscribers := 2, idleGrace := 0 }

/-- `RawInner`, with the tasks that run on it. `subscribers` holds the keys of the map; the tasks
are listed by generation, and `producer` names the one that is stored in the hub. -/
structure RawInner where
  subscribers : List ℕ := []
  channels : ℕ → Channel := fun _ => {}
  producer : Option ℕ := none
  tasks : ℕ → Option Task := fun _ => none
  failures : Failures := {}
  producerStarted : Option ℕ := none
  producerGeneration : ℕ := 0
  nextId : ℕ := 1
  closed : Bool := false
  lastFailure : Option StreamFailure := none
  now : ℕ := 0
  /-- ids of the `subscribe` calls before their critical section -/
  entering : List ℕ := []
  /-- ids of the `subscribe` calls in the `await` after it -/
  handing : List ℕ := []
  /-- ids of the `HubSubscription`s in the hands of a client -/
  held : List ℕ := []
  /-- idle tasks before their sleep, in it (with its end), and past their test of the map -/
  idle : ℕ := 0
  graces : List ℕ := []
  cancelling : ℕ := 0
  /-- calls of `close` before they take the producer, and waiting for the task they took -/
  closing : ℕ := 0
  awaiting : List (Option ℕ) := []
  history : History := {}

namespace RawInner

/-- The phase of the task of generation `g`, if it was ever spawned. -/
def phase (self : RawInner) (g : ℕ) : Option Phase := (self.tasks g).map Task.phase

/-- `task.is_finished()` of the producer of generation `g`. -/
def isFinished (self : RawInner) (g : ℕ) : Bool := (self.phase g).any Phase.isFinished

def startupError (self : RawInner) : BridgeError :=
  self.lastFailure.elim .upstreamUnavailable StreamFailure.intoError

/-- `producer.cancel.cancel()`. -/
def cancel (self : RawInner) (g : ℕ) : RawInner :=
  { self with
    tasks := Function.update self.tasks g
      ((self.tasks g).map fun t => { t with cancelled := true }) }

/-- Move the task of generation `g` to another phase. -/
def goto (self : RawInner) (g : ℕ) (phase : Phase) : RawInner :=
  { self with
    tasks := Function.update self.tasks g ((self.tasks g).map fun t => { t with phase }) }

/-- The last part of `ensure_running`: a new generation and its task. While a failure backoff is
pending, `last_failure` keeps the reason it started. -/
def startProducer (self : RawInner) : RawInner :=
  let generation := self.producerGeneration + 1
  let coolingDown := self.failures.nextStart.any fun start => decide (self.now < start)
  { self with
    producerGeneration := generation
    lastFailure := if coolingDown then self.lastFailure else none
    tasks := Function.update self.tasks generation (some {})
    producer := some generation }

/-- `RawStreamHub::ensure_running`. -/
def ensureRunning (self : RawInner) (restart : Bool) : RawInner :=
  match self.producer with
  | some current =>
    if self.isFinished current then self.startProducer
    else if restart then (self.cancel current).startProducer
    else self
  | none => self.startProducer

/-- `needs_fresh_stream` of `subscribe`: nobody listens, but a session is still going on. -/
def needsFreshStream (self : RawInner) : Bool :=
  self.subscribers.isEmpty && self.producer.any fun current => !self.isFinished current

/-- `subscribers.insert(id, sender)`, for the fresh channel of a new id. -/
def insert (self : RawInner) (id : ℕ) : RawInner :=
  { self with
    subscribers := self.subscribers ++ [id]
    channels := Function.update self.channels id {}
    handing := self.handing ++ [id]
    history := { self.history with
      born := Function.update self.history.born id self.producerGeneration
      mark := Function.update self.history.mark id fun g => (self.history.output g).length } }

/-- The critical section of `RawStreamHub::subscribe`; `Err(Capacity)` leaves the hub as it is. -/
def join (cfg : HubConfig) (self : RawInner) (id : ℕ) : RawInner :=
  let self := { self with entering := self.entering.erase id }
  if cfg.maxSubscribers ≤ self.subscribers.length then self
  else (self.ensureRunning self.needsFreshStream).insert id

/-- The critical section of `remove_subscriber`; the idle task matters only when nobody is left. -/
def removeSubscriber (self : RawInner) (id : ℕ) : RawInner :=
  let subscribers := self.subscribers.filter (· ≠ id)
  { self with subscribers, idle := if subscribers = [] then self.idle + 1 else self.idle }

/-- A new state of the channel of `id`. -/
def setChannel (self : RawInner) (id : ℕ) (channel : Channel) : RawInner :=
  { self with channels := Function.update self.channels id channel }

/-- The receiver of `id` is dropped. -/
def hangUp (self : RawInner) (id : ℕ) : RawInner :=
  self.setChannel id { self.channels id with alive := false }

/-- `subscribers.retain(|_, sender| sender.try_send(bytes.clone()).is_ok())`. -/
def retain (capacity : ℕ) (self : RawInner) (bytes : List UInt8) : RawInner :=
  { self with
    subscribers := self.subscribers.filter fun id =>
      ((self.channels id).trySend capacity bytes).isSome
    channels := fun id =>
      if id ∈ self.subscribers then
        ((self.channels id).trySend capacity bytes).getD (self.channels id)
      else self.channels id }

/-- `Distributor::consume` of generation `g`. -/
def consume (cfg : HubConfig) (self : RawInner) (g : ℕ) (chunk : List UInt8) : Bool × RawInner :=
  if self.producerGeneration ≠ g then (false, self)
  else if self.subscribers.isEmpty then (!self.closed, self)
  else
    (true, { (chunks 65536 chunk).foldl
      (retain cfg.queueChunks) self with producerStarted := none })

/-- The chunk that generation `g` hands over is part of its output, whatever `consume` answers. -/
def logOutput (self : RawInner) (g : ℕ) (chunk : List UInt8) : RawInner :=
  { self with
    history := { self.history with
      output := Function.update self.history.output g (self.history.output g ++ [chunk]) } }

/-- The next step of the producer task of generation `g` in `run_producer` and `record_result`.
The calls and the return of `stream_mpeg_ps` are events of their own, and so is the end of a
cancelled backoff. -/
def advance (self : RawInner) (g : ℕ) : Option RawInner :=
  match self.tasks g with
  | none => none
  | some task =>
    match task.phase with
    | .spawned =>
      -- `next_start.map(saturating_duration_since(now)).unwrap_or_default()`
      match self.failures.nextStart with
      | some start =>
        if self.now < start then some (self.goto g (.sleeping start))
        else some { self.goto g .starting with producerStarted := some self.now }
      | none => some { self.goto g .starting with producerStarted := some self.now }
    | .sleeping wakeAt =>
      if wakeAt ≤ self.now then
        some { self.goto g .starting with producerStarted := some self.now }
      else none
    | .starting => some (self.goto g .streaming)
    | .returned result =>
      if self.producerGeneration ≠ g then some (self.goto g .finished)
      else some (self.goto g (.recording result))
    | .recording result =>
      some { self.goto g (.tallying result) with
        lastFailure := result.map StreamFailure.fromError }
    | .tallying result =>
      match task.cancelled, result with
      | false, some error => some (self.goto g (.counting error))
      | _, _ => some (self.goto g .resetting)
    | .counting error =>
      some { self.goto g .draining with
        failures := self.failures.record error self.now
        producerStarted := none }
    | .resetting => some { self.goto g .draining with failures := {}, producerStarted := none }
    | .draining => some { self.goto g .cleared with subscribers := [] }
    | .cleared => some (self.goto g .finished)
    | .givenUp | .streaming | .finished => none

end RawInner

/-- What can happen next to a hub. -/
inductive Event
  /-- time passes -/
  | tick (duration : ℕ)
  /-- `subscribe` reads `closed` and takes an id -/
  | enter
  /-- its critical section -/
  | join (id : ℕ)
  /-- it returns its subscription -/
  | hand (id : ℕ)
  /-- its future is dropped before it returned -/
  | abandon (id : ℕ)
  /-- the client of a subscription reads a slice -/
  | recv (id : ℕ)
  /-- `unsubscribe` -/
  | unsubscribe (id : ℕ)
  /-- a `HubSubscription` is dropped -/
  | drop (id : ℕ)
  /-- an idle task starts its sleep, wakes and tests the map, and cancels the producer -/
  | idleSleep
  | idleTest (wakeAt : ℕ)
  | idleCancel
  /-- `close` sets the flag, takes the producer, and clears the map -/
  | close
  | closeTake
  | closeClear (taken : Option ℕ)
  /-- a producer task takes its next step, or gives up its backoff -/
  | advance (g : ℕ)
  | giveUp (g : ℕ)
  /-- the session of generation `g` hands over a chunk, or returns -/
  | consume (g : ℕ) (chunk : List UInt8)
  | ret (g : ℕ) (result : Option BridgeError)
  deriving DecidableEq, Repr

namespace RawInner

/-- One event; `none` when it cannot happen in this state. -/
def step (cfg : HubConfig) (self : RawInner) : Event → Option RawInner
  | .tick duration => some { self with now := self.now + duration }
  | .enter =>
    -- a closed hub refuses
    if self.closed then some self
    else some { self with entering := self.entering ++ [self.nextId], nextId := self.nextId + 1 }
  | .join id => if id ∈ self.entering then some (self.join cfg id) else none
  | .hand id =>
    if id ∈ self.handing then
      some { self with handing := self.handing.erase id, held := self.held ++ [id] }
    else none
  | .abandon id =>
    if id ∈ self.handing then
      some { self.hangUp id with handing := self.handing.erase id }
    else none
  | .recv id =>
    if id ∈ self.held ∧ (self.channels id).queue ≠ [] then
      some (self.setChannel id (self.channels id).read)
    else none
  | .unsubscribe id => some (self.removeSubscriber id)
  | .drop id =>
    if id ∈ self.held then
      some { (self.removeSubscriber id).hangUp id with held := self.held.erase id }
    else none
  | .idleSleep =>
    -- the grace begins
    if 0 < self.idle then
      some { self with idle := self.idle - 1, graces := self.graces ++ [self.now + cfg.idleGrace] }
    else none
  | .idleTest wakeAt =>
    if wakeAt ∈ self.graces ∧ wakeAt ≤ self.now then
      some { self with
        graces := self.graces.erase wakeAt
        cancelling := if self.subscribers = [] then self.cancelling + 1 else self.cancelling }
    else none
  | .idleCancel =>
    if 0 < self.cancelling then
      some { self.producer.elim self self.cancel with cancelling := self.cancelling - 1 }
    else none
  | .close => some { self with closed := true, closing := self.closing + 1 }
  | .closeTake =>
    if 0 < self.closing then
      some { self.producer.elim self self.cancel with
        producer := none
        closing := self.closing - 1
        awaiting := self.awaiting ++ [self.producer] }
    else none
  | .closeClear taken =>
    -- `close` waits for the task before it clears the map
    if taken ∈ self.awaiting ∧ taken.all self.isFinished then
      some { self with awaiting := self.awaiting.erase taken, subscribers := [] }
    else none
  | .advance g => self.advance g
  | .giveUp g =>
    match self.tasks g with
    -- a cancelled backoff ends without a stream
    | some ⟨true, .sleeping _⟩ => some (self.goto g .givenUp)
    | _ => none
  | .consume g chunk =>
    if (self.phase g).any Phase.opened then
      some ((self.consume cfg g chunk).2.logOutput g chunk)
    else none
  | .ret g result =>
    if self.phase g = some .streaming then some (self.goto g (.returned result)) else none

end RawInner

end EzvizBridge
