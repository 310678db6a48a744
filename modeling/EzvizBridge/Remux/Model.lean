import EzvizBridge.Hub.Model
import EzvizBridge.Remux.WarmCache

/-!
# The MPEG-TS hub

`MpegTsHub` (`remux.rs`, `remux_process.rs`) sits on top of the raw stream hub: one task feeds the
raw stream of a camera through FFmpeg and hands what FFmpeg writes to any number of subscribers.

As for the raw hub, the model is an event system with one step for what happens under one guard.

* A `subscribe` reads `closed` and takes its id (`Event.enter`), takes the snapshot and is inserted
  under the guard of the map (`Event.join`), and calls `ensure_running` after the `await` on the
  metrics (`Event.ensure`), unless its future is dropped there (`Event.abandon`).
* The task is a program counter. What it does with FFmpeg and with the raw hub is not looked into:
  each of these calls may succeed or fail (`Event.advance`, `Event.fail`), FFmpeg may write
  (`Event.publish`) and the read loop may end (`Event.stop`) at any time.
* `remove_subscriber` takes the cancellation token of the task that is stored at that moment
  (`Event.capture`), and cancels that one when the grace is over and the map is still empty.
-/

namespace EzvizBridge

/-- Where a task stands in `MpegTsHub::run`. -/
inductive RemuxPhase
  /-- spawned, not polled yet -/
  | spawned
  /-- `run_process` before its read loop: FFmpeg is started, the raw hub is subscribed to -/
  | opening
  /-- in the read loop -/
  | reading
  /-- past the loop: the feed is awaited, FFmpeg is killed and waited for -/
  | stopping
  /-- `run_process` has returned; in the `await`s before the map is cleared -/
  | reporting
  /-- the map is cleared, the warm cache is not -/
  | clearing
  /-- both are cleared; in the last `await` -/
  | cleared
  | finished
  deriving DecidableEq, Repr

/-- The task has not cleared the map yet. -/
def RemuxPhase.serving : RemuxPhase → Bool
  | .spawned | .opening | .reading | .stopping | .reporting => true
  | .clearing | .cleared | .finished => false

/-- A task of `ensure_running`: its cancellation token and its program counter. -/
structure RemuxTask where
  cancelled : Bool := false
  phase : RemuxPhase := .spawned
  deriving DecidableEq, Repr

/-- History variables, which no step reads: everything that `publish` was given, and for each
subscriber the number of these bytes and the snapshot at its insertion. -/
structure RemuxHistory where
  published : Bytes := []
  mark : ℕ → ℕ := fun _ => 0
  snapshot : ℕ → Option Bytes := fun _ => none

/-- `MpegTsHub`, with the tasks that run on it. The tasks are numbered in the order in which they
were spawned, and `producer` names the one that is stored in the hub. -/
structure MpegTsHub where
  subscribers : List ℕ := []
  channels : ℕ → Channel := fun _ => {}
  warm : TsWarmCache := {}
  producer : Option ℕ := none
  tasks : ℕ → Option RemuxTask := fun _ => none
  nextTask : ℕ := 0
  nextId : ℕ := 1
  closed : Bool := false
  now : ℕ := 0
  /-- ids of the `subscribe` calls before their critical section, and in the `await` after it -/
  entering : List ℕ := []
  waiting : List ℕ := []
  /-- ids of the `TsSubscription`s in the hands of a client -/
  held : List ℕ := []
  /-- calls of `remove_subscriber` that left the map empty, before they look at the producer -/
  leaving : ℕ := 0
  /-- idle tasks before their sleep, in it, and past their test of the map, with their tokens -/
  idle : List (Option ℕ) := []
  graces : List (ℕ × Option ℕ) := []
  cancelling : List (Option ℕ) := []
  /-- calls of `close` before they take the producer, waiting for it, and past the map -/
  closing : ℕ := 0
  awaiting : List (Option ℕ) := []
  emptied : ℕ := 0
  history : RemuxHistory := {}

namespace MpegTsHub

/-- The phase of task `g`, if it was ever spawned. -/
def phase (self : MpegTsHub) (g : ℕ) : Option RemuxPhase := (self.tasks g).map RemuxTask.phase

/-- `task.is_finished()`. -/
def isFinished (self : MpegTsHub) (g : ℕ) : Bool := self.phase g == some .finished

/-- `cancel.cancel()`, for a token that was taken from a producer. -/
def cancel (self : MpegTsHub) : Option ℕ → MpegTsHub
  | none => self
  | some g =>
    { self with
      tasks := Function.update self.tasks g
        ((self.tasks g).map fun t => { t with cancelled := true }) }

/-- Move task `g` to another phase. -/
def goto (self : MpegTsHub) (g : ℕ) (phase : RemuxPhase) : MpegTsHub :=
  { self with
    tasks := Function.update self.tasks g ((self.tasks g).map fun t => { t with phase }) }

/-- The last part of `ensure_running`: a new task. -/
def startProducer (self : MpegTsHub) : MpegTsHub :=
  { self with
    tasks := Function.update self.tasks self.nextTask (some {})
    producer := some self.nextTask
    nextTask := self.nextTask + 1 }

/-- `MpegTsHub::ensure_running`. -/
def ensureRunning (self : MpegTsHub) : MpegTsHub :=
  match self.producer with
  | some current => if self.isFinished current then self.startProducer else self
  | none => self.startProducer

/-- `subscribers.insert(id, sender)`. -/
def insert (self : MpegTsHub) (id : ℕ) (channel : Channel) : MpegTsHub :=
  { self with
    subscribers := self.subscribers ++ [id]
    channels := Function.update self.channels id channel
    waiting := self.waiting ++ [id]
    history := { self.history with
      mark := Function.update self.history.mark id self.history.published.length
      snapshot := Function.update self.history.snapshot id self.warm.snapshot } }

/-- The critical section of `MpegTsHub::subscribe`. Both errors, `Capacity` and the refused
snapshot, leave the hub as it is. -/
def join (cfg : HubConfig) (self : MpegTsHub) (id : ℕ) : MpegTsHub :=
  let self := { self with entering := self.entering.erase id }
  if cfg.maxSubscribers ≤ self.subscribers.length then self
  else
    match self.warm.snapshot with
    | none => self.insert id {}
    | some snapshot =>
      match ({} : Channel).trySend cfg.queueChunks snapshot with
      | none => self
      | some channel => self.insert id channel

/-- The critical section of `remove_subscriber`; the idle task matters only when nobody is left. -/
def removeSubscriber (self : MpegTsHub) (id : ℕ) : MpegTsHub :=
  let subscribers := self.subscribers.filter (· ≠ id)
  { self with
    subscribers
    leaving := if subscribers = [] then self.leaving + 1 else self.leaving }

/-- A new state of the channel of `id`. -/
def setChannel (self : MpegTsHub) (id : ℕ) (channel : Channel) : MpegTsHub :=
  { self with channels := Function.update self.channels id channel }

/-- The receiver of `id` is dropped. -/
def hangUp (self : MpegTsHub) (id : ℕ) : MpegTsHub :=
  self.setChannel id { self.channels id with alive := false }

/-- `publish`. -/
def publish (cfg : HubConfig) (self : MpegTsHub) (chunk : Bytes) : MpegTsHub :=
  { self with
    warm := self.warm.ingest chunk
    subscribers := self.subscribers.filter fun id =>
      ((self.channels id).trySend cfg.queueChunks chunk).isSome
    channels := fun id =>
      if id ∈ self.subscribers then
        ((self.channels id).trySend cfg.queueChunks chunk).getD (self.channels id)
      else self.channels id
    history := { self.history with published := self.history.published ++ chunk } }

/-- The next step of task `g` when the call it is in succeeds. -/
def advance (self : MpegTsHub) (g : ℕ) : Option MpegTsHub :=
  match self.phase g with
  | some .spawned => some (self.goto g .opening)
  | some .opening => some (self.goto g .reading)
  | some .stopping => some (self.goto g .reporting)
  | some .reporting => some { self.goto g .clearing with subscribers := [] }
  | some .clearing => some { self.goto g .cleared with warm := self.warm.clear }
  | some .cleared => some (self.goto g .finished)
  | _ => none

/-- `run_process` returns an error: FFmpeg cannot be started, the raw hub refuses, a read or the
end of the feed fails. -/
def fail (self : MpegTsHub) (g : ℕ) : Option MpegTsHub :=
  match self.phase g with
  | some .opening | some .reading | some .stopping => some (self.goto g .reporting)
  | _ => none

end MpegTsHub

namespace Remux

/-- What can happen next to an MPEG-TS hub. -/
inductive Event
  /-- time passes -/
  | tick (duration : ℕ)
  /-- `subscribe` reads `closed` and takes an id -/
  | enter
  /-- its critical section -/
  | join (id : ℕ)
  /-- it calls `ensure_running` and returns its subscription -/
  | ensure (id : ℕ)
  /-- its future is dropped in the `await` before that -/
  | abandon (id : ℕ)
  /-- the client of a subscription reads a chunk -/
  | recv (id : ℕ)
  /-- `unsubscribe` -/
  | unsubscribe (id : ℕ)
  /-- a `TsSubscription` is dropped -/
  | drop (id : ℕ)
  /-- `remove_subscriber` looks at the producer -/
  | capture
  /-- an idle task starts its sleep, wakes and tests the map, and cancels its token -/
  | idleSleep (token : Option ℕ)
  | idleTest (wakeAt : ℕ) (token : Option ℕ)
  | idleCancel (token : Option ℕ)
  /-- `close` sets the flag, takes the producer, clears the map, clears the warm cache -/
  | close
  | closeTake
  | closeClear (taken : Option ℕ)
  | closeWarm
  /-- the task takes its next step, or `run_process` fails -/
  | advance (g : ℕ)
  | fail (g : ℕ)
  /-- the read loop hands over a read, or ends (FFmpeg closed its output, or it was cancelled) -/
  | publish (g : ℕ) (chunk : Bytes)
  | stop (g : ℕ)
  deriving DecidableEq, Repr

end Remux

namespace MpegTsHub

/-- Named, so that it is one constant in the tests of `step`. -/
scoped instance : LawfulBEq (Option ℕ) := inferInstance

/-- One event; `none` when it cannot happen in this state. -/
def step (cfg : HubConfig) (self : MpegTsHub) : Remux.Event → Option MpegTsHub
  | .tick duration => some { self with now := self.now + duration }
  | .enter =>
    if self.closed then some self
    else some { self with entering := self.entering ++ [self.nextId], nextId := self.nextId + 1 }
  | .join id => if id ∈ self.entering then some (self.join cfg id) else none
  | .ensure id =>
    if id ∈ self.waiting then
      some { self.ensureRunning with
        waiting := self.waiting.erase id
        held := self.held ++ [id] }
    else none
  | .abandon id =>
    if id ∈ self.waiting then
      some { self.hangUp id with waiting := self.waiting.erase id }
    else none
  | .recv id =>
    if id ∈ self.held ∧ (self.channels id).queue ≠ [] then
      some (self.setChannel id (self.channels id).read)
    else none
  | .unsubscribe id => some (self.removeSubscriber id)
  | .drop id =>
    if id ∈ self.held then
      some { (self.removeSubscriber id).hangUp id with held := self.held.erase id }
    else none
  | .capture =>
    if 0 < self.leaving then
      some { self with leaving := self.leaving - 1, idle := self.idle ++ [self.producer] }
    else none
  | .idleSleep token =>
    if token ∈ self.idle then
      some { self with
        idle := self.idle.erase token
        graces := self.graces ++ [(self.now + cfg.idleGrace, token)] }
    else none
  | .idleTest wakeAt token =>
    if (wakeAt, token) ∈ self.graces ∧ wakeAt ≤ self.now then
      some { self with
        graces := self.graces.erase (wakeAt, token)
        cancelling :=
          if self.subscribers = [] then self.cancelling ++ [token] else self.cancelling }
    else none
  | .idleCancel token =>
    if token ∈ self.cancelling then
      some { self.cancel token with cancelling := self.cancelling.erase token }
    else none
  | .close => some { self with closed := true, closing := self.closing + 1 }
  | .closeTake =>
    if 0 < self.closing then
      some { self.cancel self.producer with
        producer := none
        closing := self.closing - 1
        awaiting := self.awaiting ++ [self.producer] }
    else none
  | .closeClear taken =>
    if taken ∈ self.awaiting ∧ taken.all self.isFinished then
      some { self with
        awaiting := self.awaiting.erase taken
        emptied := self.emptied + 1
        subscribers := [] }
    else none
  | .closeWarm =>
    if 0 < self.emptied then
      some { self with emptied := self.emptied - 1, warm := self.warm.clear }
    else none
  | .advance g => self.advance g
  | .fail g => self.fail g
  | .publish g chunk =>
    -- `read` is not zero, and at most the 64 KiB of the buffer
    if self.phase g = some .reading ∧ chunk ≠ [] ∧ chunk.length ≤ Remux.maxIngestBytes then
      some (self.publish cfg chunk)
    else none
  | .stop g =>
    if self.phase g = some .reading then some (self.goto g .stopping) else none

end MpegTsHub

end EzvizBridge
