import EzvizBridge.Alarms.Fetch
import EzvizBridge.Lib.EventSystem

/-!
# The alarm poller

`poller::run` (`alarms/poller.rs`, `alarms/poller/support.rs`) asks for the summary of all devices
over and over. For a device whose summary has changed it fetches the unknown alarms and publishes
them to the cameras of that device. Until the first time that this succeeds the alarms are only kept
(priming), afterwards they are new (live).

`cycle` is one turn of the loop. The requests and the locks are the points at which other tasks may
move, so there is also the machine `AlarmPoller.step`, in which the cycle goes from one of them to
the next; `run_cycle` says that it does the same.

The feed and the states of the devices are total functions; only the configured aliases and their
serials are ever looked at. Of the metrics only `alarm_backlog_truncated_total` is kept.
-/

namespace EzvizBridge

namespace Alarms

open Recordings (Persist)

/-! ### The feed -/

/-- What the poller reads of `CameraConfig`. -/
structure CameraConfig where
  serial : String
  channel : ℕ
  deriving DecidableEq, Repr

/-- `AlarmFeed`: the cameras in the order of their aliases, their slots, and for each of them the
counter `alarm_backlog_truncated_total`. -/
structure AlarmFeed where
  cameras : List (String × CameraConfig)
  /-- they are the keys of a map -/
  distinct : (cameras.map Prod.fst).Nodup
  slots : String → CameraSlot
  backlogTruncated : String → ℕ := fun _ => 0

/-- `AlarmLimits`. -/
structure AlarmLimits where
  history : ℕ
  pictureBytes : ℕ
  deriving DecidableEq, Repr

/-- What is on the disk for one camera when the process starts, and whether `load` can write it. -/
structure CameraFiles where
  file : Option HistoryFile := none
  pictures : Finset String := ∅
  persist : Persist := .ok

namespace AlarmFeed

/-- `AlarmFeed::load`. `binding` is the hash of the serial and the channel. -/
def load (cameras : List (String × CameraConfig)) (distinct : (cameras.map Prod.fst).Nodup)
    (files : String → CameraFiles) (binding : CameraConfig → String) (limits : AlarmLimits) :
    AlarmFeed :=
  { cameras
    distinct
    slots := fun camera =>
      CameraSlot.start (files camera).file (files camera).pictures
        ((cameras.lookup camera).elim "" binding) (limits.pictureBytes / max cameras.length 1)
        limits.history (files camera).persist }

/-- The slot of a camera has changed. -/
def setSlot (self : AlarmFeed) (camera : String) (slot : CameraSlot) : AlarmFeed :=
  { self with slots := Function.update self.slots camera slot }

/-- `alarm_backlog_truncated_total` is incremented. -/
def countTruncated (self : AlarmFeed) (camera : String) : AlarmFeed :=
  { self with
    backlogTruncated :=
      Function.update self.backlogTruncated camera (self.backlogTruncated camera + 1) }

/-- The aliases of a device. -/
def aliasesOf (self : AlarmFeed) (serial : String) : List (String × CameraConfig) :=
  self.cameras.filter fun camera => camera.2.serial = serial

/-- `groups`: the devices in the order of their serials, with their cameras. -/
def groups (self : AlarmFeed) : List (String × List (String × CameraConfig)) :=
  (((self.cameras.map (·.2.serial)).dedup).insertionSort (· ≤ ·)).map fun serial =>
    (serial, self.aliasesOf serial)

end AlarmFeed

/-! ### One device -/

def seenPerSerial : ℕ := 512

def picturesPerCycle : ℕ := 10

/-- `DeviceSummary`. -/
structure DeviceSummary where
  serial : String
  total : ℕ
  topId : Option String
  utcOffset : Option ℤ
  deriving DecidableEq, Repr

/-- `SerialState`. -/
structure SerialState where
  baseline : Option (Option String × ℕ) := none
  offset : Option ℤ := none
  seen : List String := []
  deriving DecidableEq, Repr

namespace SerialState

/-- The offset that the summary gives is learned. -/
def learn (self : SerialState) (device : Option DeviceSummary) : SerialState :=
  match device.bind (·.utcOffset) with
  | some offset => { self with offset := some offset }
  | none => self

/-- The ids of the fetched messages are remembered, up to a bound. -/
def remember (self : SerialState) (messages : List ParsedMessage) : SerialState :=
  let seen := self.seen ++ messages.map (·.id)
  { self with seen := seen.drop (seen.length - seenPerSerial) }

end SerialState

/-- `current`: what the summary says about a device. -/
def currentOf (device : Option DeviceSummary) : Option String × ℕ :=
  device.elim (none, 0) fun device => (device.topId, device.total)

/-- `known_ids`. -/
def knownIds (feed : AlarmFeed) (cameras : List (String × CameraConfig)) (state : SerialState) :
    Finset String × Option ℤ :=
  let histories := cameras.map fun camera => (feed.slots camera.1).history
  (state.seen.toFinset ∪
      (histories.flatMap fun history => (history.recent history.limit).map (·.record.id)).toFinset,
    (histories.filterMap (·.newestOccurredAt)).max?)

/-- What the world outside does while one camera is published: downloads and decodes pictures, and
writes files. -/
structure CameraIo where
  download : PictureSource → Option Bytes := fun _ => none
  fault : String → PictureFault := fun _ => .none
  persist : Persist := .ok

/-- `with_pictures`. -/
def withPictures (world : CameraIo) (messages : List ParsedMessage) : List Incoming :=
  let firstWithPicture := messages.length - picturesPerCycle
  messages.mapIdx fun index message =>
    { record := message.record
      jpeg := if firstWithPicture ≤ index then message.picture.bind world.download else none
      fault := world.fault message.id }

/-- The messages of a camera. -/
def mine (config : CameraConfig) (messages : List ParsedMessage) : List ParsedMessage :=
  messages.filter fun message => message.ownChannel = config.channel

/-- One turn of the loop over the aliases in `sync_serial`. -/
def publishCamera (feed : AlarmFeed) (result : FetchResult) (live : Bool)
    (camera : String × CameraConfig) (world : CameraIo) : Except BridgeError Unit × AlarmFeed :=
  let feed := if live && result.truncated then feed.countTruncated camera.1 else feed
  let messages := mine camera.2 result.messages
  if messages = [] then (.ok (), feed)
  else
    let (outcome, slot) :=
      (feed.slots camera.1).publish (withPictures world messages) live world.persist
    (outcome.map fun _ => (), feed.setSlot camera.1 slot)

/-- One camera: either there is nothing for it, or its slot is published to. -/
theorem publishCamera_cases (feed : AlarmFeed) (result : FetchResult) (live : Bool)
    (camera : String × CameraConfig) (world : CameraIo) :
    (publishCamera feed result live camera world).2.cameras = feed.cameras ∧
      ((mine camera.2 result.messages = [] ∧
          (publishCamera feed result live camera world).2.slots = feed.slots) ∨
        (publishCamera feed result live camera world).2.slots =
          Function.update feed.slots camera.1
            ((feed.slots camera.1).publish
              (withPictures world (mine camera.2 result.messages)) live world.persist).2) := by
  unfold publishCamera
  dsimp only
  by_cases hnone : mine camera.2 result.messages = []
  · rw [if_pos hnone]
    refine ⟨?_, .inl ⟨hnone, ?_⟩⟩ <;> split_ifs <;> rfl
  · rw [if_neg hnone]
    refine ⟨?_, .inr ?_⟩ <;> split_ifs <;> rfl

/-- The counter of a truncated backlog. -/
theorem publishCamera_truncated (feed : AlarmFeed) (result : FetchResult) (live : Bool)
    (camera : String × CameraConfig) (world : CameraIo) :
    (publishCamera feed result live camera world).2.backlogTruncated =
      Function.update feed.backlogTruncated camera.1
        (feed.backlogTruncated camera.1 + if live && result.truncated then 1 else 0) := by
  unfold publishCamera
  dsimp only
  by_cases hcounts : (live && result.truncated) = true
  · rw [if_pos hcounts, if_pos hcounts]
    split_ifs <;> rfl
  · rw [if_neg hcounts, if_neg hcounts, Nat.add_zero, Function.update_eq_self]
    split_ifs <;> rfl

/-- The loop over the aliases. -/
def publishCameras (feed : AlarmFeed) (result : FetchResult) (live : Bool)
    (world : String → CameraIo) : List (String × CameraConfig) → Except BridgeError Unit × AlarmFeed
  | [] => (.ok (), feed)
  | camera :: cameras =>
    match publishCamera feed result live camera (world camera.1) with
    | (.error error, feed) => (.error error, feed)
    | (.ok (), feed) => publishCameras feed result live world cameras

/-! ### A cycle -/

/-- The poller and the feed it works on. -/
structure AlarmPoller where
  feed : AlarmFeed
  serials : String → SerialState := fun _ => {}

/-- What the world outside does during one cycle. -/
structure Surroundings where
  summary : Except BridgeError (List DeviceSummary)
  clock : String → Clock
  list : String → ListAnswers
  world : String → CameraIo := fun _ => {}

/-- The part of `sync_serial` up to the end of the fetch. -/
def fetchSerial (feed : AlarmFeed) (cameras : List (String × CameraConfig)) (state : SerialState)
    (live : Bool) (clock : Clock) (list : ListAnswers) : Except BridgeError FetchResult :=
  let (known, newest) := knownIds feed cameras state
  fetchUnknown list clock state.offset newest (fun id => id ∈ known)
    (if live then livePages else primePages)

namespace AlarmPoller

/-- The state of a device has changed. -/
def setSerial (self : AlarmPoller) (serial : String) (state : SerialState) : AlarmPoller :=
  { self with serials := Function.update self.serials serial state }

@[simp]
theorem setSerial_self (self : AlarmPoller) (serial : String) (state : SerialState) :
    (self.setSerial serial state).serials serial = state :=
  Function.update_self ..

theorem setSerial_of_ne {serial other : String} (self : AlarmPoller) (state : SerialState)
    (h : other ≠ serial) : (self.setSerial serial state).serials other = self.serials other :=
  Function.update_of_ne h ..

/-- The device has been synchronised. -/
def settle (self : AlarmPoller) (serial : String) (current : Option String × ℕ)
    (messages : List ParsedMessage) : AlarmPoller :=
  self.setSerial serial { (self.serials serial).remember messages with baseline := some current }

/-- The loop over the aliases is over, or one of them failed. -/
def conclude (self : AlarmPoller) (serial : String) (current : Option String × ℕ)
    (messages : List ParsedMessage) : Except BridgeError Unit × AlarmFeed → Bool × AlarmPoller
  | (.error _, feed) => (true, { self with feed })
  | (.ok (), feed) => (false, { self with feed }.settle serial current messages)

/-- One turn of the loop in `cycle`; the flag says whether it failed. -/
def syncSerial (self : AlarmPoller) (outside : Surroundings) (summary : List DeviceSummary)
    (group : String × List (String × CameraConfig)) : Bool × AlarmPoller :=
  let device := summary.find? fun device => device.serial = group.1
  let learned := self.setSerial group.1 ((self.serials group.1).learn device)
  let state := learned.serials group.1
  if state.baseline = some (currentOf device) then (false, learned)
  else
    let live := state.baseline.isSome
    match fetchSerial learned.feed group.2 state live (outside.clock group.1)
      (outside.list group.1) with
    | .error _ => (true, learned)
    | .ok result =>
      learned.conclude group.1 (currentOf device) result.messages
        (publishCameras learned.feed result live outside.world group.2)

/-- The loop over the devices. -/
def syncSerials (self : AlarmPoller) (outside : Surroundings) (summary : List DeviceSummary) :
    List (String × List (String × CameraConfig)) → Bool × AlarmPoller
  | [] => (false, self)
  | group :: groups =>
    let (failed, next) := self.syncSerial outside summary group
    let (failed', last) := next.syncSerials outside summary groups
    (failed || failed', last)

/-- `cycle`: whether it failed, and the state after it. -/
def cycle (self : AlarmPoller) (outside : Surroundings) : Bool × AlarmPoller :=
  match outside.summary with
  | .error _ => (true, self)
  | .ok summary => self.syncSerials outside summary self.feed.groups

end AlarmPoller

/-! ### Step by step -/

/-- Where the cycle stands. -/
inductive CyclePhase
  /-- between two cycles -/
  | idle
  /-- in the loop over the devices, before the first of them -/
  | serials (summary : List DeviceSummary) (groups : List (String × List (String × CameraConfig)))
  /-- in the loop over the aliases of a device, before the first of them -/
  | publishing (summary : List DeviceSummary)
    (groups : List (String × List (String × CameraConfig)))
      (serial : String) (current : Option String × ℕ) (live : Bool) (result : FetchResult)
      (cameras : List (String × CameraConfig))

/-- The task that runs the poller. -/
structure PollerTask where
  poller : AlarmPoller
  phase : CyclePhase := .idle

/-- What the task has waited for. -/
inductive PollEvent
  | summary (answer : Except BridgeError (List DeviceSummary))
  | serial (clock : Clock) (list : ListAnswers)
  | camera (world : CameraIo)
  /-- a loop is left -/
  | leave

namespace PollerTask

/-- The next device. -/
def serial (self : AlarmPoller) (summary : List DeviceSummary)
    (group : String × List (String × CameraConfig))
    (groups : List (String × List (String × CameraConfig))) (clock : Clock) (list : ListAnswers) :
    PollerTask :=
  let device := summary.find? fun device => device.serial = group.1
  let learned := self.setSerial group.1 ((self.serials group.1).learn device)
  let state := learned.serials group.1
  -- nothing has changed since the last cycle, so nothing is fetched
  if state.baseline = some (currentOf device) then
    { poller := learned, phase := .serials summary groups }
  else
    match fetchSerial learned.feed group.2 state state.baseline.isSome clock list with
    -- the next cycle fetches again
    | .error _ => { poller := learned, phase := .serials summary groups }
    | .ok result =>
      { poller := learned
        phase := .publishing summary groups group.1 (currentOf device) state.baseline.isSome result
          group.2 }

/-- One step. -/
def step (self : PollerTask) : PollEvent → Option PollerTask
  | .summary answer =>
    match self.phase with
    | .idle =>
      match answer with
      | .error _ => some self
      | .ok summary => some { self with phase := .serials summary self.poller.feed.groups }
    | _ => none
  | .serial clock list =>
    match self.phase with
    | .serials summary (group :: groups) =>
      some (serial self.poller summary group groups clock list)
    | _ => none
  | .camera world =>
    match self.phase with
    | .publishing summary groups serial current live result (camera :: cameras) =>
      match publishCamera self.poller.feed result live camera world with
      -- a failed publication leaves the loop, and the baseline as it is
      | (.error _, feed) =>
        some { poller := { self.poller with feed }, phase := .serials summary groups }
      | (.ok (), feed) =>
        some
          { poller := { self.poller with feed }
            phase := .publishing summary groups serial current live result cameras }
    | _ => none
  | .leave =>
    match self.phase with
    -- all cameras of the serial are published
    | .publishing summary groups serial current _ result [] =>
      some
        { poller := self.poller.settle serial current result.messages
          phase := .serials summary groups }
    | .serials _ [] => some { self with phase := .idle }
    | _ => none

end PollerTask

namespace AlarmPoller

open EventSystem (run run_append)

/-- The loop over the aliases. -/
theorem run_publishCameras (self : AlarmPoller) (world : String → CameraIo)
    (summary : List DeviceSummary) (groups : List (String × List (String × CameraConfig)))
    (serial : String) (current : Option String × ℕ) (live : Bool) (result : FetchResult)
    (cameras : List (String × CameraConfig)) :
    ∃ events,
      run PollerTask.step
          { poller := self
            phase := .publishing summary groups serial current live result cameras } events =
        some
          { poller := (self.conclude serial current result.messages
              (publishCameras self.feed result live world cameras)).2
            phase := .serials summary groups } := by
  induction cameras generalizing self with
  | nil => exact ⟨[.leave], rfl⟩
  | cons camera cameras ih =>
    rw [publishCameras]
    cases hcamera : publishCamera self.feed result live camera (world camera.1) with
    | mk published next =>
      cases published with
      | error error =>
        refine ⟨[.camera (world camera.1)], ?_⟩
        simp only [run, PollerTask.step, hcamera, Option.bind_some, conclude]
      | ok done =>
        obtain ⟨events, hevents⟩ := ih { self with feed := next }
        refine ⟨.camera (world camera.1) :: events, ?_⟩
        simp only [run, PollerTask.step, hcamera, Option.bind_some]
        exact hevents

/-- One device. -/
theorem run_syncSerial (self : AlarmPoller) (outside : Surroundings) (summary : List DeviceSummary)
    (group : String × List (String × CameraConfig))
    (groups : List (String × List (String × CameraConfig))) :
    ∃ events,
      run PollerTask.step { poller := self, phase := .serials summary (group :: groups) } events =
        some
          { poller := (self.syncSerial outside summary group).2
            phase := .serials summary groups } := by
  unfold syncSerial
  dsimp only
  split_ifs with hsame
  · refine ⟨[.serial (outside.clock group.1) (outside.list group.1)], ?_⟩
    simp only [run, PollerTask.step, PollerTask.serial, hsame, if_true, Option.bind_some]
  · cases hfetch : fetchSerial _ group.2 _ _ (outside.clock group.1) (outside.list group.1) with
    | error error =>
      refine ⟨[.serial (outside.clock group.1) (outside.list group.1)], ?_⟩
      simp only [run, PollerTask.step, PollerTask.serial, hsame, if_false, hfetch, Option.bind_some]
    | ok result =>
      dsimp only
      obtain ⟨events, hevents⟩ := run_publishCameras _ outside.world summary groups group.1
        (currentOf (summary.find? fun device => device.serial = group.1)) _ result group.2
      refine ⟨.serial (outside.clock group.1) (outside.list group.1) :: events, ?_⟩
      simp only [run, PollerTask.step, PollerTask.serial, hsame, if_false, hfetch, Option.bind_some]
      exact hevents

/-- **The steps make up the cycle**: undisturbed, they lead where `cycle` does. -/
theorem run_cycle (self : AlarmPoller) (outside : Surroundings) :
    ∃ events,
      run PollerTask.step { poller := self } events =
        some { poller := (self.cycle outside).2 } := by
  have hloop : ∀ (summary : List DeviceSummary)
      (groups : List (String × List (String × CameraConfig))) (poller : AlarmPoller),
      ∃ events,
        run PollerTask.step { poller, phase := .serials summary groups } events =
          some { poller := (poller.syncSerials outside summary groups).2 } := by
    intro summary groups
    induction groups with
    | nil => exact fun poller => ⟨[.leave], rfl⟩
    | cons group groups ih =>
      intro poller
      obtain ⟨first, hfirst⟩ := run_syncSerial poller outside summary group groups
      obtain ⟨rest, hrest⟩ := ih (poller.syncSerial outside summary group).2
      refine ⟨first ++ rest, ?_⟩
      rw [run_append, hfirst, Option.bind_some, hrest]
      rfl
  unfold cycle
  split
  · exact ⟨[], rfl⟩
  · rename_i summary hsummary
    obtain ⟨events, hevents⟩ := hloop summary self.feed.groups self
    refine ⟨.summary (.ok summary) :: events, ?_⟩
    simp only [run, PollerTask.step, Option.bind_some]
    exact hevents

end AlarmPoller

end Alarms

end EzvizBridge
