import EzvizBridge.Controls.Model
import EzvizBridge.Controls.Cell
import EzvizBridge.Lib.Effects

/-!
# Verified writes

`ControlService::update` and `set_account_defence` of `controls/update.rs`, with the reads of
`controls/service.rs`, as programs: they perform effects, and the world answers. The world is the
vendor, the clock, and the other callers, who also use the cells: what is in a cell when the lock is
there, and whether the lock is there before the deadline, is up to the world.

A vendor read is `none` when the deadline of the read comes first. The effect `readBack` is not in
the program: it records what a read-back has shown. The lock `writes` and the metrics are left out.
-/

namespace EzvizBridge

namespace Controls

open Effects Effects.Program

/-- The cells of the service. -/
inductive CellName
  | snapshot
  | defence
  | sensitivity (alias_ : String)
  deriving DecidableEq

/-- What a read-back has shown: the value of the control or the mode of the account, if there was
one. -/
inductive Reading
  | failed
  | control (value : Option Desired)
  | account (mode : Option DefenceMode)
  deriving DecidableEq

/-- What the service does. -/
inductive Effect
  /-- Waits for the lock of a cell. -/
  | lock (cell : CellName)
  /-- `ControlSource::control_page`. -/
  | page (offset limit : ℕ)
  /-- `ControlSource::algorithm_config`. -/
  | algorithmConfig
  /-- `ControlSource::group_defence_mode`. -/
  | groupDefenceMode
  /-- `ControlSource::write`. -/
  | write (write : VendorWrite)
  /-- `ControlSource::set_group_defence_mode`. -/
  | setGroupDefenceMode (mode : ℕ)
  /-- `TtlCell::invalidate`. -/
  | invalidate (cell : CellName)
  /-- `tokio::time::sleep`, in seconds. -/
  | sleep (seconds : ℕ)
  /-- A read-back is over. -/
  | readBack (reading : Reading)
  deriving DecidableEq

/-- What happens, as a function of the effects so far. -/
structure World where
  clock : List Effect → ℕ
  /-- The wait for the lock of a cell has ended at the deadline. -/
  timedOut : List Effect → Bool
  snapshotCell : List Effect → TtlCell Snapshot
  sensitivityCell : List Effect → TtlCell (Option Sensitivity)
  defenceCell : List Effect → TtlCell (Option DefenceMode)
  controlPage : List Effect → Option (Except BridgeError Value)
  algorithmConfig : List Effect → Option (Except BridgeError Value)
  groupDefenceMode : List Effect → Option (Except BridgeError Value)
  /-- The answer to a write of either kind. -/
  write : List Effect → Except BridgeError Unit
  fromStr : String → Option Value

/-- `CameraConfig`, as far as the controls go. -/
structure CameraConfig where
  serial : String
  channel : ℕ

/-- `ControlService`, without the cells. -/
structure ControlService where
  /-- The aliases and the cameras. -/
  cameras : List (String × CameraConfig)
  /-- The source is attached. -/
  attached : Bool

namespace ControlService

/-- The serials of the cameras. -/
def serials (self : ControlService) : List String := self.cameras.map fun camera => camera.2.serial

def camera (self : ControlService) (alias_ : String) :
    Option CameraConfig := self.cameras.lookup alias_

/-- The cells of the service: one of the snapshot, one of the defence mode and one for each
camera. -/
def cells (self : ControlService) : List CellName :=
  .snapshot :: .defence :: self.cameras.map fun camera => .sensitivity camera.1

end ControlService

/-- The durations of the cells of the snapshot and of the sensitivity, in seconds. -/
def controlsLifetimes : Lifetimes := ⟨60, 30, 10 * 60⟩

/-- `READ_DEADLINE`, in seconds. -/
def readDeadline : ℕ := 15

/-- `VERIFY_DELAYS`, in seconds. -/
def verifyDelays : List ℕ := [1, 2, 3]

def pageSize : ℕ := 50

def maxPages : ℕ := 40

/-- `Refresh`. -/
inductive Refresh
  | cached
  | status
  | all
  deriving DecidableEq

/-- `Confirmation`. -/
inductive Confirmation (α : Type)
  | confirmed (value : α)
  | mismatch
  | unknown

/-- A part of the service. -/
abbrev Service (α : Type) := Fallible Effect ControlError α

/-- A vendor read. -/
abbrev Fetching (α : Type) := Fallible Effect BridgeError α

/-! ### Reads -/

/-- `Cached`, as its readers use it: the value and whether it is stale, or the category. -/
def Cached.answer {α : Type} : Cached α → Except String (α × Bool)
  | .value found => .ok (found.value, false)
  | .stale found => .ok (found.value, true)
  | .failed category => .error category

variable (w : World)

/-- `TtlCell::fallback`, as its readers use it. -/
def fallBack {α : Type} (cell : List Effect → TtlCell α) (force : Bool) (category : String) :
    Program Effect (Except String (α × Bool)) := do
  let log ← history
  return ((cell log).fallback controlsLifetimes force category (w.clock log)).answer

/-- `TtlCell::get`, as its readers use it. -/
def getCached {α : Type} (name : CellName) (cell : List Effect → TtlCell α) (force : Bool)
    (deadline : ℕ) (fetch : Fetching α) : Program Effect (Except String (α × Bool)) := do
  perform (.lock name)
  let log ← history
  if w.timedOut log then fallBack w cell force "timeout"
  else
    match (cell log).look force deadline (w.clock log) with
    | .value found => return .ok (found.value, false)
    | .failure category => fallBack w cell force category
    | .late => fallBack w cell force "timeout"
    | .fetch =>
      match ← fetch.run with
      | .ok value => return .ok (value, false)
      | .error error => fallBack w cell force error.diagnosticCode

/-- A request to the vendor, up to its answer or the deadline. -/
def ask (effect : Effect) (answer : List Effect → Option (Except BridgeError Value)) :
    Fetching Value := do
  perform effect
  let log ← (history : Program Effect _)
  liftExcept ((answer log).getD (.error .timeout))

/-- The loop of `fetch_snapshot`. -/
def fetchPages (serials : List String) : ℕ → ℕ → Snapshot → Fetching Snapshot
  | 0, _, snapshot => return snapshot
  | left + 1, offset, snapshot => do
    let page ← ask (.page offset pageSize) w.controlPage
    let snapshot := mergePage snapshot page serials
    if pageHasNext page then fetchPages serials left (offset + pageSize) snapshot else
      return snapshot

def fetchSnapshot (serials : List String) : Fetching Snapshot :=
  fetchPages w serials maxPages 0 fun _ => none

/-- The fetch of `ControlService::sensitivity`. -/
def fetchSensitivity (config : CameraConfig) (kind : ℕ) : Fetching (Option Sensitivity) := do
  let raw ← ask .algorithmConfig w.algorithmConfig
  return parseSensitivity w.fromStr raw kind config.channel

/-- The fetch of `ControlService::defence_mode`. -/
def fetchDefenceMode : Fetching (Option DefenceMode) := do
  let value ← ask .groupDefenceMode w.groupDefenceMode
  return parseGroupMode value

/-- `ControlService::sensitivity`. -/
def readSensitivity (alias_ : String) (config : CameraConfig) (kind : ℕ) (force : Bool)
    (deadline : ℕ) :
    Program Effect (Option Sensitivity × Bool) := do
  match ← getCached w (.sensitivity alias_) w.sensitivityCell force deadline
      (fetchSensitivity w config kind) with
  | .ok answer => return answer
  | .error _ => return (none, false)

/-- `ControlService::snapshot`. -/
def readSnapshot (service : ControlService) (force : Bool) (deadline : ℕ) :
    Service (Snapshot × Bool) := do
  match ← getCached w .snapshot w.snapshotCell force deadline (fetchSnapshot w service.serials) with
  | .ok answer => return answer
  | .error category => throw (.failed category)

/-- `ControlService::read`. -/
def read (service : ControlService) (alias_ : String) (config : CameraConfig) (refresh : Refresh) :
    Service Controls := do
  let log ← (history : Program Effect _)
  let deadline := w.clock log + readDeadline
  let (snapshot, stale) ← readSnapshot w service (refresh ≠ .cached) deadline
  let data := (snapshot config.serial).getD {}
  let (sensitivity, old) ← (match sensitivityKind w.fromStr data.device with
    | some kind => readSensitivity w alias_ config kind (refresh = .all) deadline
    | none => pure (none, false) : Program Effect _)
  return { controlsFrom w.fromStr data sensitivity with stale := stale || old }

/-- `ControlService::defence_mode`. -/
def defenceMode (force : Bool) : Service AccountDefence := do
  let log ← (history : Program Effect _)
  match ← getCached w .defence w.defenceCell force (w.clock log + readDeadline)
    (fetchDefenceMode w) with
  | .ok (mode, stale) => return { mode, stale }
  | .error category => throw (.failed category)

/-! ### Writes -/

def invalidate (service : ControlService) : Program Effect Unit :=
  service.cells.forM fun cell => perform (.invalidate cell)

/-- `ControlService::send` and `send_mode`. -/
def send (service : ControlService) (effect : Effect) : Service Unit := do
  perform effect
  let log ← (history : Program Effect _)
  match w.write log with
  | .ok _ => return
  | .error error => do
    invalidate service
    throw (.failed error.diagnosticCode)

/-- The rollback: whether EZVIZ accepts it is ignored. -/
def rollBack (service : ControlService) (effect : Effect) : Program Effect Unit := do
  let _ignored ← (send w service effect).run
  return

/-- What a read-back with this result has shown. -/
def Reading.of {α : Type} (reading : α → Reading) : Except ControlError α → Reading
  | .ok value => reading value
  | .error _ => .failed

/-- One read-back. -/
def readBack {α : Type} (read : Service α) (reading : α → Reading) (delay : ℕ) :
    Program Effect (Except ControlError α) := do
  perform (.sleep delay)
  let result ← read.run
  perform (.readBack (.of reading result))
  return result

/-- The loop of `confirm`. -/
def confirm {α : Type} (read : Service α) (reading : α → Reading) (matches_ : α → Bool) :
    List ℕ → Confirmation α → Program Effect (Confirmation α)
  | [], outcome => return outcome
  | delay :: delays, outcome => do
    match ← readBack read reading delay with
    | .ok value =>
      if matches_ value then return .confirmed value
      else confirm read reading matches_ delays .mismatch
    | .error _ => confirm read reading matches_ delays outcome

/-- The refresh of the reads of an update. -/
def refreshFor (key : ControlKey) : Refresh := if key = .sensitivity then .all else .status

/-- `ControlService::update`. -/
def update (service : ControlService) (alias_ : String) (request : ControlRequest) :
    Service Controls := do
  let config ← ((service.camera alias_).elim (throw .cameraNotFound) pure : Service CameraConfig)
  let key ← (liftExcept (parseKey request.key) : Service ControlKey)
  let desired ← (liftExcept (parseValue key request.value) : Service Desired)
  let expected ← (liftExcept (parseValue key request.expectedValue) : Service Desired)
  -- the request is checked before anything is asked
  if ¬service.attached then throw .unavailable
  let before ← read w service alias_ config (refreshFor key)
  match current before key with
  | none => throw .unsupported
  | some previous =>
    if previous ≠ expected then throw (.conflict previous.toJson)
    -- nothing to write
    if previous = desired then return before
    let undo ← (liftExcept (vendorWrite key previous before) : Service VendorWrite)
    let write ← (liftExcept (vendorWrite key desired before) : Service VendorWrite)
    send w service (.write write)
    match ← confirm (read w service alias_ config (refreshFor key))
        (fun after => .control (current after key)) (fun after => current after key = some desired)
        verifyDelays .unknown with
    | .confirmed after => return after
    | .mismatch => do
      -- a value was read back, and it was another one
      rollBack w service (.write undo)
      invalidate service
      throw .unconfirmed
    -- nothing was read back, so nothing is undone
    | .unknown => do
      invalidate service
      throw .unconfirmed

def DefenceMode.toJson : Option DefenceMode → Value
  | some mode => .string mode.name
  | none => .null

/-- `ControlService::set_account_defence`. -/
def setAccountDefence (service : ControlService) (request : DefenceUpdate) :
    Service AccountDefence := do
  if ¬service.attached then throw .unavailable
  let before ← defenceMode w true
  let previous := before.mode
  if previous ≠ request.expectedMode then throw (.conflict (DefenceMode.toJson previous))
  if previous = some request.mode then return before
  send w service (.setGroupDefenceMode request.mode.code)
  match ← confirm (defenceMode w true) (fun after => .account after.mode)
      (fun after => after.mode = some request.mode) verifyDelays .unknown with
  | .confirmed after => return after
  | outcome =>
    match outcome, previous with
    | .mismatch, some mode =>
      rollBack w service (.setGroupDefenceMode mode.code)
    | _, _ => pure ()
    invalidate service
    throw .unconfirmed

end Controls

end EzvizBridge
