import EzvizBridge.Alarms.Model

/-!
# The controls of a camera

`controls/model.rs`, `fields.rs`, `names.rs`, `account.rs` and `write.rs`: how the answers of EZVIZ
become the controls of a camera, and how a request becomes a vendor write.

`fromStr` is `serde_json::from_str`. A JSON number is an integer or it is not; an object has its
keys once.
-/

namespace EzvizBridge

namespace Controls

open Alarms (isWhitespace)

/-! ### JSON -/

/-- `serde_json::Value`. -/
inductive Value
  | null
  | bool (value : Bool)
  | int (value : ℤ)
  | float (text : String)
  | string (value : String)
  | array (values : List Value)
  | object (entries : List (String × Value))
  deriving Inhabited

namespace Value

/-- `Value::get` with a key. -/
def get (self : Value) (key : String) : Option Value :=
  match self with
  | .object entries => entries.lookup key
  | _ => none

def asBool : Value → Option Bool
  | .bool value => some value
  | _ => none

/-- The value is in the range of `i64`. -/
def fitsI64 (value : ℤ) : Bool := -2 ^ 63 ≤ value ∧ value < 2 ^ 63

def asI64 : Value → Option ℤ
  | .int value => if fitsI64 value then some value else none
  | _ => none

def asStr : Value → Option String
  | .string value => some value
  | _ => none

def asArray : Value → Option (List Value)
  | .array values => some values
  | _ => none

def asObject : Value → Option (List (String × Value))
  | .object entries => some entries
  | _ => none

/-- `Map::remove` on an object; other values stay. -/
def remove (self : Value) (key : String) : Value :=
  match self with
  | .object entries => .object (entries.filter fun entry => entry.1 ≠ key)
  | other => other

end Value

def trim (text : String) : List Char :=
  ((text.toList.dropWhile isWhitespace).reverse.dropWhile isWhitespace).reverse

theorem dropWhile_eq_self {l : List Char} (h : ∀ character ∈ l, isWhitespace character = false) :
    l.dropWhile isWhitespace = l := by
  cases l with
  | nil => rfl
  | cons character l =>
    rw [List.dropWhile_cons, h character List.mem_cons_self, if_neg Bool.false_ne_true]

theorem trim_eq_self {text : String}
    (h : ∀ character ∈ text.toList, isWhitespace character = false) :
    trim text = text.toList := by
  have hreverse : ∀ character ∈ text.toList.reverse, isWhitespace character = false := by
    intro character hmem
    exact h character (List.mem_reverse.mp hmem)
  rw [trim, dropWhile_eq_self h, dropWhile_eq_self hreverse, List.reverse_reverse]

/-- `str::parse::<i64>`. -/
def parseI64 (text : List Char) : Option ℤ :=
  let (negative, digits) :=
    match text with
    | '-' :: digits => (true, digits)
    | '+' :: digits => (false, digits)
    | digits => (false, digits)
  if digits = [] ∨ ¬digits.all Char.isDigit then none
  else
    let magnitude : ℤ := digits.foldl (fun value digit => 10 * value + (digit.toNat - '0'.toNat)) 0
    let value := if negative then -magnitude else magnitude
    if Value.fitsI64 value then some value else none

/-! ### Fields -/

namespace Fields

/-- `fields::int`. -/
def int (value : Value) : Option ℤ :=
  match value.asI64 with
  | some number => some number
  | none => value.asStr.bind fun text => parseI64 (trim text)

/-- `fields::flag`. -/
def flag (value : Value) : Option Bool :=
  match value.asBool with
  | some flag => some flag
  | none =>
    match int value with
    | some 0 => some false
    | some 1 => some true
    | _ => none

section

variable (fromStr : String → Option Value)

/-- `fields::object`. -/
def object (value : Value) : Value :=
  match value.asStr with
  | some text => (fromStr text).getD .null
  | none => value

/-- `fields::support_ext`. -/
def supportExt (device : Value) (key : String) : Option String := do
  let support := object fromStr (← device.get "supportExt")
  let value ← support.get key
  match value.asStr with
  | some text => some text
  | none => value.asI64.map toString

/-- `fields::optionals`. -/
def optionals (status : Value) : Value :=
  match status.get "optionals" with
  | some value => object fromStr value
  | none => .null

/-- `fields::defence`. -/
def defence (device status : Value) : Option Bool :=
  if supportExt fromStr device "1" = some "0" then none
  else do
    let value ← int (← status.get "globalStatus")
    if 0 ≤ value then some (value ≠ 0) else none

def ptz (device : Value) : Bool := supportExt fromStr device "154" = some "1"

end

/-- `fields::alarm_schedule`. -/
def alarmSchedule (timePlan : Value) : Option Bool := do
  let plans ← timePlan.asArray
  let plan ← plans.find? fun plan => (plan.get "type").bind int = some 2
  flag (← plan.get "enable")

def online (device : Value) : Option Bool := do
  let status ← int (← device.get "status")
  return status = 1

end Fields

/-! ### The read model -/

/-- `DetectionMode`. -/
inductive DetectionMode
  | humanShape
  | imageChange
  | pir
  deriving DecidableEq

namespace DetectionMode

/-- `DetectionMode::code`. -/
def code : DetectionMode → ℕ
  | .humanShape => 1
  | .imageChange => 3
  | .pir => 5

/-- `DetectionMode::from_code`. -/
def fromCode (code : ℤ) : Option DetectionMode :=
  if code = 1 then some .humanShape
  else if code = 3 then some .imageChange
  else if code = 5 then some .pir
  else none

/-- The name of a mode in JSON. -/
def name : DetectionMode → String
  | .humanShape => "human_shape"
  | .imageChange => "image_change"
  | .pir => "pir"

/-- The mode with a name. -/
def ofName (text : String) : Option DetectionMode :=
  if text = "human_shape" then some .humanShape
  else if text = "image_change" then some .imageChange
  else if text = "pir" then some .pir
  else none

/-- `serde_json::from_value::<DetectionMode>`: the name, or an object from the name to null. -/
def fromValue : Value → Option DetectionMode
  | .string text => ofName text
  | .object [(text, .null)] => ofName text
  | _ => none

end DetectionMode

/-- `fields::detection_mode`. -/
def Fields.detectionMode (fromStr : String → Option Value) (status : Value) :
    Option DetectionMode := do
  let setting := object fromStr (← (optionals fromStr status).get "Alarm_DetectHumanCar")
  DetectionMode.fromCode (← int (← setting.get "type"))

/-- `Sensitivity`. -/
structure Sensitivity where
  value : ℤ
  min : ℤ
  max : ℤ
  kind : ℕ
  deriving DecidableEq

/-- `Battery`. -/
structure Battery where
  percent : Option ℤ
  workMode : Option String
  charging : Option Bool
  powerSource : Option String
  powerStatus : Option ℤ
  deriving DecidableEq

/-- `Firmware`. -/
structure Firmware where
  version : Option String
  updateAvailable : Option Bool
  deriving DecidableEq

/-- `fields::work_mode`. -/
def Fields.workMode (code : ℤ) : Option String :=
  if code = 0 then some "power_saving"
  else if code = 1 then some "high_performance"
  else if code = 2 then some "plugged_in"
  else if code = 3 then some "super_power_saving"
  else if code = 4 then some "user_customization"
  else if code = 5 then some "hibernate"
  else if code = 7 then some "always_on_video"
  else none

/-- `fields::battery`. -/
def Fields.battery (fromStr : String → Option Value) (status : Value) : Option Battery :=
  let optionals := optionals fromStr status
  let percent := ((optionals.get "powerRemaining").bind int).filter fun percent =>
    0 ≤ percent ∧ percent ≤ 100
  let workMode := ((optionals.get "batteryCameraWorkMode").bind int).bind workMode
  let powerStatus := (optionals.get "powerStatus").bind int
  let charging := powerStatus.bind fun code =>
    if code = 1 then some true else if code = 0 ∨ code = 2 then some false else none
  let powerSource := ((optionals.get "powerType").bind int).bind fun code =>
    if code = 0 then some "external" else if code = 1 then some "battery" else none
  if percent.isSome ∨ workMode.isSome ∨ powerStatus.isSome ∨ powerSource.isSome then
    some ⟨percent, workMode, charging, powerSource, powerStatus⟩
  else none

/-- `fields::firmware`. -/
def Fields.firmware (device upgrade : Value) : Option Firmware :=
  let version := (((device.get "version").bind Value.asStr).map fun text =>
    String.ofList (trim text)).filter fun version => version ≠ "" ∧ version.utf8ByteSize ≤ 64
  let updateAvailable := ((upgrade.get "isNeedUpgrade").bind int).map fun state =>
    decide (state = 3)
  if version.isSome ∨ updateAvailable.isSome then some ⟨version, updateAvailable⟩ else none

/-- `SwitchSpec`. -/
structure SwitchSpec where
  kind : ℕ
  name : String
  capability : Option String
  deriving DecidableEq

/-- `SWITCHES`. -/
def switchSpecs : List SwitchSpec :=
  [⟨3, "status_light", none⟩, ⟨7, "privacy", some "40"⟩, ⟨10, "infrared_light", some "48"⟩,
    ⟨21, "sleep", some "62"⟩, ⟨22, "audio", some "63"⟩, ⟨25, "motion_tracking", some "73"⟩,
    ⟨29, "all_day_video_recording", some "88"⟩, ⟨32, "auto_sleep", some "144"⟩,
    ⟨200, "human_detection", none⟩, ⟨301, "flicker_light_on_movement", some "96"⟩,
    ⟨305, "pir_motion_activated_light", some "297"⟩, ⟨306, "tamper_alarm", some "327"⟩,
    ⟨604, "wdr", none⟩, ⟨617, "distortion_correction", none⟩, ⟨650, "follow_movement", some "198"⟩,
    ⟨702, "logo", none⟩]

def byKind (kind : ℤ) : Option SwitchSpec := switchSpecs.find? fun spec => (spec.kind : ℤ) = kind

def byName (name : String) : Option SwitchSpec := switchSpecs.find? fun spec => spec.name = name

set_option linter.dupNamespace false in
/-- `Controls`. -/
structure Controls where
  online : Option Bool
  defenceEnabled : Option Bool
  alarmScheduleEnabled : Option Bool
  detectionMode : Option DetectionMode
  sensitivity : Option Sensitivity
  switches : List (String × Bool)
  ptz : Bool
  battery : Option Battery
  firmware : Option Firmware
  stale : Bool
  deriving DecidableEq

/-- `CameraData`. -/
structure CameraData where
  device : Value := .null
  status : Value := .null
  switches : Value := .null
  upgrade : Value := .null
  timePlan : Value := .null

/-- `Snapshot`. -/
abbrev Snapshot := String → Option CameraData

/-- `snapshot.entry(serial).or_default()`, and a change of it. -/
def Snapshot.modify (self : Snapshot) (serial : String) (change : CameraData → CameraData) :
    Snapshot :=
  Function.update self serial (some (change ((self serial).getD {})))

/-- One section of a page: each serial that is configured gets its value. -/
def mergeSection (snapshot : Snapshot) (entries : List (String × Value)) (serials : List String)
    (slot : CameraData → Value → CameraData) : Snapshot :=
  entries.foldl
    (fun snapshot entry =>
      if entry.1 ∈ serials then
        snapshot.modify entry.1 fun data =>
          let data := slot data entry.2
          { data with status := data.status.remove "encryptPwd" }
      else snapshot)
    snapshot

/-- `merge_page`. -/
def mergePage (snapshot : Snapshot) (page : Value) (serials : List String) : Snapshot :=
  let devices := ((page.get "deviceInfos").bind Value.asArray).getD []
  let snapshot := devices.foldl
    (fun snapshot device =>
      match ((device.get "deviceSerial").bind Value.asStr).filter fun serial =>
        serial ∈ serials with
      | some serial => Snapshot.modify snapshot serial fun data => { data with device }
      | none => snapshot)
    snapshot
  let entries section_ := ((page.get section_).bind Value.asObject).getD []
  let snapshot := mergeSection snapshot (entries "STATUS") serials fun data status =>
    { data with status }
  let snapshot := mergeSection snapshot (entries "SWITCH") serials fun data switches =>
    { data with switches }
  let snapshot := mergeSection snapshot (entries "TIME_PLAN") serials fun data timePlan =>
    { data with timePlan }
  mergeSection snapshot (entries "UPGRADE") serials fun data upgrade => { data with upgrade }

def pageHasNext (page : Value) : Bool :=
  (((page.get "page").bind fun value => value.get "hasNext").bind Value.asBool).getD false

section

variable (fromStr : String → Option Value)

/-- `switches`: a later entry of a type replaces an earlier one. -/
def switches (data : CameraData) : List (String × Bool) :=
  (data.switches.asArray.getD []).foldl
    (fun result item =>
      match ((item.get "type").bind Fields.int).bind byKind with
      | none => result
      | some spec =>
        let supported := spec.capability.all fun key =>
          (Fields.supportExt fromStr data.device key).isSome
        match ((item.get "enable").bind Fields.flag).filter fun _ => supported with
        | some enabled => (spec.name, enabled) :: result.filter fun entry => entry.1 ≠ spec.name
        | none => result)
    []

/-- `controls_from`. -/
def controlsFrom (data : CameraData) (sensitivity : Option Sensitivity) : Controls where
  online := Fields.online data.device
  defenceEnabled := Fields.defence fromStr data.device data.status
  alarmScheduleEnabled := Fields.alarmSchedule data.timePlan
  detectionMode := Fields.detectionMode fromStr data.status
  sensitivity
  switches := switches fromStr data
  ptz := Fields.ptz fromStr data.device
  battery := Fields.battery fromStr data.status
  firmware := Fields.firmware data.device data.upgrade
  stale := false

/-- `sensitivity_kind`. -/
def sensitivityKind (device : Value) : Option ℕ :=
  match Fields.supportExt fromStr device "61" with
  | some "1" => some 0
  | some "3" => some 3
  | _ => none

def sensitivityMax (kind : ℕ) : ℤ := if kind = 3 then 100 else 6

/-- `parse_sensitivity`. -/
def parseSensitivity (raw : Value) (kind channel : ℕ) : Option Sensitivity :=
  if (raw.get "resultCode").bind Fields.int ≠ some 0 then none
  else do
    let config := Fields.object fromStr (← raw.get "algorithmConfig")
    let max := sensitivityMax kind
    let entries ← (← config.get "algorithmList").asArray
    let entry ← (entries.filter fun entry => (entry.get "type").bind Fields.int =
        some (kind : ℤ)).find?
      fun entry => ((entry.get "channel").bind Fields.int).all fun value => value = (channel : ℤ)
    let value ← (entry.get "value").bind Fields.int
    if 0 ≤ value ∧ value ≤ max then some ⟨value, 0, max, kind⟩ else none

end

/-! ### The defence mode of the account -/

/-- `DefenceMode`. -/
inductive DefenceMode
  | home
  | away
  | sleep
  deriving DecidableEq

namespace DefenceMode

/-- `DefenceMode::code`. -/
def code : DefenceMode → ℕ
  | .home => 1
  | .away => 2
  | .sleep => 3

/-- `DefenceMode::from_code`. -/
def fromCode (code : ℤ) : Option DefenceMode :=
  if code = 1 then some .home
  else if code = 2 then some .away
  else if code = 3 then some .sleep
  else none

/-- The name of a mode in JSON. -/
def name : DefenceMode → String
  | .home => "home"
  | .away => "away"
  | .sleep => "sleep"

end DefenceMode

/-- `AccountDefence`. -/
structure AccountDefence where
  mode : Option DefenceMode
  stale : Bool
  deriving DecidableEq

/-- `DefenceUpdate`. -/
structure DefenceUpdate where
  mode : DefenceMode
  expectedMode : Option DefenceMode
  deriving DecidableEq

def parseGroupMode (value : Value) : Option DefenceMode := do
  DefenceMode.fromCode (← (value.get "mode").bind Fields.int)

/-! ### Requests -/

/-- `ControlError`. -/
inductive ControlError
  | cameraNotFound
  | unavailable
  | invalid (detail : String)
  | unsupported
  | conflict (current : Value)
  | unconfirmed
  | upstream
  | reauthRequired

def ControlError.failed (category : String) : ControlError :=
  if category = "reauth_required" then .reauthRequired else .upstream

/-- `ControlRequest`. -/
structure ControlRequest where
  key : String
  value : Value
  expectedValue : Value

/-- `ControlKey`. -/
inductive ControlKey
  | defence
  | detectionMode
  | sensitivity
  | switch (spec : SwitchSpec)
  deriving DecidableEq

/-- `Desired`. -/
inductive Desired
  | flag (flag : Bool)
  | mode (mode : DetectionMode)
  | level (level : ℤ)
  deriving DecidableEq

/-- `Desired::to_json`. -/
def Desired.toJson : Desired → Value
  | .flag value => .bool value
  | .mode value => .string value.name
  | .level value => .int value

/-- `VendorWrite`. -/
inductive VendorWrite
  | switch (kind : ℕ) (enable : Bool)
  | defence (enable : Bool)
  | detectionMode (code : ℕ)
  | sensitivity (kind : ℕ) (value : ℤ)
  deriving DecidableEq

/-- `key.strip_prefix("switch.")`. -/
def stripSwitch (key : String) : Option String :=
  match key.toList with
  | 's' :: 'w' :: 'i' :: 't' :: 'c' :: 'h' :: '.' :: name => some (String.ofList name)
  | _ => none

/-- `parse_key`. -/
def parseKey (key : String) : Except ControlError ControlKey :=
  if key = "defence_enabled" then .ok .defence
  else if key = "detection_mode" then .ok .detectionMode
  else if key = "sensitivity" then .ok .sensitivity
  else
    match (stripSwitch key).bind byName with
    | some spec => .ok (.switch spec)
    | none => .error (.invalid "unknown control key")

/-- `parse_value`. -/
def parseValue (key : ControlKey) (value : Value) : Except ControlError Desired :=
  let parsed :=
    match key with
    | .defence | .switch _ => value.asBool.map .flag
    | .detectionMode => (DetectionMode.fromValue value).map .mode
    | .sensitivity => value.asI64.map .level
  match parsed with
  | some desired => .ok desired
  | none => .error (.invalid "value does not match the control type")

/-- `current`. -/
def current (controls : Controls) : ControlKey → Option Desired
  | .defence => controls.defenceEnabled.map .flag
  | .detectionMode => controls.detectionMode.map .mode
  | .sensitivity => controls.sensitivity.map fun level => .level level.value
  | .switch spec => (controls.switches.lookup spec.name).map .flag

/-- `vendor_write`. -/
def vendorWrite (key : ControlKey) (desired : Desired) (controls : Controls) :
    Except ControlError VendorWrite :=
  match key, desired with
  | .defence, .flag flag => .ok (.defence flag)
  | .switch spec, .flag enable => .ok (.switch spec.kind enable)
  | .detectionMode, .mode mode => .ok (.detectionMode mode.code)
  | .sensitivity, .level value =>
    match controls.sensitivity with
    | none => .error .unsupported
    | some range =>
      if range.min ≤ value ∧ value ≤ range.max then .ok (.sensitivity range.kind value)
      else .error (.invalid "sensitivity is outside the camera range")
  | _, _ => .error (.invalid "value does not match the control type")

end Controls

end EzvizBridge
