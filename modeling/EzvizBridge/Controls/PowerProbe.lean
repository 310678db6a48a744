import EzvizBridge.Controls.Model
import EzvizBridge.Lib.Keyed
import Mathlib.Data.List.Infix
import Mathlib.Data.List.Sort
import Mathlib.Data.String.Basic
import Mathlib.Logic.Function.Basic

/-!
# The field probe

`controls/power_probe.rs`: what is logged of the fields of a camera. A snapshot is the list of its
entries in the order of the serials; a map that the source keeps sorted is the list of its entries
in the order of the keys. `toText` is `serde_json::to_string`, which is also how a value is
displayed.
-/

namespace EzvizBridge

namespace Controls

namespace PowerProbe

/-! ### Keys -/

def powerHints : List String :=
  ["power", "charg", "batt", "plug", "electr", "supply", "adapter", "solar", "cable"]

def secretHints : List String := ["pwd", "password", "key", "token", "secret", "code"]

def privateHints : List String :=
  ["ip", "mac", "ssid", "serial", "name", "url", "addr", "lat", "lon", "locat", "mail",
    "phone", "user", "account", "host", "domain"]

def volatileHints : List String := ["time", "stamp", "signal", "rssi", "uptime", "date"]

/-- The key, in lower case, contains one of the hints. -/
def hasHint (hints : List String) (key : String) : Bool :=
  let lower := key.toList.map Char.toLower
  hints.any fun hint => hint.toList <:+: lower

def isSecret (key : String) : Bool := hasHint secretHints key

def isPower (key : String) : Bool := !isSecret key && hasHint powerHints key

def isObservable (key : String) : Bool :=
  !isSecret key && !hasHint privateHints key && !hasHint volatileHints key

/-! ### Values -/

/-- A value that is neither an object nor an array. -/
inductive Scalar
  | null
  | bool (value : Bool)
  | int (value : ℤ)
  | float (text : String)
  | string (value : String)
  deriving DecidableEq

/-- The value of a scalar. -/
def Scalar.toValue : Scalar → Value
  | .null => .null
  | .bool value => .bool value
  | .int value => .int value
  | .float text => .float text
  | .string value => .string value

/-- `!value.is_object() && !value.is_array()`. -/
def asScalar : Value → Option Scalar
  | .null => some .null
  | .bool value => some (.bool value)
  | .int value => some (.int value)
  | .float text => some (.float text)
  | .string value => some (.string value)
  | .array _ => none
  | .object _ => none

def insert {α : Type*} (entries : List (String × α)) (key : String) (value : α) :
    List (String × α) :=
  (Keyed.insert Prod.fst entries (key, value)).insertionSort fun a b => a.1 ≤ b.1

/-- `scope.key` to a scalar. -/
abbrev FieldMap := List (String × Scalar)

section

variable (fromStr : String → Option Value)

/-- `optionals`. -/
def optionals (status : Value) : Option (List (String × Value)) := do
  match ← status.get "optionals" with
  | .object entries => some entries
  | .string text => (fromStr text).bind Value.asObject
  | _ => none

/-- `scopes`. -/
def scopes (data : CameraData) : List (String × List (String × Value)) :=
  (data.device.asObject.map fun device => ("deviceInfos", device)).toList ++
    (data.status.asObject.map fun status => ("STATUS", status)).toList ++
    ((optionals fromStr data.status).map fun map => ("STATUS.optionals", map)).toList

/-- The scalars under the keys that are kept, by scope and key. -/
def collect (keeps : String → String → Bool) (data : CameraData) : FieldMap :=
  (scopes fromStr data).foldl
    (fun fields scope =>
      scope.2.foldl
        (fun fields entry =>
          match (asScalar entry.2).filter fun _ => keeps scope.1 entry.1 with
          | some value => insert fields (scope.1 ++ "." ++ entry.1) value
          | none => fields)
        fields)
    []

/-- What `power_fields` keeps. -/
def keepsPower (_ key : String) : Bool := isPower key

def powerFields (data : CameraData) : FieldMap := collect fromStr keepsPower data

/-- What `observable_fields` keeps: `optionals` has a scope of its own. -/
def keepsObservable (scope key : String) : Bool :=
  let rawOptionals := scope = "STATUS" ∧ key = "optionals"
  ¬rawOptionals ∧ isObservable key

def observableFields (data : CameraData) : FieldMap := collect fromStr keepsObservable data

/-- `key_inventory`. -/
def keyInventory (data : CameraData) : List (String × List String) :=
  (scopes fromStr data).foldl
    (fun inventory scope =>
      let keys := (scope.2.map Prod.fst).filter fun key => !isSecret key
      insert inventory scope.1
        ((keys.foldl (fun names key => insert names key ()) []).map Prod.fst))
    []

end

/-- `changes`. -/
def changes (toText : Value → String) (before after : FieldMap) : List (String × String) :=
  let keys :=
    (before.map Prod.fst ++ after.map Prod.fst).filter fun key =>
      before.lookup key ≠ after.lookup key
  keys.foldl
    (fun result key =>
      let old := ((before.lookup key).getD .null).toValue
      let new := ((after.lookup key).getD .null).toValue
      insert result key (toText old ++ " -> " ++ toText new))
    []

def tail (serial : String) : String :=
  String.ofList (serial.toList.drop (serial.toList.length - 4))

/-! ### The log -/

/-- A line of the log, with the tail of the serial. -/
inductive Line
  | names (device scope keys : String)
  | power (device fields : String)
  | changes (device changes : String)
  | baseline (device fields : String)
  deriving DecidableEq

/-- A line of the field probe. -/
def Line.isField : Line → Bool
  | .names .. => false
  | .power .. => false
  | .changes .. => true
  | .baseline .. => true

/-- `Seen`. -/
structure Seen where
  inventory : List String := []
  fields : String → Option FieldMap := fun _ => none
  observed : String → Option FieldMap := fun _ => none

/-- What is seen, and what was logged. -/
structure Probe where
  seen : Seen := {}
  log : List Line := []

section

variable (fromStr : String → Option Value) (toText : Value → String)

/-- The text of a map of fields. -/
def FieldMap.text (fields : FieldMap) : String :=
  toText (.object (fields.map fun entry => (entry.1, entry.2.toValue)))

/-- The names of the keys are logged once. -/
def logNames (self : Probe) (serial device : String) (data : CameraData) : Probe :=
  if serial ∈ self.seen.inventory then self
  else
    { seen := { self.seen with inventory := serial :: self.seen.inventory }
      log := self.log ++ (keyInventory fromStr data).map fun names =>
        .names device names.1 (",".intercalate names.2) }

/-- `log_power`. -/
def logPower (self : Probe) (serial device : String) (data : CameraData) : Probe :=
  let self := logNames fromStr self serial device data
  let fields := powerFields fromStr data
  if self.seen.fields serial ≠ some fields then
    { seen := { self.seen with fields := Function.update self.seen.fields serial (some fields) }
      log := self.log ++ [.power device (FieldMap.text toText fields)] }
  else self

/-- `log_field_changes`. -/
def logFieldChanges (self : Probe) (serial device : String) (data : CameraData) : Probe :=
  let observed := observableFields fromStr data
  let seen :=
    { self.seen with observed := Function.update self.seen.observed serial (some observed) }
  match self.seen.observed serial with
  | none => ⟨seen, self.log ++ [.baseline device (FieldMap.text toText observed)]⟩
  | some previous =>
    if previous ≠ observed then
      let changes := (changes toText previous observed).map fun entry =>
        (entry.1, Value.string entry.2)
      ⟨seen, self.log ++ [.changes device (toText (.object changes))]⟩
    else self

/-- `observe`. -/
def observe (self : Probe) (snapshot : List (String × CameraData)) : Probe :=
  snapshot.foldl
    (fun self entry =>
      let device := tail entry.1
      logFieldChanges fromStr toText
        (logPower fromStr toText self entry.1 device entry.2) entry.1 device
        entry.2)
    self

/-- Every snapshot that was fetched, in order. -/
def observeAll (self : Probe) (snapshots : List (List (String × CameraData))) : Probe :=
  snapshots.foldl (observe fromStr toText) self

end

end PowerProbe

end Controls

end EzvizBridge
