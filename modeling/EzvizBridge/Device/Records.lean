import EzvizBridge.Controls.Model
import EzvizBridge.Lib.Chunks
import EzvizBridge.Lib.SortDedup
import EzvizBridge.Vtm.Protobuf

/-!
# The record index of the SD card

`device/records.rs` and `search` of `device/search.rs`. A wall clock time is its number of seconds.
What the crates for Base64, zlib, JSON and the calendar do is in `Crates`, and the offset of the
bridge's own zone, for a camera whose offset is unknown, is `localOffset`.

`source` is `record_page`: what the requests of one search are answered with. `search` tells its
result and the queries that it has sent.
-/

namespace EzvizBridge

namespace Device

open Controls (Value trim)
open Alarms (isWhitespace)

/-- The functions of other crates. -/
structure Crates where
  /-- `STANDARD.decode`. -/
  base64 : List Char → Option Bytes
  /-- `decompress_to_vec_zlib_with_limit`, with the limit of a payload. -/
  inflate : Bytes → Option Bytes
  /-- `serde_json::from_str::<Vec<Value>>`. -/
  fromStr : String → Option (List Value)
  /-- `NaiveDateTime::parse_from_str` with `LOCAL_FORMAT`. -/
  parseDateTime : String → Option ℤ
  /-- `NaiveDate::parse_from_str`, and midnight of that day. -/
  parseDate : String → Option ℤ

def maxRecords : ℕ := 500

def v2PageSize : ℕ := 100

def maxV2Pages : ℕ := maxRecords / v2PageSize

def maxPayloadBytes : ℕ := 1024 * 1024

inductive RecordSearchVersion
  | v2
  | common
  deriving DecidableEq, Repr

/-- `DeviceStatus`, as far as the search reads it. -/
structure DeviceStatus where
  utcOffsetSeconds : Option ℤ := none

def DeviceStatus.epoch (self : DeviceStatus) (localOffset : ℤ) (wall : ℤ) : ℤ :=
  wall - self.utcOffsetSeconds.getD localOffset

structure SdRecord where
  start : ℤ
  end_ : ℤ
  kind : String
  deriving DecidableEq, Repr

structure RecordQuery where
  version : RecordSearchVersion
  start : String
  stop : String
  size : ℕ
  deriving DecidableEq, Repr

structure V2Page where
  records : List SdRecord
  finished : Bool
  lastEnd : Option String
  deriving DecidableEq, Repr

/-- `day_window`, of a day that is written `date`. -/
def dayWindow (date : String) : String × String := (date ++ "T00:00:00", date ++ "T23:59:59")

/-- `ensure_meta`. -/
def ensureMeta (value : Value) : Except BridgeError Unit :=
  match ((value.get "meta").bind fun found => found.get "code").bind Controls.Fields.int with
  | none => .ok ()
  | some code =>
    if code = 200 then .ok ()
    else .error (.upstream ("EZVIZ record search returned code " ++ toString code))

/-- `decode_payload`. -/
def decodePayload (crates : Crates) (encoded : String) : Except BridgeError Bytes :=
  let invalid := .error (.upstream "record payload is invalid")
  if encoded.utf8ByteSize > maxPayloadBytes then invalid
  else
    match crates.base64 (encoded.toList.filter fun character => !isWhitespace character) with
    | none => invalid
    | some compressed =>
      match crates.inflate compressed with
      | none => invalid
      | some payload => .ok payload

def v2Kind (value : Option Value) : String :=
  if value.bind Controls.Fields.int = some 1 then "event" else "continuous"

/-- The items of a V2 response. -/
def pageItems (crates : Crates) (value : Value) : Except BridgeError (List Value) :=
  match value.get "records" with
  | some (.string text) =>
    if trim text = [] then .ok []
    else
      match decodePayload crates text with
      | .error error => .error error
      | .ok raw =>
        match Vtm.fromUtf8 raw with
        | none => .error (.upstream "record payload is not UTF-8")
        | some text =>
          if trim text = [] then .ok []
          else
            match crates.fromStr (String.ofList (trim text)) with
            | none => .error (.upstream "record list is not JSON")
            | some items => .ok items
  | some (.array items) => .ok items
  | _ => .ok []

/-- One item of a V2 response: a record, if it has a length, and where it ends. -/
def parseItem (crates : Crates) (status : DeviceStatus) (localOffset : ℤ) (item : Value) :
    Option (Option SdRecord × String) := do
  let begin_ ← (item.get "B").bind Value.asStr
  let end_ ← (item.get "E").bind Value.asStr
  let beginLocal ← crates.parseDateTime (String.ofList (trim begin_))
  let endLocal ← crates.parseDateTime (String.ofList (trim end_))
  let lastEnd := String.ofList (trim end_)
  if beginLocal ≥ endLocal then return (none, lastEnd)
  else
    return (some {
      start := status.epoch localOffset beginLocal
      end_ := status.epoch localOffset endLocal
      kind := v2Kind (item.get "Type") }, lastEnd)

/-- `parse_v2_page`. -/
def parseV2Page (crates : Crates) (status : DeviceStatus) (localOffset : ℤ) (value : Value) :
    Except BridgeError V2Page :=
  match ensureMeta value with
  | .error error => .error error
  | .ok () =>
    match pageItems crates value with
    | .error error => .error error
    | .ok items =>
      let read := (items.take maxRecords).filterMap (parseItem crates status localOffset)
      .ok {
        records := read.filterMap Prod.fst
        finished := ((value.get "isFinished").bind Controls.Fields.int).getD 1 ≠ 0
        lastEnd := read.getLast?.map Prod.snd }

def commonKind (code : UInt8) : String :=
  if code = 1 then "event" else if 8 ≤ code ∧ code ≤ 10 then "other" else "continuous"

/-- `NaiveTime::from_hms_opt`, in seconds. -/
def fromHmsOpt (hour minute second : UInt8) : Option ℤ :=
  if hour < 24 ∧ minute < 60 ∧ second < 60 then
    some (hour.toNat * 3600 + minute.toNat * 60 + second.toNat)
  else none

/-- One entry of a common response. -/
def parseEntry (status : DeviceStatus) (localOffset : ℤ) (day : ℤ) : Bytes → Option SdRecord
  | h₁ :: m₁ :: s₁ :: h₂ :: m₂ :: s₂ :: code :: _ => do
    let start ← fromHmsOpt h₁ m₁ s₁
    let stop ← fromHmsOpt h₂ m₂ s₂
    if start ≥ stop then none
    else
      some {
        start := status.epoch localOffset (day + start)
        end_ := status.epoch localOffset (day + stop)
        kind := commonKind code }
  | _ => none

/-- `parse_common`. -/
def parseCommon (crates : Crates) (status : DeviceStatus) (localOffset : ℤ) (value : Value) :
    Except BridgeError (List SdRecord) :=
  match ensureMeta value with
  | .error error => .error error
  | .ok () =>
    let baseDay := ((value.get "baseDay").bind Value.asStr).getD ""
    let data := ((value.get "data").bind Value.asStr).getD ""
    let count := ((value.get "searchCount").bind Controls.Fields.int).getD 0
    -- no day, no data or no records
    if trim baseDay = [] ∨ trim data = [] ∨ count ≤ 0 then .ok []
    else
      match crates.parseDate (String.ofList (trim baseDay)) with
      | none => .error (.upstream "record base day is invalid")
      | some day =>
        match decodePayload crates data with
        | .error error => .error error
        | .ok packed =>
          let records := (chunks 8 packed).filterMap (parseEntry status localOffset day)
          .ok (records.take (min count.toNat maxRecords))

/-- What records are sorted by. -/
def SdRecord.key (self : SdRecord) : ℤ ×ₗ ℤ := toLex (self.start, self.end_)

def normalize (records : List SdRecord) : List SdRecord :=
  (records.sortDedup SdRecord.key).take maxRecords

/-- The pages of a V2 search: the number of pages left, the number of the next request, and what has
been collected. The queries that are sent come with the result. -/
def searchPages (crates : Crates) (source : ℕ → RecordQuery → Except BridgeError Value)
    (status : DeviceStatus) (localOffset : ℤ) :
    ℕ → ℕ → RecordQuery → List SdRecord → Except BridgeError (List SdRecord) × List RecordQuery
  | 0, _, _, records => (.ok (normalize records), [])
  | pages + 1, number, query, records =>
    match source number query with
    | .error error => (.error error, [query])
    | .ok value =>
      match parseV2Page crates status localOffset value with
      | .error error => (.error error, [query])
      | .ok page =>
        let records := records ++ page.records
        match page.lastEnd with
        | some next =>
          -- the next page starts where the last record of this one ends
          if !page.finished ∧ next > query.start ∧ next < query.stop ∧
            records.length < maxRecords then
            let (result, queries) := searchPages crates source status localOffset pages (number + 1)
              { query with start := next } records
            (result, query :: queries)
          else (.ok (normalize records), [query])
        | none => (.ok (normalize records), [query])

/-- `search`. -/
def search (crates : Crates) (source : ℕ → RecordQuery → Except BridgeError Value)
    (status : DeviceStatus) (localOffset : ℤ) (date : String) (version : RecordSearchVersion) :
    Except BridgeError (List SdRecord) × List RecordQuery :=
  let (start, stop) := dayWindow date
  let query : RecordQuery := {
    version := version
    start := start
    stop := stop
    size := if version = .v2 then v2PageSize else maxRecords }
  match version with
  | .common =>
    match source 0 query with
    | .error error => (.error error, [query])
    | .ok value =>
      match parseCommon crates status localOffset value with
      | .error error => (.error error, [query])
      | .ok records => (.ok (normalize records), [query])
  | .v2 => searchPages crates source status localOffset maxV2Pages 0 query []

end Device

end EzvizBridge
