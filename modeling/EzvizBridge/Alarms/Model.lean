import Mathlib.Data.Finset.Basic
import Mathlib.Data.Prod.Lex
import Mathlib.Data.String.Basic
import Mathlib.Logic.Function.Iterate
import EzvizBridge.Recordings.Model

/-!
# The alarm history of a camera

`CameraHistory` (`alarms/store.rs`, `alarms/store_read.rs`, `alarms/pictures.rs`) keeps the newest
alarms of one camera in memory and in a file, with their pictures next to it. Every alarm that is
taken in gets the next sequence number of the process; the oldest ones are evicted when there are
more than `limit`.

The files are fields of the history, as it reaches them through its paths: `file` is what
`history.json` holds, if it can be parsed, and `pictures` are the ids of the `.jpg` files. What the
file system does with a write is an argument.
-/

namespace EzvizBridge

namespace Alarms

open Recordings (Persist)

/-! ### Records -/

def maxTitleChars : ℕ := 120

def maxIdChars : ℕ := 96

/-- `AlarmRecord`: one alarm as persisted. -/
structure AlarmRecord where
  id : String
  occurredAt : ℤ
  alarmType : ℤ := 0
  category : String := "other"
  title : String := ""
  hasPicture : Bool := false
  pictureBytes : ℕ := 0
  deriving DecidableEq, Repr

/-- The order of the fetch: time, then id. -/
def AlarmRecord.key (self : AlarmRecord) : ℤ ×ₗ String := toLex (self.occurredAt, self.id)

/-- The record without its picture. -/
def AlarmRecord.bare (self : AlarmRecord) : AlarmRecord :=
  { self with hasPicture := false, pictureBytes := 0 }

/-- `is_token`. Bytes outside of ASCII are not accepted, so the characters decide. -/
def isToken (value : String) : Bool :=
  value ≠ "" ∧ value.utf8ByteSize ≤ maxIdChars ∧
    value.toList.all fun character =>
      character.isAlphanum || character = '-' || character = '_'

/-- `char::is_whitespace`: the code points with the property `White_Space`. -/
def isWhitespace (character : Char) : Bool :=
  let code := character.toNat
  (0x09 ≤ code ∧ code ≤ 0x0d) ∨ code = 0x20 ∨ code = 0x85 ∨ code = 0xa0 ∨ code = 0x1680 ∨
    (0x2000 ≤ code ∧ code ≤ 0x200a) ∨ code = 0x2028 ∨ code = 0x2029 ∨ code = 0x202f ∨
    code = 0x205f ∨ code = 0x3000

/-- `char::is_control`: the code points of the category `Cc`. -/
def isControl (character : Char) : Bool :=
  let code := character.toNat
  code ≤ 0x1f ∨ (0x7f ≤ code ∧ code ≤ 0x9f)

/-- `sanitize_title`. -/
def sanitizeTitle (raw : String) : String :=
  let parts := (raw.toList.splitOnP fun character => isWhitespace character || isControl character)
    |>.filter fun part => !part.isEmpty
  String.ofList (([' '].intercalate parts).take maxTitleChars)

/-! ### Pictures -/

def maxPictureBytes : ℕ := 4 * 1024 * 1024

/-- How `publish` of a picture ends: it fails before or after the rename, or not at all. -/
inductive PictureFault
  | none
  | failed (renamed : Bool) (detail : String)
  deriving DecidableEq, Repr

namespace PictureDir

/-- `PictureDir::exists`. -/
def holds (self : Finset String) (id : String) : Bool := isToken id ∧ id ∈ self

/-- `PictureDir::remove`, where the removal succeeds. -/
def remove (self : Finset String) (id : String) : Finset String :=
  if isToken id then self.erase id else self

/-- `PictureDir::write`. -/
def write (self : Finset String) (id : String) (jpeg : Bytes) (fault : PictureFault) :
    Except BridgeError ℕ × Finset String :=
  if ¬ isToken id then (.error (.upstream "alarm ID is not a safe token"), self)
  else if maxPictureBytes < jpeg.length ∨ ¬ [0xff, 0xd8, 0xff].isPrefixOf jpeg then
    (.error (.upstream "alarm picture is not a bounded JPEG"), self)
  else
    match fault with
    | .none => (.ok jpeg.length, insert id self)
    | .failed renamed detail => (.error (.io detail), if renamed then insert id self else self)

def removeOrphans (self keep : Finset String) : Finset String := self.filter (· ∈ keep)

end PictureDir

/-! ### The history -/

def schemaVersion : ℕ := 1

/-- `HistoryFile`. -/
structure HistoryFile where
  schemaVersion : ℕ
  binding : String
  events : List AlarmRecord
  deriving DecidableEq, Repr

/-- `Entry`. -/
structure Entry where
  sequence : ℕ
  record : AlarmRecord
  deriving DecidableEq, Repr

/-- `InsertOutcome`. -/
structure InsertOutcome where
  inserted : ℕ := 0
  picturesStored : ℕ := 0
  picturesFailed : ℕ := 0
  deriving DecidableEq, Repr

/-- An alarm that is offered to `insert`, and what becomes of its picture file. -/
structure Incoming where
  record : AlarmRecord
  jpeg : Option Bytes := none
  fault : PictureFault := .none
  deriving DecidableEq, Repr

/-- `CameraHistory`. -/
structure CameraHistory where
  file : Option HistoryFile
  binding : String
  pictures : Finset String
  events : List Entry
  index : Finset String
  head : ℕ
  floor : ℕ
  pictureBudget : ℕ
  limit : ℕ
  deriving DecidableEq

namespace CameraHistory

def knows (self : CameraHistory) (id : String) : Bool := id ∈ self.index

def ids (self : CameraHistory) : Finset String :=
  ((self.events.filter (·.record.hasPicture)).map (·.record.id)).toFinset

/-- The front of the queue is evicted, if there is one. -/
def popFront (self : CameraHistory) : CameraHistory :=
  match self.events with
  | [] => self
  | evicted :: events =>
    { self with
      events
      index := self.index.erase evicted.record.id
      pictures := PictureDir.remove self.pictures evicted.record.id }

/-- A record is appended under the next sequence number. -/
def append (self : CameraHistory) (record : AlarmRecord) : CameraHistory :=
  { self with
    head := self.head + 1
    index := insert record.id self.index
    events := self.events ++ [{ sequence := self.head + 1, record }] }

def push (self : CameraHistory) (record : AlarmRecord) : CameraHistory :=
  let grown := self.append record
  popFront^[grown.events.length - grown.limit] grown

/-- `CameraHistory::predates_full_history`. -/
def predatesFullHistory (self : CameraHistory) (record : AlarmRecord) : Bool :=
  self.limit ≤ self.events.length &&
    match self.events.head? with
    | none => false
    | some oldest => record.key < oldest.record.key

def newestOccurredAt (self : CameraHistory) : Option ℤ :=
  (self.events.map (·.record.occurredAt)).max?

/-- The record is not skipped by `insert`. -/
def accepts (self : CameraHistory) (record : AlarmRecord) : Bool :=
  isToken record.id ∧ ¬ self.knows record.id ∧ ¬ self.predatesFullHistory record

/-- The picture of an accepted record is stored, and the record is pushed. -/
def take (self : CameraHistory) (incoming : Incoming) : CameraHistory × InsertOutcome :=
  let record := incoming.record.bare
  match incoming.jpeg with
  | none => (self.push record, { inserted := 1 })
  | some jpeg =>
    match PictureDir.write self.pictures record.id jpeg incoming.fault with
    | (.ok bytes, pictures) =>
      ({ self with pictures }.push { record with hasPicture := true, pictureBytes := bytes },
        { inserted := 1, picturesStored := 1 })
    | (.error _, pictures) =>
      ({ self with pictures }.push record, { inserted := 1, picturesFailed := 1 })

/-- The loop of `insert`. -/
def insertAll (self : CameraHistory) : List Incoming → CameraHistory × InsertOutcome
  | [] => (self, {})
  | incoming :: batch =>
    if self.accepts incoming.record then
      let (next, outcome) := self.take incoming
      let (last, outcomes) := next.insertAll batch
      (last,
        { inserted := outcome.inserted + outcomes.inserted
          picturesStored := outcome.picturesStored + outcomes.picturesStored
          picturesFailed := outcome.picturesFailed + outcomes.picturesFailed })
    else self.insertAll batch

/-- The loop of `enforce_picture_budget`: the entries, the picture files, and whether any picture
was dropped. -/
def dropPictures (budget : ℕ) : ℕ → List Entry → Finset String → List Entry × Finset String × Bool
  | _, [], pictures => ([], pictures, false)
  | total, entry :: rest, pictures =>
    if total ≤ budget then (entry :: rest, pictures, false)
    else if entry.record.hasPicture then
      let (rest, pictures, _) := dropPictures budget (total - entry.record.pictureBytes) rest
        (PictureDir.remove pictures entry.record.id)
      ({ entry with record := entry.record.bare } :: rest, pictures, true)
    else
      let (rest, pictures, dropped) := dropPictures budget total rest pictures
      (entry :: rest, pictures, dropped)

/-- `CameraHistory::enforce_picture_budget`. -/
def enforcePictureBudget (self : CameraHistory) : CameraHistory × Bool :=
  let total := (self.events.map (·.record.pictureBytes)).sum
  let (events, pictures, dropped) := dropPictures self.pictureBudget total self.events self.pictures
  ({ self with events, pictures }, dropped)

/-- What `persist` writes. -/
def historyFile (self : CameraHistory) : HistoryFile :=
  { schemaVersion, binding := self.binding, events := self.events.map (·.record) }

/-- `CameraHistory::persist`: the effect on the file. -/
def persist (self : CameraHistory) (persist : Persist) : CameraHistory :=
  if persist.published then { self with file := some self.historyFile } else self

/-- `CameraHistory::insert`. The history is changed also where it returns an error. -/
def insert (self : CameraHistory) (batch : List Incoming) (live : Bool) (persist : Persist) :
    Except BridgeError InsertOutcome × CameraHistory :=
  let (filled, outcome) := self.insertAll batch
  let floored := if live then filled else { filled with floor := filled.head }
  let (enforced, _) := floored.enforcePictureBudget
  if 0 < outcome.inserted then
    (persist.result.map fun _ => outcome, enforced.persist persist)
  else (.ok outcome, enforced)

/-- An empty history over the files that are there. -/
def empty (file : Option HistoryFile) (pictures : Finset String) (binding : String)
    (pictureBudget limit : ℕ) : CameraHistory :=
  { file, binding, pictures, events := [], index := ∅, head := 0, floor := 0, pictureBudget, limit }

/-- One record of the file, in `load`. -/
def restore (self : CameraHistory) (record : AlarmRecord) : CameraHistory :=
  if ¬ isToken record.id ∨ self.knows record.id then self
  else
    let record := { record with title := sanitizeTitle record.title }
    self.push
      (if record.hasPicture ∧ ¬ PictureDir.holds self.pictures record.id then
        record.bare else record)

/-- The records of the file, if it is of this camera. -/
def storedRecords (file : Option HistoryFile) (binding : String) : List AlarmRecord :=
  match file with
  | none => []
  | some stored =>
    if stored.schemaVersion = schemaVersion ∧ stored.binding = binding then stored.events else []

/-- `CameraHistory::load`. `binding` is the hash of the serial and the channel of the camera. -/
def load (file : Option HistoryFile) (pictures : Finset String) (binding : String)
    (pictureBudget limit : ℕ) (persist : Persist) : CameraHistory :=
  let records := storedRecords file binding
  let skip := records.length - limit
  let restored := (records.drop skip).foldl restore
    (empty file pictures binding pictureBudget limit)
  let floored := { restored with floor := restored.head }
  let swept := { floored with pictures := PictureDir.removeOrphans floored.pictures floored.ids }
  let (enforced, dropped) := swept.enforcePictureBudget
  if 0 < skip ∨ dropped then enforced.persist persist else enforced

/-! ### Reads -/

/-- `CameraHistory::page`. -/
def page (self : CameraHistory) (before : Option ℕ) (limit : ℕ) : List Entry × Option ℕ :=
  let below := self.events.filter fun entry =>
    match before with
    | none => true
    | some before => entry.sequence < before
  let skip := below.length - limit
  let page := below.drop skip
  (page, if 0 < skip then page.head?.map (·.sequence) else none)

def recent (self : CameraHistory) (limit : ℕ) : List Entry := (self.page none limit).1

/-- `CameraHistory::after`. -/
def after (self : CameraHistory) (after limit : ℕ) : List Entry × ℕ :=
  if self.head < after then ([], self.head)
  else
    let cursor := max after self.floor
    let events := (self.events.filter fun entry => cursor < entry.sequence).take limit
    (events, events.getLast?.elim cursor (·.sequence))

end CameraHistory

end Alarms

end EzvizBridge
