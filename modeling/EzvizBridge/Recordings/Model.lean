import EzvizBridge.Basic
import EzvizBridge.Lib.Chunks
import EzvizBridge.Lib.Keyed
import Mathlib.Data.BitVec

/-!
# Recordings: manifests, the journal and the spool directory

The data of `recordings/` and the functions that a single guard of the state or a single file
operation makes up: `model.rs`, `quota.rs`, `recovery.rs`, the admission of `mod.rs`, the
acknowledgement of `catalog.rs`. The jobs and the process around them are in `Recordings.Manager`.

A `BTreeMap` is a list with distinct keys (`Keyed`): the order of its keys is never looked at. The
manifests know their own key. File names are constructors instead of strings: the name of a file
in the spool is given by a recording id and its extension.

`Sha256` is a parameter; a digest is fed piecewise, and `finalize` is the hash of what it was fed.
UUIDs, digests and instants are fixed-width or natural numbers in place of their textual forms.
-/

namespace EzvizBridge

/-- A `Uuid`, in place of its textual form. -/
abbrev Uuid := BitVec 128

/-- A SHA-256 digest, in place of its 64 hexadecimal digits. -/
abbrev Digest := BitVec 256

/-- The hash function of the crate `sha2`. -/
abbrev Sha256 := Bytes → Digest

/-- `utc_now`, in microseconds. -/
abbrev Timestamp := ℕ

/-- The bound of `u64`. -/
def u64Max : ℕ := 2 ^ 64 - 1

def saturatingAdd (a b : ℕ) : ℕ := min (a + b) u64Max

def saturatingMul (a b : ℕ) : ℕ := min (a * b) u64Max

/-- `i64::saturating_sub`. -/
def saturatingSubI64 (a b : ℤ) : ℤ := max (-2 ^ 63) (min (a - b) (2 ^ 63 - 1))

namespace Recordings

/-- Named, so that it is one constant wherever a UUID is looked for. -/
scoped instance : LawfulBEq Uuid := inferInstance

/-! ### Manifests -/

/-- The values of `RecordingManifest::status`. -/
inductive Status
  | pending
  | recording
  | ready
  | failed
  deriving DecidableEq, Repr

/-- The values of `RecordingManifest::media_type`: `application/octet-stream` until the format is
known, then `video/mpeg` or `video/mp2t`. -/
inductive MediaType
  | octetStream
  | mpeg
  | mp2t
  deriving DecidableEq, Repr

/-- `RecordingFormat`. -/
inductive RecordingFormat
  | mpegPs
  | mpegTs
  deriving DecidableEq, Repr

def RecordingFormat.mediaType : RecordingFormat → MediaType
  | .mpegPs => .mpeg
  | .mpegTs => .mp2t

/-- The only value of `RecordingManifest::source`. -/
inductive Source
  | sd
  deriving DecidableEq, Repr

/-- `RecordingManifest`. The measured duration is in milliseconds, to which the code rounds it. -/
structure RecordingManifest where
  recordingId : Uuid
  camera : String
  status : Status := .pending
  requestedAt : Timestamp
  startedAt : Option Timestamp := none
  completedAt : Option Timestamp := none
  requestedDurationSeconds : ℕ
  actualDurationMillis : Option ℕ := none
  mediaType : MediaType := .octetStream
  bytes : Option ℕ := none
  sha256 : Option Digest := none
  errorCode : Option String := none
  source : Option Source := none
  sdStart : Option ℤ := none
  sdEnd : Option ℤ := none
  deriving DecidableEq, Repr

namespace RecordingManifest

/-- `RecordingManifest::pending`, with the id that `Uuid::new_v4` returned. -/
def pending (id : Uuid) (now : Timestamp) (camera : String) (duration : ℕ) : RecordingManifest :=
  { recordingId := id, camera, requestedAt := now, requestedDurationSeconds := duration }

/-- `RecordingManifest::pending_sd`. -/
def pendingSd (id : Uuid) (now : Timestamp) (camera : String) (start stop : ℤ) :
    RecordingManifest :=
  { pending id now camera (saturatingSubI64 stop start).toNat with
    source := some .sd
    sdStart := some start
    sdEnd := some stop }

/-- `RecordingManifest::same_request`. -/
def sameRequest (self other : RecordingManifest) : Bool :=
  self.camera = other.camera ∧
    self.requestedDurationSeconds = other.requestedDurationSeconds ∧
    self.source = other.source ∧ self.sdStart = other.sdStart ∧ self.sdEnd = other.sdEnd

def isActive (self : RecordingManifest) : Bool :=
  self.status = .pending ∨ self.status = .recording

def fail (self : RecordingManifest) (code : String) (now : Timestamp) : RecordingManifest :=
  { self with status := .failed, completedAt := some now, errorCode := some code }

end RecordingManifest

/-! ### State and journal -/

/-- `AckTombstone`. -/
structure AckTombstone where
  recordingId : Uuid
  idempotencyKey : Option String
  acknowledgedAt : Timestamp
  deriving DecidableEq, Repr

/-- `State`. -/
structure State where
  manifests : List RecordingManifest := []
  idempotency : List (String × Uuid) := []
  acknowledgements : List AckTombstone := []
  deriving DecidableEq, Repr

/-- `Journal`, as it is on disk. -/
structure Journal where
  recordings : List RecordingManifest := []
  idempotency : List (String × Uuid) := []
  acknowledgements : List AckTombstone := []
  deriving DecidableEq, Repr

def maxAckTombstones : ℕ := 4096

namespace State

/-- `state.manifests.get(id)`. -/
def get (self : State) (id : Uuid) : Option RecordingManifest :=
  Keyed.lookup RecordingManifest.recordingId self.manifests id

/-- Change the manifest that `state.manifests.get_mut(id)` found. -/
def update (self : State) (id : Uuid) (f : RecordingManifest → RecordingManifest) : State :=
  { self with manifests := Keyed.modify RecordingManifest.recordingId self.manifests id f }

/-- The ids of the recordings that `is_active`. -/
def active (self : State) : List Uuid :=
  (self.manifests.filter RecordingManifest.isActive).map RecordingManifest.recordingId

/-- What `RecordingManager::persist` writes. -/
def journal (self : State) : Journal :=
  { recordings := self.manifests
    idempotency := self.idempotency
    acknowledgements := self.acknowledgements }

end State

/-- `recovery::load_state`; the journal need not exist. -/
def loadState : Option Journal → State
  | none => {}
  | some journal =>
    { manifests := journal.recordings.foldl (Keyed.insert RecordingManifest.recordingId) []
      idempotency := journal.idempotency
      acknowledgements := journal.acknowledgements }

/-! ### The spool directory -/

/-- The files of the spool: `.<id>.partial`, and `<id>.mpegps` or `<id>.ts`. -/
inductive SpoolFile
  | partialOf (id : Uuid)
  | media (id : Uuid) (format : RecordingFormat)
  deriving DecidableEq, Repr

namespace SpoolFile

/-- The recording in a file's name. -/
def owner : SpoolFile → Uuid
  | .partialOf id | .media id _ => id

/-- The extension is `mpegps` or `ts`. -/
def isMedia : SpoolFile → Bool
  | .partialOf _ => false
  | .media _ _ => true

end SpoolFile

/-- The spool directory. -/
abbrev Directory := List (SpoolFile × Bytes)

namespace Directory

/-- The contents of a file, if it is there. -/
def read (self : Directory) (name : SpoolFile) : Option Bytes :=
  (Keyed.lookup Prod.fst self name).map Prod.snd

def isFile (self : Directory) (name : SpoolFile) : Bool := (self.read name).isSome

/-- Create a file, or replace its contents. -/
def write (self : Directory) (name : SpoolFile) (bytes : Bytes) : Directory :=
  Keyed.insert Prod.fst self (name, bytes)

/-- `fs::remove_file`; a file that is not there stays away. -/
def removeFile (self : Directory) (name : SpoolFile) : Directory := Keyed.remove Prod.fst self name

/-- `fs::rename`. -/
def rename (self : Directory) (old new : SpoolFile) : Directory :=
  match self.read old with
  | none => self
  | some bytes => (self.removeFile old).write new bytes

/-- The files of one recording. -/
def filesOf (self : Directory) (id : Uuid) :
    Directory := self.filter fun entry => entry.1.owner = id

end Directory

/-- `recovery::spool_bytes`, over the entries that the directory scan yields. -/
def spoolBytes (entries : Directory) : ℕ :=
  (entries.filter fun entry => entry.1.isMedia).foldl
    (fun total entry => saturatingAdd total entry.2.length) 0

def admits (spool active max quota : ℕ) : Bool :=
  saturatingAdd spool (saturatingMul (saturatingAdd active 1) max) ≤ quota

/-- `recovery::media_path`: the file of the manifest's own type, or else the other one, if it is
there. -/
def mediaPath (directory : Directory) (manifest : RecordingManifest) : SpoolFile :=
  let (preferred, fallback) : RecordingFormat × RecordingFormat :=
    if manifest.mediaType = .mp2t then (.mpegTs, .mpegPs) else (.mpegPs, .mpegTs)
  let preferred := SpoolFile.media manifest.recordingId preferred
  let fallback := SpoolFile.media manifest.recordingId fallback
  if directory.isFile preferred then preferred
  else if directory.isFile fallback then fallback
  else preferred

/-! ### Recovery -/

def tsPacketBytes : ℕ := 188

def packStart : Bytes := [0x00, 0x00, 0x01, 0xba]

/-- Three sync bytes, a packet apart. -/
def syncedAt (data : Bytes) (offset : ℕ) : Bool :=
  data[offset]? = some 0x47 ∧ data[offset + tsPacketBytes]? = some 0x47 ∧
    data[offset + tsPacketBytes * 2]? = some 0x47

/-- The header test of `inspect_media` on the first three packets' worth of bytes. -/
def validHeader (start : Bytes) : Bool :=
  packStart.isPrefixOf start ∨ (tsPacketBytes * 3 ≤ start.length ∧ syncedAt start 0)

/-- `recovery::inspect_media`, for the contents of the file, if it is there. The digest is fed with
the bytes of the header and then with reads of 64 KiB. -/
def inspectMedia (sha256 : Sha256) : Option Bytes → Except BridgeError (Option (ℕ × Digest))
  | none => .ok none
  | some file =>
    let start := file.take (tsPacketBytes * 3)
    if validHeader start then
      let digest := start ++ (chunks (64 * 1024) (file.drop (tsPacketBytes * 3))).flatten
      .ok (some (file.length, sha256 digest))
    else .error (.recording "recovered media has no MPEG-PS or MPEG-TS header")

/-- The extension decides the media type of a recovered file. -/
def recoveredType : SpoolFile → MediaType
  | .media _ .mpegTs => .mp2t
  | _ => .mpeg

/-- The body of the loop of `recovery::recover`. -/
def recoverManifest (sha256 : Sha256) (directory : Directory) (now : Timestamp)
    (manifest : RecordingManifest) : RecordingManifest :=
  let path := mediaPath directory manifest
  -- the process ended during the recording: the file may be whole
  if manifest.isActive then
    match inspectMedia sha256 (directory.read path) with
    | .ok (some (bytes, digest)) =>
      { manifest with
        status := .ready
        mediaType := recoveredType path
        startedAt := manifest.startedAt.orElse fun _ => some manifest.requestedAt
        completedAt := some now
        actualDurationMillis :=
          manifest.actualDurationMillis.orElse fun _ =>
            some (manifest.requestedDurationSeconds * 1000)
        bytes := some bytes
        sha256 := some digest
        errorCode := none }
    | .ok none => manifest.fail "interrupted" now
    | .error _ => manifest.fail "invalid_media" now
  -- a finished recording must have its file
  else if manifest.status = .ready ∧ directory.isFile path = false then
    { manifest.fail "missing_media" now with bytes := none, sha256 := none }
  else manifest

/-- `recovery::remove_partial_files`: every name `.<id>.partial` whose id is a UUID. -/
def removePartialFiles (directory : Directory) : Directory :=
  directory.filter fun entry => entry.1.isMedia

/-- `recovery::recover`. -/
def recover (sha256 : Sha256) (directory : Directory) (now : Timestamp) (state : State) :
    Directory × State :=
  (removePartialFiles directory,
    { state with manifests := state.manifests.map (recoverManifest sha256 directory now) })

/-! ### Requests -/

/-- The parameters of `RecordingManager::load`; the cameras are the keys of `hubs`. -/
structure Config where
  cameras : List String
  maxDuration : ℕ
  maxBytes : ℕ
  quotaBytes : ℕ

/-- How `atomic_write_json` ends: it writes the new journal, or it fails before or after the rename
that publishes it. -/
inductive Persist
  | ok
  | failed (renamed : Bool) (detail : String)
  deriving DecidableEq, Repr

/-- The new contents are on disk. -/
def Persist.published : Persist → Bool
  | .ok => true
  | .failed renamed _ => renamed

/-- The result of `persist`. -/
def Persist.result : Persist → Except BridgeError Unit
  | .ok => .ok ()
  | .failed _ detail => .error (.io detail)

/-- The part of `enqueue` that only looks at the state: an error, the manifest of an idempotent
retry, or `none` for a request that is admitted. `spool` is what `spool_bytes` returned. -/
def admission (cfg : Config) (self : State) (key : String) (manifest : RecordingManifest)
    (exclusive : Bool) (spool : Except BridgeError ℕ) :
    Except BridgeError (Option RecordingManifest) :=
  if ¬ (8 ≤ key.utf8ByteSize ∧ key.utf8ByteSize ≤ 128) then
    .error (.recording "Idempotency-Key must contain 8 to 128 characters")
  -- a key with a tombstone is refused
  else if self.acknowledgements.any fun item => item.idempotencyKey = some key then
    .error (.recording "Idempotency-Key belongs to an acknowledged recording")
  else
    match Keyed.lookup Prod.fst self.idempotency key with
    | some (_, existingId) =>
      match self.get existingId with
      | none => .error (.recording "recording journal is inconsistent")
      | some existing =>
        -- the same request again gets the same recording
        if existing.sameRequest manifest then .ok (some existing)
        else .error (.recording "Idempotency-Key was reused with a different request")
    | none =>
      -- a microSD recording wants the camera for itself
      if exclusive ∧ (self.manifests.any fun item => item.camera = manifest.camera ∧ item.isActive)
      then .error .recordingActive
      else
        match spool with
        | .error error => .error error
        | .ok spool =>
          if admits spool self.active.length cfg.maxBytes cfg.quotaBytes then .ok none
          else .error (.capacity "recording quota does not have safe headroom")

/-- The two insertions of `enqueue`. -/
def State.enter (self : State) (key : String) (manifest : RecordingManifest) : State :=
  { self with
    idempotency := Keyed.insert Prod.fst self.idempotency (key, manifest.recordingId)
    manifests := Keyed.insert RecordingManifest.recordingId self.manifests manifest }

/-- `RecordingManager::enqueue` up to the end of its guard: the reply with the answer whether a job
is spawned, what became of the journal if it came to that, and the state. -/
def enqueue (cfg : Config) (self : State) (key : String) (manifest : RecordingManifest)
    (exclusive : Bool) (spool : Except BridgeError ℕ) (persist : Persist) :
    Except BridgeError (RecordingManifest × Bool) × Option Persist × State :=
  match admission cfg self key manifest exclusive spool with
  | .error error => (.error error, none, self)
  | .ok (some existing) => (.ok (existing, false), none, self)
  | .ok none =>
    (persist.result.map fun _ => (manifest, true), some persist, self.enter key manifest)

/-- The checks of `RecordingManager::start` before it calls `enqueue`. -/
def checkStart (cfg : Config) (camera : String) (duration : ℕ) : Except BridgeError Unit :=
  if camera ∉ cfg.cameras then .error (.recording "camera alias is not configured")
  else if ¬ (1 ≤ duration ∧ duration ≤ cfg.maxDuration) then
    .error (.recording
      ("duration must be between 1 and " ++ toString cfg.maxDuration ++ " seconds"))
  else .ok ()

/-- The checks of `RecordingManager::start_sd` before it calls `enqueue`; `live` is what
`hub.is_live()` answered. -/
def checkStartSd (cfg : Config) (self : State) (camera : String) (start stop : ℤ) (key : String)
    (live : Bool) : Except BridgeError Unit :=
  let length := saturatingSubI64 stop start
  let limit : ℤ := min cfg.maxDuration (2 ^ 63 - 1)
  if camera ∉ cfg.cameras then .error (.recording "camera alias is not configured")
  else if ¬ (1 ≤ length ∧ length ≤ limit) then
    .error (.recording
      ("microSD interval must last between 1 and " ++ toString cfg.maxDuration ++ " seconds"))
  else if (Keyed.lookup Prod.fst self.idempotency key).isNone ∧ live then
    .error (.capacity "camera is streaming live; save the clip after live view ends")
  else .ok ()

/-! ### Acknowledgement -/

/-- The tombstones after one more, oldest first. -/
def pushTombstone (acknowledgements : List AckTombstone) (tombstone : AckTombstone) :
    List AckTombstone :=
  let all := acknowledgements ++ [tombstone]
  all.drop (all.length - maxAckTombstones)

/-- The changes of `RecordingManager::acknowledge` to the state: the manifest and its key go, and
the tombstone keeps the key. -/
def State.release (self : State) (id : Uuid) (now : Timestamp) : State :=
  let key := (self.idempotency.find? fun entry => entry.2 = id).map Prod.fst
  { manifests := Keyed.remove RecordingManifest.recordingId self.manifests id
    idempotency := self.idempotency.filter fun entry => entry.2 ≠ id
    acknowledgements := pushTombstone self.acknowledgements
      { recordingId := id, idempotencyKey := key, acknowledgedAt := now } }

/-- How the file operations and the journal write of `acknowledge` end: the removal and the sync of
the directory may fail, and so may `persist`. -/
structure AckFaults where
  removal : Option String := none
  sync : Option String := none
  persist : Persist := .ok
  deriving DecidableEq, Repr

/-- `RecordingManager::acknowledge`: the reply, what became of the journal if it came to that, the
state and the directory. -/
def acknowledge (self : State) (directory : Directory) (id : Uuid) (now : Timestamp)
    (faults : AckFaults) : Except BridgeError Bool × Option Persist × State × Directory :=
  match self.get id with
  | none => (.ok false, none, self, directory)
  | some manifest =>
    if manifest.isActive then (.error .recordingActive, none, self, directory)
    else
      let path := mediaPath directory manifest
      let reply := faults.persist.result.map fun _ => true
      if manifest.status = .ready ∧ directory.isFile path = true then
        match faults.removal, faults.sync with
        | some detail, _ => (.error (.io detail), none, self, directory)
        | none, some detail => (.error (.io detail), none, self, directory.removeFile path)
        | none, none => (reply, some faults.persist, self.release id now, directory.removeFile path)
      -- not `ready`, or `remove_file` finds nothing
      else (reply, some faults.persist, self.release id now, directory)

end Recordings

end EzvizBridge
