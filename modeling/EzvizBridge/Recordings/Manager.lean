import EzvizBridge.Recordings.Model
import EzvizBridge.Lib.EventSystem
import Mathlib.Data.List.Perm.Subperm

/-!
# The recording manager as a process

`RecordingManager` serves requests and runs one job for each recording (`job.rs`, `sd.rs`,
`writer.rs`), all at once. What happens under the guard of `state` is one step: requests, `begin`,
`complete` and the end of `record`. Everything a job does in between, on its own files and without
the guard, is split at its `await`s, so that any other job and any request may come in between.

* Each file operation may fail, and so may the write of the journal; the event says how it ended.
* The time limit of a capture may run out at any `await` of `write_media` (`Event.timeout`). A
  rename that was handed to another thread may still take place then.
* The directory scan of `enqueue` runs under the guard, but jobs rename their files meanwhile: it
  sees every file of a recording that is not active, and may or may not see the others (`Scanned`).
* The process may crash at any time (`Event.crash`) and is started again on what is on disk
  (`Event.restart`). A crash inside of a guarded section amounts to one before it, except in
  `acknowledge`, where the file may be gone already; that state is the one that `AckFaults.sync`
  leaves behind.

`Uuid::new_v4` returns an id that was never used before (`used`).
-/

namespace EzvizBridge

namespace Recordings

/-! ### The spool writer -/

/-- `media_alignment`. -/
def mediaAlignment (data : Bytes) : Option (ℕ × RecordingFormat) :=
  match (List.range data.length).find? fun offset => packStart.isPrefixOf (data.drop offset) with
  | some offset => some (offset, .mpegPs)
  | none =>
    ((List.range (min data.length tsPacketBytes)).find? (syncedAt data)).map (·, .mpegTs)

/-- The variables of the loop of `write_partial`. `digest` is what the digest was fed. -/
structure Writer where
  digest : Bytes := []
  written : ℕ := 0
  alignment : Bytes := []
  startedAt : Option Timestamp := none
  format : Option RecordingFormat := none
  deriving DecidableEq, Repr

/-- `Written`: a finished, renamed and synced media file. -/
structure Written where
  startedAt : Timestamp
  bytes : ℕ
  digest : Bytes
  format : RecordingFormat
  deriving DecidableEq, Repr

namespace Writer

/-- The bytes of a received chunk that belong to the media, from the first aligned byte on; `none`
while no alignment was found. -/
def align (self : Writer) (source : Bytes) (now : Timestamp) :
    Except BridgeError (Option Bytes × Writer) :=
  if self.startedAt.isSome then .ok (some source, self)
  else
    let alignment := self.alignment ++ source
    match mediaAlignment alignment with
    | none =>
      -- nothing found in the first megabyte
      if 1024 * 1024 < alignment.length then
        .error (.recording "MPEG-PS or MPEG-TS alignment was not found")
      else .ok (none, { self with alignment })
    | some (marker, detected) =>
      .ok (some (alignment.drop marker),
        { self with
          alignment := alignment.take marker
          startedAt := some now
          format := some detected })

/-- The bound that is tested before a chunk is written. -/
def reserve (self : Writer) (max : ℕ) (chunk : Bytes) : Except BridgeError Writer :=
  let next := saturatingAdd self.written chunk.length
  if max < next then .error (.capacity "recording reached the configured byte limit")
  else .ok { self with digest := self.digest ++ chunk, written := next }

/-- What follows the loop of `write_partial`. -/
def finish (self : Writer) : Except BridgeError Written :=
  match self.startedAt, self.format with
  | none, _ => .error (.recording "recording contained no aligned media")
  | some _, none => .error (.recording "recording format was not identified")
  | some startedAt, some format =>
    .ok { startedAt, bytes := self.written, digest := self.digest, format }

end Writer

/-! ### Jobs -/

/-- The two kinds of `Job`. -/
inductive JobKind
  | live
  | sd
  deriving DecidableEq, Repr

/-- Where a job stands in `record` and in `capture` or `capture_sd`. -/
inductive JobPhase
  /-- spawned; `begin` has not been called -/
  | queued
  /-- begun; the partial file does not exist yet -/
  | opening
  /-- in the loop of `write_partial` -/
  | writing (writer : Writer)
  /-- past the loop; the file is synced and renamed -/
  | flushing (written : Written)
  /-- renamed; the directory is synced -/
  | publishing (written : Written)
  /-- `write_media` has returned the file -/
  | written (written : Written)
  /-- the microSD session failed after the file was written: the file is removed -/
  | retracting (written : Written) (error : BridgeError)
  /-- `write_media` failed or timed out: the partial file is removed -/
  | discarding (error : BridgeError)
  /-- `complete` is done -/
  | completed
  /-- the capture has returned an error -/
  | failing (error : BridgeError)
  | finished
  deriving DecidableEq, Repr

/-- A task of the `JoinSet`. -/
structure Job where
  kind : JobKind
  phase : JobPhase := .queued
  deriving DecidableEq, Repr

/-- The error code of `record`. -/
def failureCode : BridgeError → String
  | .capacity _ => "capacity"
  | .recording _ => "invalid_media"
  | .cameraOffline => "camera_offline"
  | .sdNoRecording => "sd_no_recording"
  | _ => "upstream_failure"

/-- The changes of `complete`. -/
def RecordingManifest.publish (self : RecordingManifest) (sha256 : Sha256) (written : Written)
    (now : Timestamp) (millis : ℕ) : RecordingManifest :=
  { self with
    status := .ready
    startedAt := some written.startedAt
    completedAt := some now
    actualDurationMillis := some millis
    bytes := some written.bytes
    sha256 := some (sha256 written.digest)
    mediaType := written.format.mediaType
    errorCode := none }

/-! ### The process -/

/-- A microSD request between the two guards of `start_sd`. -/
structure SdRequest where
  camera : String
  start : ℤ
  stop : ℤ
  key : String
  deriving DecidableEq, Repr

/-- `RecordingManager` with its disk. When it is not running, only the disk counts. -/
structure Manager where
  directory : Directory := []
  journal : Option Journal := none
  running : Bool := false
  state : State := {}
  jobs : Uuid → Option Job := fun _ => none
  /-- recordings between the end of the guard of `enqueue` and the spawn of their job -/
  spawning : List (Uuid × JobKind) := []
  probed : List SdRequest := []
  /-- every id that `Uuid::new_v4` has returned -/
  used : List Uuid := []

/-- How the end of `write_partial` fails. -/
inductive FlushFault
  | sync (detail : String)
  | rename (detail : String)
  deriving DecidableEq, Repr

/-- What can happen next. -/
inductive Event
  /-- `start`, with the id of the manifest, the entries that the directory scan saw, and the end of
  the journal write -/
  | start (camera : String) (duration : ℕ) (key : String) (id : Uuid) (now : Timestamp)
      (scan : Except BridgeError Directory) (persist : Persist)
  /-- the first guard of `start_sd`; `live` is what `hub.is_live()` answers -/
  | probeSd (request : SdRequest) (live : Bool)
  /-- its call of `enqueue` -/
  | startSd (request : SdRequest) (id : Uuid) (now : Timestamp)
      (scan : Except BridgeError Directory) (persist : Persist)
  /-- `tasks.spawn` -/
  | spawn (id : Uuid)
  | acknowledge (id : Uuid) (now : Timestamp) (faults : AckFaults)
  /-- `begin` -/
  | begin (id : Uuid) (persist : Persist)
  /-- the camera is not configured, or its hub refuses the subscription -/
  | refuse (id : Uuid) (error : BridgeError)
  /-- the partial file is created, or cannot be -/
  | create (id : Uuid) (fault : Option String)
  /-- a chunk is received and written, or a part of it is and the write fails; `stop` when the
  requested duration is over -/
  | receive (id : Uuid) (source : Bytes) (now : Timestamp) (stop : Bool)
    (fault : Option (ℕ × String))
  /-- the channel is closed -/
  | close (id : Uuid)
  /-- the file is synced and renamed, or not -/
  | flush (id : Uuid) (fault : Option FlushFault)
  /-- the directory is synced, or not -/
  | publish (id : Uuid) (fault : Option String)
  /-- the time limit of the capture runs out; a rename in progress may still take place -/
  | timeout (id : Uuid) (renamed : Bool)
  /-- the partial file is removed, or cannot be; a microSD session may have failed by itself -/
  | discard (id : Uuid) (removed : Bool) (session : Option BridgeError)
  /-- the microSD session failed, or outran the spool, after the file was written -/
  | settle (id : Uuid) (error : BridgeError)
  /-- the media file of such a session is removed, or cannot be -/
  | retract (id : Uuid) (removed : Bool)
  /-- `complete` -/
  | complete (id : Uuid) (now : Timestamp) (millis : ℕ)
  /-- the end of `record` -/
  | record (id : Uuid) (now : Timestamp) (persist : Persist)
  | crash
  /-- `RecordingManager::load` -/
  | restart (now : Timestamp) (persist : Persist)

namespace Manager

/-- Store the journal, if a write was begun and got as far as that. -/
def persisted (self : Manager) : Option Persist → Manager
  | none => self
  | some persist =>
    if persist.published then { self with journal := some self.state.journal } else self

/-- Move the job of `id` to another phase. -/
def goto (self : Manager) (id : Uuid) (phase : JobPhase) : Manager :=
  { self with
    jobs := Function.update self.jobs id ((self.jobs id).map fun job => { job with phase }) }

/-- The phase of the job of `id`. -/
def phase (self : Manager) (id : Uuid) : Option JobPhase := (self.jobs id).map Job.phase

/-- The scan of `enqueue` sees every media file of a recording that is not active; of the others,
whose jobs are at work meanwhile, it may see any state. -/
def Scanned (self : Manager) (entries : Directory) : Prop :=
  List.Subperm (self.directory.filter fun entry => entry.1.owner ∉ self.state.active) entries ∧
    ∀ entry ∈ entries, entry ∈ self.directory ∨ entry.1.owner ∈ self.state.active

instance (self : Manager) (entries : Directory) : Decidable (self.Scanned entries) :=
  inferInstanceAs (Decidable (_ ∧ _))

/-- `enqueue` of a new manifest. -/
def enqueue (cfg : Config) (self : Manager) (key : String) (manifest : RecordingManifest)
    (kind : JobKind) (scan : Except BridgeError Directory) (persist : Persist) : Manager :=
  let (reply, write, state) :=
    Recordings.enqueue cfg self.state key manifest (kind = .sd) (scan.map spoolBytes) persist
  { { self with state, used := self.used ++ [manifest.recordingId] }.persisted write with
    spawning :=
      match reply with
      | .ok (_, true) => self.spawning ++ [(manifest.recordingId, kind)]
      | _ => self.spawning }

/-- A guarded section that needs a new id and a look at the spool. -/
def canEnqueue (self : Manager) (id : Uuid) (scan : Except BridgeError Directory) : Prop :=
  self.running = true ∧ id ∉ self.used ∧ ∀ entries, scan.toOption = some entries →
    self.Scanned entries

instance (self : Manager) (id : Uuid) (scan : Except BridgeError Directory) :
    Decidable (self.canEnqueue id scan) :=
  match h : scan.toOption with
  | none => decidable_of_iff (self.running = true ∧ id ∉ self.used) (by simp [canEnqueue, h])
  | some entries =>
    decidable_of_iff (self.running = true ∧ id ∉ self.used ∧ self.Scanned entries)
      (by simp [canEnqueue, h])

/-- The loop body of `write_partial` on a received chunk: the file, and what the job does next. -/
def receive (cfg : Config) (file : Bytes) (writer : Writer) (source : Bytes) (now : Timestamp)
    (stop : Bool) (fault : Option (ℕ × String)) : Bytes × JobPhase :=
  match writer.align source now with
  | .error error => (file, .discarding error)
  | .ok (none, writer) => (file, .writing writer)
  | .ok (some chunk, writer) =>
    match writer.reserve cfg.maxBytes chunk, fault with
    | .error error, _ => (file, .discarding error)
    -- the write has failed after some of the bytes
    | .ok _, some (count, detail) => (file ++ chunk.take count, .discarding (.io detail))
    | .ok writer, none =>
      (file ++ chunk,
        if stop then
          match writer.finish with
          | .error error => .discarding error
          | .ok written => .flushing written
        else .writing writer)

/-- The next step of the job of `id`, in the phase it is in. -/
def advance (cfg : Config) (sha256 : Sha256) (self : Manager) (id : Uuid) (kind : JobKind) :
    JobPhase → Event → Option Manager
  | .queued, .begin _ persist =>
    match self.state.get id with
    | none => some (self.goto id (.failing (.recording "recording disappeared")))
    | some _ =>
      let begun := { self with
        state := self.state.update id fun manifest => { manifest with status := .recording } }
      match persist.result with
      | .ok () => some ((begun.persisted (some persist)).goto id .opening)
      | .error error => some ((begun.persisted (some persist)).goto id (.failing error))
  | .opening, .refuse _ error => some (self.goto id (.failing error))
  | .opening, .create _ fault =>
    match fault with
    | some detail => some (self.goto id (.discarding (.io detail)))
    | none =>
      -- `create_new`
      if self.directory.isFile (.partialOf id) then none
      else
        some
          { self.goto id (.writing {}) with
            directory := self.directory.write (.partialOf id) [] }
  | .writing writer, .receive _ source now stop fault =>
    match self.directory.read (.partialOf id) with
    | none => none
    | some file =>
      -- only a live capture has a duration to stop after
      let (file, phase) := receive cfg file writer source now (stop && kind = .live) fault
      some { self.goto id phase with directory := self.directory.write (.partialOf id) file }
  | .writing writer, .close _ =>
    match writer.finish with
    | .error error => some (self.goto id (.discarding error))
    | .ok written => some (self.goto id (.flushing written))
  | .flushing _, .flush _ (some (.sync detail)) => some (self.goto id (.discarding (.io detail)))
  | .flushing _, .flush _ (some (.rename detail)) => some (self.goto id (.discarding (.io detail)))
  | .flushing written, .flush _ none =>
    some { self.goto id (.publishing written) with
      directory := self.directory.rename (.partialOf id) (.media id written.format) }
  | .publishing _, .publish _ (some detail) => some (self.goto id (.discarding (.io detail)))
  | .publishing written, .publish _ none => some (self.goto id (.written written))
  | .opening, .timeout _ false | .writing _, .timeout _ false | .flushing _, .timeout _ false
  | .discarding _, .timeout _ false =>
    some (self.goto id (.discarding (.recording
      (if kind = .live then "recording timed out" else "microSD transfer timed out"))))
  | .flushing written, .timeout _ true =>
    some { self.goto id (.discarding (.recording
        (if kind = .live then "recording timed out" else "microSD transfer timed out"))) with
      directory := self.directory.rename (.partialOf id) (.media id written.format) }
  | .discarding error, .discard _ removed session =>
    some { self.goto id (.failing (if kind = .sd then session.getD error else error)) with
      directory := if removed then self.directory.removeFile (.partialOf id) else self.directory }
  | .written written, .settle _ error =>
    if kind = .sd then some (self.goto id (.retracting written error)) else none
  | .retracting written error, .retract _ removed =>
    some { self.goto id (.failing error) with
      directory :=
        if removed then self.directory.removeFile (.media id written.format) else self.directory }
  | .written written, .complete _ now millis =>
    match self.state.get id with
    | none => some (self.goto id (.failing (.recording "recording disappeared")))
    | some _ =>
      some { self.goto id .completed with
        state := self.state.update id fun manifest => manifest.publish sha256 written now millis }
  | .completed, .record _ _ persist =>
    match self.state.get id with
    | none => some (self.goto id .finished)
    | some _ => some ((self.persisted (some persist)).goto id .finished)
  | .failing error, .record _ now persist =>
    match self.state.get id with
    | none => some (self.goto id .finished)
    | some _ =>
      let failed := { self with
        state := self.state.update id fun manifest => manifest.fail (failureCode error) now }
      some ((failed.persisted (some persist)).goto id .finished)
  | _, _ => none

/-- The recording whose job an event belongs to. -/
def jobOf : Event → Option Uuid
  | .begin id _ | .refuse id _ | .create id _ | .receive id _ _ _ _ | .close id | .flush id _
  | .publish id _ | .timeout id _ | .discard id _ _ | .settle id _ | .retract id _
  | .complete id _ _ | .record id _ _ => some id
  | _ => none

/-- One event; `none` when it cannot happen in this state. -/
def step (cfg : Config) (sha256 : Sha256) (self : Manager) (event : Event) : Option Manager :=
  match event with
  | .start camera duration key id now scan persist =>
    if self.canEnqueue id scan then
      match checkStart cfg camera duration with
      | .error _ => some self
      | .ok () =>
        some (self.enqueue cfg key (.pending id now camera duration) .live scan persist)
    else none
  | .probeSd request live =>
    if self.running then
      match checkStartSd cfg self.state request.camera request.start request.stop
        request.key live with
      | .error _ => some self
      | .ok () => some { self with probed := self.probed ++ [request] }
    else none
  | .startSd request id now scan persist =>
    if self.canEnqueue id scan ∧ request ∈ self.probed then
      let manifest := RecordingManifest.pendingSd id now request.camera request.start request.stop
      some ({ self with probed := self.probed.erase request }.enqueue cfg request.key manifest .sd
        scan persist)
    else none
  | .spawn id =>
    match Keyed.lookup Prod.fst self.spawning id with
    | none => none
    | some (_, kind) =>
      some { self with
        spawning := Keyed.remove Prod.fst self.spawning id
        jobs := Function.update self.jobs id (some { kind }) }
  | .acknowledge id now faults =>
    if self.running then
      let (_, persist, state, directory) := acknowledge self.state self.directory id now faults
      some ({ self with state, directory }.persisted persist)
    else none
  | .crash =>
    some { directory := self.directory, journal := self.journal, used := self.used }
  | .restart now persist =>
    if self.running then none
    else
      let (directory, state) := recover sha256 self.directory now (loadState self.journal)
      let loaded := { self with directory, state }
      match persist.result with
      | .ok () => some { loaded.persisted (some persist) with running := true }
      -- `load` fails: the process is not started
      | .error _ => some { loaded.persisted (some persist) with state := {} }
  | event =>
    match jobOf event with
    | none => none
    | some id =>
      match self.jobs id with
      | none => none
      | some job => self.advance cfg sha256 id job.kind job.phase event

end Manager

end Recordings

end EzvizBridge
