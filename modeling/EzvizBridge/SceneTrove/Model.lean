import EzvizBridge.Recordings.Model

/-!
# The `SceneTrove` consumer: `pull`

`scenetrove.rs` with its parts: the receipt (`scenetrove_receipt.rs`), the transfer
(`scenetrove_transfer.rs`) and `media_format.rs`. A pull is a sequence of requests to the bridge and
of operations on the destination directory. It is split where the process can die or the bridge can
stop answering: at every request, and between the four operations that last, which are the rename of
the downloaded file, the write of the receipt, and, after the bridge has answered the DELETE, the
removal of the receipt and the sync of the directory.

`Consumer.advance` is what the process does by itself, with the request that it sends, if any;
`Consumer.receive` is what it does with the reply to its last request. A request that fails, a reply
that does not come and a file operation that fails are `PullEvent.fail`.

The name of a media file is the triple that it is made of; the stamp is the second it stands for. A
partial file has a random name of its own and is read by nobody else, so it is left out: its
contents are in the phase. A receipt is found by its key, whose digest is its name.
-/

namespace EzvizBridge

/-- The status code of `BridgeError::public_response`. -/
def BridgeError.status : BridgeError → ℕ
  | .reauthRequired => 403
  | .invalidCredentials | .invalidOtp => 422
  | .enrollmentBusy | .unsupportedMedia | .recordingActive => 409
  | .enrollmentExpired => 410
  | .cameraNotFound | .sdNoRecording => 404
  | .cameraOffline | .upstreamUnavailable => 503
  | .capacity _ => 429
  | .recording _ => 400
  | .sessionExpired | .timeout => 502
  | _ => 500

namespace SceneTrove

open Recordings

/-! ### Media formats -/

/-- `MediaFormat`. -/
inductive MediaFormat
  | programStream
  | transportStream
  deriving DecidableEq, Repr

def probeBytes : ℕ := tsPacketBytes * 3

namespace MediaFormat

/-- `MediaFormat::from_media_type`. -/
def fromMediaType : MediaType → Option MediaFormat
  | .mpeg => some .programStream
  | .mp2t => some .transportStream
  | .octetStream => none

def matchesPrefix : MediaFormat → Bytes → Bool
  | .programStream, value => packStart.isPrefixOf value
  | .transportStream, value => tsPacketBytes * 2 < value.length ∧ syncedAt value 0

def detect (value : Bytes) : Option MediaFormat :=
  [programStream, transportStream].find? fun format => format.matchesPrefix value

end MediaFormat

/-! ### Requests and results -/

/-- What a caller asks for in `PullRequest`; the bridge, the token and the destination are the same
for all pulls. -/
structure PullRequest where
  camera : String
  durationSeconds : ℕ
  sdInterval : Option (ℤ × ℤ)
  idempotencyKey : String
  maxBytes : ℕ
  deriving DecidableEq, Repr

/-- The name `hiv<stamp>-<id>.<extension>`. -/
structure MediaName where
  stamp : ℤ
  id : Uuid
  format : MediaFormat
  deriving DecidableEq, Repr

/-- `PullResult`. -/
structure PullResult where
  recordingId : Uuid
  path : MediaName
  bytes : ℕ
  sha256 : Digest
  deriving DecidableEq, Repr

/-- The seconds for which `DateTime::from_timestamp` has a date. -/
def inRange (seconds : ℤ) : Bool := -8334601228800 ≤ seconds ∧ seconds ≤ 8210266876799

/-- Why a pull fails that did not hear of a failed recording, an HTTP error or its deadline. -/
inductive Fault
  | http (detail : String)
  | io (detail : String)
  | json (detail : String)
  | receipt
  | byteBound
  | digest
  | completion
  | sdStart
  | mediaType
  | download
  | contentType
  | tooLarge
  | format
  | mismatch
  | ack (status : ℕ)
  deriving DecidableEq, Repr

/-- The errors of `pull` and of the functions it calls. -/
def Fault.error : Fault → BridgeError
  | .http detail => .http detail
  | .io detail => .io detail
  | .json detail => .json detail
  | .receipt => .recording "ACK receipt does not match committed local media"
  | .byteBound => .upstream "recording byte bound is invalid"
  | .digest => .upstream "recording digest is invalid"
  | .completion => .upstream "recording completion time is missing"
  | .sdStart => .upstream "microSD start time is invalid"
  | .mediaType => .upstream "recording media type is unsupported"
  | .download => .upstream "media download failed"
  | .contentType => .upstream "recording response media type does not match its manifest"
  | .tooLarge => .capacity "recording exceeded download byte bound"
  | .format => .upstream "recording does not match its declared media format"
  | .mismatch => .upstream "recording media does not match its manifest"
  | .ack status => .upstream ("recording ACK returned HTTP " ++ toString status)

/-- How a pull ends. -/
inductive PullOutcome
  | ok (result : PullResult)
  /-- the bridge marked the recording failed -/
  | failed (manifest : RecordingManifest)
  /-- the bridge answered a request for a manifest with an error -/
  | refused (status : ℕ)
  | deadline
  | broken (fault : Fault)
  deriving DecidableEq, Repr

/-- What `pull` returns. A status is printed as its number; the name that follows it is left out. -/
def PullOutcome.result : PullOutcome → Except BridgeError PullResult
  | .ok result => .ok result
  | .failed manifest =>
    .error (.upstream ("bridge recording failed: " ++ manifest.errorCode.getD "unknown"))
  | .refused status => .error (.upstream ("bridge returned HTTP " ++ toString status))
  | .deadline => .error (.upstream "recording did not finish before deadline")
  | .broken fault => .error fault.error

/-! ### Messages -/

/-- Requests to the bridge. -/
inductive Request
  | create (request : PullRequest)
  /-- a microSD request between the two guards of `start_sd` -/
  | probed (request : PullRequest)
  | status (id : Uuid)
  | media (id : Uuid)
  | delete (id : Uuid)
  deriving DecidableEq, Repr

/-- Replies of the bridge: 200 or 202 with a manifest, 200 with media, 204, or an error. -/
inductive Reply
  | manifest (manifest : RecordingManifest)
  | media (mediaType : MediaType) (bytes : Bytes)
  | noContent
  | refused (status : ℕ)
  deriving DecidableEq, Repr

/-! ### The process -/

/-- Where a pull stands. -/
inductive PullPhase
  | idle
  /-- the POST was sent -/
  | creating (request : PullRequest)
  /-- the recording is not finished; sleep -/
  | polling (request : PullRequest) (manifest : RecordingManifest)
  /-- the GET of the manifest was sent -/
  | asking (request : PullRequest)
  /-- `release_failed` has sent its DELETE -/
  | releasing (request : PullRequest) (manifest : RecordingManifest)
  /-- the GET of the media was sent -/
  | fetching (request : PullRequest) (manifest : RecordingManifest) (name : MediaName)
  /-- the partial file is written and is what the manifest says -/
  | downloaded (request : PullRequest) (result : PullResult) (file : Bytes)
  /-- the file has its final name -/
  | renamed (request : PullRequest) (result : PullResult)
  /-- the receipt is written -/
  | receipted (request : PullRequest) (result : PullResult)
  /-- the DELETE was sent -/
  | acknowledging (request : PullRequest) (result : PullResult)
  /-- the bridge has answered 204 -/
  | acknowledged (request : PullRequest) (result : PullResult)
  /-- the receipt is removed -/
  | closing (request : PullRequest) (result : PullResult)
  | finished (request : PullRequest) (outcome : PullOutcome)
  deriving DecidableEq, Repr

/-- What happens in the process without the bridge. -/
inductive PullEvent
  | call (request : PullRequest)
  | poll
  | deadline
  | rename
  | receipt
  | acknowledge
  | remove
  | finish
  /-- a request or a file operation fails -/
  | fail (fault : Fault)
  | crash
  deriving DecidableEq, Repr

/-- The process and its destination directory. -/
structure Consumer where
  destination : List (MediaName × Bytes) := []
  receipts : List (String × PullResult) := []
  phase : PullPhase := .idle
  deriving DecidableEq, Repr

/-- `verify_committed`. -/
def verifyCommitted (sha256 : Sha256) (destination : List (MediaName × Bytes))
    (result : PullResult) : Except Fault Unit :=
  match Keyed.lookup Prod.fst destination result.path with
  | none => .error (.io "No such file or directory")
  | some (_, file) =>
    let start := file.take probeBytes
    if (MediaFormat.detect start).isNone then .error .receipt
    else
      let digest := start ++ (chunks (64 * 1024) (file.drop probeBytes)).flatten
      if file.length ≠ result.bytes ∨ sha256 digest ≠ result.sha256 then .error .receipt else .ok ()

/-- `recover_receipt`. -/
def recoverReceipt (sha256 : Sha256) (self : Consumer) (key : String) :
    Except Fault (Option PullResult) :=
  match Keyed.lookup Prod.fst self.receipts key with
  | none => .ok none
  | some (_, result) => (verifyCommitted sha256 self.destination result).map fun _ => some result

/-- The stamp of the file: a microSD clip is named after when it was recorded. -/
def stampOf (manifest : RecordingManifest) (completed : Timestamp) : Except Fault ℤ :=
  match manifest.sdStart with
  | some start => if inRange start then .ok start else .error .sdStart
  | none => .ok (completed / 1000000)

/-- The checks of a `ready` manifest, up to the name of the file. -/
def nameOf (request : PullRequest) (manifest : RecordingManifest) : Except Fault MediaName :=
  match manifest.bytes, manifest.sha256, manifest.completedAt with
  | none, _, _ => .error .byteBound
  | some bytes, digest, completed =>
    if ¬ (0 < bytes ∧ bytes ≤ request.maxBytes) then .error .byteBound
    else
      match digest, completed with
      | none, _ => .error .digest
      | some _, none => .error .completion
      | some _, some completed =>
        match stampOf manifest completed, MediaFormat.fromMediaType manifest.mediaType with
        | .error fault, _ => .error fault
        | .ok _, none => .error .mediaType
        | .ok stamp, some format => .ok { stamp, id := manifest.recordingId, format }

/-- What follows a manifest: sleep, release the failed recording, or fetch the media. -/
def examine (request : PullRequest) (manifest : RecordingManifest) : PullPhase × Option Request :=
  match manifest.status with
  | .pending | .recording => (.polling request manifest, none)
  | .failed => (.releasing request manifest, some (.delete manifest.recordingId))
  | .ready =>
    match nameOf request manifest with
    | .error fault => (.finished request (.broken fault), none)
    | .ok name => (.fetching request manifest name, some (.media manifest.recordingId))

/-- `write_media` and the comparison with the manifest, for the whole body of the reply. -/
def download (sha256 : Sha256) (request : PullRequest) (manifest : RecordingManifest)
    (name : MediaName) (mediaType : MediaType) (body : Bytes) : Except Fault PullResult :=
  if mediaType ≠ manifest.mediaType then .error .contentType
  else if request.maxBytes < body.length then .error .tooLarge
  else if ¬ name.format.matchesPrefix (body.take probeBytes) then .error .format
  else if some body.length ≠ manifest.bytes ∨ some (sha256 body) ≠ manifest.sha256 then
    .error .mismatch
  else
    .ok { recordingId := manifest.recordingId, path := name, bytes := body.length,
          sha256 := sha256 body }

namespace PullPhase

/-- The request of the pull that is going on. -/
def request? : PullPhase → Option PullRequest
  | .idle | .finished _ _ => none
  | .creating r | .polling r _ | .asking r | .releasing r _ | .fetching r _ _ | .downloaded r _ _
  | .renamed r _ | .receipted r _ | .acknowledging r _ | .acknowledged r _ | .closing r _ => some r

end PullPhase

namespace Consumer

/-- The process goes on by itself: its new state, and the request that it sends. -/
def advance (sha256 : Sha256) (self : Consumer) : PullEvent → Option (Consumer × Option Request)
  | .call request =>
    if self.phase.request? = none then
      match recoverReceipt sha256 self request.idempotencyKey with
      | .error fault => some ({ self with phase := .finished request (.broken fault) }, none)
      | .ok (some result) =>
        some ({ self with phase := .acknowledging request result },
          some (.delete result.recordingId))
      | .ok none => some ({ self with phase := .creating request }, some (.create request))
    else none
  | .poll =>
    match self.phase with
    | .polling request manifest =>
      some ({ self with phase := .asking request }, some (.status manifest.recordingId))
    | _ => none
  | .deadline =>
    match self.phase with
    | .polling request _ => some ({ self with phase := .finished request .deadline }, none)
    | _ => none
  | .rename =>
    match self.phase with
    | .downloaded request result file =>
      some ({ self with
        destination := Keyed.insert Prod.fst self.destination (result.path, file)
        phase := .renamed request result }, none)
    | _ => none
  | .receipt =>
    match self.phase with
    | .renamed request result =>
      some ({ self with
        receipts := Keyed.insert Prod.fst self.receipts (request.idempotencyKey, result)
        phase := .receipted request result }, none)
    | _ => none
  | .acknowledge =>
    match self.phase with
    | .receipted request result =>
      some ({ self with phase := .acknowledging request result }, some (.delete result.recordingId))
    | _ => none
  | .remove =>
    match self.phase with
    | .acknowledged request result =>
      some ({ self with
        receipts := Keyed.remove Prod.fst self.receipts request.idempotencyKey
        phase := .closing request result }, none)
    | _ => none
  | .finish =>
    match self.phase with
    | .closing request result => some ({ self with phase := .finished request (.ok result) }, none)
    | _ => none
  | .fail fault =>
    match self.phase, self.phase.request? with
    -- the answer to this DELETE does not matter
    | .releasing request manifest, _ =>
      some ({ self with phase := .finished request (.failed manifest) }, none)
    | _, some request => some ({ self with phase := .finished request (.broken fault) }, none)
    | _, none => none
  | .crash => some ({ self with phase := .idle }, none)

/-- The reply to the last request. -/
def receive (sha256 : Sha256) (self : Consumer) (reply : Reply) :
    Option (Consumer × Option Request) :=
  match self.phase, reply with
  | .creating request, .manifest manifest | .asking request, .manifest manifest =>
    let (phase, next) := examine request manifest
    some ({ self with phase }, next)
  | .creating request, .refused status | .asking request, .refused status =>
    some ({ self with phase := .finished request (.refused status) }, none)
  | .releasing request manifest, .noContent | .releasing request manifest, .refused _ =>
    some ({ self with phase := .finished request (.failed manifest) }, none)
  | .fetching request _ _, .refused _ =>
    some ({ self with phase := .finished request (.broken .download) }, none)
  | .fetching request manifest name, .media mediaType body =>
    match download sha256 request manifest name mediaType body with
    | .error fault => some ({ self with phase := .finished request (.broken fault) }, none)
    | .ok result => some ({ self with phase := .downloaded request result body }, none)
  | .acknowledging request result, .noContent =>
    some ({ self with phase := .acknowledged request result }, none)
  | .acknowledging request _, .refused status =>
    some ({ self with phase := .finished request (.broken (.ack status)) }, none)
  | _, _ => none

end Consumer

end SceneTrove

end EzvizBridge
