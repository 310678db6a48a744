import EzvizBridge.SceneTrove.Model
import EzvizBridge.Recordings.Manager

/-!
# The consumer and the bridge

Two parties that exchange requests and replies. A request is on its way until the bridge handles it,
which may be long after the process that sent it is gone; a reply is on its way until it is
delivered, and it is delivered to the call that it belongs to or not at all. So every message may be
delayed without a bound or lost. The handlers of `api_recordings.rs` are `serve`: each runs the
operation of `Recordings.Manager` that it calls, and answers with its result. Everything else that
happens at the bridge, jobs, other clients, crashes and restarts, is `LinkEvent.bridge`.

The client is a parameter: a single pull that is called again and again, or the import of a day.
-/

namespace EzvizBridge

namespace SceneTrove

open Recordings

/-! ### The handlers -/

/-- How a request is handled: the ids, instants and results that the handler meets. -/
inductive Handling
  /-- `start`, for a live recording -/
  | start (id : Uuid) (now : Timestamp) (scan : Except BridgeError Directory) (persist : Persist)
  /-- the checks before the second guard of `start_sd` -/
  | probe (live : Bool)
  /-- the second guard -/
  | startSd (id : Uuid) (now : Timestamp) (scan : Except BridgeError Directory) (persist : Persist)
  | read
  | acknowledge (now : Timestamp) (faults : AckFaults)
  /-- the handler fails before it does anything, as when the cloud does not tell the camera's
  zone -/
  | unavailable (error : BridgeError)

/-- The reply to `create_recording`. -/
def replyOf : Except BridgeError (RecordingManifest × Bool) → Reply
  | .error error => .refused error.status
  | .ok (manifest, _) => .manifest manifest

/-- The bounds that `create_recording` and `playback_times` check of a microSD interval. -/
def checkInterval (cfg : Config) (camera : String) (start stop : ℤ) : Except BridgeError Unit :=
  if camera ∉ cfg.cameras then .error .cameraNotFound
  else if ¬ (1 ≤ stop - start ∧ stop - start ≤ cfg.maxDuration) then
    .error (.recording
      ("microSD interval must last between 1 and " ++ toString cfg.maxDuration ++ " seconds"))
  else if ¬ (inRange start ∧ inRange stop) then
    .error (.recording "microSD interval is out of range")
  else .ok ()

/-- `download_recording`. -/
def readMedia (bridge : Manager) (id : Uuid) : Reply :=
  match bridge.state.get id with
  | none => .refused 404
  | some manifest =>
    if manifest.status = .ready then
      match bridge.directory.read (mediaPath bridge.directory manifest) with
      | none => .refused 404
      | some file => .media (if manifest.mediaType = .mp2t then .mp2t else .mpeg) file
    else .refused 404

/-- `get_recording`. -/
def readManifest (bridge : Manager) (id : Uuid) : Reply :=
  match bridge.state.get id with
  | none => .refused 404
  | some manifest => .manifest manifest

/-- The bridge handles a request: its new state, and the reply or the rest of the request. -/
def serve (cfg : Config) (sha256 : Sha256) (bridge : Manager) :
    Request → Handling → Option (Manager × (Request ⊕ Reply))
  -- a live recording
  | .create request, .start id now scan persist =>
    match request.sdInterval with
    | some _ => none
    | none =>
      let manifest := RecordingManifest.pending id now request.camera request.durationSeconds
      let reply :=
        match checkStart cfg request.camera request.durationSeconds with
        | .error error => .refused error.status
        | .ok () =>
          replyOf (Recordings.enqueue cfg bridge.state request.idempotencyKey manifest false
            (scan.map spoolBytes) persist).1
      (bridge.step cfg sha256 (.start request.camera request.durationSeconds request.idempotencyKey
        id now scan persist)).map fun bridge => (bridge, .inr reply)
  -- a microSD recording, up to the `await` of the live test
  | .create request, .probe live =>
    match request.sdInterval with
    | none => none
    | some (start, stop) =>
      match checkInterval cfg request.camera start stop with
      | .error error => if bridge.running then some (bridge, .inr (.refused error.status)) else none
      | .ok () =>
        let rest :=
          match checkStartSd cfg bridge.state request.camera start stop
            request.idempotencyKey live with
          | .error error => .inr (.refused error.status)
          | .ok () => .inl (.probed request)
        (bridge.step cfg sha256
          (.probeSd ⟨request.camera, start, stop, request.idempotencyKey⟩ live)).map
          fun bridge => (bridge, rest)
  -- and from there on
  | .probed request, .startSd id now scan persist =>
    match request.sdInterval with
    | none => none
    | some (start, stop) =>
      let manifest := RecordingManifest.pendingSd id now request.camera start stop
      let reply := replyOf (Recordings.enqueue cfg bridge.state request.idempotencyKey manifest true
        (scan.map spoolBytes) persist).1
      (bridge.step cfg sha256 (.startSd ⟨request.camera, start, stop, request.idempotencyKey⟩
        id now scan persist)).map fun bridge => (bridge, .inr reply)
  | .status id, .read =>
    if bridge.running then some (bridge, .inr (readManifest bridge id)) else none
  | .media id, .read => if bridge.running then some (bridge, .inr (readMedia bridge id)) else none
  | .delete id, .acknowledge now faults =>
    let reply :=
      match (Recordings.acknowledge bridge.state bridge.directory id now faults).1 with
      | .error error => .refused error.status
      | .ok _ => .noContent
    (bridge.step cfg sha256 (.acknowledge id now faults)).map fun bridge => (bridge, .inr reply)
  | _, .unavailable error =>
    if bridge.running then some (bridge, .inr (.refused error.status)) else none
  | _, _ => none

/-! ### The two parties -/

/-- A client, the bridge, and the messages between them. -/
structure Link (σ : Type) where
  client : σ
  bridge : Manager := {}
  /-- the number of the last request -/
  calls : ℕ := 0
  requests : List (ℕ × Request) := []
  replies : List (ℕ × Reply) := []

/-- What can happen next. -/
inductive LinkEvent (ε : Type)
  | client (event : ε)
  /-- the reply to the last request arrives -/
  | deliver
  /-- the bridge handles a request -/
  | serve (call : ℕ) (handling : Handling)
  /-- anything else at the bridge -/
  | bridge (event : Recordings.Event)

namespace Link

variable {σ ε : Type}

/-- The client has moved on, and may have sent a request. -/
def sent (self : Link σ) : σ × Option Request → Link σ
  | (client, none) => { self with client }
  | (client, some request) =>
    { self with
      client
      calls := self.calls + 1
      requests := self.requests ++ [(self.calls + 1, request)] }

/-- One event, for a client that goes on by itself as `advance` says and answers a reply as
`receive` says. -/
def step (cfg : Config) (sha256 : Sha256) (advance : σ → ε → Option (σ × Option Request))
    (receive : σ → Reply → Option (σ × Option Request)) (self : Link σ) :
    LinkEvent ε → Option (Link σ)
  | .client event => (advance self.client event).map self.sent
  | .deliver =>
    match Keyed.lookup Prod.fst self.replies self.calls with
    | none => none
    | some (_, reply) => (receive self.client reply).map self.sent
  | .serve call handling =>
    match Keyed.lookup Prod.fst self.requests call with
    | none => none
    | some (_, request) =>
      match serve cfg sha256 self.bridge request handling with
      | none => none
      | some (bridge, .inl request) =>
        -- the handler waits, and goes on later
        some { self with
          bridge
          requests := Keyed.insert Prod.fst self.requests (call, request) }
      | some (bridge, .inr reply) =>
        some { self with
          bridge
          requests := Keyed.remove Prod.fst self.requests call
          replies := Keyed.insert Prod.fst self.replies (call, reply) }
  | .bridge event => (self.bridge.step cfg sha256 event).map fun bridge => { self with bridge }

end Link

end SceneTrove

end EzvizBridge
