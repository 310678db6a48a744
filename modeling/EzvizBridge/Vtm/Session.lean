import EzvizBridge.Vtm.ProtobufRoundTrip

/-!
# A session with the video relay

`vtm/framing.rs` and the loop of `vtm/session.rs`. The relay is what it sends until it closes: the
segments that `read_exact` finds in the socket (`unread`). What the bridge writes is kept in
`written`.

One turn of the loop of `next_payload` reads one packet. What the session does not decide itself is
in a `Turn`: whether the token is cancelled, what the clock shows, which branch of the `select!` is
taken and how the writes end. A session takes turn after turn (`nextPayload`), and a reader calls it
again until no payload is returned (`deliver`).
-/

namespace EzvizBridge

namespace Vtm

/-! ### Framing -/

def channelMessage : UInt8 := 0x00

def channelStream : UInt8 := 0x01

def channelStreamAlt : UInt8 := 0x02

def channelEncryptedMessage : UInt8 := 0x0a

def channelEncryptedStream : UInt8 := 0x0b

def keepaliveRequest : UInt16 := 0x132

def keepaliveResponse : UInt16 := 0x133

def streamInfoRequest : UInt16 := 0x13b

def streamInfoResponse : UInt16 := 0x13c

def magic : UInt8 := 0x24

def headerSize : ℕ := 8

/-- `std::io::ErrorKind`, as far as the session tells them apart. -/
inductive ErrorKind
  | unexpectedEof
  | connectionReset
  | brokenPipe
  | other
  deriving DecidableEq, Repr

/-- `BridgeError`, with the kind of an I/O error in place of its text. -/
inductive SessionError
  | bridge (error : BridgeError)
  | io (kind : ErrorKind)
  deriving DecidableEq, Repr

def upstream (detail : String) : SessionError := .bridge (.upstream detail)

structure VtmPacket where
  channel : UInt8
  sequence : UInt16
  messageCode : UInt16
  body : Bytes
  deriving DecidableEq, Repr

def VtmPacket.encrypted (self : VtmPacket) : Bool :=
  self.channel = channelEncryptedMessage ∨ self.channel = channelEncryptedStream

/-- The channels that `decode_header` knows. -/
def channels : List UInt8 :=
  [channelMessage, channelStream, channelStreamAlt, channelEncryptedMessage, channelEncryptedStream]

def encodePacket (body : Bytes) (channel : UInt8) (sequence messageCode : UInt16) :
    Except SessionError Bytes :=
  match u16TryFrom body.length with
  | none => .error (upstream "VTM packet body is too large")
  | some length =>
    .ok ([magic, channel] ++ u16ToBe length ++ u16ToBe sequence ++ u16ToBe messageCode ++
      body)

def decodeHeader : Bytes → Except SessionError (UInt8 × ℕ × UInt16 × UInt16)
  | [m, channel, l₁, l₂, s₁, s₂, c₁, c₂] =>
    if m ≠ magic then .error (upstream "invalid VTM packet header")
    else if channel ∉ channels then .error (upstream "unknown VTM packet channel")
    else .ok (channel, (u16FromBe l₁ l₂).toNat, u16FromBe s₁ s₂, u16FromBe c₁ c₂)
  | _ => .error (upstream "invalid VTM packet header")

/-! ### The socket -/

/-- `read_exact`: the bytes, if the relay sends them all before it closes, and the segments behind
them. -/
def readExact : ℕ → List Bytes → Option Bytes × List Bytes
  | 0, segments => (some [], segments)
  | _ + 1, [] => (none, [])
  | n + 1, segment :: segments =>
    if n + 1 ≤ segment.length then (some (segment.take (n + 1)), segment.drop (n + 1) :: segments)
    else
      match readExact (n + 1 - segment.length) segments with
      | (none, segments) => (none, segments)
      | (some bytes, segments) => (some (segment ++ bytes), segments)

structure VtmSession where
  /-- The segments that have not been read. -/
  unread : List Bytes
  /-- The packets that have been written. -/
  written : List Bytes := []
  sequence : UInt16 := 0
  info : StreamInfo := {}
  /-- Milliseconds, as all times here. -/
  lastKeepalive : ℕ
  lastMedia : ℕ
  playback : Bool
  mediaSeen : Bool := false
  deriving DecidableEq, Repr

/-- How a write to the socket ends. -/
inductive Written
  | done
  | timedOut
  | failed (kind : ErrorKind)
  deriving DecidableEq, Repr

/-- Which branch of the `select!` is taken. -/
inductive Wait
  | cancelled
  /-- The media deadline passes first. -/
  | deadline
  /-- One of the reads of `read_packet` takes longer than the timeout. -/
  | timedOut (body : Bool)
  /-- The connection fails under a read. -/
  | failed (kind : ErrorKind)
  /-- `read_packet` gets what the relay has sent. -/
  | ready
  deriving DecidableEq, Repr

/-- What one turn of the loop finds around it. -/
structure Turn where
  /-- `cancel.is_cancelled()`. -/
  cancelled : Bool := false
  /-- The clock at the head of the loop. -/
  top : ℕ
  /-- The write of a keepalive that is due, and the clock behind it. -/
  asked : Written := .done
  askedAt : ℕ
  wait : Wait := .ready
  /-- The write of an answer. -/
  answered : Written := .done
  /-- The clock when the packet has been handled. -/
  done : ℕ
  deriving DecidableEq, Repr

namespace VtmSession

def finishedPlayback (self : VtmSession) : SessionError → Bool
  | .io kind => self.playback && self.mediaSeen &&
      (kind = .unexpectedEof || kind = .connectionReset || kind = .brokenPipe)
  | .bridge _ => false

/-- An error of a read, or of a keepalive that was due: none for a finished playback. -/
def closing (self : VtmSession) (error : SessionError) : Except SessionError (Option Bytes) :=
  if self.finishedPlayback error then .ok none else .error error

def send (self : VtmSession) (write : Written) (channel : UInt8) (code : UInt16) (body : Bytes) :
    Except SessionError Unit × VtmSession :=
  match encodePacket body channel self.sequence code with
  | .error error => (.error error, self)
  | .ok packet =>
    -- `wrapping_add`
    let self := { self with sequence := self.sequence + 1 }
    match write with
    | .done => (.ok (), { self with written := self.written ++ [packet] })
    | .timedOut => (.error (upstream "VTM write timed out"), self)
    | .failed kind => (.error (.io kind), self)

def keepalive (self : VtmSession) (write : Written) (code : UInt16) :
    Except SessionError Unit × VtmSession :=
  match self.info.streamSession with
  | none => (.error (upstream "VTM keepalive has no stream session"), self)
  | some session => self.send write channelMessage code (buildKeepalive session)

def readPacket (self : VtmSession) : Except SessionError VtmPacket × VtmSession :=
  match readExact headerSize self.unread with
  | (none, unread) => (.error (.io .unexpectedEof), { self with unread := unread })
  | (some header, unread) =>
    match decodeHeader header with
    | .error error => (.error error, { self with unread := unread })
    | .ok (channel, length, sequence, messageCode) =>
      match readExact length unread with
      | (none, unread) => (.error (.io .unexpectedEof), { self with unread := unread })
      | (some body, unread) =>
        (.ok { channel := channel, sequence := sequence, messageCode := messageCode, body := body },
          { self with unread := unread })

end VtmSession

/-- The packets whose bodies are payloads. -/
def VtmPacket.media (self : VtmPacket) (allowEncryptedStream : Bool) : Bool :=
  self.channel = channelStream ∨ self.channel = channelStreamAlt ∨
    (allowEncryptedStream ∧ self.channel = channelEncryptedStream)

/-- How a turn of the loop ends. -/
inductive Flow
  | again
  | returned (result : Except SessionError (Option Bytes))
  deriving DecidableEq, Repr

namespace VtmSession

/-- The head of the loop: a keepalive is due when the last one is five seconds old. -/
def ask (self : VtmSession) (turn : Turn) : Except SessionError Unit × VtmSession :=
  if turn.top - self.lastKeepalive ≥ 5000 then
    match self.keepalive turn.asked keepaliveRequest with
    | (.error error, self) => (.error error, self)
    | (.ok (), self) => (.ok (), { self with lastKeepalive := turn.askedAt })
  else (.ok (), self)

/-- The rest of the loop, behind a packet. -/
def handle (self : VtmSession) (allowEncryptedStream : Bool) (turn : Turn) (packet : VtmPacket) :
    Flow × VtmSession :=
  if packet.messageCode = keepaliveRequest then
    match self.keepalive turn.answered keepaliveResponse with
    | (.error error, self) => (.returned (.error error), self)
    | (.ok (), self) => (.again, { self with lastKeepalive := turn.done })
  else if packet.media allowEncryptedStream then
    (.returned (.ok (some packet.body)),
      if packet.body ≠ [] then { self with lastMedia := turn.done, mediaSeen := true } else self)
  else if packet.encrypted then
    (.returned (.error (upstream "encrypted VTM control packet is unsupported")), self)
  else (.again, self)

/-- One turn of the loop. -/
def turn (self : VtmSession) (allowEncryptedStream : Bool) (turn : Turn) : Flow × VtmSession :=
  if turn.cancelled then (.returned (.ok none), self)
  else
    match self.ask turn with
    | (.error error, self) => (.returned (self.closing error), self)
    | (.ok (), self) =>
      match turn.wait with
      | .cancelled => (.returned (.ok none), self)
      -- no media came in time: a playback that had some has ended
      | .deadline =>
        (.returned (if self.playback && self.mediaSeen then .ok none
          else .error (.bridge .cameraOffline)), self)
      | .timedOut false => (.returned (.error (upstream "VTM read timed out")), self)
      | .timedOut true => (.returned (.error (upstream "VTM body read timed out")), self)
      | .failed kind => (.returned (self.closing (.io kind)), self)
      | .ready =>
        match self.readPacket with
        | (.error error, self) => (.returned (self.closing error), self)
        | (.ok packet, self) => self.handle allowEncryptedStream turn packet

/-- `next_payload`, over the turns that it takes: its result if it returns, the session, and the
turns that are left. -/
def nextPayload (allowEncryptedStream : Bool) (self : VtmSession) :
    List Turn → Option (Except SessionError (Option Bytes)) × VtmSession × List Turn
  | [] => (none, self, [])
  | turn :: turns =>
    match self.turn allowEncryptedStream turn with
    | (.again, self) => self.nextPayload allowEncryptedStream turns
    | (.returned result, self) => (some result, self, turns)

end VtmSession

/-- What a reader has got: the payloads, how the session has ended, if it has, and what is left. -/
structure Delivery where
  payloads : List Bytes
  ending : Option (Except SessionError Unit)
  session : VtmSession
  deriving DecidableEq, Repr

/-- A payload in front. -/
def Delivery.after (self : Delivery) (payload : Bytes) : Delivery :=
  { self with payloads := payload :: self.payloads }

/-- Calls of `next_payload`, one after the other, until one returns no payload. -/
def deliver (allowEncryptedStream : Bool) (session : VtmSession) : List Turn → Delivery
  | [] => ⟨[], none, session⟩
  | turn :: turns =>
    match session.turn allowEncryptedStream turn with
    | (.again, session) => deliver allowEncryptedStream session turns
    | (.returned (.ok (some payload)), session) =>
      (deliver allowEncryptedStream session turns).after payload
    | (.returned (.ok none), session) => ⟨[], some (.ok ()), session⟩
    | (.returned (.error error), session) => ⟨[], some (.error error), session⟩

/-- It is one call, and behind a payload the calls that follow. -/
theorem deliver_eq (allowEncryptedStream : Bool) (session : VtmSession) (turns : List Turn) :
    deliver allowEncryptedStream session turns =
      match session.nextPayload allowEncryptedStream turns with
      | (none, session, _) => ⟨[], none, session⟩
      | (some (.ok (some payload)), session, turns) =>
        (deliver allowEncryptedStream session turns).after payload
      | (some (.ok none), session, _) => ⟨[], some (.ok ()), session⟩
      | (some (.error error), session, _) => ⟨[], some (.error error), session⟩ := by
  induction turns generalizing session with
  | nil => rfl
  | cons turn turns ih =>
    rw [deliver, VtmSession.nextPayload]
    rcases session.turn allowEncryptedStream turn with ⟨_ | ⟨error | _ | payload⟩, session'⟩
    · exact ih session'
    · rfl
    · rfl
    · rfl

/-! ### The start of a session -/

/-- The loop of `start`: the packets that are read until the relay tells about the stream. -/
def awaitInfo : ℕ → VtmSession → Except SessionError Unit × VtmSession
  | 0, session => (.error (upstream "timed out waiting for VTM stream info"), session)
  | n + 1, session =>
    match session.readPacket with
    | (.error error, session) => (.error error, session)
    | (.ok packet, session) =>
      if packet.messageCode = streamInfoResponse then
        match parseStreamInfo packet.body with
        | .error (.failed error) => (.error (.bridge error), session)
        -- not reached, see `readFieldsFrom_ne_panicked`
        | .error .panicked => (.error (upstream ""), session)
        | .ok info => (.ok (), { session with info := info })
      else awaitInfo n session

/-- `start`, when no timeout passes. -/
def start (session : VtmSession) (streamUrl : String) (redirectKey : Option String) :
    Except SessionError Unit × VtmSession :=
  let body := if session.playback then buildPlaybackStreamInfo streamUrl redirectKey
    else buildStreamInfo streamUrl redirectKey
  match session.send .done channelMessage streamInfoRequest body with
  | (.error error, session) => (.error error, session)
  | (.ok (), session) => awaitInfo 20 session

end Vtm

end EzvizBridge
