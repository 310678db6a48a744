import EzvizBridge.Lib.Transducer
import EzvizBridge.Transport.RtpAudio
import EzvizBridge.Transport.TsMux
import EzvizBridge.Transport.Video

/-!
# RTP to MPEG-TS (`transport/rtp_ts.rs`)

Video access units are cut on the RTP timestamp (and closed early by the marker bit) and stamped
from the 90 kHz RTP clock. Output starts at the first keyframe. Units are held until the audio
track is confirmed or ruled out, and written then, interleaved by PTS with the audio frames that
confirmed the track; the muxer is created at that moment, so its first PMT names every stream.

The muxer calls that a release makes are a list (`interleave`), and the muxer runs it.
-/

namespace EzvizBridge

/-- `HeldUnit`. -/
structure HeldUnit where
  pts : ℤ
  keyframe : Bool
  data : Bytes
  deriving DecidableEq, Repr

/-- `RtpToTs`. -/
structure RtpToTs where
  video : RtpVideo
  muxer : Option TsMuxer
  clock : Clock
  unit : Bytes
  unitTimestamp : Option UInt32
  started : Bool
  lastPts : ℤ
  held : List HeldUnit
  audio : AudioTrack

/-- IDR for H.264, any IRAP picture for HEVC. -/
def VideoCodec.isKeyPicture : VideoCodec → UInt8 → Bool
  | .h264, first => first &&& 0x1f == 5
  | .hevc, first =>
    let kind : UInt8 := first >>> 1 &&& 0x3f
    16 ≤ kind && kind ≤ 21

/-- Some window of five bytes is a start code and the header byte of a key picture. -/
def isKeyframe (codec : VideoCodec) : Bytes → Bool
  | [] => false
  | byte :: unit =>
    (match byte :: unit with
      | 0x00 :: 0x00 :: 0x00 :: 0x01 :: first :: _ => codec.isKeyPicture first
      | _ => false) || isKeyframe codec unit

/-- `u64::try_from(pts).unwrap_or(0)`. -/
def nonNegative (pts : ℤ) : UInt64 := UInt64.ofNat pts.toNat

namespace RtpToTs

def ptsBase : ℤ := 90000

def audioWait : ℤ := 90000

def maxHeldUnits : ℕ := 64

def maxHeldBytes : ℕ := 16 * 1024 * 1024

def maxUnitBytes : ℕ := 8 * 1024 * 1024

variable (aes : Aes128)

def new (video : RtpVideo) : RtpToTs where
  video := video
  muxer := none
  clock := {}
  unit := []
  unitTimestamp := none
  started := false
  lastPts := ptsBase
  held := []
  audio := {}

/-- The muxer call for an audio frame. -/
def audioCall (frame : ℤ × Bytes) : TsMuxer.Call := .audio (nonNegative frame.1) frame.2

/-- The muxer call for a held unit. -/
def videoCall (unit : HeldUnit) :
    TsMuxer.Call := .video (nonNegative unit.pts) unit.keyframe unit.data

/-- The calls of a release: before each unit the frames that precede it, and behind the last unit
the frames that are left. -/
def interleave : List HeldUnit → List (ℤ × Bytes) → List TsMuxer.Call
  | [], frames => frames.map audioCall
  | unit :: held, frames =>
    (frames.takeWhile fun frame => frame.1 < unit.pts).map audioCall ++
      videoCall unit :: interleave held (frames.dropWhile fun frame => frame.1 < unit.pts)

/-- The muxer a stream starts with. -/
def newMuxer (codec : VideoCodec) (withAudio : Bool) : TsMuxer :=
  if withAudio then (TsMuxer.new codec).enableAudio else TsMuxer.new codec

/-- Write held video once the audio question is settled, interleaved with `audio`. -/
def releaseHeld (self : RtpToTs) (audio : List (ℤ × Bytes)) : Bytes × RtpToTs :=
  match self.video.codec with
  | none => ([], self)
  | some codec =>
    if self.audio.probe = .undecided ∨ self.started = false then ([], self)
    else
      let muxer := self.muxer.getD (newMuxer codec (self.audio.probe = .confirmed))
      let (muxer, output) := muxer.run (interleave self.held audio)
      (output, { self with muxer := some muxer, held := [] })

/-- The audio question is answered for it when the held video outgrows one of its bounds. -/
def boundHeld (self : RtpToTs) (pts : ℤ) : RtpToTs :=
  let heldBytes := (self.held.map fun unit => unit.data.length).sum
  let waited := (self.held.head?.map fun unit => pts - unit.pts).getD 0
  if self.audio.probe = .undecided ∧
      (waited ≥ audioWait ∨ self.held.length ≥ maxHeldUnits ∨ heldBytes ≥ maxHeldBytes) then
    { self with audio := self.audio.giveUp }
  else self

def flushUnit (self : RtpToTs) : Bytes × RtpToTs :=
  match self.unitTimestamp with
  | none => ([], self)
  | some timestamp =>
    let data := self.unit
    let self := { self with unitTimestamp := none, unit := [] }
    match self.video.codec with
    | none => ([], self)
    | some codec =>
      let keyframe := isKeyframe codec data
      if self.started = false ∧ keyframe = false then ([], self)
      else
        -- the first keyframe defines time zero of the video clock
        let clock : Clock := if self.started then self.clock else {}
        let (elapsed, clock) := clock.advance timestamp
        let pts := ptsBase + elapsed
        let unit : HeldUnit := { pts := pts, keyframe := keyframe, data := data }
        let self := { self with
          clock := clock
          started := true
          lastPts := pts
          held := self.held ++ [unit] }
        (self.boundHeld pts).releaseHeld []

def audioPacket (self : RtpToTs) (payloadType : UInt8) (timestamp : UInt32) (payload : Bytes) :
    Bytes × RtpToTs :=
  let before := self.audio.probe
  let self := { self with audio := self.audio.detect payloadType timestamp payload self.lastPts }
  match before, self.audio.probe with
  | _, .undecided => ([], self)
  | .undecided, .confirmed =>
    -- no keyframe yet: what was probed is thrown away
    if self.started = false then ([], { self with audio := self.audio.discardPending })
    else
      let (frames, audio) := self.audio.drainPending
      releaseHeld { self with audio := audio } frames
  | _, _ =>
    -- the question is settled, so nothing is held any more
    let (output, self) := self.releaseHeld []
    if self.started = false then (output, self)
    else
      let (frames, audio) := self.audio.frames payloadType timestamp payload self.lastPts
      let self := { self with audio := audio }
      match self.muxer with
      | none => (output, self)
      | some muxer =>
        let (muxer, more) := muxer.run (frames.map audioCall)
        (output ++ more, { self with muxer := some muxer })

/-- One item of the video half. -/
def feedItem (self : RtpToTs) : RtpOutput → Outcome RtpToTs Bytes
  | .video timestamp marker data =>
    -- another timestamp closes the open unit
    let (closed, self) := if self.unitTimestamp.any (· ≠ timestamp) then self.flushUnit
      else ([], self)
    let self := if data = [] then self else { self with
      unitTimestamp := some timestamp
      unit := self.unit ++ data }
    if data ≠ [] ∧ self.unit.length > maxUnitBytes then
      (.error (.capacity "RTP video access unit exceeded its byte bound"), self)
    else
      -- and so does the marker
      let (marked, self) := if marker then self.flushUnit else ([], self)
      (.ok (closed ++ marked), self)
  | .other payloadType timestamp payload =>
    let (output, self) := self.audioPacket payloadType timestamp payload
    (.ok output, self)

/-- Transport-stream bytes produced by one RTP packet, possibly none. -/
def feed (self : RtpToTs) (packet : Bytes) : Outcome RtpToTs Bytes :=
  match self.video.feed aes packet with
  | (.error e, video) => (.error e, { self with video := video })
  | (.ok items, video) => Transducer.run feedItem { self with video := video } items

/-- The access unit still open when the session ends, and any held video. -/
def finish (self : RtpToTs) : Bytes × RtpToTs :=
  let (output, self) := self.flushUnit
  let self := { self with audio := self.audio.giveUp }
  let (rest, self) := self.releaseHeld []
  (output ++ rest, self)

end RtpToTs

end EzvizBridge
