import EzvizBridge.Transport.VideoCipher

/-!
# RTP video (`transport/video.rs`, `transport/video_rtp.rs`)

`RtpVideo::feed` parses one RTP packet. Until a payload names a codec the packets are buffered,
within a bound; the first payload that does selects the video payload type, and the buffered
packets of that type are depacketized at once. From then on every packet of the video type goes
through the depacketizer (single NALs, aggregates and fragments) and the NAL decryptor, and every
packet of another type is handed on for the audio track to classify.
-/

namespace EzvizBridge

/-- `RtpPacket`: one parsed RTP packet. -/
structure RtpPacket where
  payloadType : UInt8
  marker : Bool
  timestamp : UInt32
  payload : Bytes
  deriving DecidableEq, Repr

/-- `RtpOutput`: what one RTP packet yielded once the video payload type is known. -/
inductive RtpOutput
  /-- Annex-B bytes of the video access unit stamped `timestamp`. -/
  | video (timestamp : UInt32) (marker : Bool) (data : Bytes)
  /-- A packet of any other payload type, for the audio track to classify. -/
  | other (payloadType : UInt8) (timestamp : UInt32) (payload : Bytes)
  deriving DecidableEq, Repr

/-- The fields of `RtpOutput::Other`. -/
structure OtherPacket where
  payloadType : UInt8
  timestamp : UInt32
  payload : Bytes
  deriving DecidableEq, Repr

/-! ### Parsing -/

def rejectNonRtpContainer (packet : Bytes) : Except BridgeError Unit :=
  let reject (format : String) : Except BridgeError Unit :=
    .error (.upstream (format ++ " video is not supported on the RTP path of this camera profile"))
  if [0x00, 0x00, 0x01, 0xba] <+: packet then reject "MPEG-PS"
  else if packet.head? = some 0x47 then reject "MPEG-TS"
  else .ok ()

/-- Offset of the payload: past the fixed header, the CSRC list and the extension, if any. -/
def payloadStart (packet : Bytes) : Except BridgeError ℕ :=
  let flags := packet.getD 0 0
  let offset := 12 + (flags &&& 0x0f).toNat * 4
  if offset > packet.length then .error (.upstream "RTP header is truncated")
  else if flags &&& 0x10 != 0 then
    if offset + 4 > packet.length then .error (.upstream "RTP extension header is truncated")
    else
      let words := (u16FromBe (packet.getD (offset + 2) 0) (packet.getD (offset + 3) 0)).toNat
      let offset := offset + 4 + words * 4
      if offset > packet.length then .error (.upstream "RTP extension is truncated")
      else .ok offset
  else .ok offset

/-- Number of padding bytes, read from the last byte when the padding flag is set. -/
def paddingLength (packet : Bytes) : Except BridgeError ℕ :=
  if packet.getD 0 0 &&& 0x20 == 0 then .ok 0
  else
    match packet.getLast? with
    | some last => .ok last.toNat
    | none => .error (.upstream "RTP padding is missing")

def parseRtp (packet : Bytes) : Except BridgeError RtpPacket := do
  if packet.length < 12 || packet.getD 0 0 >>> 6 != 2 then
    .error (.upstream "media is not a valid RTP packet")
  else
    let offset ← payloadStart packet
    let padding ← paddingLength packet
    if padding ≤ packet.length ∧ offset ≤ packet.length - padding then
      .ok
        { payloadType := packet.getD 1 0 &&& 0x7f
          marker := packet.getD 1 0 &&& 0x80 != 0
          timestamp := u32FromBe (packet.getD 4 0) (packet.getD 5 0) (packet.getD 6 0)
            (packet.getD 7 0)
          payload := (packet.take (packet.length - padding)).drop offset }
    else .error (.upstream "RTP padding is invalid")

/-- True when a VTM payload is an RTP version 2 packet. -/
def isRtp (packet : Bytes) : Bool := (parseRtp packet).isOk

def detectCodec : Option UInt8 → Option VideoCodec
  | none => none
  | some first =>
    let h264Type := first &&& 0x1f
    let hevcType := first >>> 1 &&& 0x3f
    if h264Type ∈ [24, 28] ∨ first ∈ [0x65, 0x67, 0x68] then some .h264
    else if hevcType ∈ [48, 49] ∨ first ∈ [0x40, 0x42, 0x44] then some .hevc
    else none

/-! ### Depacketizing -/

/-- `RtpNalDecryptor`. -/
structure RtpNalDecryptor where
  codec : VideoCodec
  nal : NalDecryptor
  fragment : Option Bytes
  stamp : UInt32
  deriving DecidableEq

namespace RtpNalDecryptor

def maxFragmentBytes : ℕ := 2 * 1024 * 1024

variable (aes : Aes128)

def new (codec : VideoCodec) (key : Option Block) : RtpNalDecryptor where
  codec := codec
  nal := NalDecryptor.new codec key
  fragment := none
  stamp := 0

/-- `self.nal.feed(self.stamp, nal)`. -/
def feedNal (self : RtpNalDecryptor) (nal : Bytes) : Outcome RtpNalDecryptor Chunks :=
  let (result, decryptor) := self.nal.feed aes self.stamp nal
  (result, { self with nal := decryptor })

def finishFragment (self : RtpNalDecryptor) : Outcome RtpNalDecryptor Chunks :=
  match self.fragment with
  | none => (.error (.upstream "RTP fragment ended before it started"), self)
  | some fragment => feedNal aes { self with fragment := none } fragment

/-- A fragmentation unit: `start` is the NAL header rebuilt from it when its start bit is set. -/
def feedFragment (self : RtpNalDecryptor) (fu : UInt8) (start data : Bytes) :
    Outcome RtpNalDecryptor Chunks :=
  let fragment := if fu &&& 0x80 != 0 then some start else self.fragment
  match fragment with
  | some fragment =>
    let fragment := fragment ++ data
    let self := { self with fragment := some fragment }
    if fragment.length > maxFragmentBytes then
      (.error (.capacity "RTP fragment exceeded its byte bound"), self)
    else if fu &&& 0x40 != 0 then self.finishFragment aes
    else (.ok [], self)
  | none => if fu &&& 0x40 != 0 then self.finishFragment aes else (.ok [], self)

/-- The loop of `feed_aggregation`; the fuel starts at the length of the payload, and every pass
takes at least three bytes. -/
def feedAggregationLoop : ℕ → RtpNalDecryptor → Bytes → Chunks → Outcome RtpNalDecryptor Chunks
  | 0, self, _, output => (.ok output, self)
  | fuel + 1, self, payload, output =>
    match payload with
    | [] => (.ok output, self)
    | [_] => (.error (.upstream "RTP aggregation length is truncated"), self)
    | hi :: lo :: payload =>
      let size := (u16FromBe hi lo).toNat
      if size = 0 ∨ size > payload.length then
        (.error (.upstream "RTP aggregation unit is invalid"), self)
      else
        match self.feedNal aes (payload.take size) with
        | (.error e, self) => (.error e, self)
        | (.ok chunks, self) =>
          feedAggregationLoop fuel self (payload.drop size) (output ++ chunks)

def feedAggregation (self : RtpNalDecryptor) (payload : Bytes) : Outcome RtpNalDecryptor Chunks :=
  feedAggregationLoop aes payload.length self payload []

def feedH264 (self : RtpNalDecryptor) (payload : Bytes) : Outcome RtpNalDecryptor Chunks :=
  match payload with
  | [] => (.ok [], self)
  | first :: rest =>
    if first &&& 0x1f = 28 then
      match rest with
      | [] => (.error (.upstream "H.264 FU-A is truncated"), self)
      | fu :: data => self.feedFragment aes fu [(first &&& 0xe0) ||| (fu &&& 0x1f)] data
    else if first &&& 0x1f = 24 then self.feedAggregation aes rest
    else self.feedNal aes (first :: rest)

def feedHevc (self : RtpNalDecryptor) (payload : Bytes) : Outcome RtpNalDecryptor Chunks :=
  match payload with
  | first :: second :: rest =>
    if first >>> 1 &&& 0x3f = 49 then
      match rest with
      | [] => (.error (.upstream "HEVC FU is truncated"), self)
      | fu :: data =>
        let start : Bytes := [first &&& (0x81 : UInt8) ||| (fu &&& (0x3f : UInt8)) <<< 1, second]
        self.feedFragment aes fu start data
    else if first >>> 1 &&& 0x3f = 48 then self.feedAggregation aes rest
    else self.feedNal aes (first :: second :: rest)
  | _ => (.ok [], self)

def feed (self : RtpNalDecryptor) (stamp : UInt32) (payload : Bytes) :
    Outcome RtpNalDecryptor Chunks :=
  let self := { self with stamp := stamp }
  match self.codec with
  | .h264 => self.feedH264 aes payload
  | .hevc => self.feedHevc aes payload

end RtpNalDecryptor

/-! ### The video half of a session -/

/-- `RtpVideo`. The video payload type is the first one whose payload names a codec. -/
structure RtpVideo where
  key : Option Block
  codec : Option VideoCodec
  payloadType : Option UInt8
  buffered : List Bytes
  bufferedBytes : ℕ
  decryptor : Option RtpNalDecryptor
  deriving DecidableEq

namespace RtpVideo

def maxPendingBytes : ℕ := 4 * 1024 * 1024

def maxCodecProbePackets : ℕ := 400

variable (aes : Aes128)

def withKey (key : Option Block) : RtpVideo where
  key := key
  codec := none
  payloadType := none
  buffered := []
  bufferedBytes := 0
  decryptor := none

/-- A camera that sends RTP without encryption: no key, no classification. -/
def clear : RtpVideo := withKey none

/-- The key is the verification code, cut or zero-padded to sixteen bytes. -/
def encrypted (verificationCode : Bytes) : Except BridgeError RtpVideo :=
  if verificationCode = [] ∨ verificationCode.length > 64 then
    .error (.configuration "camera verification code length is invalid")
  else .ok (withKey (some (toBlock verificationCode)))

/-- Set the marker on the last item if it belongs to the packet's own access unit, and otherwise
deliver the marker on an empty item. -/
def closeItems (timestamp : UInt32) (marker : Bool) (output : List RtpOutput) : List RtpOutput :=
  match output.getLast? with
  | some (.video last _ data) =>
    if last = timestamp then output.dropLast ++ [.video last marker data]
    else output ++ [.video timestamp marker []]
  | _ => output ++ [.video timestamp marker []]

def route (self : RtpVideo) (rtp : RtpPacket) (video : UInt8) : Outcome RtpVideo (List RtpOutput) :=
  if rtp.payloadType ≠ video then
    (.ok [.other rtp.payloadType rtp.timestamp rtp.payload], self)
  else
    match self.decryptor with
    | none => (.error (.upstream "video depacketizer is unavailable"), self)
    | some decryptor =>
      match decryptor.feed aes rtp.timestamp rtp.payload with
      | (.error e, decryptor) => (.error e, { self with decryptor := some decryptor })
      | (.ok chunks, decryptor) =>
        -- held NALs released now keep their own timestamps; only this packet's access unit can
        -- be closed by its marker bit
        (.ok (closeItems rtp.timestamp rtp.marker
            (chunks.map fun (timestamp, data) => .video timestamp false data)),
          { self with decryptor := some decryptor })

/-- The buffered packets, once the codec is known; packets of other types are only dropped. -/
def replay (video : UInt8) :
    RtpVideo → List Bytes → List RtpOutput → Outcome RtpVideo (List RtpOutput)
  | self, [], output => (.ok output, self)
  | self, candidate :: pending, output =>
    match parseRtp candidate with
    | .error e => (.error e, self)
    | .ok candidate =>
      if candidate.payloadType = video then
        match self.route aes candidate video with
        | (.error e, self) => (.error e, self)
        | (.ok items, self) => replay video self pending (output ++ items)
      else replay video self pending output

def feed (self : RtpVideo) (packet : Bytes) : Outcome RtpVideo (List RtpOutput) :=
  match rejectNonRtpContainer packet with
  | .error e => (.error e, self)
  | .ok () =>
    match parseRtp packet with
    | .error e => (.error e, self)
    | .ok rtp =>
      match self.payloadType with
      | some selected => self.route aes rtp selected
      | none =>
        let self := { self with bufferedBytes := self.bufferedBytes + packet.length }
        if self.bufferedBytes > maxPendingBytes ∨ self.buffered.length ≥ maxCodecProbePackets then
          (.error (.upstream "RTP video codec could not be identified within its bound"), self)
        else
          let self := { self with buffered := self.buffered ++ [packet] }
          match detectCodec rtp.payload.head? with
          | none => (.ok [], self)
          | some codec =>
            replay aes rtp.payloadType
              { self with
                codec := some codec
                payloadType := some rtp.payloadType
                decryptor := some (RtpNalDecryptor.new codec self.key)
                buffered := []
                bufferedBytes := 0 }
              self.buffered []

end RtpVideo

end EzvizBridge
