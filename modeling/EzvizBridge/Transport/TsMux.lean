import EzvizBridge.Basic

/-!
# The MPEG-TS muxer (`transport/ts_mux.rs`, `transport/ts_mux_crc.rs`)

A minimal muxer for depacketized RTP media: one program, one video stream (H.264 or HEVC) and an
optional ADTS AAC stream. `TsMuxer::video` and `TsMuxer::audio` return the transport packets of
one PES packet, preceded by the PAT and the PMT when they are due.

The `while` loop of `packetize` is `packetizeLoop`, which recurses on a fuel argument started at
the length of the PES packet; every pass takes at least one byte, so the fuel outlives the loop
(`TsMuxRoundTrip.lean` shows that the whole PES packet is written). The continuity counters
`[u8; 4]` are a function on the four slots.

`TsMuxer.Call` names the calls of the muxer's interface, and `TsMuxer.run` is the concatenated
output of a sequence of them.
-/

namespace EzvizBridge
namespace TsMux

def packet : ℕ := 188

def payload : ℕ := packet - 4

def pmtPid : UInt16 := 0x1000

def videoPid : UInt16 := 0x0100

def audioPid : UInt16 := 0x0101

def ptsMask : UInt64 := ((1 : UInt64) <<< 33) - 1

/-- PCR runs this far behind the video PTS, the decoder's buffering margin. -/
def pcrLead : UInt64 := 45000

/-- Least significant byte. -/
def byte (value : UInt64) : UInt8 := value.toUInt8

def high (value : UInt16) : UInt8 := (value >>> 8).toUInt8 &&& 0x1f

def low (value : UInt16) : UInt8 := value.toUInt8

/-- `crc32_mpeg2`: polynomial `0x04C11DB7`, no reflection, initial value all ones. -/
def crcBit (crc : UInt32) : UInt32 :=
  if crc &&& 0x80000000 = 0 then crc <<< 1 else (crc <<< 1) ^^^ 0x04c11db7

@[inherit_doc crcBit]
def crcByte (crc : UInt32) (b : UInt8) : UInt32 :=
  Nat.repeat crcBit 8 (crc ^^^ (b.toUInt32 <<< 24))

@[inherit_doc crcBit]
def crc32Mpeg2 (data : Bytes) : UInt32 := data.foldl crcByte 0xffffffff

def ptsBytes (pts : UInt64) : Bytes :=
  let pts := pts &&& ptsMask
  [(0x21 : UInt8) ||| byte (pts >>> 30) <<< 1 &&& 0x0e,
    byte (pts >>> 22),
    byte (pts >>> 14) &&& 0xfe ||| 1,
    byte (pts >>> 7),
    byte (pts <<< 1) &&& 0xfe ||| 1]

def pcrBytes (base : UInt64) : Bytes :=
  let base := base &&& ptsMask
  [byte (base >>> 25),
    byte (base >>> 17),
    byte (base >>> 9),
    byte (base >>> 1),
    byte (base &&& 1) <<< 7 ||| 0x7e,
    0x00]

def pes (streamId : UInt8) (pts : UInt64) (payload : Bytes) (bounded : Bool) : Bytes :=
  let length := if bounded then (u16TryFrom (payload.length + 8)).getD 0 else 0
  [0x00, 0x00, 0x01, streamId] ++ u16ToBe length ++ [0x80, 0x80, 0x05] ++ ptsBytes pts ++ payload

/-- `section`: a PSI section with its length and its CRC. -/
def psiSection (tableId : UInt8) (id : UInt16) (version : UInt8) (body : Bytes) : Bytes :=
  -- five header bytes after the length, the body and a four-byte CRC
  let length := (u16TryFrom (5 + body.length + 4)).getD 0x3fd
  let output := [tableId, 0xb0 ||| high length, low length] ++ u16ToBe id ++
    [(0xc1 : UInt8) ||| (version &&& 0x1f) <<< 1, 0x00, 0x00] ++ body
  output ++ u32ToBe (crc32Mpeg2 output)

end TsMux

open TsMux

/-- `TsMuxer`. -/
structure TsMuxer where
  codec : VideoCodec
  /-- The field `audio`; the method of that name is `TsMuxer.audio`. -/
  hasAudio : Bool
  pmtVersion : UInt8
  tablesDue : Bool
  continuity : Fin 4 → UInt8

namespace TsMuxer

def new (codec : VideoCodec) : TsMuxer where
  codec := codec
  hasAudio := false
  pmtVersion := 0
  tablesDue := true
  continuity := fun _ => 0

/-- Declares the audio stream; the next packet carries a new PMT version. -/
def enableAudio (self : TsMuxer) : TsMuxer :=
  if !self.hasAudio then
    { self with
      hasAudio := true
      pmtVersion := (self.pmtVersion + 1) &&& 0x1f
      tablesDue := true }
  else self

/-- The counter slot of a PID. -/
def slot (pid : UInt16) : Fin 4 :=
  if pid = 0x0000 then 0
  else if pid = pmtPid then 1
  else if pid = videoPid then 2
  else 3

/-- `next_cc`: the current counter of the PID, and the muxer with the counter advanced. -/
def nextCc (self : TsMuxer) (pid : UInt16) : UInt8 × TsMuxer :=
  let value := self.continuity (slot pid)
  (value, { self with
    continuity := Function.update self.continuity (slot pid) ((value + 1) &&& 0x0f) })

def psi (self : TsMuxer) (pid : UInt16) (sec : Bytes) : TsMuxer × Bytes :=
  let (cc, self) := self.nextCc pid
  (self, resize ([0x47, 0x40 ||| high pid, low pid, 0x10 ||| cc] ++ [0x00] ++ sec) packet 0xff)

/-- The PAT section: program 1 in the PMT's PID. -/
def programAssociation : Bytes :=
  psiSection 0x00 1 0 [0x00, 0x01, 0xe0 ||| high pmtPid, low pmtPid]

/-- The elementary streams the PMT lists: stream type and PID. -/
def streams (codec : VideoCodec) (audio : Bool) : List (UInt8 × UInt16) :=
  let streamType : UInt8 := match codec with
    | .h264 => 0x1b
    | .hevc => 0x24
  [(streamType, videoPid)] ++ if audio then [(0x0f, audioPid)] else []

/-- The PMT section. -/
def programMap (codec : VideoCodec) (audio : Bool) (version : UInt8) : Bytes :=
  psiSection 0x02 1 version
    ([0xe0 ||| high videoPid, low videoPid, 0xf0, 0x00] ++
      (streams codec audio).flatMap fun (kind, pid) =>
        [kind, 0xe0 ||| high pid, low pid, 0xf0, 0x00])

def tables (self : TsMuxer) (keyframe : Bool) : TsMuxer × Bytes :=
  if !self.tablesDue && !keyframe then (self, [])
  else
    let self := { self with tablesDue := false }
    let (self, pat) := self.psi 0x0000 programAssociation
    let (self, pmt) := self.psi pmtPid (programMap self.codec self.hasAudio self.pmtVersion)
    (self, pat ++ pmt)

/-- The adaptation field a packet opens with before stuffing: flags and PCR on the first packet
of a PES packet that has either. -/
def openingField (first : Bool) (pcr : Option UInt64) (randomAccess : Bool) : Option Bytes :=
  if first && (pcr.isSome || randomAccess) then
    some ([randomAccess.toUInt8 <<< 6 ||| pcr.isSome.toUInt8 <<< 4] ++
      match pcr with
      | some pcr => pcrBytes pcr
      | none => [])
  else none

/-- Bytes the adaptation field takes, its length byte included. -/
def used (adaptation : Option Bytes) : ℕ := (adaptation.map fun field => field.length + 1).getD 0

/-- Stuff the adaptation field so that `remaining` payload bytes end with the packet. -/
def stuff (adaptation : Option Bytes) (remaining : ℕ) : Option Bytes :=
  if remaining < payload - used adaptation then
    let stuffing := payload - used adaptation - remaining
    match adaptation with
    | some field => some (resize field (field.length + stuffing) 0xff)
    | none => if stuffing = 1 then some [] else some (resize [0x00] (stuffing - 1) 0xff)
  else adaptation

/-- The adaptation field as written: length byte and field. -/
def fieldBytes : Option Bytes → Bytes
  | some field => (u8TryFrom field.length).getD 255 :: field
  | none => []

/-- The loop of `packetize` from `offset` on. -/
def packetizeLoop (pid : UInt16) (pes : Bytes) (pcr : Option UInt64) (randomAccess : Bool) :
    ℕ → ℕ → TsMuxer → Bytes → TsMuxer × Bytes
  | 0, _, self, output => (self, output)
  | fuel + 1, offset, self, output =>
    if offset < pes.length then
      let first := offset == 0
      let remaining := pes.length - offset
      -- the last packet is filled up with stuffing
      let adaptation := stuff (openingField first pcr randomAccess) remaining
      let control : UInt8 := if adaptation.isSome then 0x30 else 0x10
      let start : UInt8 := if first then 0x40 else 0x00
      let (cc, self) := self.nextCc pid
      let output := output ++ [0x47, start ||| high pid, low pid] ++ [control ||| cc] ++
        fieldBytes adaptation
      let room := packet - output.length % packet
      let take := min room remaining
      packetizeLoop pid pes pcr randomAccess fuel (offset + take) self
        (output ++ (pes.drop offset).take take)
    else (self, output)

def packetize (self : TsMuxer) (pid : UInt16) (pes : Bytes) (pcr : Option UInt64)
    (randomAccess : Bool) (output : Bytes) : TsMuxer × Bytes :=
  packetizeLoop pid pes pcr randomAccess pes.length 0 self output

/-- The access unit delimiter of a codec, behind its start code. -/
def delimiter : VideoCodec → Bytes
  | .h264 => [0x00, 0x00, 0x00, 0x01, 0x09, 0xf0]
  | .hevc => [0x00, 0x00, 0x00, 0x01, 0x46, 0x01, 0x50]

/-- The PES payload of an access unit: cameras that already send an access unit delimiter keep
their own. -/
def videoBody (codec : VideoCodec) (accessUnit : Bytes) : Bytes :=
  (if accessUnit[4]? = (delimiter codec)[4]? then [] else delimiter codec) ++ accessUnit

/-- One video access unit in Annex-B form, stamped with a 90 kHz PTS. -/
def video (self : TsMuxer) (pts : UInt64) (keyframe : Bool) (accessUnit : Bytes) :
    TsMuxer × Bytes :=
  let (self, output) := self.tables keyframe
  let packet := pes 0xe0 pts (videoBody self.codec accessUnit) false
  let pcr := (pts - pcrLead) &&& ptsMask
  self.packetize videoPid packet (some pcr) keyframe output

/-- One or more ADTS frames that share a 90 kHz PTS. -/
def audio (self : TsMuxer) (pts : UInt64) (adts : Bytes) : TsMuxer × Bytes :=
  let (self, output) := self.tables false
  self.packetize audioPid (pes 0xc0 pts adts true) none false output

/-- A call of the muxer's interface. -/
inductive Call
  | enableAudio
  | video (pts : UInt64) (keyframe : Bool) (accessUnit : Bytes)
  | audio (pts : UInt64) (adts : Bytes)
  deriving DecidableEq, Repr

/-- One call: the muxer after it, and the bytes it returned. -/
def call (self : TsMuxer) : Call → TsMuxer × Bytes
  | .enableAudio => (self.enableAudio, [])
  | .video pts keyframe accessUnit => self.video pts keyframe accessUnit
  | .audio pts adts => self.audio pts adts

/-- A sequence of calls: the muxer after it, and the concatenated output. -/
def run (self : TsMuxer) : List Call → TsMuxer × Bytes
  | [] => (self, [])
  | c :: calls =>
    let (self, output) := self.call c
    let (self, rest) := self.run calls
    (self, output ++ rest)

end TsMuxer

end EzvizBridge
