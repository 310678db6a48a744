import EzvizBridge.Basic
import EzvizBridge.Lib.Wrapping

/-!
# The audio half of an RTP session (`transport/aac_rtp.rs`, `transport/rtp_audio.rs`)

`AudioTrack` decides which payload type of a session is AAC, and turns the packets of that type
into ADTS frames on the 90 kHz timeline of the video. A payload type becomes audio only after
several consecutive AAC frames in packets that read as AAC throughout, and the track gives up
after a bounded number of other packets; `probe` is the state of that question.

The running offset of a clock is an `i64` in the source, which sums of steps below `2 ^ 31` do not
leave in fewer than `2 ^ 32` packets; it is an integer here. The products and sums that make a time
stamp of it are taken modulo `2 ^ 64` (`wrapI64`), as a release build takes them, and there a
running offset that wrapped would make no difference. The counters that the source only logs
(`frames`, `unreadable`) are left out.
-/

namespace EzvizBridge

/-! ### AAC in RTP -/

namespace Aac

def sampleRate : ℤ := 16000

def sampleRateIndex : UInt8 := 8

def frameSamples : ℤ := 1024

def adtsHeader : ℕ := 7

def maxFrameBytes : ℕ := 2 ^ 13 - 1 - adtsHeader

/-- The loop of `access_units` over the 16-bit headers: cut `data` into the units they announce,
with nothing left over. -/
def splitUnits : Bytes → Bytes → Option (List Bytes)
  | hi :: lo :: headers, data =>
    let size := (u16FromBe hi lo >>> 3).toNat
    if size = 0 ∨ size > data.length ∨ size > maxFrameBytes then none
    else (splitUnits headers (data.drop size)).map (data.take size :: ·)
  | _, data => if data = [] then some [] else none

/-- The Access Units of one payload, or `none` when the payload is not a complete, self-consistent
AAC packet. -/
def accessUnits : Bytes → Option (List Bytes)
  | hi :: lo :: rest =>
    let headerBits := (u16FromBe hi lo).toNat
    if headerBits = 0 ∨ headerBits % 16 ≠ 0 then none
    else if headerBits / 8 > rest.length then none
    else splitUnits (rest.take (headerBits / 8)) (rest.drop (headerBits / 8))
  | _ => none

/-- The channel count named by an Access Unit's first syntactic element. -/
def channels (unit : Bytes) : Option UInt8 :=
  match unit.head? with
  | none => none
  | some first => if first >>> 5 = 0 then some 1 else if first >>> 5 = 1 then some 2 else none

/-- One ADTS frame: a seven-byte header without CRC, then the Access Unit. -/
def adtsFrame (unit : Bytes) (channels : UInt8) : Bytes :=
  let length := ((u16TryFrom (unit.length + adtsHeader)).getD 0xffff) &&& 0x1fff
  let lengthHigh := (length >>> 8).toUInt8
  let lengthLow := length.toUInt8
  let channels := channels &&& 0x07
  let header : Bytes :=
    [0xff, 0xf1,
      (0x40 : UInt8) ||| sampleRateIndex <<< 2 ||| channels >>> 2,
      (channels &&& (0x03 : UInt8)) <<< 6 ||| lengthHigh >>> 3,
      lengthHigh <<< 5 ||| lengthLow >>> 3,
      (lengthLow &&& (0x07 : UInt8)) <<< 5 ||| (0x1f : UInt8),
      0xfc]
  header ++ unit

end Aac

/-! ### The clock -/

/-- `Clock`: extends a wrapping 32-bit RTP timestamp to a signed running offset. -/
structure Clock where
  last : Option UInt32 := none
  elapsed : ℤ := 0
  deriving DecidableEq, Repr

/-- The signed 32-bit difference of two timestamps. -/
def signedStep (last timestamp : UInt32) : ℤ := (timestamp - last).toInt32.toInt

/-- `Clock::advance`: the offset of `timestamp`, and the clock after it. -/
def Clock.advance (self : Clock) (timestamp : UInt32) : ℤ × Clock :=
  let elapsed := match self.last with
    | some last => self.elapsed + signedStep last timestamp
    | none => self.elapsed
  (elapsed, { last := some timestamp, elapsed := elapsed })

/-! ### The track -/

/-- `Probe`. -/
inductive Probe
  | undecided
  | confirmed
  | absent
  deriving DecidableEq, Repr

/-- `AudioTrack`. -/
structure AudioTrack where
  payloadType : Option UInt8 := none
  candidate : Option (UInt8 × ℕ) := none
  /-- The candidate's packets with the video PTS current at their arrival. -/
  pending : List (UInt32 × Bytes × ℤ) := []
  probed : ℕ := 0
  gaveUp : Bool := false
  channels : UInt8 := 0
  clock : Clock := {}
  anchor : Option ℤ := none
  deriving DecidableEq

namespace AudioTrack

def confirmations : ℕ := 8

def frameTicks : ℤ := 5760

def probeLimit : ℕ := 400

def probe (self : AudioTrack) : Probe :=
  if self.payloadType.isSome then .confirmed
  else if self.gaveUp then .absent
  else .undecided

def giveUp (self : AudioTrack) : AudioTrack :=
  let self := { self with pending := [] }
  if self.probe = .undecided then { self with gaveUp := true } else self

/-- The channel count of the first frame and the number of frames, when every frame of the
payload opens with a channel element. -/
def valid (payload : Bytes) : Option (UInt8 × ℕ) :=
  match Aac.accessUnits payload with
  | none => none
  | some units =>
    match units.head?.bind Aac.channels with
    | none => none
    | some first =>
      if units.all fun unit => (Aac.channels unit).isSome then some (first, units.length) else none

/-- The candidate and the pending packets after one more packet of the probe. -/
def consider (self : AudioTrack) (payloadType : UInt8) (timestamp : UInt32) (payload : Bytes)
    (videoPts : ℤ) : AudioTrack :=
  match valid payload with
  -- what is no audio ends the run
  | none => { self with candidate := none, pending := [] }
  | some (_, frames) =>
    match self.candidate with
    | some (kind, count) =>
      if kind = payloadType then
        { self with
          candidate := some (kind, count + frames)
          pending := self.pending ++ [(timestamp, payload, videoPts)] }
      else
        { self with
          candidate := some (payloadType, frames)
          pending := [(timestamp, payload, videoPts)] }
    | none =>
      { self with
        candidate := some (payloadType, frames)
        pending := [(timestamp, payload, videoPts)] }

/-- Feed one non-video packet to detection; a no-op once decided. -/
def detect (self : AudioTrack) (payloadType : UInt8) (timestamp : UInt32) (payload : Bytes)
    (videoPts : ℤ) : AudioTrack :=
  if self.probe ≠ .undecided then self
  else
    let self := { self with probed := self.probed + 1 }
    let self := self.consider payloadType timestamp payload videoPts
    match self.candidate with
    | some (kind, count) =>
      -- a run that is long enough confirms the track
      if count ≥ confirmations then
        { self with
          payloadType := some kind
          channels := ((valid payload).map Prod.fst).getD 1 }
      else if self.probed ≥ probeLimit then self.giveUp else self
    | none => if self.probed ≥ probeLimit then self.giveUp else self

/-- The loop of `frames` from the unit at `index` on. -/
def stampFrames (anchor elapsed : ℤ) : ℕ → AudioTrack → List Bytes →
    List (ℤ × Bytes) × AudioTrack
  | _, self, [] => ([], self)
  | index, self, unit :: units =>
    let self := { self with channels := (Aac.channels unit).getD self.channels }
    let samples := elapsed + index * Aac.frameSamples
    let pts := wrapI64 (anchor + (wrapI64 (samples * 90000)).tdiv Aac.sampleRate)
    let (frames, after) := stampFrames anchor elapsed (index + 1) self units
    ((pts, Aac.adtsFrame unit self.channels) :: frames, after)

/-- ADTS frames of one packet of the confirmed type, each with its PTS. `videoPts` anchors the
track the first time frames are produced. -/
def frames (self : AudioTrack) (payloadType : UInt8) (timestamp : UInt32) (payload : Bytes)
    (videoPts : ℤ) : List (ℤ × Bytes) × AudioTrack :=
  if self.payloadType ≠ some payloadType then ([], self)
  else
    match Aac.accessUnits payload with
    | none => ([], self)
    | some units =>
      let (elapsed, clock) := self.clock.advance timestamp
      let span := (units.length - 1 : ℕ) * frameTicks
      let anchor := self.anchor.getD (wrapI64 (videoPts - span))
      stampFrames anchor elapsed 0 { self with clock := clock, anchor := some anchor } units

/-- The loop of `drain_pending`. -/
def framesOfAll (payloadType : UInt8) : AudioTrack → List (UInt32 × Bytes × ℤ) →
    List (ℤ × Bytes) × AudioTrack
  | self, [] => ([], self)
  | self, (timestamp, payload, videoPts) :: pending =>
    let (output, self) := self.frames payloadType timestamp payload videoPts
    let (rest, self) := framesOfAll payloadType self pending
    (output ++ rest, self)

/-- Frames of the packets that confirmed the track. -/
def drainPending (self : AudioTrack) : List (ℤ × Bytes) × AudioTrack :=
  match self.payloadType with
  | none => ([], self)
  | some payloadType =>
    framesOfAll payloadType { self with pending := [] } self.pending

/-- Drop the confirming packets without touching the clock or anchor. -/
def discardPending (self : AudioTrack) : AudioTrack := { self with pending := [] }

/-! ### The probe

The answer is read off two fields, and only `detect` and `give_up` write them, each only while the
question is open. -/

theorem probe_congr {s t : AudioTrack} (htype : t.payloadType = s.payloadType)
    (hgave : t.gaveUp = s.gaveUp) : t.probe = s.probe := by
  rw [probe, htype, hgave, probe]

theorem giveUp_decided (self : AudioTrack) : self.giveUp.probe ≠ .undecided := by
  unfold giveUp
  by_cases h : ({ self with pending := [] } : AudioTrack).probe = .undecided
  · simp only [h, if_true]
    have hnone : self.payloadType.isSome = false := by
      unfold probe at h
      cases htype : self.payloadType with
      | none => rfl
      | some type => simp [htype] at h
    simp [probe, hnone]
  · simp only [h, if_false]
    exact h

/-- Giving up does not take an answer back. -/
theorem giveUp_of_decided {self : AudioTrack} (h : self.probe ≠ .undecided) :
    self.giveUp.probe = self.probe := by
  have hcleared : ({ self with pending := [] } : AudioTrack).probe = self.probe :=
    probe_congr rfl rfl
  unfold giveUp
  simp only [hcleared, h, if_false]

theorem detect_of_decided {self : AudioTrack} (h : self.probe ≠ .undecided) (payloadType : UInt8)
    (timestamp : UInt32) (payload : Bytes) (videoPts : ℤ) :
    self.detect payloadType timestamp payload videoPts = self := by
  rw [detect, if_pos h]

theorem stampFrames_frame (anchor elapsed : ℤ) (units : List Bytes) (index : ℕ)
    (self : AudioTrack) :
    (stampFrames anchor elapsed index self units).2.payloadType = self.payloadType ∧
    (stampFrames anchor elapsed index self units).2.gaveUp = self.gaveUp := by
  induction units generalizing index self with
  | nil => exact ⟨rfl, rfl⟩
  | cons unit units ih => exact ih (index + 1) _

theorem frames_frame (self : AudioTrack) (payloadType : UInt8) (timestamp : UInt32)
    (payload : Bytes) (videoPts : ℤ) :
    (self.frames payloadType timestamp payload videoPts).2.payloadType = self.payloadType ∧
    (self.frames payloadType timestamp payload videoPts).2.gaveUp = self.gaveUp := by
  unfold frames
  split
  · exact ⟨rfl, rfl⟩
  · split
    · exact ⟨rfl, rfl⟩
    · exact stampFrames_frame _ _ _ _ _

theorem framesOfAll_frame (payloadType : UInt8) (pending : List (UInt32 × Bytes × ℤ))
    (self : AudioTrack) :
    (framesOfAll payloadType self pending).2.payloadType = self.payloadType ∧
    (framesOfAll payloadType self pending).2.gaveUp = self.gaveUp := by
  induction pending generalizing self with
  | nil => exact ⟨rfl, rfl⟩
  | cons packet pending ih =>
    obtain ⟨htype, hgave⟩ := self.frames_frame payloadType packet.1 packet.2.1 packet.2.2
    obtain ⟨htype', hgave'⟩ := ih (self.frames payloadType packet.1 packet.2.1 packet.2.2).2
    exact ⟨htype'.trans htype, hgave'.trans hgave⟩

theorem drainPending_probe (self : AudioTrack) : self.drainPending.2.probe = self.probe := by
  unfold drainPending
  split
  · rfl
  · next payloadType _ =>
    obtain ⟨htype, hgave⟩ := framesOfAll_frame payloadType self.pending { self with pending := [] }
    exact probe_congr htype hgave

theorem discardPending_probe (self : AudioTrack) : self.discardPending.probe = self.probe :=
  probe_congr rfl rfl

theorem frames_probe (self : AudioTrack) (payloadType : UInt8) (timestamp : UInt32)
    (payload : Bytes) (videoPts : ℤ) :
    (self.frames payloadType timestamp payload videoPts).2.probe = self.probe := by
  obtain ⟨htype, hgave⟩ := self.frames_frame payloadType timestamp payload videoPts
  exact probe_congr htype hgave

/-- Only a confirmed track has frames. -/
theorem confirmed_of_frames {self : AudioTrack} {payloadType : UInt8} {timestamp : UInt32}
    {payload : Bytes} {videoPts : ℤ}
    (h : (self.frames payloadType timestamp payload videoPts).1 ≠ []) :
    self.probe = .confirmed := by
  have htype : self.payloadType = some payloadType := by
    by_contra hne
    rw [frames, if_pos hne] at h
    exact h rfl
  simp [probe, htype]

end AudioTrack

end EzvizBridge
