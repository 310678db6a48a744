import EzvizBridge.Lib.Transducer
import EzvizBridge.Transport.Video
import Mathlib.Algebra.GroupWithZero.Nat

/-!
# Which codec a session selects

`RtpVideo::feed` decides the codec and the video payload type of a session once, from the first
packet whose first payload byte names a codec, and it gives up after 400 packets or 4 MiB. The
decision is `selection`, a function of the packets alone: `run_selection` says that this is what a
session ends with, whatever the depacketizer made of the packets and whether or not it failed.

A byte has a reading under either codec and `detect_codec` tries H.264 first, so the H.264 reading
of an HEVC packet would be the danger there; no assigned type has one (`detectCodec_hevc`). In the
other direction the readings do collide: a single NAL packet of H.264 whose header byte is one of
`misread` is taken for an HEVC aggregate, fragment or parameter set. `own_codec_selected_iff` is
the resulting exact condition: a session goes wrong precisely when such a packet comes before every
packet that names H.264, within the bound of the probe.
-/

namespace EzvizBridge

/-! ### RTP payload formats -/

/-- First payload byte of an H.264 packet: a single NAL of type 1 to 23, a STAP-A or an FU-A.
Neither `nal_ref_idc` nor the forbidden bit is restricted. -/
def h264FirstByte (first : UInt8) : Bool :=
  let kind := first &&& 0x1f
  (1 ≤ kind && kind ≤ 23) || kind == 24 || kind == 28

/-- First payload byte of an HEVC packet: a slice segment or a parameter set of an assigned type,
an aggregation packet or a fragmentation unit. The layer id is not restricted. -/
def hevcFirstByte (first : UInt8) : Bool :=
  let kind := first >>> 1 &&& 0x3f
  kind ≤ 9 || (16 ≤ kind && kind ≤ 21) || (32 ≤ kind && kind ≤ 34) || kind == 48 || kind == 49

/-- Which bytes a packet of the codec may start with. -/
def VideoCodec.firstByte : VideoCodec → UInt8 → Bool
  | .h264 => h264FirstByte
  | .hevc => hevcFirstByte

/-- A packet of a session that carries `codec` video under the payload type `video`, and packets of
other types that name no codec. -/
def InStream (codec : VideoCodec) (video : UInt8) (packet : Bytes) : Prop :=
  ∃ rtp, parseRtp packet = .ok rtp ∧
    ((rtp.payloadType = video ∧ ∃ first, rtp.payload.head? = some first ∧ codec.firstByte first) ∨
      (rtp.payloadType ≠ video ∧ detectCodec rtp.payload.head? = none))

/-- The H.264 header bytes that `detect_codec` reads as HEVC. -/
def misread (first : UInt8) : Bool :=
  first ∈ [0x42, 0x44, 0x61, 0x62, 0x63, 0xe1, 0xe2, 0xe3]

/-- The H.264 first bytes that `detect_codec` recognises. -/
def namesH264 (first : UInt8) : Bool :=
  first &&& 0x1f ∈ [24, 28] || first ∈ [0x65, 0x67, 0x68]

theorem detectCodec_hevc (first : UInt8) (h : hevcFirstByte first) :
    detectCodec (some first) ≠ some .h264 := by
  revert first
  decide +kernel

/-- Some packets of an H.264 stream name it. -/
theorem detectCodec_h264 (first : UInt8) :
    detectCodec (some first) = some .h264 ↔ namesH264 first := by
  rw [namesH264, Bool.or_eq_true, decide_eq_true_eq, decide_eq_true_eq, detectCodec]
  split_ifs with hnames
  · exact iff_of_true rfl hnames
  · exact iff_of_false (by rintro ⟨⟩) hnames
  · exact iff_of_false (by rintro ⟨⟩) hnames

theorem detectCodec_misread (first : UInt8) (h : h264FirstByte first) :
    detectCodec (some first) = some .hevc ↔ misread first := by
  revert first
  decide +kernel

theorem detectCodec_of_misread (first : UInt8) (h : misread first) :
    detectCodec (some first) = some .hevc := by
  simp only [misread, List.mem_cons, List.not_mem_nil, or_false, decide_eq_true_eq] at h
  obtain rfl | rfl | rfl | rfl | rfl | rfl | rfl | rfl := h <;> rfl

/-! ### The selection -/

namespace RtpVideo

variable (aes : Aes128)

/-- The codec and payload type a probe settles on, `count` packets and `bytes` bytes into it. -/
def selection : ℕ → ℕ → List Bytes → Option (VideoCodec × UInt8)
  | _, _, [] => none
  | count, bytes, packet :: packets =>
    match parseRtp packet with
    | .error _ => none
    | .ok rtp =>
      if bytes + packet.length > maxPendingBytes ∨ count ≥ maxCodecProbePackets then none
      else
        match detectCodec rtp.payload.head? with
        | some codec => some (codec, rtp.payloadType)
        | none => selection (count + 1) (bytes + packet.length) packets

/-- What a session has decided: the two fields are written together. -/
def Decided (self : RtpVideo) (decision : Option (VideoCodec × UInt8)) : Prop :=
  self.codec = decision.map Prod.fst ∧ self.payloadType = decision.map Prod.snd

/-- Neither field of the decision is written by `route`. -/
theorem route_frame (self : RtpVideo) (rtp : RtpPacket) (video : UInt8) :
    (self.route aes rtp video).2.codec = self.codec ∧
    (self.route aes rtp video).2.payloadType = self.payloadType := by
  unfold route
  split
  · exact ⟨rfl, rfl⟩
  · split
    · exact ⟨rfl, rfl⟩
    · split <;> exact ⟨rfl, rfl⟩

/-- The replay of the buffered packets keeps codec and payload type. -/
theorem replay_frame (video : UInt8) (pending : List Bytes) (self : RtpVideo)
    (output : List RtpOutput) :
    (replay aes video self pending output).2.codec = self.codec ∧
    (replay aes video self pending output).2.payloadType = self.payloadType := by
  -- on the packets that are replayed
  induction pending generalizing self output with
  | nil => exact ⟨rfl, rfl⟩
  | cons candidate pending ih =>
    rw [replay]
    split
    · exact ⟨rfl, rfl⟩
    · next rtp _ =>
      split
      · -- the route keeps both fields, whether it fails or not
        obtain ⟨hcodec, htype⟩ := route_frame aes self rtp video
        split
        · next e self' hroute => rw [hroute] at hcodec htype; exact ⟨hcodec, htype⟩
        · next items self' hroute =>
          rw [hroute] at hcodec htype
          obtain ⟨hcodec', htype'⟩ := ih self' (output ++ items)
          exact ⟨hcodec'.trans hcodec, htype'.trans htype⟩
      · exact ih self output

/-- RTP version 2 rules out the containers that `feed` rejects by their first byte. -/
theorem rejectNonRtpContainer_of_parseRtp {packet : Bytes} {rtp : RtpPacket}
    (h : parseRtp packet = .ok rtp) : rejectNonRtpContainer packet = .ok () := by
  -- the first byte has the version, and neither container starts with it
  cases packet with
  | nil => cases h
  | cons first packet =>
    have hversion : first >>> 6 = 2 := by
      by_contra hne
      simp [parseRtp, hne] at h
    have hzero : first ≠ 0x00 := by rintro rfl; revert hversion; decide
    have hsync : first ≠ 0x47 := by rintro rfl; revert hversion; decide
    unfold rejectNonRtpContainer
    rw [if_neg, if_neg]
    · simpa using hsync
    · rw [List.cons_prefix_cons]
      exact fun hprefix => hzero hprefix.1.symm

/-- Once the payload type is known it does not change, and neither does the codec. -/
theorem feed_selected {self : RtpVideo} {video : UInt8} (h : self.payloadType = some video)
    (packet : Bytes) :
    (self.feed aes packet).2.codec = self.codec ∧
    (self.feed aes packet).2.payloadType = self.payloadType := by
  unfold feed
  split
  · exact ⟨rfl, rfl⟩
  · split
    · exact ⟨rfl, rfl⟩
    · next rtp _ =>
      simp only [h]
      exact h ▸ route_frame aes self rtp video

/-- A session that has its payload type keeps it. -/
theorem run_selected {self : RtpVideo} {video : UInt8} (h : self.payloadType = some video)
    (packets : List Bytes) :
    (Transducer.run (feed aes) self packets).2.codec = self.codec ∧
    (Transducer.run (feed aes) self packets).2.payloadType = self.payloadType := by
  have hstep : ∀ (s : RtpVideo) (packet : Bytes),
      (s.codec = self.codec ∧ s.payloadType = self.payloadType) →
      (s.feed aes packet).2.codec = self.codec ∧
        (s.feed aes packet).2.payloadType = self.payloadType := by
    intro s packet hs
    obtain ⟨hcodec, htype⟩ := feed_selected aes (hs.2.trans h) packet
    exact ⟨hcodec.trans hs.1, htype.trans hs.2⟩
  exact Transducer.run_keeps _ hstep ⟨rfl, rfl⟩ packets

/-- One packet of a probe, as `selection` sees it. -/
theorem feed_probing {self : RtpVideo} (hcodec : self.codec = none)
    (htype : self.payloadType = none) {packet : Bytes} {rtp : RtpPacket}
    (hparse : parseRtp packet = .ok rtp) :
    if self.bufferedBytes + packet.length > maxPendingBytes ∨
        self.buffered.length ≥ maxCodecProbePackets then
      (∃ e, (self.feed aes packet).1 = .error e) ∧ (self.feed aes packet).2.Decided none
    else
      match detectCodec rtp.payload.head? with
      | some codec =>
        (self.feed aes packet).2.Decided (some (codec, rtp.payloadType))
      | none =>
        self.feed aes packet = (.ok [], { self with
          bufferedBytes := self.bufferedBytes + packet.length
          buffered := self.buffered ++ [packet] }) := by
  unfold feed
  simp only [rejectNonRtpContainer_of_parseRtp hparse, hparse, htype]
  -- out of bounds, or the detector is asked
  split
  · exact ⟨⟨_, rfl⟩, hcodec, rfl⟩
  · cases detectCodec rtp.payload.head? with
    | none => rfl
    | some codec => exact replay_frame aes _ _ _ _

/-- **A session ends with its selection**, whether the depacketizer succeeded or not. -/
theorem run_selection {self : RtpVideo} (hcodec : self.codec = none)
    (htype : self.payloadType = none) {packets : List Bytes}
    (hparse : ∀ packet ∈ packets, ∃ rtp, parseRtp packet = .ok rtp) :
    (Transducer.run (feed aes) self packets).2.Decided
      (selection self.buffered.length self.bufferedBytes packets) := by
  -- on the packets, as long as nothing is decided
  induction packets generalizing self with
  | nil => exact ⟨hcodec, htype⟩
  | cons packet packets ih =>
    obtain ⟨rtp, hrtp⟩ := hparse packet (List.mem_cons_self)
    have hrest : ∀ packet ∈ packets, ∃ rtp, parseRtp packet = .ok rtp :=
      fun packet hmem => hparse packet (List.mem_cons_of_mem _ hmem)
    have hfeed := feed_probing aes hcodec htype hrtp
    rw [selection, hrtp]
    dsimp only
    split at hfeed
    · next hbound =>
      -- out of bounds: the run stops here without a decision
      obtain ⟨⟨e, he⟩, hnone⟩ := hfeed
      rw [if_pos hbound]
      have hrun : Transducer.run (feed aes) self (packet :: packets) =
          (.error e, (self.feed aes packet).2) := Transducer.run_cons_error (Prod.ext he rfl)
      rw [hrun]
      exact hnone
    · next hbound =>
      rw [if_neg hbound]
      cases hdetect : detectCodec rtp.payload.head? with
      | none =>
        simp only [hdetect] at hfeed
        rw [Transducer.run_cons_state hfeed]
        have hnext := @ih { self with
          bufferedBytes := self.bufferedBytes + packet.length
          buffered := self.buffered ++ [packet] } hcodec htype hrest
        rwa [List.length_append, List.length_singleton] at hnext
      | some codec =>
        simp only [hdetect] at hfeed
        -- the decision stands, whether its packet fails or not
        cases hresult : (self.feed aes packet).1 with
        | error e =>
          have hrun : Transducer.run (feed aes) self (packet :: packets) =
              (.error e, (self.feed aes packet).2) :=
            Transducer.run_cons_error (Prod.ext hresult rfl)
          rw [hrun]
          exact hfeed
        | ok items =>
          have hrun : (Transducer.run (feed aes) self (packet :: packets)).2 =
              (Transducer.run (feed aes) (self.feed aes packet).2 packets).2 :=
            Transducer.run_cons_state (Prod.ext hresult rfl)
          obtain ⟨hcodec', htype'⟩ := run_selected aes hfeed.2 packets
          rw [hrun]
          exact ⟨hcodec'.trans hfeed.1, htype'.trans hfeed.2⟩

/-! ### The property -/

/-- The first payload byte of a packet. -/
def firstPayloadByte (packet : Bytes) : Option UInt8 :=
  match parseRtp packet with
  | .error _ => none
  | .ok rtp => rtp.payload.head?

/-- A session over `packets` that selects a codec at all has selected `codec` and the payload type
`video`. -/
def SelectsOwn (codec : VideoCodec) (video : UInt8) (key : Option Block) (packets : List Bytes) :
    Prop :=
  let session := (Transducer.run (feed aes) (withKey key) packets).2
  ∀ found, session.codec = some found → found = codec ∧ session.payloadType = some video

/-- A packet that `detect_codec` misreads comes before every packet that names H.264, within the
bound of a probe that is already `count` packets and `bytes` bytes long. -/
def MisreadFirst (count bytes : ℕ) (packets : List Bytes) : Prop :=
  ∃ before packet after, packets = before ++ packet :: after ∧
    (firstPayloadByte packet).any misread ∧
    (∀ earlier ∈ before, ¬ (firstPayloadByte earlier).any namesH264) ∧
    count + before.length < maxCodecProbePackets ∧
    bytes + ((before ++ [packet]).map List.length).sum ≤ maxPendingBytes

/-- The packet that a probe of a well-formed stream settles on is one of the video packets. -/
theorem selection_type {codec found : VideoCodec} {video type : UInt8} {packets : List Bytes}
    (h : ∀ packet ∈ packets, InStream codec video packet) {count bytes : ℕ}
    (hsel : selection count bytes packets = some (found, type)) :
    type = video ∧ ∃ first, codec.firstByte first ∧ detectCodec (some first) = some found := by
  -- on the packets
  induction packets generalizing count bytes with
  | nil => cases hsel
  | cons packet packets ih =>
    obtain ⟨rtp, hrtp, hstream⟩ := h packet (List.mem_cons_self)
    rw [selection, hrtp] at hsel
    dsimp only at hsel
    split at hsel
    -- this packet decides, or a later one
    · cases hsel
    · split at hsel
      · next codec' hdetect =>
        cases hsel
        rcases hstream with ⟨htype, first, hfirst, hbyte⟩ | ⟨-, hnone⟩
        · exact ⟨htype, first, hbyte, hfirst ▸ hdetect⟩
        · rw [hnone] at hdetect
          cases hdetect
      · exact ih (fun packet hmem => h packet (List.mem_cons_of_mem _ hmem)) hsel

/-- The first packet decides, or it is passed over. -/
theorem misreadFirst_cons (count bytes : ℕ) (packet : Bytes) (packets : List Bytes) :
    MisreadFirst count bytes (packet :: packets) ↔
      (count < maxCodecProbePackets ∧ bytes + packet.length ≤ maxPendingBytes) ∧
        ((firstPayloadByte packet).any misread ∨
          (¬ (firstPayloadByte packet).any namesH264 ∧
            MisreadFirst (count + 1) (bytes + packet.length) packets)) := by
  constructor
  · rintro ⟨before, misreadPacket, after, heq, hmisread, hbefore, hcount, hbytes⟩
    -- the misread packet is the first one, or it comes later
    cases before with
    | nil =>
      cases heq
      simp only [List.nil_append, List.map_singleton, List.sum_singleton, List.length_nil,
        Nat.add_zero] at hcount hbytes
      exact ⟨⟨hcount, hbytes⟩, Or.inl hmisread⟩
    | cons head before =>
      cases heq
      simp only [List.cons_append, List.map_cons, List.sum_cons, List.length_cons] at hcount hbytes
      refine ⟨⟨by omega, by omega⟩, Or.inr ⟨hbefore _ List.mem_cons_self, before, misreadPacket,
        after, rfl, hmisread, fun earlier hmem => hbefore _ (List.mem_cons_of_mem _ hmem), ?_, ?_⟩⟩
      · omega
      · omega
  -- either way it is the first misread one of all
  · rintro ⟨⟨hcount, hbytes⟩, hmisread | ⟨hnames, before, misreadPacket, after, rfl, hmisread,
      hbefore, hcount', hbytes'⟩⟩
    · exact ⟨[], packet, packets, rfl, hmisread, by
        simp, by simpa using hcount, by simpa using hbytes⟩
    · refine ⟨packet :: before, misreadPacket, after, rfl, hmisread, ?_, ?_, ?_⟩
      · intro earlier hmem
        rcases List.mem_cons.1 hmem with rfl | hmem
        · exact hnames
        · exact hbefore _ hmem
      · rw [List.length_cons]
        omega
      · rw [List.cons_append, List.map_cons, List.sum_cons]
        omega

/-- How the first byte of a packet of an H.264 session is read: what names H.264 is not misread,
what names HEVC is, and what names nothing is neither. -/
theorem firstPayloadByte_read {video : UInt8} {packet : Bytes} (h : InStream .h264 video packet)
    {rtp : RtpPacket} (hrtp : parseRtp packet = .ok rtp) :
    ((firstPayloadByte packet).any misread ↔ detectCodec rtp.payload.head? = some .hevc) ∧
    ((firstPayloadByte packet).any namesH264 ↔ detectCodec rtp.payload.head? = some .h264) := by
  obtain ⟨rtp', hrtp', hstream⟩ := h
  cases hrtp.symm.trans hrtp'
  rw [firstPayloadByte, hrtp]
  dsimp only
  -- the packet is of the video, or it names no codec
  rcases hstream with ⟨-, first, hfirst, hbyte⟩ | ⟨-, hnone⟩
  · rw [hfirst]
    exact ⟨(detectCodec_misread first hbyte).symm, (detectCodec_h264 first).symm⟩
  · rw [hnone]
    cases hhead : rtp.payload.head? with
    | none => simp
    | some first =>
      rw [hhead] at hnone
      have hmisread := detectCodec_of_misread first
      have hnames := detectCodec_h264 first
      rw [hnone] at hmisread hnames
      simp only [Option.any_some, reduceCtorEq, iff_false]
      exact ⟨fun hm => (nomatch hmisread hm), fun hn => (nomatch hnames.2 hn)⟩

/-- The probe of an H.264 session settles on HEVC exactly when a misread packet comes first. -/
theorem selection_hevc_iff {video : UInt8} {packets : List Bytes}
    (h : ∀ packet ∈ packets, InStream .h264 video packet) (count bytes : ℕ) :
    (∃ type, selection count bytes packets = some (.hevc, type)) ↔
      MisreadFirst count bytes packets := by
  -- on the packets
  induction packets generalizing count bytes with
  | nil =>
    constructor
    · rintro ⟨type, hsel⟩
      cases hsel
    · rintro ⟨before, packet, after, heq, -⟩
      cases before <;> cases heq
  | cons packet packets ih =>
    obtain ⟨rtp, hrtp, -⟩ := h packet List.mem_cons_self
    obtain ⟨hmisread, hnames⟩ := firstPayloadByte_read (h packet List.mem_cons_self) hrtp
    rw [misreadFirst_cons, hmisread, hnames, selection, hrtp]
    dsimp only
    -- the probe is out of bounds, or it goes on
    split
    · next hbound =>
      have hout : ¬ (count < maxCodecProbePackets ∧ bytes + packet.length ≤ maxPendingBytes) := by
        omega
      simp [hout]
    · next hbound =>
      have hin : count < maxCodecProbePackets ∧ bytes + packet.length ≤ maxPendingBytes := by
        omega
      simp only [hin, and_self, true_and]
      -- the three answers of the detector
      cases hdetect : detectCodec rtp.payload.head? with
      | none =>
        rw [← ih (fun packet hmem => h packet (List.mem_cons_of_mem _ hmem))]
        simp
      | some codec => cases codec <;> simp

/-- **When the own codec is selected.** An HEVC session always selects HEVC and its payload type;
an H.264 session does unless a misread packet comes first. -/
theorem own_codec_selected_iff (aes : Aes128) (codec : VideoCodec) (video : UInt8)
    (key : Option Block) (packets : List Bytes)
    (h : ∀ packet ∈ packets, InStream codec video packet) :
    SelectsOwn aes codec video key packets ↔
      (codec = .h264 → ¬ MisreadFirst 0 0 packets) := by
  -- every packet parses, so the session ends with the selection
  have hparse : ∀ packet ∈ packets, ∃ rtp, parseRtp packet = .ok rtp := by
    intro packet hmem
    obtain ⟨rtp, hrtp, -⟩ := h packet hmem
    exact ⟨rtp, hrtp⟩
  have hdecided : (Transducer.run (feed aes) (withKey key) packets).2.Decided
      (selection 0 0 packets) := run_selection aes rfl rfl hparse
  obtain ⟨hcodec, htype⟩ := hdecided
  simp only [SelectsOwn, hcodec, htype]
  constructor
  · -- a misread packet that comes first is what the session settles on
    rintro hown rfl hmisread
    obtain ⟨type, hsel⟩ := (selection_hevc_iff h 0 0).2 hmisread
    rw [hsel] at hown
    cases (hown .hevc rfl).1
  · intro hfirst found hfound
    cases hsel : selection 0 0 packets with
    | none =>
      rw [hsel] at hfound
      cases hfound
    | some decision =>
      obtain ⟨found', type⟩ := decision
      rw [hsel] at hfound
      cases hfound
      obtain ⟨rfl, first, hbyte, hdetect⟩ := selection_type h hsel
      refine ⟨?_, rfl⟩
      -- an H.264 session is not misread, and an HEVC session never names H.264
      cases codec with
      | h264 =>
        cases found' with
        | h264 => rfl
        | hevc => exact absurd ((selection_hevc_iff h 0 0).1 ⟨type, hsel⟩) (hfirst rfl)
      | hevc =>
        cases found' with
        | h264 => exact absurd hdetect (detectCodec_hevc first hbyte)
        | hevc => rfl

def samplePacket (marker : Bool) (timestamp : UInt32) (payload : Bytes) : Bytes :=
  [0x80, if marker then 0xe0 else 0x60, 0x00, 0x01] ++ u32ToBe timestamp ++
    [0x00, 0x00, 0x00, 0x01] ++ payload

/-- The cipher of a clear session, which is never asked. -/
def noCipher : Aes128 := fun _ => Equiv.refl Block

/-- A session that joins at an SPS. -/
theorem own_codec_selected_sample :
    SelectsOwn noCipher .h264 0x60 none [samplePacket false 3000 [0x67, 0x42, 0xc0, 0x1e]] := by
  refine (own_codec_selected_iff noCipher .h264 0x60 none _ ?_).2 ?_
  · intro packet hmem
    cases List.mem_singleton.1 hmem
    exact ⟨⟨0x60, false, 3000, [0x67, 0x42, 0xc0, 0x1e]⟩, rfl, Or.inl ⟨rfl, 0x67, rfl, rfl⟩⟩
  · rintro - hmisread
    rw [misreadFirst_cons] at hmisread
    rcases hmisread.2 with h | ⟨h, -⟩
    · revert h; decide
    · revert h; decide

/-- **A slice that reads as an aggregate.** An H.264 session that joins at a non-IDR slice of
`nal_ref_idc` 3, header byte `0x61`, is taken for an HEVC session, although the SPS is next. -/
theorem slice_selects_hevc :
    let packets := [samplePacket false 3000 [0x61, 0x9a, 0x00, 0x01, 0xff],
      samplePacket false 3000 [0x67, 0x42, 0xc0]]
    (∀ packet ∈ packets, InStream .h264 0x60 packet) ∧
    (Transducer.run (feed noCipher) clear packets).2.codec = some .hevc ∧
    ¬ SelectsOwn noCipher .h264 0x60 none packets := by
  have hcodec : (Transducer.run (feed noCipher) clear
      [samplePacket false 3000 [0x61, 0x9a, 0x00, 0x01, 0xff],
        samplePacket false 3000 [0x67, 0x42, 0xc0]]).2.codec = some .hevc := by decide
  refine ⟨?_, hcodec, fun hown => ?_⟩
  · intro packet hmem
    simp only [List.mem_cons, List.not_mem_nil, or_false] at hmem
    rcases hmem with rfl | rfl
    · exact ⟨⟨0x60, false, 3000, [0x61, 0x9a, 0x00, 0x01, 0xff]⟩, rfl,
        Or.inl ⟨rfl, 0x61, rfl, rfl⟩⟩
    · exact ⟨⟨0x60, false, 3000, [0x67, 0x42, 0xc0]⟩, rfl, Or.inl ⟨rfl, 0x67, rfl, rfl⟩⟩
  · cases (hown .hevc hcodec).1

end RtpVideo

end EzvizBridge
