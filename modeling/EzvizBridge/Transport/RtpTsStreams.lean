import EzvizBridge.Transport.RtpTsSession

/-!
# The stream set is fixed by the first PMT

A downstream remux fixes its streams from the first PMT, so the PMT must be the first thing it sees
and must never change. Two arguments carry this.

The bytes are those of one muxer that was created after the audio question was settled and to which
no stream was declared later (`RtpToTs.Written`). Such a muxer opens with its tables, repeats them
verbatim, and writes on the audio PID only for audio calls (`TsMuxer.run_tables`).

The question itself is settled once: `Keeps` says of a transition that an answer stands, and every
method has it, for every state and whether or not it fails. `Hold` is the invariant of the hold
queue: nothing is held before the stream has started or after the question is settled.

`streams_fixed` assembles both.
-/

namespace EzvizBridge

/-! ### The tables of a run -/

namespace TsMuxer

open TsMux

/-- A call that declares no stream writes one PES packet, on the audio PID only for audio. -/
theorem call_writes {s : TsMuxer} (hs : CountersOk s) {c : Call} (hc : c ≠ .enableAudio) :
    ∃ keyframe pid pes ps, Writes s keyframe pid pes (s.call c).1 (s.call c).2 ps ∧
      (pid = audioPid → c.isAudio = true) := by
  -- a unit goes to the video PID, a frame to the audio PID
  cases c with
  | enableAudio => exact absurd rfl hc
  | video pts keyframe accessUnit =>
    obtain ⟨ps, s', out, heq, hw⟩ := video_writes hs pts keyframe accessUnit
    refine ⟨keyframe, videoPid, videoPes s.codec pts accessUnit, ps, ?_,
      fun h => absurd h (by decide)⟩
    simpa only [call, heq] using hw
  | audio pts adts =>
    obtain ⟨ps, s', out, heq, hw⟩ := audio_writes hs pts adts
    refine ⟨false, audioPid, audioPes pts adts, ps, ?_, fun _ => rfl⟩
    simpa only [call, heq] using hw

/-- **The tables of a run** that declares no stream: it opens with them if they are due, and all of
them are those of the muxer it starts with. -/
theorem run_tables {s : TsMuxer} (hs : CountersOk s) {calls : List Call}
    (hcalls : ∀ c ∈ calls, c ≠ .enableAudio) :
    ∃ ps, Emits s (s.run calls).2 (s.run calls).1 ps ∧ TablesOf s ps ∧
      (s.tablesDue = true → calls ≠ [] → OpensWithTables ps) ∧
      ∀ p ∈ ps, p.pid = audioPid → ∃ c ∈ calls, c.isAudio = true := by
  -- on the calls
  induction calls generalizing s with
  | nil => exact ⟨[], Emits.nil hs, ⟨by simp, by simp⟩, fun _ h => absurd rfl h, by simp⟩
  | cons c calls ih =>
    obtain ⟨keyframe, pid, pes, ps, hw, haudio⟩ := call_writes hs (hcalls c List.mem_cons_self)
    obtain ⟨qs, hemit, htables, -, hcall⟩ :=
      ih hw.emits.ok fun c hc => hcalls c (List.mem_cons_of_mem _ hc)
    have hsame := hw.same
    unfold SameStreams at hsame
    rw [hsame] at htables
    -- the tables of both parts are the tables of the first state
    refine ⟨ps ++ qs, hw.emits.append hemit, ⟨?_, ?_⟩, ?_, ?_⟩
    · intro p hp hpid
      rcases List.mem_append.1 hp with hp | hp
      · exact hw.tables.pat p hp hpid
      · exact htables.pat p hp hpid
    · intro p hp hpid
      rcases List.mem_append.1 hp with hp | hp
      · exact hw.tables.pmt p hp hpid
      · exact htables.pmt p hp hpid
    · intro hdue _
      obtain ⟨pat, pmt, rest, rfl, hpat, hpmt⟩ := hw.opens (Or.inl hdue)
      exact ⟨pat, pmt, rest ++ qs, rfl, hpat, hpmt⟩
    · intro p hp hpid
      rcases List.mem_append.1 hp with hp | hp
      · -- the packet belongs to the first call, and is no table
        refine ⟨c, List.mem_cons_self, haudio ?_⟩
        rcases hw.pid_eq p hp with h | h | h
        · exact absurd (h.symm.trans hpid) (by decide)
        · exact absurd (h.symm.trans hpid) (by decide)
        · exact h.symm.trans hpid
      · obtain ⟨c', hc', haudio'⟩ := hcall p hp hpid
        exact ⟨c', List.mem_cons_of_mem _ hc', haudio'⟩

end TsMuxer

/-! ### The answer stands -/

namespace RtpToTs

/-- From one state to the next, an answer to the audio question stands. -/
def Keeps (s s' : RtpToTs) : Prop :=
  s.audio.probe ≠ .undecided → s'.audio.probe = s.audio.probe

theorem Keeps.trans {s s' s'' : RtpToTs} (h : Keeps s s') (h' : Keeps s' s'') : Keeps s s'' := by
  intro hdecided
  have heq := h hdecided
  exact (h' (heq ▸ hdecided)).trans heq

theorem releaseHeld_keeps (s : RtpToTs) (frames : List (ℤ × Bytes)) :
    Keeps s (s.releaseHeld frames).2 := by
  rw [releaseHeld_frame]
  exact fun _ => rfl

/-- Closing a unit keeps a decided probe. -/
theorem flushUnit_keeps (s : RtpToTs) : Keeps s (s.flushUnit).2 := by
  unfold flushUnit
  split
  · exact fun _ => rfl
  · dsimp only
    split
    · exact fun _ => rfl
    · split
      · exact fun _ => rfl
      · refine Keeps.trans ?_ (releaseHeld_keeps _ _)
        intro hdecided
        refine (boundHeld_frame _ _).2 ?_
        exact hdecided

/-- An audio packet keeps a decided probe. -/
theorem audioPacket_keeps (s : RtpToTs) (payloadType : UInt8) (timestamp : UInt32)
    (payload : Bytes) : Keeps s (s.audioPacket payloadType timestamp payload).2 := by
  have hdetect : Keeps s
      { s with audio := s.audio.detect payloadType timestamp payload s.lastPts } := by
    intro hdecided
    exact congrArg AudioTrack.probe (AudioTrack.detect_of_decided hdecided _ _ _ _)
  refine hdetect.trans ?_
  unfold audioPacket
  dsimp only
  -- the probe is open, it has just been confirmed, or it is decided
  split
  · exact fun _ => rfl
  · split
    · exact fun _ => AudioTrack.discardPending_probe _
    · exact Keeps.trans (fun _ => AudioTrack.drainPending_probe _) (releaseHeld_keeps _ _)
  · refine Keeps.trans (releaseHeld_keeps _ []) ?_
    split
    · exact fun _ => rfl
    · split <;> exact fun _ => AudioTrack.frames_probe _ _ _ _ _

/-- What closing a unit, filling the buffer and an audio packet preserve, an item preserves, whether
or not it fails. -/
theorem feedItem_preserves (P : RtpToTs → Prop) (hflush : ∀ t, P t → P (t.flushUnit).2)
    (hbuffer : ∀ t timestamp unit, P t → P { t with unitTimestamp := some timestamp, unit := unit })
    (haudio : ∀ t payloadType timestamp payload, P t →
      P (t.audioPacket payloadType timestamp payload).2)
    {s : RtpToTs} (h : P s) (item : RtpOutput) : P (s.feedItem item).2 := by
  cases item with
  | other payloadType timestamp payload => exact haudio s payloadType timestamp payload h
  | video timestamp marker data =>
    rw [feedItem_video]
    -- a new timestamp closes the unit
    have hswitch : P (if s.unitTimestamp.any (· ≠ timestamp) then s.flushUnit else ([], s)).2 := by
      split
      · exact hflush s h
      · exact h
    generalize (if s.unitTimestamp.any (· ≠ timestamp) then s.flushUnit else ([], s)) = switched
      at hswitch
    have hextend : P (if data = [] then switched.2
        else
          { switched.2 with
            unitTimestamp := some timestamp
            unit := switched.2.unit ++ data }) := by
      split
      · exact hswitch
      · exact hbuffer _ timestamp _ hswitch
    dsimp only
    generalize (if data = [] then switched.2
        else { switched.2 with unitTimestamp := some timestamp, unit := switched.2.unit ++ data }) =
      extended at hextend ⊢
    -- a unit that is too big is an error, and a marker closes the unit
    by_cases hbig : data ≠ [] ∧ extended.unit.length > maxUnitBytes
    · rw [if_pos hbig]
      exact hextend
    · rw [if_neg hbig]
      cases marker with
      | true => exact hflush extended hextend
      | false => exact hextend

theorem feedItem_keeps (s : RtpToTs) (item : RtpOutput) : Keeps s (s.feedItem item).2 :=
  feedItem_preserves (Keeps s) (fun t h => h.trans t.flushUnit_keeps)
    (fun _ _ _ h => h.trans fun _ => rfl)
    (fun t _ _ _ h => h.trans (t.audioPacket_keeps _ _ _)) (fun _ => rfl) item

variable (aes : Aes128)

/-- **The answer stands**, from any state, whatever is fed and whether or not it fails. -/
theorem feed_keeps (s : RtpToTs) (packet : Bytes) : Keeps s (s.feed aes packet).2 := by
  unfold feed
  split
  · exact fun _ => rfl
  · next items video _ =>
    have hstart : Keeps s { s with video := video } := fun _ => rfl
    exact Transducer.run_keeps (Keeps s) (fun t item ht => ht.trans (t.feedItem_keeps item)) hstart
      items

theorem finish_keeps (s : RtpToTs) : Keeps s (s.finish).2 :=
  (s.flushUnit_keeps.trans fun hdecided => AudioTrack.giveUp_of_decided hdecided).trans
    (releaseHeld_keeps _ [])

/-! ### The hold queue -/

/-- Nothing is held before the stream has started, nor once the audio question is settled; and a
stream that has started knows its codec. -/
structure Hold (s : RtpToTs) : Prop where
  idle : s.started = false → s.held = []
  known : s.started = true → s.video.codec.isSome = true
  drained : s.audio.probe ≠ .undecided → s.held = []

variable {aes} {s : RtpToTs}

/-- A release settles the hold queue, whatever was in it. -/
theorem releaseHeld_hold (hidle : s.started = false → s.held = [])
    (hknown : s.started = true → s.video.codec.isSome = true) (frames : List (ℤ × Bytes)) :
    Hold (s.releaseHeld frames).2 := by
  unfold releaseHeld
  cases hcodec : s.video.codec with
  | none =>
    have hs : s.started = false := by
      by_contra hne
      have := hknown (by simpa using hne)
      rw [hcodec] at this
      cases this
    exact ⟨hidle, hknown, fun _ => hidle hs⟩
  | some codec =>
    dsimp only
    split
    · next hskip =>
      exact ⟨hidle, hknown, fun hdecided => hidle (hskip.resolve_left hdecided)⟩
    · exact ⟨fun _ => rfl, hknown, fun _ => rfl⟩

/-- Closing a unit settles the hold queue. -/
theorem flushUnit_hold (h : Hold s) : Hold (s.flushUnit).2 := by
  unfold flushUnit
  split
  · exact h
  · dsimp only
    split
    · exact ⟨h.idle, h.known, h.drained⟩
    · next codec hcodec =>
      split
      · exact ⟨h.idle, h.known, h.drained⟩
      -- the units above the bound are let go first
      · refine releaseHeld_hold ?_ ?_ []
        · rw [(boundHeld_frame _ _).1]
          intro hs
          cases hs
        · rw [(boundHeld_frame _ _).1]
          intro _
          exact Option.isSome_of_eq_some hcodec

/-- An audio packet settles the hold queue. -/
theorem audioPacket_hold (h : Hold s) (payloadType : UInt8) (timestamp : UInt32)
    (payload : Bytes) : Hold (s.audioPacket payloadType timestamp payload).2 := by
  unfold audioPacket
  dsimp only
  split
  · next hun => exact ⟨h.idle, h.known, fun hne => absurd hun hne⟩
  · split
    · next hs => exact ⟨h.idle, h.known, fun _ => h.idle hs⟩
    · refine releaseHeld_hold ?_ ?_ _
      · exact h.idle
      · exact h.known
  · set t : RtpToTs := { s with audio := s.audio.detect payloadType timestamp payload s.lastPts }
    have hreleased : Hold (t.releaseHeld []).2 := releaseHeld_hold (s := t) h.idle h.known []
    -- the frames behind the release touch neither queue nor probe
    split
    · exact hreleased
    · have hprobe := AudioTrack.frames_probe (t.releaseHeld []).2.audio payloadType timestamp
        payload (t.releaseHeld []).2.lastPts
      split <;> exact ⟨hreleased.idle, hreleased.known,
        fun hne => hreleased.drained fun heq => hne (hprobe.trans heq)⟩

theorem feedItem_hold (h : Hold s) (item : RtpOutput) : Hold (s.feedItem item).2 :=
  feedItem_preserves Hold (fun _ => flushUnit_hold)
    (fun _ _ _ h => ⟨h.idle, h.known, h.drained⟩)
    (fun _ _ _ _ h => audioPacket_hold h _ _ _) h item

/-- A codec that is known stays known, whether or not the packet is accepted. -/
theorem feed_codec_isSome {video : RtpVideo} (h : video.codec.isSome = true) (packet : Bytes) :
    (video.feed aes packet).2.codec.isSome = true := by
  unfold RtpVideo.feed
  split
  · exact h
  -- the payload type was known, or this packet is probed
  · split
    · exact h
    · split
      · rw [(RtpVideo.route_frame aes _ _ _).1]
        exact h
      · dsimp only
        split
        · exact h
        · split
          · exact h
          · rw [(RtpVideo.replay_frame aes _ _ _ _).1]
            rfl

/-- **The hold queue**, after any packet. -/
theorem feed_hold (h : Hold s) (packet : Bytes) : Hold (s.feed aes packet).2 := by
  have hcodec : s.started = true → (s.video.feed aes packet).2.codec.isSome = true :=
    fun hs => feed_codec_isSome (h.known hs) packet
  unfold feed
  split
  · next e video hvideo =>
    rw [hvideo] at hcodec
    exact ⟨h.idle, hcodec, h.drained⟩
  · next items video hvideo =>
    rw [hvideo] at hcodec
    have hstart : Hold { s with video := video } := ⟨h.idle, hcodec, h.drained⟩
    exact Transducer.run_keeps Hold (fun t item ht => feedItem_hold ht item) hstart items

theorem hold_new (video : RtpVideo) : Hold (new video) :=
  ⟨fun _ => rfl, fun hs => (by cases hs), fun _ => rfl⟩

/-! ### The stream as a receiver sees it -/

/-- The output opens with a PAT and a PMT; all PMT packets carry the same section; there are audio
packets only if that section lists the AAC stream; and the first video PES packet holds a
keyframe. -/
structure StreamsFixed (codec : VideoCodec) (stream : Bytes) : Prop where
  opens : stream = [] ∨ ∃ pat pmt rest, MpegTs.packets stream = pat :: pmt :: rest ∧
    MpegTs.pid pat = 0x0000 ∧ MpegTs.pid pmt = TsMux.pmtPid
  pmt : ∀ p ∈ MpegTs.packets stream, ∀ q ∈ MpegTs.packets stream,
    MpegTs.pid p = TsMux.pmtPid → MpegTs.pid q = TsMux.pmtPid → MpegTs.payload p = MpegTs.payload q
  audio : ∀ p ∈ MpegTs.packets stream, ∀ q ∈ MpegTs.packets stream,
    MpegTs.pid p = TsMux.audioPid → MpegTs.pid q = TsMux.pmtPid →
    (0x0f, TsMux.audioPid) ∈ MpegTs.pmtStreams (MpegTs.payload q)
  keyframe : ∃ units, MpegTs.pesPackets stream TsMux.videoPid = some units ∧
    ∀ first, units.head? = some first → isKeyframe codec first.payload = true

/-- The payload of a keyframe's PES packet is a keyframe. -/
theorem unitPes_keyframe {codec : VideoCodec} {unit : Bytes} (pts : ℤ)
    (h : isKeyframe codec unit = true) :
    isKeyframe codec (unitPes codec pts unit).payload = true := by
  unfold unitPes
  dsimp only
  split
  · exact h
  · exact isKeyframe_append_right h _

/-- The PMT of a muxer that declared the audio stream lists it. -/
theorem aac_mem_pmtStreams (codec : VideoCodec) :
    (0x0f, TsMux.audioPid) ∈ MpegTs.pmtStreams (TsMuxer.psiPayload
      (TsMuxer.programMap codec true (newMuxer codec true).pmtVersion)) := by
  cases codec <;> decide

/-- The first PES packet read back from calls whose first video call is a keyframe. -/
theorem first_pes_keyframe {codec : VideoCodec} {calls : List TsMuxer.Call}
    (hfirst : ∀ c, (calls.filter TsMuxer.Call.isVideo).head? = some c →
      ∃ unit, c = videoCall unit ∧ isKeyframe codec unit.data = true) (first : MpegTs.Pes)
    (hhead : ((calls.filter TsMuxer.Call.isVideo).filterMap
      (TsMuxer.Call.videoReading codec)).head? = some first) :
    isKeyframe codec first.payload = true := by
  -- the first video call is the first PES packet
  cases hcalls : calls.filter TsMuxer.Call.isVideo with
  | nil =>
    rw [hcalls] at hhead
    cases hhead
  | cons c rest =>
    obtain ⟨unit, rfl, hkey⟩ := hfirst c (by rw [hcalls]; rfl)
    rw [hcalls, List.filterMap_cons_some (videoReading_videoCall unit)] at hhead
    cases hhead
    exact unitPes_keyframe _ hkey

theorem newMuxer_tablesDue (codec : VideoCodec) (withAudio : Bool) :
    (newMuxer codec withAudio).tablesDue = true := by
  cases withAudio <;> rfl

/-- What one muxer wrote has its streams fixed, provided its first video call was a keyframe. -/
theorem Written.streamsFixed {codec : VideoCodec} {calls : List TsMuxer.Call} {out : Bytes}
    (h : Written codec calls out s)
    (hfirst : ∀ c, (calls.filter TsMuxer.Call.isVideo).head? = some c →
      ∃ unit, c = videoCall unit ∧ isKeyframe codec unit.data = true) :
    StreamsFixed codec out := by
  have hpes := h.pesPackets
  have hkeyframe := first_pes_keyframe hfirst
  obtain ⟨-, rfl, rfl⟩ | ⟨muxer, -, -, hrun, hcalls⟩ := h
  · have hnone : MpegTs.packets [] = [] := rfl
    exact ⟨Or.inl rfl, by simp [hnone], by simp [hnone], _, hpes, hkeyframe⟩
  · obtain ⟨ps, hemit, htables, hopens, haudio⟩ := TsMuxer.run_tables
      (newMuxer_countersOk codec (s.audio.probe = .confirmed)) fun c hc => (hcalls c hc).1
    rw [hrun] at hemit
    have hbytes : out = (ps.map MpegTs.Packet.bytes).flatten := hemit.bytes
    have hpackets : MpegTs.packets out = ps.map MpegTs.Packet.bytes := by
      rw [hbytes, MpegTs.packets_flatten]
    refine ⟨?_, ?_, ?_, _, hpes, hkeyframe⟩
    -- nothing was written, or it opens with the tables
    · by_cases hnil : calls = []
      · left
        rw [hnil] at hrun
        exact (congrArg Prod.snd hrun).symm
      · right
        obtain ⟨pat, pmt, rest, rfl, hpat, hpmt⟩ := hopens (newMuxer_tablesDue _ _) hnil
        refine ⟨pat.bytes, pmt.bytes, rest.map MpegTs.Packet.bytes, by rw [hpackets]; rfl, ?_, ?_⟩
        · rw [MpegTs.Packet.pid_bytes, hpat]
        · rw [MpegTs.Packet.pid_bytes, hpmt]
    · rw [hpackets]
      intro p hp q hq hppid hqpid
      obtain ⟨p', hp', rfl⟩ := List.mem_map.1 hp
      obtain ⟨q', hq', rfl⟩ := List.mem_map.1 hq
      rw [MpegTs.Packet.pid_bytes] at hppid hqpid
      rw [MpegTs.Packet.payload_bytes, MpegTs.Packet.payload_bytes, htables.pmt p' hp' hppid,
        htables.pmt q' hq' hqpid]
    · rw [hpackets]
      intro p hp q hq hppid hqpid
      obtain ⟨p', hp', rfl⟩ := List.mem_map.1 hp
      obtain ⟨q', hq', rfl⟩ := List.mem_map.1 hq
      rw [MpegTs.Packet.pid_bytes] at hppid hqpid
      -- an audio packet comes from an audio call, so the stream was declared from the start
      obtain ⟨c, hc, hisAudio⟩ := haudio p' hp' hppid
      have hmuxer : newMuxer codec (s.audio.probe = .confirmed) = newMuxer codec true := by
        rw [(hcalls c hc).2 hisAudio]
        rfl
      have hpayload : q'.payload = TsMuxer.psiPayload
          (TsMuxer.programMap codec true (newMuxer codec true).pmtVersion) := by
        rw [htables.pmt q' hq' hqpid, hmuxer]
        rfl
      rw [MpegTs.Packet.payload_bytes, hpayload]
      exact aac_mem_pmtStreams codec

/-- The first of the units from the first keyframe on is a keyframe. -/
theorem head_fromKeyframe {codec : VideoCodec} {closed : List AccessUnit} {c : TsMuxer.Call}
    (h : ((stamped codec (fromKeyframe codec closed)).map videoCall).head? = some c) :
    ∃ unit, c = videoCall unit ∧ isKeyframe codec unit.data = true := by
  have hhead := List.head?_dropWhile_not (fun unit : AccessUnit => !isKeyframe codec unit.2) closed
  unfold fromKeyframe at h
  -- the first unit that was not dropped is a keyframe
  cases hunits : closed.dropWhile (fun unit : AccessUnit => !isKeyframe codec unit.2) with
  | nil =>
    rw [hunits] at h
    cases h
  | cons unit rest =>
    rw [hunits] at h hhead
    rw [stamped, List.mapIdx_cons, List.map_cons] at h
    cases h
    exact ⟨_, rfl, by simpa using hhead⟩

/-- The stream of a session, before and behind its end. -/
theorem ItemAccount.streamsFixed {codec : VideoCodec} {items : List RtpOutput} {out : Bytes}
    (h : ItemAccount codec items out s) :
    StreamsFixed codec out ∧ StreamsFixed codec (out ++ (s.finish).1) := by
  -- before the end, and behind it
  constructor
  · obtain ⟨calls, hwritten, hcalls⟩ := h.closed.handed
    refine hwritten.streamsFixed fun c hc => ?_
    have hhead : ((stamped codec (fromKeyframe codec (cut none items).1)).map videoCall).head? =
        some c := by
      rw [← hcalls, List.head?_append, hc]
      rfl
    exact head_fromKeyframe hhead
  · obtain ⟨calls, hwritten, hcalls⟩ := finish_handed h
    refine hwritten.streamsFixed fun c hc => ?_
    rw [hcalls] at hc
    exact head_fromKeyframe hc

/-- **The stream set is fixed by the first PMT.** Whatever packets a session is fed:

* as long as none fails, the output so far, with or without the end of the session, opens with a
  PAT and a PMT, repeats one PMT section verbatim, has audio packets only if that section lists the
  AAC stream, and has a keyframe as its first video PES packet;
* in every state it reaches, also by a failure, nothing is held once the audio question is settled,
  and the answer stands whatever is fed next and at the end. -/
theorem streams_fixed (aes : Aes128) (key : Option Block) (packets : List Bytes) :
    (∀ out s, Transducer.run (feed aes) (new (RtpVideo.withKey key)) packets = (.ok out, s) →
      (s.video.codec = none → out ++ (s.finish).1 = []) ∧
      ∀ codec, s.video.codec = some codec →
        StreamsFixed codec out ∧ StreamsFixed codec (out ++ (s.finish).1)) ∧
    let s := (Transducer.run (feed aes) (new (RtpVideo.withKey key)) packets).2
    (s.audio.probe ≠ .undecided → s.held = []) ∧ (s.finish).2.held = [] ∧
    (s.audio.probe ≠ .undecided → (s.finish).2.audio.probe = s.audio.probe ∧
      ∀ more, (Transducer.run (feed aes) s more).2.audio.probe = s.audio.probe) := by
  -- the output, and then the hold queue
  refine ⟨fun out s hrun => ?_, ?_⟩
  · obtain ⟨items, -, hcases⟩ := run_session key hrun
    rcases hcases with ⟨hnone, -, hs, -, rfl⟩ | ⟨codec, -, -, haccount⟩
    · refine ⟨fun _ => ?_, fun codec hcodec => ?_⟩
      · rw [hs]
        simp [finish, flushUnit, releaseHeld, new, hnone]
      · rw [hnone] at hcodec
        cases hcodec
    · refine ⟨fun hnone => ?_, fun codec' hcodec => ?_⟩
      · rw [haccount.closed.codec_eq] at hnone
        cases hnone
      · cases haccount.closed.codec_eq.symm.trans hcodec
        exact haccount.streamsFixed
  · intro s
    have hold : Hold s := Transducer.run_keeps Hold (fun t packet ht => feed_hold ht packet)
      (hold_new _) packets
    refine ⟨hold.drained, ?_, fun hdecided => ⟨s.finish_keeps hdecided, fun more => ?_⟩⟩
    · have hflushed := flushUnit_hold hold
      have hfinished : Hold (s.finish).2 := by
        refine releaseHeld_hold ?_ ?_ []
        · exact hflushed.idle
        · exact hflushed.known
      refine hfinished.drained ?_
      change (RtpToTs.releaseHeld _ []).2.audio.probe ≠ .undecided
      rw [releaseHeld_frame]
      exact AudioTrack.giveUp_decided _
    · exact Transducer.run_keeps (Keeps s) (fun t packet ht => ht.trans (feed_keeps aes t packet))
        (fun _ => rfl) more hdecided

/-- The stream of a session that ends with its first access unit. -/
theorem streams_fixed_of_one_unit :
    ∃ out s, Transducer.run (feed RtpVideo.noCipher) (new RtpVideo.clear)
        [RtpVideo.samplePacket true 3000 [0x65, 0x88]] = (.ok out, s) ∧
      StreamsFixed .h264 (out ++ (s.finish).1) := by
  have hrun : Transducer.run (feed RtpVideo.noCipher) (new RtpVideo.clear)
      [RtpVideo.samplePacket true 3000 [0x65, 0x88]] = (.ok [], (Transducer.run
        (feed RtpVideo.noCipher) (new RtpVideo.clear)
        [RtpVideo.samplePacket true 3000 [0x65, 0x88]]).2) := Prod.ext (by rfl) rfl
  obtain ⟨hstream, -⟩ := streams_fixed RtpVideo.noCipher none
    [RtpVideo.samplePacket true 3000 [0x65, 0x88]]
  exact ⟨[], _, hrun, ((hstream [] _ hrun).2 .h264 (by rfl)).2⟩

end RtpToTs

end EzvizBridge
