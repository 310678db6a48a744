import EzvizBridge.Transport.RtpTsUnits

/-!
# A whole session: every access unit, on the camera's clock

An invariant of the items carries over to the packets (`ItemInvariant`): it holds of the items the
video half produced for the packets so far, or no codec is known yet and nothing has happened.
`ItemInvariant.feed` is the step, `ItemInvariant.session` the run; for the account of the items this
is `run_session`.

`finish` closes the open unit, answers the audio question if it is still open and releases what is
held, so at the end the hold queue is empty and the video calls are the whole account
(`finish_handed`). Read back by the reference demultiplexer they are
`video_pes_are_access_units`: one PES packet per access unit from the first keyframe on, stamped
with the sum of the signed differences of the camera's timestamps.
-/

namespace EzvizBridge

/-! ### The codec of a session -/

namespace RtpVideo

variable {aes : Aes128} {self : RtpVideo}

/-- A packet that names no codec yields nothing; one that does settles the payload type too. -/
theorem feed_ok_cases (hcodec : self.codec = none) (htype : self.payloadType = none)
    {packet : Bytes} {items : List RtpOutput} {video : RtpVideo}
    (hok : self.feed aes packet = (.ok items, video)) :
    (video.codec = none ∧ video.payloadType = none ∧ items = []) ∨
      ∃ codec type, video.codec = some codec ∧ video.payloadType = some type := by
  -- the packet was read, so it is a packet
  have hparse : ∃ rtp, parseRtp packet = .ok rtp := by
    unfold feed at hok
    split at hok
    · cases hok
    · split at hok
      · cases hok
      · next rtp hrtp => exact ⟨rtp, hrtp⟩
  obtain ⟨rtp, hrtp⟩ := hparse
  have hprobe := feed_probing aes hcodec htype hrtp
  rw [hok] at hprobe
  -- out of bounds the probe fails
  split at hprobe
  · obtain ⟨⟨e, he⟩, -⟩ := hprobe
    cases he
  · split at hprobe
    · next codec _ => exact Or.inr ⟨codec, rtp.payloadType, hprobe.1, hprobe.2⟩
    · cases hprobe
      exact Or.inl ⟨hcodec, htype, rfl⟩

end RtpVideo

namespace RtpToTs

variable {codec : VideoCodec} {out : Bytes} {s : RtpToTs} {items : List RtpOutput}

/-- A stream whose codec is known and that has seen no item. -/
theorem itemAccount_new {video : RtpVideo} (h : video.codec = some codec) :
    ItemAccount codec [] [] (new video) where
  closed :=
    { codec_eq := h
      started_iff := ⟨fun hs => (by cases hs), fun hne => absurd rfl hne⟩
      clock_eq := fun hs => by cases hs
      handed := ⟨[], Or.inl ⟨rfl, rfl, rfl⟩, rfl⟩
      drained := fun _ => rfl }
  current := ⟨rfl, fun _ => rfl⟩

/-- The account speaks of the video half only through its codec. -/
theorem Account.withVideo {units : List AccessUnit} (h : Account codec units out s)
    {video : RtpVideo} (hcodec : video.codec = some codec) :
    Account codec units out { s with video := video } := by
  obtain ⟨calls, hwritten, hcalls⟩ := h.handed
  exact ⟨hcodec, h.started_iff, h.clock_eq, ⟨calls, hwritten.congr rfl fun _ => rfl, hcalls⟩,
    h.drained⟩

theorem ItemAccount.withVideo (h : ItemAccount codec items out s) {video : RtpVideo}
    (hcodec : video.codec = some codec) :
    ItemAccount codec items out { s with video := video } :=
  ⟨h.closed.withVideo hcodec, h.current⟩

/-- An invariant of the items of a session: it speaks of the video half only through its codec, it
holds of a stream that knows its codec and has seen no item, and an item that does not fail
preserves it. -/
structure ItemInvariant (P : VideoCodec → List RtpOutput → Bytes → RtpToTs → Prop) : Prop where
  codec_eq : ∀ {codec items out t}, P codec items out t → t.video.codec = some codec
  new : ∀ {codec} {video : RtpVideo}, video.codec = some codec → P codec [] [] (RtpToTs.new video)
  withVideo : ∀ {codec items out t} {video : RtpVideo}, P codec items out t →
    video.codec = some codec → P codec items out { t with video := video }
  step : ∀ {codec items out t item more t'}, P codec items out t →
    t.feedItem item = (.ok more, t') →
    P codec (items ++ [item]) (out ++ more) t' ∧ t'.video = t.video

theorem itemAccount_invariant : ItemInvariant ItemAccount where
  codec_eq h := h.closed.codec_eq
  new := itemAccount_new
  withVideo h := h.withVideo
  step := feedItem_account

variable {P : VideoCodec → List RtpOutput → Bytes → RtpToTs → Prop}

/-- **The items of a packet**, when none of them fails. -/
theorem ItemInvariant.run (hP : ItemInvariant P) {more : List RtpOutput} {output : Bytes}
    {s' : RtpToTs} (h : P codec items out s)
    (hrun : Transducer.run feedItem s more = (.ok output, s')) :
    P codec (items ++ more) (out ++ output) s' ∧ s'.video = s.video := by
  refine Transducer.run_history
    (fun items out t => P codec items out t ∧ t.video = s.video) ?_ ⟨h, rfl⟩ hrun
  intro items out t item more t' ht hok
  obtain ⟨hnext, hvideo⟩ := hP.step ht.1 hok
  exact ⟨hnext, hvideo.trans ht.2⟩

/-! ### Packets -/

/-- The invariant holds of the items of the packets so far, or no packet has named a codec yet. -/
def SessionOf (P : VideoCodec → List RtpOutput → Bytes → RtpToTs → Prop) (aes : Aes128)
    (video : RtpVideo) (packets : List Bytes) (out : Bytes) (s : RtpToTs) : Prop :=
  ∃ items, Transducer.run (RtpVideo.feed aes) video packets = (.ok items, s.video) ∧
    ((s.video.codec = none ∧ s.video.payloadType = none ∧ s = new s.video ∧ items = [] ∧ out = []) ∨
      ∃ codec type, s.video.payloadType = some type ∧ P codec items out s)

variable {aes : Aes128}

/-- **One packet.** -/
theorem ItemInvariant.feed (hP : ItemInvariant P) {video : RtpVideo} {packets : List Bytes}
    {packet : Bytes} {more : Bytes} {s' : RtpToTs} (h : SessionOf P aes video packets out s)
    (hok : s.feed aes packet = (.ok more, s')) :
    SessionOf P aes video (packets ++ [packet]) (out ++ more) s' := by
  obtain ⟨items, hitems, hcases⟩ := h
  unfold RtpToTs.feed at hok
  split at hok
  · cases hok
  · next new' video' hvideo =>
    have hrun : ∀ {t : RtpToTs}, t.video = video' →
        Transducer.run (RtpVideo.feed aes) video (packets ++ [packet]) =
          (.ok (items ++ new'), t.video) := by
      rintro t rfl
      refine Transducer.run_eq_ok_append.2 ⟨items, s.video, new', hitems, ?_, rfl⟩
      exact Transducer.run_eq_ok_cons.2 ⟨new', t.video, [], hvideo, rfl, (List.append_nil _).symm⟩
    -- the codec was open before this packet, or known
    rcases hcases with ⟨hcodec, htype, hs, rfl, rfl⟩ | ⟨codec, type, htype, haccount⟩
    · rcases RtpVideo.feed_ok_cases hcodec htype hvideo with
        ⟨hcodec', htype', rfl⟩ | ⟨codec, type, hcodec', htype'⟩
      · -- still no codec: the packet is only buffered
        cases hok
        refine ⟨[], hrun rfl, Or.inl ⟨hcodec', htype', ?_, rfl, rfl⟩⟩
        rw [hs]
        rfl
      · -- this packet named the codec: its items are the first ones
        have hstart : P codec [] [] { s with video := video' } := by
          rw [hs]
          exact hP.new hcodec'
        obtain ⟨haccount, hsame⟩ := hP.run hstart hok
        exact ⟨new', hrun hsame, Or.inr ⟨codec, type, hsame ▸ htype', haccount⟩⟩
    · obtain ⟨hcodec', htype'⟩ := RtpVideo.feed_selected aes htype packet
      rw [hvideo] at hcodec' htype'
      obtain ⟨haccount, hsame⟩ :=
        hP.run (hP.withVideo haccount (hcodec'.trans (hP.codec_eq haccount))) hok
      refine ⟨items ++ new', hrun hsame, Or.inr ⟨codec, type, ?_, haccount⟩⟩
      rw [hsame]
      exact htype'.trans htype

/-- **A run of packets**, none of which fails. -/
theorem ItemInvariant.session (hP : ItemInvariant P) (key : Option Block) {packets : List Bytes}
    (hrun : Transducer.run (RtpToTs.feed aes) (RtpToTs.new (RtpVideo.withKey key)) packets =
      (.ok out, s)) :
    SessionOf P aes (RtpVideo.withKey key) packets out s := by
  have hstart : SessionOf P aes (RtpVideo.withKey key) [] [] (RtpToTs.new (RtpVideo.withKey key)) :=
    ⟨[], rfl, Or.inl ⟨rfl, rfl, rfl, rfl, rfl⟩⟩
  exact Transducer.run_history (SessionOf P aes (RtpVideo.withKey key))
    (fun _ _ _ h hok => hP.feed h hok) hstart hrun

/-- A run of packets: the items are accounted for, or no packet has named a codec yet. -/
theorem run_session (key : Option Block) {packets : List Bytes}
    (hrun : Transducer.run (feed aes) (new (RtpVideo.withKey key)) packets = (.ok out, s)) :
    SessionOf ItemAccount aes (RtpVideo.withKey key) packets out s :=
  itemAccount_invariant.session key hrun

/-! ### The end of a session -/

/-- **At the end** the hold queue is empty: the video calls are the whole account, with the unit
that was still open as the last one. -/
theorem finish_handed (h : ItemAccount codec items out s) :
    ∃ calls, Written codec calls (out ++ (s.finish).1) (s.finish).2 ∧
      calls.filter TsMuxer.Call.isVideo =
        (stamped codec (fromKeyframe codec (unitsOf items))).map videoCall := by
  have hflushed := flushUnit_account h.closed h.current
  obtain ⟨calls, hwritten, hcalls⟩ := hflushed.handed
  set t : RtpToTs := { (s.flushUnit).2 with audio := (s.flushUnit).2.audio.giveUp } with ht
  have hreleased : Account codec (fromKeyframe codec (unitsOf items))
      ((out ++ (s.flushUnit).1) ++ (t.releaseHeld []).1) (t.releaseHeld []).2 :=
    releaseHeld_account hflushed.codec_eq hflushed.started_iff hflushed.clock_eq
      ⟨calls, hwritten.congr rfl AudioTrack.giveUp_of_decided, hcalls⟩
      (fun hne => absurd rfl hne)
  have hdecided : (t.releaseHeld []).2.audio.probe ≠ .undecided := by
    rw [releaseHeld_frame]
    exact AudioTrack.giveUp_decided _
  obtain ⟨calls', hwritten', hcalls'⟩ := hreleased.handed
  rw [hreleased.drained hdecided, List.map_nil, List.append_nil] at hcalls'
  refine ⟨calls', ?_, hcalls'⟩
  rw [List.append_assoc] at hwritten'
  exact hwritten'

/-- A new muxer has the codec of the session. -/
theorem newMuxer_codec (codec : VideoCodec) (withAudio : Bool) :
    (newMuxer codec withAudio).codec = codec := by
  cases withAudio <;> rfl

theorem newMuxer_countersOk (codec : VideoCodec) (withAudio : Bool) :
    TsMuxer.CountersOk (newMuxer codec withAudio) := by
  cases withAudio <;> exact TsMuxer.countersOk_new codec

/-- Only the video calls are read back. -/
theorem filterMap_videoReading (calls : List TsMuxer.Call) :
    calls.filterMap (TsMuxer.Call.videoReading codec) =
      (calls.filter TsMuxer.Call.isVideo).filterMap (TsMuxer.Call.videoReading codec) := by
  rw [List.filterMap_filter]
  refine List.filterMap_congr fun c _ => ?_
  cases c <;> rfl

/-- What is written can be read back as its video calls. -/
theorem Written.pesPackets {calls : List TsMuxer.Call} (h : Written codec calls out s) :
    MpegTs.pesPackets out TsMux.videoPid =
      some ((calls.filter TsMuxer.Call.isVideo).filterMap (TsMuxer.Call.videoReading codec)) := by
  rw [← filterMap_videoReading]
  obtain ⟨-, rfl, rfl⟩ | ⟨muxer, -, -, hrun, -⟩ := h
  · rfl
  · have hread := TsMuxer.pesPackets_run_video
      (newMuxer_countersOk codec (s.audio.probe = .confirmed)) calls
    rwa [hrun, newMuxer_codec] at hread

/-- The PES packet of an access unit: `pts` on the 90 kHz timeline, cut off at zero. -/
def unitPes (codec : VideoCodec) (pts : ℤ) (unit : Bytes) : MpegTs.Pes where
  streamId := 0xe0
  packetLength := 0
  pts := (max 0 pts).toNat % 2 ^ 33
  payload := if unit[4]? = some (TsMuxer.delimiterNal codec) then unit
    else TsMuxer.delimiter codec ++ unit

/-- A unit is read back as its PES packet. -/
theorem videoReading_videoCall (unit : HeldUnit) :
    (videoCall unit).videoReading codec = some (unitPes codec unit.pts unit.data) := by
  have hpts : (nonNegative unit.pts).toNat % 2 ^ 33 = (max 0 unit.pts).toNat % 2 ^ 33 := by
    have hclip : (max 0 unit.pts).toNat = unit.pts.toNat := by omega
    rw [nonNegative, UInt64.toNat_ofNat', hclip]
    exact Nat.mod_mod_of_dvd _ (by decide)
  rw [videoCall, TsMuxer.Call.videoReading, hpts]
  rfl

/-- The access units of a session, as a receiver finds them. -/
def sessionPes (codec : VideoCodec) (units : List AccessUnit) : List MpegTs.Pes :=
  units.mapIdx fun i unit =>
    unitPes codec (90000 + elapsed ((units.map Prod.fst).take (i + 1))) unit.2

/-- The stamped units are read back in turn. -/
theorem filterMap_stamped (units : List AccessUnit) :
    ((stamped codec units).map videoCall).filterMap (TsMuxer.Call.videoReading codec) =
      sessionPes codec units := by
  rw [List.filterMap_map]
  have hsome : (TsMuxer.Call.videoReading codec ∘ videoCall) =
      fun unit => some (unitPes codec unit.pts unit.data) :=
    funext videoReading_videoCall
  rw [hsome, List.filterMap_eq_map', stamped, sessionPes, List.mapIdx_eq_zipIdx_map,
    List.mapIdx_eq_zipIdx_map, List.map_map]
  rfl

/-- **Every access unit, on the camera's clock.** A session none of whose packets fails, and its
end: the PES packets on the video PID are the access units of the items from the first keyframe on,
in order, each stamped with one second plus the sum of the signed 32-bit differences of the
timestamps up to it. No packet of another payload type has a part in this. -/
theorem video_pes_are_access_units (aes : Aes128) (key : Option Block) (packets : List Bytes)
    (out : Bytes) (s : RtpToTs)
    (hrun : Transducer.run (feed aes) (new (RtpVideo.withKey key)) packets = (.ok out, s)) :
    ∃ items, Transducer.run (RtpVideo.feed aes) (RtpVideo.withKey key) packets =
        (.ok items, s.video) ∧
      (s.video.codec = none → items = [] ∧ out ++ (s.finish).1 = []) ∧
      ∀ codec, s.video.codec = some codec →
        MpegTs.pesPackets (out ++ (s.finish).1) TsMux.videoPid =
          some (sessionPes codec (fromKeyframe codec (unitsOf items))) := by
  obtain ⟨items, hitems, hcases⟩ := run_session key hrun
  refine ⟨items, hitems, ?_, ?_⟩
  · intro hnone
    -- no codec, no output
    rcases hcases with ⟨-, -, hs, rfl, rfl⟩ | ⟨codec, -, -, haccount⟩
    · refine ⟨rfl, ?_⟩
      rw [hs]
      simp [finish, flushUnit, releaseHeld, new, hnone]
    · rw [haccount.closed.codec_eq] at hnone
      cases hnone
  -- every unit from the first keyframe on
  · intro codec hcodec
    rcases hcases with ⟨hnone, -⟩ | ⟨codec', -, -, haccount⟩
    · rw [hnone] at hcodec
      cases hcodec
    · cases haccount.closed.codec_eq.symm.trans hcodec
      obtain ⟨calls, hwritten, hcalls⟩ := finish_handed haccount
      rw [hwritten.pesPackets, hcalls, filterMap_stamped]

/-- A session of two access units, 3000 ticks apart across the wrap of the timestamp. -/
theorem video_pes_of_two_units :
    let packets := [RtpVideo.samplePacket true 0xfffffc18 [0x65, 0x88],
      RtpVideo.samplePacket true 0x7d0 [0x41, 0x9a]]
    ∃ out s, Transducer.run (feed RtpVideo.noCipher) (new RtpVideo.clear) packets = (.ok out, s) ∧
      MpegTs.pesPackets (out ++ (s.finish).1) TsMux.videoPid =
        some [unitPes .h264 90000 (annexB [0x65, 0x88]),
          unitPes .h264 93000 (annexB [0x41, 0x9a])] := by
  intro packets
  have hrun : Transducer.run (feed RtpVideo.noCipher) (new RtpVideo.clear) packets =
      (.ok [], (Transducer.run (feed RtpVideo.noCipher) (new RtpVideo.clear) packets).2) :=
    Prod.ext (by rfl) rfl
  obtain ⟨items, hitems, -, hpes⟩ :=
    video_pes_are_access_units RtpVideo.noCipher none packets [] _ hrun
  have hread :
      (Transducer.run (RtpVideo.feed RtpVideo.noCipher) (RtpVideo.withKey none) packets).1 =
      .ok [.video 0xfffffc18 true (annexB [0x65, 0x88]),
        .video 0x7d0 true (annexB [0x41, 0x9a])] := by
    decide
  rw [hitems] at hread
  obtain rfl := Except.ok.inj hread
  refine ⟨[], _, hrun, ?_⟩
  rw [hpes .h264 (by rfl)]
  decide

end RtpToTs

end EzvizBridge
