import EzvizBridge.Transport.AudioDetection

/-!
# The audio of a session

The packets of other types that `RtpToTs` hears are those behind the packet that names the video's
codec (`arriving`); earlier ones are dropped unheard. With this, what `AudioDetection` says of the
events of a session becomes a statement about its packets and about the transport stream: when the
track is confirmed, in which order the confirming units are released with the held video, and which
units a receiver finds on the audio PID (`audio_detected`).
-/

namespace EzvizBridge

/-! ### The packets that are heard -/

/-- The packet of another type that an item hands on. -/
def RtpOutput.other? : RtpOutput → Option OtherPacket
  | .video _ _ _ => none
  | .other payloadType timestamp payload => some ⟨payloadType, timestamp, payload⟩

theorem heard_events (current : Option AccessUnit) (items : List RtpOutput) :
    heard (events current items) = items.filterMap RtpOutput.other? := by
  induction items generalizing current with
  | nil => rfl
  | cons item items ih =>
    rw [events, heard_append, ih]
    cases item with
    | other payloadType timestamp payload => rfl
    | video timestamp marker data =>
      have hnone : heard (itemEvents current (.video timestamp marker data)) = [] := by
        rw [heard, itemEvents, List.filterMap_map]
        exact List.filterMap_none _
      rw [hnone]
      rfl

namespace RtpVideo

/-- The first payload byte of the packet names a codec. -/
def namesCodec (packet : Bytes) : Bool :=
  match parseRtp packet with
  | .ok rtp => (detectCodec rtp.payload.head?).isSome
  | .error _ => false

/-- The packet, if its type is not that of the video. -/
def otherOf (video : UInt8) (packet : Bytes) : Option OtherPacket :=
  match parseRtp packet with
  | .ok rtp =>
    if rtp.payloadType = video then none else some ⟨rtp.payloadType, rtp.timestamp, rtp.payload⟩
  | .error _ => none

/-- The packets of other types behind the packet that names the codec. -/
def arriving (video : UInt8) (packets : List Bytes) : List OtherPacket :=
  (packets.dropWhile fun packet => !namesCodec packet).tail.filterMap (otherOf video)

variable {aes : Aes128} {video : UInt8}

theorem arriving_concat {packets : List Bytes} (h : ∃ packet ∈ packets, namesCodec packet = true)
    (packet : Bytes) :
    arriving video (packets ++ [packet]) =
      arriving video packets ++ (otherOf video packet).toList := by
  have hne : packets.dropWhile (fun packet => !namesCodec packet) ≠ [] := by
    rw [Ne, List.dropWhile_eq_nil_iff]
    obtain ⟨named, hmem, hnames⟩ := h
    intro hall
    have hnot := hall named hmem
    rw [hnames] at hnot
    cases hnot
  rw [arriving, arriving, List.dropWhile_append, if_neg (by rwa [List.isEmpty_iff]),
    List.tail_append_of_ne_nil hne, List.filterMap_append, List.append_cancel_left_eq,
    List.filterMap_cons]
  cases otherOf video packet <;> rfl

/-- Closing the items of a video packet adds no packet of another type. -/
theorem others_closeItems (timestamp : UInt32) (marker : Bool) {output : List RtpOutput}
    (h : output.filterMap RtpOutput.other? = []) :
    (closeItems timestamp marker output).filterMap RtpOutput.other? = [] := by
  have hempty :
      (output ++ [RtpOutput.video timestamp marker []]).filterMap RtpOutput.other? = [] := by
    rw [List.filterMap_append, h]
    rfl
  unfold closeItems
  split
  · split
    · rw [List.filterMap_append, List.append_eq_nil_iff]
      exact ⟨List.eq_nil_of_sublist_nil (h ▸ output.dropLast_sublist.filterMap _), rfl⟩
    · exact hempty
  · exact hempty

/-- A packet of another type is handed on, and one of the video's type yields none. -/
theorem others_route {self self' : RtpVideo} {rtp : RtpPacket} {items : List RtpOutput}
    (hroute : self.route aes rtp video = (.ok items, self')) :
    items.filterMap RtpOutput.other? =
      if rtp.payloadType = video then [] else [⟨rtp.payloadType, rtp.timestamp, rtp.payload⟩] := by
  unfold route at hroute
  -- another payload type passes, the video's gives no other items
  split at hroute
  · next hne =>
    cases hroute
    rw [if_neg hne]
    rfl
  · next heq =>
    rw [if_pos (not_not.mp heq)]
    split at hroute
    · cases hroute
    · split at hroute
      · cases hroute
      · cases hroute
        refine others_closeItems _ _ ?_
        rw [List.filterMap_map]
        exact List.filterMap_none _

/-- The packets of the probe yield video alone. -/
theorem others_replay {pending : List Bytes} {self self' : RtpVideo} {output items : List RtpOutput}
    (hreplay : replay aes video self pending output = (.ok items, self')) :
    items.filterMap RtpOutput.other? = output.filterMap RtpOutput.other? := by
  induction pending generalizing self output with
  | nil =>
    cases hreplay
    rfl
  | cons candidate pending ih =>
    rw [replay] at hreplay
    split at hreplay
    · cases hreplay
    · next rtp _ =>
      split at hreplay
      · next htype =>
        split at hreplay
        · cases hreplay
        · next more next' hroute =>
          rw [ih hreplay, List.filterMap_append, others_route hroute, if_pos htype, List.append_nil]
      · exact ih hreplay

/-- What a session has handed on so far: nothing before a packet names a codec, and then every
packet of another type. -/
def Hands (packets : List Bytes) (items : List RtpOutput) (self : RtpVideo) : Prop :=
  (self.codec = none ∧ self.payloadType = none ∧ items = [] ∧
    ∀ packet ∈ packets, namesCodec packet = false) ∨
  ∃ video, self.payloadType = some video ∧ (∃ packet ∈ packets, namesCodec packet = true) ∧
    items.filterMap RtpOutput.other? = arriving video packets

/-- The packet that names the codec is the first one of its kind: nothing has arrived yet. -/
theorem arriving_first {packets : List Bytes} (h : ∀ packet ∈ packets, namesCodec packet = false)
    {packet : Bytes} (hnames : namesCodec packet = true) :
    arriving video (packets ++ [packet]) = [] := by
  have hnil : packets.dropWhile (fun packet => !namesCodec packet) = [] := by
    rw [List.dropWhile_eq_nil_iff]
    intro named hmem
    rw [h named hmem]
    rfl
  rw [arriving, List.dropWhile_append, hnil, List.isEmpty_nil, if_pos rfl,
    List.dropWhile_cons_of_neg (by rw [hnames]; simp)]
  rfl

theorem feed_hands {packets : List Bytes} {items more : List RtpOutput} {self self' : RtpVideo}
    (packet : Bytes) (h : Hands packets items self)
    (hok : self.feed aes packet = (.ok more, self')) :
    Hands (packets ++ [packet]) (items ++ more) self' := by
  obtain ⟨hcodec, htype, rfl, hquiet⟩ | ⟨video, htype, hnamed, hitems⟩ := h
  · unfold feed at hok
    split at hok
    · cases hok
    · split at hok
      · cases hok
      · next rtp hrtp =>
        have hnames : namesCodec packet = (detectCodec rtp.payload.head?).isSome := by
          rw [namesCodec, hrtp]
        simp only [htype] at hok
        split at hok
        · cases hok
        · split at hok
          · next hdetect =>
            -- still no codec: the packet is only buffered
            cases hok
            refine Or.inl ⟨hcodec, rfl, rfl, fun named hmem => ?_⟩
            obtain hmem | hmem := List.mem_append.mp hmem
            · exact hquiet named hmem
            · rw [List.mem_singleton.mp hmem, hnames, hdetect]
              rfl
          · next codec hdetect =>
            -- this packet names the codec, and the buffered ones are replayed
            rw [hdetect] at hnames
            have htype' := (replay_frame aes rtp.payloadType (self.buffered ++ [packet])
              { self with
                codec := some codec
                payloadType := some rtp.payloadType
                decryptor := some (RtpNalDecryptor.new codec self.key)
                buffered := []
                bufferedBytes := 0 } []).2
            rw [hok] at htype'
            refine Or.inr ⟨rtp.payloadType, htype', ⟨packet, by simp, hnames⟩, ?_⟩
            rw [arriving_first hquiet hnames, List.nil_append, others_replay hok]
            rfl
  · obtain ⟨-, htype'⟩ := feed_selected aes htype packet
    rw [hok] at htype'
    refine Or.inr ⟨video, htype'.trans htype, ?_, ?_⟩
    · obtain ⟨named, hmem, hnames⟩ := hnamed
      exact ⟨named, List.mem_append_left _ hmem, hnames⟩
    · rw [arriving_concat hnamed, List.filterMap_append, hitems]
      congr 1
      unfold feed at hok
      split at hok
      · cases hok
      · split at hok
        · cases hok
        · next rtp hrtp =>
          simp only [htype] at hok
          rw [others_route hok, otherOf, hrtp]
          dsimp only
          split <;> rfl

/-- **The packets that are heard** are those of other types behind the packet that names the
codec. -/
theorem run_hands {key : Option Block} {packets : List Bytes} {items : List RtpOutput}
    {self : RtpVideo} (hrun : Transducer.run (feed aes) (withKey key) packets = (.ok items, self))
    (htype : self.payloadType = some video) :
    items.filterMap RtpOutput.other? = arriving video packets := by
  have hstart : Hands [] [] (withKey key) :=
    Or.inl ⟨rfl, rfl, rfl, fun _ hmem => (by cases hmem)⟩
  have hhands := Transducer.run_history Hands (fun packet _ _ h hok => feed_hands packet h hok)
    hstart hrun
  obtain ⟨-, hnone, -, -⟩ | ⟨video', htype', -, hitems⟩ := hhands
  · rw [hnone] at htype
    cases htype
  · obtain rfl := Option.some.inj (htype.symm.trans htype')
    exact hitems

end RtpVideo

namespace RtpToTs

open AudioTrack

/-! ### What a receiver finds on the audio PID -/

/-- The PES packets are the units, in order, each with an ADTS header that repeats the channels the
unit names. -/
def Speaks (pes : List MpegTs.Pes) (units : List Bytes) : Prop :=
  List.Forall₂ (fun packet unit => ∃ channels, packet.payload = Aac.adtsFrame unit channels ∧
    ∀ own, Aac.channels unit = some own → channels = own) pes units

/-- What has been written when `packet`, behind the events `front`, has confirmed the track and the
events `back` have followed. -/
structure Spoken (codec : VideoCodec) (front : List StreamEvent) (packet : OtherPacket)
    (back : List StreamEvent) (calls : List TsMuxer.Call) (out : Bytes) : Prop where
  /-- The first calls release the units held, with the confirming frames among them; in the order of
  the time stamps, if both come in that order. -/
  release : ∃ (frames : List (ℤ × Bytes)) (order : List (HeldUnit ⊕ (ℤ × Bytes)))
      (rest : List TsMuxer.Call), calls = order.map callOf ++ rest ∧
    order.filterMap Sum.getLeft? = admitted codec front ∧
    order.filterMap Sum.getRight? = frames ∧
    Carried frames (confirmingUnits codec front packet) ∧
    ((admitted codec front).Pairwise (fun x y => x.pts ≤ y.pts) →
      frames.Pairwise (fun x y => x.1 ≤ y.1) → order.Pairwise fun x y => ptsOf x ≤ ptsOf y)
  /-- The audio PID carries the confirming units and behind them the later ones, and nothing
  else. -/
  audio : ∃ pes, MpegTs.pesPackets out TsMux.audioPid = some pes ∧
    Speaks pes (confirmingUnits codec front packet ++
      laterUnits codec packet.payloadType (front ++ [.inr packet]) back)

variable {codec : VideoCodec} {calls : List TsMuxer.Call} {out : Bytes} {s : RtpToTs}

/-- What is written can be read back as its audio calls. -/
theorem Written.audioPackets (h : Written codec calls out s) :
    MpegTs.pesPackets out TsMux.audioPid =
      some ((calls.filter TsMuxer.Call.isAudio).filterMap TsMuxer.Call.audioReading) := by
  have hreading : calls.filterMap TsMuxer.Call.audioReading =
      (calls.filter TsMuxer.Call.isAudio).filterMap TsMuxer.Call.audioReading := by
    rw [List.filterMap_filter]
    refine List.filterMap_congr fun c _ => ?_
    cases c <;> rfl
  rw [← hreading]
  obtain ⟨-, rfl, rfl⟩ | ⟨muxer, -, -, hrun, -⟩ := h
  · rfl
  · have hread := TsMuxer.pesPackets_run_audio
      (newMuxer_countersOk codec (s.audio.probe = .confirmed)) calls
    rwa [hrun] at hread

/-- The readings of the calls for frames carry what the frames carry. -/
theorem speaks_of_carried {frames : List (ℤ × Bytes)} {units : List Bytes}
    (h : Carried frames units) :
    Speaks ((frames.map audioCall).filterMap TsMuxer.Call.audioReading) units := by
  unfold Carried at h
  induction h with
  | nil => exact List.Forall₂.nil
  | cons hframe _ ih =>
    exact List.Forall₂.cons hframe ih

/-- The answer of the track is the type of the packet that has confirmed it. -/
theorem Phase.type_iff {es : List StreamEvent} (h : Phase codec es calls s) (audio : UInt8) :
    s.audio.payloadType = some audio ↔
      ∃ front packet back, ConfirmedBy codec es front packet back ∧ packet.payloadType = audio := by
  cases h with
  -- without a confirmed packet there is no type
  | undecided opened remembers =>
    have hnone : s.audio.payloadType ≠ some audio := by
      intro htype
      have hundecided := remembers.undecided
      rw [probe_of_type htype] at hundecided
      cases hundecided
    exact ⟨fun htype => absurd htype hnone,
      fun ⟨_, _, _, hconfirmed, _⟩ => absurd hconfirmed opened.not_confirmedBy⟩
  | absent answer closed never =>
    rw [type_of_absent answer]
    exact ⟨fun htype => (by cases htype),
      fun ⟨front, packet, back, hconfirmed, _⟩ => absurd hconfirmed (never front packet back)⟩
  | confirmed front packet back frames later rest confirmedBy answer =>
    rw [answer]
    constructor
    · intro htype
      exact ⟨front, packet, back, confirmedBy, Option.some.inj htype⟩
    · rintro ⟨front', packet', back', hconfirmed, rfl⟩
      obtain ⟨-, rfl, -⟩ := confirmedBy.unique hconfirmed
      rfl

/-- What has been written when the track is confirmed. -/
theorem Phase.spoken {es front back : List StreamEvent} {packet : OtherPacket}
    (h : Phase codec es calls s) (hwritten : Written codec calls out s)
    (hconfirmed : ConfirmedBy codec es front packet back) :
    Spoken codec front packet back calls out := by
  cases h with
  | undecided opened => exact absurd hconfirmed opened.not_confirmedBy
  | absent answer closed never => exact absurd hconfirmed (never front packet back)
  | confirmed front' packet' back' frames later rest confirmedBy answer split confirming
    audio spoken =>
    obtain ⟨rfl, rfl, rfl⟩ := confirmedBy.unique hconfirmed
    obtain ⟨hcalls, hleft, hright⟩ := releaseOrder_spec (admitted codec front') frames
    refine ⟨⟨frames, releaseOrder (admitted codec front') frames, rest, ?_, hleft, hright,
      confirming, releaseOrder_sorted⟩, _, hwritten.audioPackets, ?_⟩
    · rw [split, hcalls]
    · rw [split, List.filter_append, filter_isAudio_interleave, audio, ← List.map_append]
      exact speaks_of_carried (confirming.append spoken)

/-- Nothing is written of a track that nobody has confirmed. -/
theorem Phase.unspoken {es : List StreamEvent} (h : Phase codec es calls s)
    (hwritten : Written codec calls out s)
    (hnever : ∀ front packet back, ¬ ConfirmedBy codec es front packet back) :
    MpegTs.pesPackets out TsMux.audioPid = some [] := by
  rw [hwritten.audioPackets]
  cases h with
  | undecided opened remembers held quiet =>
    rw [quiet]
    rfl
  | absent answer closed never silent =>
    rw [silent]
    rfl
  | confirmed front packet back frames later rest confirmedBy =>
    exact absurd confirmedBy (hnever front packet back)

/-- **Audio detection**, over every session none of whose packets fails. The packets of other types
that arrive behind the one that names the codec are heard (`heard`), in the order of their arrival.
The track is confirmed, with its type, exactly by the first packet that completes a run of eight
units among the first 400 that are heard and before the video gave up; what is written is `Spoken`,
and nothing if nobody confirms it. -/
theorem audio_detected (aes : Aes128) (key : Option Block) (packets : List Bytes) (out : Bytes)
    (s : RtpToTs)
    (hrun : Transducer.run (feed aes) (new (RtpVideo.withKey key)) packets = (.ok out, s)) :
    (s.video.codec = none → s = new s.video ∧ out = []) ∧
    ∀ codec, s.video.codec = some codec → ∃ items video calls,
      Transducer.run (RtpVideo.feed aes) (RtpVideo.withKey key) packets = (.ok items, s.video) ∧
      s.video.payloadType = some video ∧ Written codec calls out s ∧
      heard (events none items) = RtpVideo.arriving video packets ∧
      (∀ audio, s.audio.payloadType = some audio ↔ ∃ front packet back,
        ConfirmedBy codec (events none items) front packet back ∧ packet.payloadType = audio) ∧
      (∀ front packet back, ConfirmedBy codec (events none items) front packet back →
        Spoken codec front packet back calls out) ∧
      ((∀ front packet back, ¬ ConfirmedBy codec (events none items) front packet back) →
        MpegTs.pesPackets out TsMux.audioPid = some []) := by
  obtain ⟨items, hitems, hcases⟩ := listened_invariant.session key hrun
  obtain ⟨hnone, -, hs, -, hout⟩ | ⟨codec, video, htype, hlistened⟩ := hcases
  · refine ⟨fun _ => ⟨hs, hout⟩, fun codec hcodec => ?_⟩
    rw [hnone] at hcodec
    cases hcodec
  · obtain ⟨⟨haccount, calls, hwritten, hphase⟩, -⟩ := hlistened
    refine ⟨fun hnone => ?_, fun codec' hcodec => ?_⟩
    · rw [haccount.codec_eq] at hnone
      cases hnone
    · obtain rfl := Option.some.inj (haccount.codec_eq.symm.trans hcodec)
      refine ⟨items, video, calls, hitems, htype, hwritten, ?_, hphase.type_iff, ?_, ?_⟩
      · rw [heard_events]
        exact RtpVideo.run_hands hitems htype
      -- what is confirmed is heard
      · intro front packet back hconfirmed
        exact hphase.spoken hwritten hconfirmed
      · exact hphase.unspoken hwritten

/-- An RTP packet of payload type 97 that carries AAC units of four bytes. -/
def audioSample (timestamp : UInt32) (count : ℕ) : Bytes :=
  [0x80, 0xe1, 0x00, 0x01] ++ u32ToBe timestamp ++ [0x00, 0x00, 0x00, 0x02] ++
    u16ToBe (UInt16.ofNat (count * 16)) ++ (List.replicate count [0x00, 0x20]).flatten ++
    (List.replicate count [0x01, 0x40, 0x20, 0x00]).flatten

/-- A keyframe, and behind it a packet of eight units: the type is confirmed. -/
theorem audio_detected_sample :
    let packets := [RtpVideo.samplePacket true 3000 [0x65, 0x88], audioSample 0 8]
    ∃ items, (Transducer.run (RtpVideo.feed RtpVideo.noCipher) (RtpVideo.withKey none) packets).1 =
        .ok items ∧
      ∃ front packet back,
        ConfirmedBy .h264 (events none items) front packet back ∧ packet.payloadType = 97 := by
  intro packets
  have hok : (Transducer.run (feed RtpVideo.noCipher) (new (RtpVideo.withKey none))
      packets).1.isOk = true := by decide +kernel
  have hcodec : (Transducer.run (feed RtpVideo.noCipher) (new (RtpVideo.withKey none))
      packets).2.video.codec = some .h264 := by decide +kernel
  have htype : (Transducer.run (feed RtpVideo.noCipher) (new (RtpVideo.withKey none))
      packets).2.audio.payloadType = some 97 := by decide +kernel
  rcases hrun : Transducer.run (feed RtpVideo.noCipher) (new (RtpVideo.withKey none)) packets with
    ⟨e | out, s⟩ <;> rw [hrun] at hok hcodec htype
  · cases hok
  · obtain ⟨-, hdetected⟩ := audio_detected RtpVideo.noCipher none packets out s hrun
    obtain ⟨items, video, calls, hitems, -, -, -, hconfirmed, -⟩ := hdetected .h264 hcodec
    exact ⟨items, congrArg Prod.fst hitems, (hconfirmed 97).mp htype⟩

/-- Eight units in a row are not enough when seven of them arrive before the video's codec is
known. -/
theorem early_audio_is_unheard :
    let packets := (List.range 7).map (fun i => audioSample (1024 * UInt32.ofNat i) 1) ++
      [RtpVideo.samplePacket true 3000 [0x65, 0x88], audioSample 7168 1]
    ∃ s seen packet,
      Transducer.run (feed RtpVideo.noCipher) (new RtpVideo.clear) packets = (.ok [], s) ∧
      s.video.payloadType = some 96 ∧
      packets.filterMap (RtpVideo.otherOf 96) = seen ++ [packet] ∧
      (seen ++ [packet]).length ≤ probeLimit ∧ Completes seen packet ∧
      s.audio.probe = .undecided := by
  intro packets
  refine ⟨(Transducer.run (feed RtpVideo.noCipher) (new RtpVideo.clear) packets).2,
    (packets.filterMap (RtpVideo.otherOf 96)).take 7,
    ⟨97, 7168, [0x00, 0x10, 0x00, 0x20, 0x01, 0x40, 0x20, 0x00]⟩, Prod.ext ?_ rfl, ?_, ?_,
    ?_, ?_, ?_⟩
  · decide +kernel
  · decide +kernel
  · decide +kernel
  · decide +kernel
  · unfold Completes
    decide +kernel
  · decide +kernel

end RtpToTs

end EzvizBridge
