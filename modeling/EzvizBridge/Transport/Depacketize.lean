import EzvizBridge.Transport.CodecDetection
import EzvizBridge.Transport.VideoCipherQueue

/-!
# A session as a sequence of NALs

What the depacketizer does with a payload does not depend on the cipher: a payload completes a list
of NALs and leaves a fragment buffer behind (`depacketize`), and the decryptor is fed these NALs in
order with the timestamp of the packet. So a session that does not fail is the session of its NAL
packets: timestamp, marker, NALs (`NalPacket`), in the order in which the packets of the video
payload type arrived, those buffered before the codec was known included.

`session_items` is this reduction: the video items of a run of `RtpVideo::feed` are those of
`nalStep` over the NAL packets. It is the common ground of an encrypted and a clear session.
-/

namespace EzvizBridge

/-- A packet of the video payload type, with the NALs it completes. -/
structure NalPacket where
  timestamp : UInt32
  marker : Bool
  nals : List Bytes
  deriving DecidableEq, Repr

/-! ### The NALs of a payload -/

/-- The units of an aggregation payload; `none` where the source reports an error. -/
def splitAggregate : ℕ → Bytes → Option (List Bytes)
  | 0, _ => some []
  | _ + 1, [] => some []
  | _ + 1, [_] => none
  | fuel + 1, hi :: lo :: payload =>
    let size := (u16FromBe hi lo).toNat
    if size = 0 ∨ size > payload.length then none
    else (splitAggregate fuel (payload.drop size)).map (payload.take size :: ·)

/-- A fragmentation unit: the NAL it completes, if any, and the fragment behind it. -/
def joinFragment (fragment : Option Bytes) (fu : UInt8) (start data : Bytes) :
    Option (List Bytes × Option Bytes) :=
  match if fu &&& 0x80 != 0 then some start else fragment with
  | some fragment =>
    if (fragment ++ data).length > RtpNalDecryptor.maxFragmentBytes then none
    else if fu &&& 0x40 != 0 then some ([fragment ++ data], none)
    else some ([], some (fragment ++ data))
  | none => if fu &&& 0x40 != 0 then none else some ([], none)

/-- The NALs that a payload completes, and the fragment behind it. -/
def depacketize (codec : VideoCodec) (fragment : Option Bytes) (payload : Bytes) :
    Option (List Bytes × Option Bytes) :=
  match codec, payload with
  | .h264, [] => some ([], fragment)
  | .h264, first :: rest =>
    -- a fragment, an aggregate, or a single NAL
    if first &&& 0x1f = 28 then
      match rest with
      | [] => none
      | fu :: data => joinFragment fragment fu [(first &&& 0xe0) ||| (fu &&& 0x1f)] data
    else if first &&& 0x1f = 24 then (splitAggregate rest.length rest).map (·, fragment)
    else some ([first :: rest], fragment)
  | .hevc, first :: second :: rest =>
    -- the same with two bytes of header
    if first >>> 1 &&& 0x3f = 49 then
      match rest with
      | [] => none
      | fu :: data =>
        let start : Bytes := [first &&& (0x81 : UInt8) ||| (fu &&& (0x3f : UInt8)) <<< 1, second]
        joinFragment fragment fu start data
    else if first >>> 1 &&& 0x3f = 48 then (splitAggregate rest.length rest).map (·, fragment)
    else some ([first :: second :: rest], fragment)
  | .hevc, _ => some ([], fragment)

namespace RtpNalDecryptor

variable {aes : Aes128} {self self' : RtpNalDecryptor} {chunks : Chunks}

/-- The NALs of one packet, with its timestamp. -/
def stampedNals (stamp : UInt32) (nals : List Bytes) : List (UInt32 × Bytes) :=
  nals.map fun nal => (stamp, nal)

/-- What a depacketizer step does: it feeds the NALs, and its own state moves from the fragment
before to the one behind. -/
def Feeds (aes : Aes128) (self : RtpNalDecryptor) (nals : List Bytes) (fragment : Option Bytes)
    (chunks : Chunks) (self' : RtpNalDecryptor) : Prop :=
  self.nal.feedAll aes (stampedNals self.stamp nals) = (.ok chunks, self'.nal) ∧
    self' = { self with nal := self'.nal, fragment := fragment }

/-- A single NAL is fed as itself. -/
theorem feedNal_ok {nal : Bytes} (hok : self.feedNal aes nal = (.ok chunks, self')) :
    Feeds aes self [nal] self.fragment chunks self' := by
  unfold feedNal at hok
  obtain ⟨hresult, rfl⟩ := Prod.mk.inj hok
  refine ⟨?_, rfl⟩
  rw [stampedNals, List.map_singleton, NalDecryptor.feedAll, Transducer.run_singleton]
  exact Prod.ext hresult rfl

/-- A fragment is joined, and fed when it ends. -/
theorem feedFragment_ok {fu : UInt8} {start data : Bytes}
    (hok : self.feedFragment aes fu start data = (.ok chunks, self')) :
    ∃ nals fragment, joinFragment self.fragment fu start data = some (nals, fragment) ∧
      Feeds aes self nals fragment chunks self' := by
  unfold feedFragment at hok
  unfold joinFragment
  cases hcurrent : (if (fu &&& 0x80 != 0) = true then some start else self.fragment) with
  | none =>
    -- no start and no fragment before: an end would have been an error
    have hempty : self.fragment = none := by
      split at hcurrent
      · cases hcurrent
      · exact hcurrent
    simp only [hcurrent] at hok
    split at hok
    · simp only [finishFragment, hempty] at hok
      cases hok
    · next hend =>
      cases hok
      exact ⟨[], none, if_neg hend, rfl, by rw [← hempty]⟩
  | some fragment =>
    simp only [hcurrent] at hok
    split at hok
    · cases hok
    · next hbound =>
      dsimp only
      rw [if_neg hbound]
      split at hok
      · next hend =>
        rw [if_pos hend]
        simp only [finishFragment] at hok
        obtain ⟨hfeed, hself⟩ := feedNal_ok hok
        exact ⟨_, _, rfl, hfeed, hself⟩
      · next hend =>
        rw [if_neg hend]
        cases hok
        exact ⟨_, _, rfl, rfl, rfl⟩

/-- An aggregate is fed as its NALs. -/
theorem feedAggregationLoop_ok {fuel : ℕ} {payload : Bytes} {output result : Chunks}
    (hok : feedAggregationLoop aes fuel self payload output = (.ok result, self')) :
    ∃ nals chunks, splitAggregate fuel payload = some nals ∧ result = output ++ chunks ∧
      Feeds aes self nals self.fragment chunks self' := by
  -- on the units of the aggregate
  induction fuel generalizing self payload output with
  | zero =>
    cases hok
    exact ⟨[], [], rfl, (List.append_nil _).symm, rfl, rfl⟩
  | succ fuel ih =>
    match payload with
    | [] =>
      cases hok
      exact ⟨[], [], rfl, (List.append_nil _).symm, rfl, rfl⟩
    | [_] => cases hok
    | hi :: lo :: payload =>
      rw [feedAggregationLoop] at hok
      split at hok
      · cases hok
      · next hsize =>
        split at hok
        · cases hok
        · next first middle hfirst =>
          -- the unit in front, and by induction the rest of the payload
          obtain ⟨hfeed, hmiddle⟩ := feedNal_ok hfirst
          obtain ⟨nals, chunks, hsplit, rfl, hrest, hself⟩ := ih hok
          refine ⟨payload.take (u16FromBe hi lo).toNat :: nals, first ++ chunks, ?_,
            List.append_assoc _ _ _, ?_, ?_⟩
          · rw [splitAggregate, if_neg hsize, hsplit, Option.map_some]
          · rw [hmiddle] at hrest
            rw [stampedNals, List.map_singleton] at hfeed
            rw [stampedNals, List.map_cons]
            rw [NalDecryptor.feedAll, Transducer.run_singleton] at hfeed
            exact Transducer.run_cons_ok hfeed hrest
          · rw [hself, hmiddle]

/-- **A payload is fed as its NALs.** -/
theorem feed_ok {stamp : UInt32} {payload : Bytes}
    (hok : self.feed aes stamp payload = (.ok chunks, self')) :
    ∃ nals fragment, depacketize self.codec self.fragment payload = some (nals, fragment) ∧
      self.nal.feedAll aes (stampedNals stamp nals) = (.ok chunks, self'.nal) ∧
      self'.codec = self.codec ∧ self'.fragment = fragment := by
  have hfeeds : ∃ nals fragment,
      depacketize self.codec self.fragment payload = some (nals, fragment) ∧
        Feeds aes { self with stamp := stamp } nals fragment chunks self' := by
    unfold feed at hok
    unfold depacketize
    -- the payload is empty, a fragment, an aggregate, or a single NAL
    cases hcodec : self.codec with
    | h264 =>
      simp only [hcodec] at hok
      unfold feedH264 at hok
      match payload with
      | [] =>
        cases hok
        exact ⟨_, _, rfl, rfl, rfl⟩
      | first :: rest =>
        dsimp only at hok ⊢
        split at hok
        · next hfu =>
          rw [if_pos hfu]
          match rest with
          | [] => cases hok
          | fu :: data => exact feedFragment_ok hok
        · next hfu =>
          rw [if_neg hfu]
          split at hok
          · next hagg =>
            obtain ⟨nals, chunks', hsplit, rfl, hfeed⟩ := feedAggregationLoop_ok hok
            rw [if_pos hagg, hsplit]
            exact ⟨nals, _, rfl, hfeed⟩
          · next hagg =>
            rw [if_neg hagg]
            exact ⟨_, _, rfl, feedNal_ok hok⟩
    | hevc =>
      simp only [hcodec] at hok
      unfold feedHevc at hok
      match payload with
      | [] =>
        cases hok
        exact ⟨_, _, rfl, rfl, rfl⟩
      | [_] =>
        cases hok
        exact ⟨_, _, rfl, rfl, rfl⟩
      | first :: second :: rest =>
        dsimp only at hok ⊢
        split at hok
        · next hfu =>
          rw [if_pos hfu]
          match rest with
          | [] => cases hok
          | fu :: data => exact feedFragment_ok hok
        · next hfu =>
          rw [if_neg hfu]
          split at hok
          · next hagg =>
            obtain ⟨nals, chunks', hsplit, rfl, hfeed⟩ := feedAggregationLoop_ok hok
            rw [if_pos hagg, hsplit]
            exact ⟨nals, _, rfl, hfeed⟩
          · next hagg =>
            rw [if_neg hagg]
            exact ⟨_, _, rfl, feedNal_ok hok⟩
  obtain ⟨nals, fragment, hnals, hfeed, hself⟩ := hfeeds
  refine ⟨nals, fragment, hnals, hfeed, ?_, ?_⟩
  · rw [hself]
  · rw [hself]

end RtpNalDecryptor

/-! ### The packets of a session -/

/-- An item of the video half, as opposed to a packet handed on. -/
def RtpOutput.isVideo : RtpOutput → Bool
  | .video _ _ _ => true
  | .other _ _ _ => false

/-- The items of one packet, from what the decryptor released. -/
def packetItems (timestamp : UInt32) (marker : Bool) (chunks : Chunks) : List RtpOutput :=
  RtpVideo.closeItems timestamp marker (chunks.map fun chunk => .video chunk.1 false chunk.2)

/-- What a packet yields is video. -/
theorem packetItems_isVideo (timestamp : UInt32) (marker : Bool) (chunks : Chunks) :
    (packetItems timestamp marker chunks).filter RtpOutput.isVideo =
      packetItems timestamp marker chunks := by
  rw [List.filter_eq_self]
  intro item hitem
  have hmap : ∀ item ∈ chunks.map fun chunk => RtpOutput.video chunk.1 false chunk.2,
      item.isVideo = true := by
    intro item hitem
    obtain ⟨chunk, -, rfl⟩ := List.mem_map.1 hitem
    rfl
  unfold packetItems RtpVideo.closeItems at hitem
  -- either the last item is rewritten or an empty one is added, and the others stand
  split at hitem
  · split at hitem
    · rcases List.mem_append.1 hitem with h | h
      · exact hmap item (List.mem_of_mem_dropLast h)
      · rw [List.mem_singleton.1 h]
        rfl
    · rcases List.mem_append.1 hitem with h | h
      · exact hmap item h
      · rw [List.mem_singleton.1 h]
        rfl
  · rcases List.mem_append.1 hitem with h | h
    · exact hmap item h
    · rw [List.mem_singleton.1 h]
      rfl

/-- The packets of the given payload type, parsed. -/
def videoPackets (video : UInt8) (packets : List Bytes) : List RtpPacket :=
  packets.filterMap fun packet =>
    match parseRtp packet with
    | .error _ => none
    | .ok rtp => if rtp.payloadType = video then some rtp else none

theorem videoPackets_append (video : UInt8) (packets packets' : List Bytes) :
    videoPackets video (packets ++ packets') =
      videoPackets video packets ++ videoPackets video packets' :=
  List.filterMap_append

theorem videoPackets_singleton {video : UInt8} {packet : Bytes} {rtp : RtpPacket}
    (h : parseRtp packet = .ok rtp) :
    videoPackets video [packet] = if rtp.payloadType = video then [rtp] else [] := by
  by_cases htype : rtp.payloadType = video <;> simp [videoPackets, h, htype]

namespace RtpNalDecryptor

variable (aes : Aes128)

/-- The items of one packet of the video payload type. -/
def routeStep (self : RtpNalDecryptor) (rtp : RtpPacket) :
    Outcome RtpNalDecryptor (List RtpOutput) :=
  match self.feed aes rtp.timestamp rtp.payload with
  | (.error e, self) => (.error e, self)
  | (.ok chunks, self) => (.ok (packetItems rtp.timestamp rtp.marker chunks), self)

/-- What the route of a video packet yields is video. -/
theorem routeStep_isVideo {aes : Aes128} {self self' : RtpNalDecryptor} {rtp : RtpPacket}
    {items : List RtpOutput} (hok : self.routeStep aes rtp = (.ok items, self')) :
    items.filter RtpOutput.isVideo = items := by
  unfold routeStep at hok
  split at hok
  · cases hok
  · cases hok
    exact packetItems_isVideo _ _ _

/-- The depacketizer yields video items only. -/
theorem run_routeStep_isVideo {aes : Aes128} {self self' : RtpNalDecryptor}
    {rtps : List RtpPacket} {items : List RtpOutput}
    (hrun : Transducer.run (routeStep aes) self rtps = (.ok items, self')) :
    items.filter RtpOutput.isVideo = items := by
  induction rtps generalizing self items with
  | nil =>
    cases hrun
    rfl
  | cons rtp rtps ih =>
    obtain ⟨first, middle, more, hfirst, hmore, rfl⟩ := Transducer.run_eq_ok_cons.1 hrun
    rw [List.filter_append, routeStep_isVideo hfirst, ih hmore]

end RtpNalDecryptor

namespace RtpVideo

open RtpNalDecryptor

variable {aes : Aes128} {self self' : RtpVideo} {items : List RtpOutput}

/-- A packet of the video payload type goes through the depacketizer. -/
theorem route_ok {rtp : RtpPacket} {video : UInt8} {decryptor : RtpNalDecryptor}
    (hdec : self.decryptor = some decryptor) (htype : rtp.payloadType = video)
    (hok : self.route aes rtp video = (.ok items, self')) :
    ∃ decryptor', decryptor.routeStep aes rtp = (.ok items, decryptor') ∧
      self' = { self with decryptor := some decryptor' } := by
  unfold route at hok
  rw [if_neg (not_not.2 htype), hdec] at hok
  dsimp only at hok
  split at hok
  · cases hok
  · next chunks decryptor' hfeed =>
    cases hok
    refine ⟨decryptor', ?_, rfl⟩
    rw [routeStep, hfeed]
    rfl

/-- The replay routes the video packets of the buffer. -/
theorem replay_ok {video : UInt8} {pending : List Bytes} {output result : List RtpOutput}
    {decryptor : RtpNalDecryptor} (hdec : self.decryptor = some decryptor)
    (hok : replay aes video self pending output = (.ok result, self')) :
    ∃ decryptor' more, Transducer.run (routeStep aes) decryptor (videoPackets video pending) =
        (.ok more, decryptor') ∧ result = output ++ more ∧
      self' = { self with decryptor := some decryptor' } := by
  -- on the packets that are replayed
  induction pending generalizing self output decryptor with
  | nil =>
    cases hok
    refine ⟨decryptor, [], rfl, (List.append_nil _).symm, ?_⟩
    rw [← hdec]
  | cons candidate pending ih =>
    rw [replay] at hok
    split at hok
    · cases hok
    · next rtp hrtp =>
      rw [← List.singleton_append, videoPackets_append, videoPackets_singleton hrtp]
      -- the packet is of the video, or it is passed over
      split at hok
      · next htype =>
        rw [if_pos htype]
        split at hok
        · cases hok
        · next items middle hroute =>
          obtain ⟨decryptor₁, hstep, hmiddle⟩ := route_ok hdec htype hroute
          have hdec₁ : middle.decryptor = some decryptor₁ := by rw [hmiddle]
          obtain ⟨decryptor', more, hrun, rfl, hself⟩ := ih hdec₁ hok
          refine ⟨decryptor', items ++ more, ?_, List.append_assoc _ _ _, ?_⟩
          · rw [List.singleton_append]
            exact Transducer.run_cons_ok hstep hrun
          · rw [hself, hmiddle]
      · next htype =>
        rw [if_neg htype, List.nil_append]
        exact ih hdec hok

/-- The packets so far are buffered and nothing has come out, or the video items are those of the
depacketizer over the packets of the selected type. -/
def Routed (aes : Aes128) (key : Option Block) (packets : List Bytes) (items : List RtpOutput)
    (self : RtpVideo) : Prop :=
  self.key = key ∧
  ((self.payloadType = none ∧ items = [] ∧ self.buffered = packets) ∨
    ∃ codec video decryptor, self.codec = some codec ∧ self.payloadType = some video ∧
      self.decryptor = some decryptor ∧
      Transducer.run (routeStep aes) (RtpNalDecryptor.new codec key) (videoPackets video packets) =
        (.ok (items.filter RtpOutput.isVideo), decryptor))

/-- **One packet.** -/
theorem feed_routed {key : Option Block} {packets : List Bytes} {packet : Bytes}
    {more : List RtpOutput} (h : Routed aes key packets items self)
    (hok : self.feed aes packet = (.ok more, self')) :
    Routed aes key (packets ++ [packet]) (items ++ more) self' := by
  obtain ⟨hkey, hcases⟩ := h
  unfold feed at hok
  split at hok
  · cases hok
  · split at hok
    · cases hok
    · next rtp hrtp =>
      -- nothing was named before, or the session routes its packets
      rcases hcases with ⟨htype, rfl, hbuffered⟩ |
        ⟨codec, video, decryptor, hcodec, htype, hdec, hrun⟩
      · simp only [htype] at hok
        split at hok
        · cases hok
        · cases hdetect : detectCodec rtp.payload.head? with
          | none =>
            -- nothing named yet: the packet joins the buffer
            simp only [hdetect] at hok
            cases hok
            exact ⟨hkey, Or.inl ⟨rfl, rfl, by rw [hbuffered]⟩⟩
          | some codec =>
            -- the codec is named: the buffer is replayed, this packet as its last
            simp only [hdetect] at hok
            obtain ⟨decryptor', output, hrun, rfl, hself⟩ := replay_ok rfl hok
            rw [hbuffered, hkey] at hrun
            subst hself
            refine ⟨hkey, Or.inr ⟨codec, rtp.payloadType, decryptor', rfl, rfl, rfl, ?_⟩⟩
            have hvideo := run_routeStep_isVideo hrun
            rw [List.nil_append, hvideo]
            exact hrun
      · simp only [htype] at hok
        obtain ⟨hcodec', htype'⟩ := route_frame aes self rtp video
        rw [hok] at hcodec' htype'
        by_cases hvideo : rtp.payloadType = video
        · obtain ⟨decryptor', hstep, hself⟩ := route_ok hdec hvideo hok
          have hmore := routeStep_isVideo hstep
          refine ⟨by rw [hself]; exact hkey, Or.inr ⟨codec, video, decryptor', hcodec'.trans hcodec,
            htype'.trans htype, by rw [hself], ?_⟩⟩
          rw [videoPackets_append, videoPackets_singleton hrtp, if_pos hvideo, List.filter_append,
            hmore]
          refine Transducer.run_eq_ok_append.2 ⟨_, decryptor, more, hrun, ?_, rfl⟩
          rw [Transducer.run_singleton]
          exact hstep
        · -- a packet of another type is handed on and touches nothing
          rw [route, if_pos hvideo] at hok
          cases hok
          refine ⟨hkey, Or.inr ⟨codec, video, decryptor, hcodec, htype, hdec, ?_⟩⟩
          rw [videoPackets_append, videoPackets_singleton hrtp, if_neg hvideo, List.append_nil,
            List.filter_append]
          simpa [RtpOutput.isVideo] using hrun

/-- **A run of packets.** -/
theorem run_routed {key : Option Block} {packets : List Bytes}
    (hrun : Transducer.run (feed aes) (withKey key) packets = (.ok items, self)) :
    Routed aes key packets items self :=
  Transducer.run_history (Routed aes key) (fun _ _ _ h hok => feed_routed h hok)
    ⟨rfl, Or.inl ⟨rfl, rfl, rfl⟩⟩ hrun

end RtpVideo

/-! ### The NAL packets of a session -/

/-- The packets of a session with the NALs they complete, from the fragment left behind so far. -/
def nalPackets (codec : VideoCodec) : Option Bytes → List RtpPacket → Option (List NalPacket)
  | _, [] => some []
  | fragment, rtp :: rtps =>
    match depacketize codec fragment rtp.payload with
    | none => none
    | some (nals, fragment) =>
      (nalPackets codec fragment rtps).map (⟨rtp.timestamp, rtp.marker, nals⟩ :: ·)

namespace NalDecryptor

open RtpNalDecryptor (stampedNals)

/-- The items of one NAL packet. -/
def nalStep (aes : Aes128) (self : NalDecryptor) (packet : NalPacket) :
    Outcome NalDecryptor (List RtpOutput) :=
  match self.feedAll aes (stampedNals packet.timestamp packet.nals) with
  | (.error e, self) => (.error e, self)
  | (.ok chunks, self) => (.ok (packetItems packet.timestamp packet.marker chunks), self)

/-- The NALs of a packet are one step of the decryptor. -/
theorem nalStep_of_feedAll {aes : Aes128} {self self' : NalDecryptor} {packet : NalPacket}
    {chunks : Chunks}
    (h : self.feedAll aes (stampedNals packet.timestamp packet.nals) = (.ok chunks, self')) :
    self.nalStep aes packet = (.ok (packetItems packet.timestamp packet.marker chunks), self') := by
  rw [nalStep, h]

end NalDecryptor

/-- The depacketizer over the packets is the decryptor over the NAL packets. -/
theorem RtpNalDecryptor.run_routeStep {aes : Aes128} {self self' : RtpNalDecryptor}
    {rtps : List RtpPacket} {items : List RtpOutput}
    (hrun : Transducer.run (routeStep aes) self rtps = (.ok items, self')) :
    ∃ packets, nalPackets self.codec self.fragment rtps = some packets ∧
      Transducer.run (NalDecryptor.nalStep aes) self.nal packets = (.ok items, self'.nal) := by
  -- on the packets
  induction rtps generalizing self items with
  | nil =>
    cases hrun
    exact ⟨[], rfl, rfl⟩
  | cons rtp rtps ih =>
    obtain ⟨first, middle, more, hfirst, hmore, rfl⟩ := Transducer.run_eq_ok_cons.1 hrun
    unfold routeStep at hfirst
    split at hfirst
    · cases hfirst
    · next chunks middle' hfeed =>
      obtain ⟨hitems, rfl⟩ := Prod.mk.inj hfirst
      obtain rfl := Except.ok.inj hitems
      obtain ⟨nals, fragment, hnals, hchunks, hcodec, hfragment⟩ := feed_ok hfeed
      obtain ⟨packets, hpackets, hrest⟩ := ih hmore
      refine ⟨⟨rtp.timestamp, rtp.marker, nals⟩ :: packets, ?_, ?_⟩
      · rw [nalPackets, hnals]
        dsimp only
        rw [← hcodec, ← hfragment, hpackets, Option.map_some]
      · exact Transducer.run_cons_ok (NalDecryptor.nalStep_of_feedAll hchunks) hrest

/-- **A session is the session of its NAL packets.** Its video items are those of the decryptor over
the NAL packets of the selected payload type, in order. -/
theorem RtpVideo.session_items {aes : Aes128} {key : Option Block} {packets : List Bytes}
    {items : List RtpOutput} {video : RtpVideo} {codec : VideoCodec} {type : UInt8}
    (hrun : Transducer.run (RtpVideo.feed aes) (RtpVideo.withKey key) packets = (.ok items, video))
    (hcodec : video.codec = some codec) (htype : video.payloadType = some type) :
    ∃ nals decryptor, nalPackets codec none (videoPackets type packets) = some nals ∧
      video.decryptor = some decryptor ∧
      Transducer.run (NalDecryptor.nalStep aes) (NalDecryptor.new codec key) nals =
        (.ok (items.filter RtpOutput.isVideo), decryptor.nal) := by
  obtain ⟨-, ⟨hnone, -⟩ | ⟨codec', type', decryptor, hcodec', htype', hdec, hroute⟩⟩ :=
    RtpVideo.run_routed hrun
  · rw [htype] at hnone
    cases hnone
  · obtain rfl := Option.some.inj (hcodec.symm.trans hcodec')
    obtain rfl := Option.some.inj (htype.symm.trans htype')
    obtain ⟨nals, hnals, hitems⟩ := RtpNalDecryptor.run_routeStep hroute
    exact ⟨nals, decryptor, hnals, hdec, hitems⟩

end EzvizBridge
