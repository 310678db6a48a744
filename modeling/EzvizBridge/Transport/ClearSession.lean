import EzvizBridge.Transport.Packetize
import EzvizBridge.Transport.StartupQueue

/-!
# A clear session over a packetized stream

`RtpVideo.session_items` reads a session that succeeds as its NAL packets. Without a key the
converse holds as well: the NAL decryptor passes every NAL on, so a session fails only where a
payload cannot be depacketized. `clear_session` is the two directions together, a clear session as a
function of its packets.

Over the packets of a well-formed stream this is the inverse of packetization
(`depacketizes_stream`): whatever the choices of the sender, the start code and the NAL come out for
each NAL, in order, with the timestamp of the packet that completed it. `feedAggregation_indexed`
adds what the model of the loop of `feed_aggregation` leaves implicit, that it comes to an end and
that all its reads are inside of the payload.
-/

namespace EzvizBridge

open RtpNalDecryptor (stampedNals)

/-! ### The depacketizer in a clear session -/

namespace RtpNalDecryptor

variable {aes : Aes128} {self self' : RtpNalDecryptor}

/-- Every NAL is passed on. -/
structure Passes (d : RtpNalDecryptor) : Prop where
  mode : d.nal.mode = .clear
  pending : d.nal.pending = none
  codec : d.nal.codec = d.codec

/-- A new depacketizer without a key passes its NALs on. -/
theorem passes_new (codec : VideoCodec) : (new codec none).Passes := ⟨rfl, rfl, rfl⟩

/-- A NAL is passed on. -/
theorem feedNal_passes (aes : Aes128) (h : self.Passes) (nal : Bytes) :
    ∃ chunks self', self.feedNal aes nal = (.ok chunks, self') ∧ self'.Passes := by
  have hfeed := NalDecryptor.feed_passes aes h.mode h.pending self.stamp nal
  unfold feedNal
  rw [hfeed]
  exact ⟨_, _, rfl, h.mode, h.pending, h.codec⟩

/-- A fragment that joins is accepted, and completes a NAL or not. -/
theorem feedFragment_passes {fu : UInt8} {start data : Bytes} (h : self.Passes)
    {step : List Bytes × Option Bytes}
    (hjoin : joinFragment self.fragment fu start data = some step) :
    ∃ chunks self', self.feedFragment aes fu start data = (.ok chunks, self') ∧ self'.Passes := by
  unfold joinFragment at hjoin
  unfold feedFragment
  -- the start bit begins a new fragment, and otherwise the current one goes on
  cases hcurrent : (if (fu &&& 0x80 != 0) = true then some start else self.fragment) with
  -- there is none, and the fragment is dropped unless it ends
  | none =>
    simp only [hcurrent] at hjoin ⊢
    split at hjoin
    · cases hjoin
    · next hend => exact ⟨_, _, if_neg hend, h⟩
  -- the fragment grows within its bound
  | some fragment =>
    simp only [hcurrent] at hjoin ⊢
    split at hjoin
    · cases hjoin
    · next hbound =>
      rw [if_neg hbound]
      split
      · -- the end bit: the fragment is fed as a NAL
        have hbehind : ({ self with fragment := none } : RtpNalDecryptor).Passes :=
          ⟨h.mode, h.pending, h.codec⟩
        exact feedNal_passes aes hbehind (fragment ++ data)
      · exact ⟨_, _, rfl, h.mode, h.pending, h.codec⟩

/-- The NALs of an aggregate that can be split are passed on. -/
theorem feedAggregationLoop_passes {fuel : ℕ} {payload : Bytes} {nals : List Bytes}
    (h : self.Passes) (hsplit : splitAggregate fuel payload = some nals) (output : Chunks) :
    ∃ chunks self', feedAggregationLoop aes fuel self payload output = (.ok chunks, self') ∧
      self'.Passes := by
  -- on the fuel; the payload is split in the same steps
  induction fuel generalizing self payload nals output with
  | zero => exact ⟨_, _, rfl, h⟩
  | succ fuel ih =>
    match payload with
    | [] => exact ⟨_, _, rfl, h⟩
    | [_] => cases hsplit
    | hi :: lo :: payload =>
      rw [splitAggregate] at hsplit
      rw [feedAggregationLoop]
      split at hsplit
      · cases hsplit
      · next hsize =>
        obtain ⟨rest, hrest, -⟩ := Option.map_eq_some_iff.mp hsplit
        obtain ⟨chunks, middle, hfeed, hmiddle⟩ :=
          feedNal_passes aes h (payload.take (u16FromBe hi lo).toNat)
        rw [if_neg hsize, hfeed]
        exact ih hmiddle hrest _

/-- A payload of H.264: a fragment, an aggregate or a single NAL. -/
theorem feedH264_passes {payload : Bytes} (h : self.Passes) {step : List Bytes × Option Bytes}
    (hstep : depacketize .h264 self.fragment payload = some step) :
    ∃ chunks self', self.feedH264 aes payload = (.ok chunks, self') ∧ self'.Passes := by
  unfold depacketize at hstep
  unfold feedH264
  match payload with
  | [] => exact ⟨_, _, rfl, h⟩
  | first :: rest =>
    dsimp only at hstep ⊢
    split at hstep
    · next hfu =>
      rw [if_pos hfu]
      match rest with
      | [] => cases hstep
      | fu :: data => exact feedFragment_passes h hstep
    · next hfu =>
      rw [if_neg hfu]
      split at hstep
      · next hagg =>
        obtain ⟨nals, hsplit, -⟩ := Option.map_eq_some_iff.mp hstep
        rw [if_pos hagg]
        exact feedAggregationLoop_passes h hsplit []
      · next hagg =>
        rw [if_neg hagg]
        exact feedNal_passes aes h _

/-- A payload of HEVC: a fragment, an aggregate or a single NAL. -/
theorem feedHevc_passes {payload : Bytes} (h : self.Passes) {step : List Bytes × Option Bytes}
    (hstep : depacketize .hevc self.fragment payload = some step) :
    ∃ chunks self', self.feedHevc aes payload = (.ok chunks, self') ∧ self'.Passes := by
  unfold depacketize at hstep
  unfold feedHevc
  match payload with
  | [] => exact ⟨_, _, rfl, h⟩
  | [_] => exact ⟨_, _, rfl, h⟩
  | first :: second :: rest =>
    dsimp only at hstep ⊢
    split at hstep
    · next hfu =>
      rw [if_pos hfu]
      match rest with
      | [] => cases hstep
      | fu :: data => exact feedFragment_passes h hstep
    · next hfu =>
      rw [if_neg hfu]
      split at hstep
      · next hagg =>
        obtain ⟨nals, hsplit, -⟩ := Option.map_eq_some_iff.mp hstep
        rw [if_pos hagg]
        exact feedAggregationLoop_passes h hsplit []
      · next hagg =>
        rw [if_neg hagg]
        exact feedNal_passes aes h _

variable (aes) in
/-- **A payload that can be depacketized is accepted.** -/
theorem feed_passes {payload : Bytes} (h : self.Passes) {step : List Bytes × Option Bytes}
    (hstep : depacketize self.codec self.fragment payload = some step) (stamp : UInt32) :
    ∃ chunks self', self.feed aes stamp payload = (.ok chunks, self') ∧ self'.Passes := by
  have hstamped : ({ self with stamp := stamp } : RtpNalDecryptor).Passes :=
    ⟨h.mode, h.pending, h.codec⟩
  obtain ⟨codec, nal, fragment, before⟩ := self
  cases codec with
  | h264 => exact feedH264_passes hstamped hstep
  | hevc => exact feedHevc_passes hstamped hstep

variable (aes) in
/-- **The packets that can be depacketized are accepted**, up to where the rest begins. -/
theorem run_routeStep_passes {rtps rest : List RtpPacket} {nals : List NalPacket} (h : self.Passes)
    (hnals : nalPackets self.codec self.fragment (rtps ++ rest) = some nals) :
    ∃ items self', Transducer.run (routeStep aes) self rtps = (.ok items, self') ∧ self'.Passes ∧
      ∃ more, nalPackets self'.codec self'.fragment rest = some more := by
  -- on the packets
  induction rtps generalizing self nals with
  | nil => exact ⟨[], self, rfl, h, nals, hnals⟩
  | cons rtp rtps ih =>
    rw [List.cons_append, nalPackets] at hnals
    cases hstep : depacketize self.codec self.fragment rtp.payload with
    | none =>
      rw [hstep] at hnals
      cases hnals
    | some step =>
      -- the packet can be depacketized, so it is fed without an error
      obtain ⟨completed, fragment⟩ := step
      rw [hstep] at hnals
      obtain ⟨later, hlater, -⟩ := Option.map_eq_some_iff.mp hnals
      obtain ⟨chunks, middle, hfeed, hmiddle⟩ := feed_passes aes h hstep rtp.timestamp
      -- the fragment behind the packet is the one of `depacketize`
      obtain ⟨completed', fragment', hstep', -, hcodec, hfragment⟩ := feed_ok hfeed
      cases hstep.symm.trans hstep'
      rw [← hcodec, ← hfragment] at hlater
      obtain ⟨items, self', hrun, hself, hmore⟩ := ih hmiddle hlater
      have hroute : self.routeStep aes rtp =
          (.ok (packetItems rtp.timestamp rtp.marker chunks), middle) := by
        rw [routeStep, hfeed]
      exact ⟨_, self', Transducer.run_cons_ok hroute hrun, hself, hmore⟩

end RtpNalDecryptor

/-! ### The session -/

namespace RtpVideo

open RtpNalDecryptor (routeStep)

variable {aes : Aes128} {self : RtpVideo} {video : UInt8} {decryptor decryptor' : RtpNalDecryptor}
  {items : List RtpOutput}

/-- What the depacketizer accepts is routed. -/
theorem route_of_routeStep {rtp : RtpPacket} (hdec : self.decryptor = some decryptor)
    (htype : rtp.payloadType = video)
    (hstep : decryptor.routeStep aes rtp = (.ok items, decryptor')) :
    self.route aes rtp video = (.ok items, { self with decryptor := some decryptor' }) := by
  unfold routeStep at hstep
  unfold route
  rw [if_neg (not_not.2 htype), hdec]
  dsimp only
  -- both functions do nothing but match on the depacketizer's answer
  generalize decryptor.feed aes rtp.timestamp rtp.payload = fed at hstep ⊢
  obtain ⟨answer, behind⟩ := fed
  cases answer with
  | error e => cases hstep
  | ok chunks =>
    cases hstep
    rfl

/-- The replay of the buffer is the run over its packets of the video. -/
theorem replay_of_run {pending : List Bytes} (hdec : self.decryptor = some decryptor)
    (hparse : ∀ packet ∈ pending, ∃ rtp, parseRtp packet = .ok rtp)
    (hrun : Transducer.run (routeStep aes) decryptor (videoPackets video pending) =
      (.ok items, decryptor')) (output : List RtpOutput) :
    replay aes video self pending output =
      (.ok (output ++ items), { self with decryptor := some decryptor' }) := by
  -- on the buffered packets; those of other types are passed over
  induction pending generalizing self decryptor items output with
  | nil =>
    cases hrun
    rw [replay, List.append_nil, ← hdec]
  | cons candidate pending ih =>
    obtain ⟨rtp, hrtp⟩ := hparse candidate List.mem_cons_self
    have hrest := fun packet hmem => hparse packet (List.mem_cons_of_mem candidate hmem)
    rw [← List.singleton_append, videoPackets_append, videoPackets_singleton hrtp] at hrun
    rw [replay, hrtp]
    dsimp only
    by_cases htype : rtp.payloadType = video
    · rw [if_pos htype, List.singleton_append] at hrun
      obtain ⟨first, middle, more, hfirst, hmore, rfl⟩ := Transducer.run_eq_ok_cons.1 hrun
      rw [if_pos htype, route_of_routeStep hdec htype hfirst]
      dsimp only
      rw [ih rfl hrest hmore, List.append_assoc]
    · rw [if_neg htype, List.nil_append] at hrun
      rw [if_neg htype]
      exact ih hdec hrest hrun output

/-- Once the payload type is known, a session goes as far as its depacketizer. -/
theorem run_of_selected {packets : List Bytes} (htype : self.payloadType = some video)
    (hdec : self.decryptor = some decryptor)
    (hparse : ∀ packet ∈ packets, ∃ rtp, parseRtp packet = .ok rtp)
    (hrun : Transducer.run (routeStep aes) decryptor (videoPackets video packets) =
      (.ok items, decryptor')) :
    ∃ items self', Transducer.run (feed aes) self packets = (.ok items, self') := by
  -- on the packets
  induction packets generalizing self decryptor items with
  | nil => exact ⟨[], self, rfl⟩
  | cons packet packets ih =>
    obtain ⟨rtp, hrtp⟩ := hparse packet List.mem_cons_self
    have hrest := fun packet' hmem => hparse packet' (List.mem_cons_of_mem packet hmem)
    have hfeed : self.feed aes packet = self.route aes rtp video := by
      unfold feed
      simp only [rejectNonRtpContainer_of_parseRtp hrtp, hrtp, htype]
    rw [← List.singleton_append, videoPackets_append, videoPackets_singleton hrtp] at hrun
    -- a packet of the video
    by_cases hvideo : rtp.payloadType = video
    · rw [if_pos hvideo, List.singleton_append] at hrun
      obtain ⟨first, middle, more, hfirst, hmore, rfl⟩ := Transducer.run_eq_ok_cons.1 hrun
      rw [route_of_routeStep hdec hvideo hfirst] at hfeed
      obtain ⟨later, self', hlater⟩ :=
        @ih { self with decryptor := some middle } _ _ htype rfl hrest
        hmore
      exact ⟨_, self', Transducer.run_cons_ok hfeed hlater⟩
    · -- a packet of another type is handed on
      rw [if_neg hvideo, List.nil_append] at hrun
      rw [route, if_pos hvideo] at hfeed
      obtain ⟨later, self', hlater⟩ := ih htype hdec hrest hrun
      exact ⟨_, self', Transducer.run_cons_ok hfeed hlater⟩

/-- **From the first packet on**: a session that selects a codec goes as far as its depacketizer,
over the buffered packets and those behind them. -/
theorem run_of_probing {codec : VideoCodec} {packets : List Bytes} (hkey : self.key = none)
    (htype : self.payloadType = none)
    (hbuffered : ∀ packet ∈ self.buffered, ∃ rtp, parseRtp packet = .ok rtp)
    (hparse : ∀ packet ∈ packets, ∃ rtp, parseRtp packet = .ok rtp)
    (hsel : selection self.buffered.length self.bufferedBytes packets = some (codec, video))
    {nals : List NalPacket}
    (hnals : nalPackets codec none (videoPackets video (self.buffered ++ packets)) = some nals) :
    ∃ items self', Transducer.run (feed aes) self packets = (.ok items, self') := by
  -- on the packets that are still to come
  induction packets generalizing self with
  | nil => cases hsel
  | cons packet packets ih =>
    obtain ⟨rtp, hrtp⟩ := hparse packet List.mem_cons_self
    have hrest := fun packet' hmem => hparse packet' (List.mem_cons_of_mem packet hmem)
    -- the buffered packets are RTP packets, and this one is
    have hjoined : ∀ packet' ∈ self.buffered ++ [packet], ∃ rtp, parseRtp packet' = .ok rtp := by
      intro packet' hmem
      rcases List.mem_append.1 hmem with hmem | hmem
      · exact hbuffered packet' hmem
      · rw [List.mem_singleton.1 hmem]
        exact ⟨rtp, hrtp⟩
    have hsplit : self.buffered ++ packet :: packets =
        self.buffered ++ [packet] ++ packets := by simp
    rw [selection, hrtp] at hsel
    dsimp only at hsel
    -- the bounds of the probe are reached, or not
    split at hsel
    · cases hsel
    · next hbound =>
      cases hdetect : detectCodec rtp.payload.head? with
      -- the packet decides nothing, and is buffered
      | none =>
        rw [hdetect] at hsel
        have hfeed : self.feed aes packet = (.ok [], { self with
            bufferedBytes := self.bufferedBytes + packet.length
            buffered := self.buffered ++ [packet] }) := by
          unfold feed
          simp only [rejectNonRtpContainer_of_parseRtp hrtp, hrtp, htype, if_neg hbound, hdetect]
        have hnext := @ih { self with
          bufferedBytes := self.bufferedBytes + packet.length
          buffered := self.buffered ++ [packet] } hkey htype hjoined hrest
        rw [List.length_append, List.length_singleton, ← hsplit] at hnext
        obtain ⟨later, self', hlater⟩ := hnext hsel hnals
        exact ⟨_, self', Transducer.run_cons_ok hfeed hlater⟩
      | some found =>
        rw [hdetect] at hsel
        cases hsel
        -- the buffer is replayed, this packet as its last, and the session goes on behind it
        rw [hsplit, videoPackets_append] at hnals
        obtain ⟨replayed, behind, hreplay, hpasses, more, hmore⟩ :=
          RtpNalDecryptor.run_routeStep_passes aes (RtpNalDecryptor.passes_new codec) hnals
        rw [← List.append_nil (videoPackets rtp.payloadType packets)] at hmore
        obtain ⟨routed, last, hrun, -⟩ :=
          RtpNalDecryptor.run_routeStep_passes aes hpasses hmore
        have hfeed : ∃ next, self.feed aes packet = (.ok replayed, next) ∧
            next.payloadType = some rtp.payloadType ∧ next.decryptor = some behind := by
          refine ⟨{ self with
            codec := some codec
            payloadType := some rtp.payloadType
            decryptor := some behind
            buffered := []
            bufferedBytes := 0 }, ?_, rfl, rfl⟩
          unfold feed
          simp only [rejectNonRtpContainer_of_parseRtp hrtp, hrtp, htype, if_neg hbound, hdetect]
          rw [replay_of_run rfl hjoined (hkey.symm ▸ hreplay) [], List.nil_append]
        obtain ⟨next, hfeed, htype', hdec'⟩ := hfeed
        obtain ⟨later, self', hlater⟩ := run_of_selected htype' hdec' hrest hrun
        exact ⟨_, self', Transducer.run_cons_ok hfeed hlater⟩

end RtpVideo

/-! ### What a session emits -/

/-- The video bytes among the items, with their timestamps; an item that only carries a marker has
none. -/
def emitted (items : List RtpOutput) : Chunks :=
  items.filterMap fun item =>
    match item with
    | .video timestamp _ data => if data = [] then none else some (timestamp, data)
    | .other _ _ _ => none

theorem emitted_append (items items' : List RtpOutput) :
    emitted (items ++ items') = emitted items ++ emitted items' := List.filterMap_append

/-- Only the items of the video emit something. -/
theorem emitted_isVideo (items : List RtpOutput) :
    emitted (items.filter RtpOutput.isVideo) = emitted items := by
  induction items with
  | nil => rfl
  | cons item items ih =>
    cases item with
    | video timestamp marker data =>
      rw [List.filter_cons_of_pos rfl, ← List.singleton_append, emitted_append, ih]
      exact (emitted_append [_] items).symm
    | other type timestamp payload =>
      rw [List.filter_cons_of_neg Bool.false_ne_true, ih]
      rfl

/-- The chunks with bytes are emitted. -/
theorem emitted_unmarked {chunks : Chunks} (h : ∀ chunk ∈ chunks, chunk.2 ≠ []) :
    emitted (unmarked chunks) = chunks := by
  induction chunks with
  | nil => rfl
  | cons chunk chunks ih =>
    have hrest := ih fun other hother => h other (List.mem_cons_of_mem _ hother)
    rw [unmarked, List.map_cons, ← List.singleton_append, emitted_append, ← unmarked, hrest]
    simp [emitted, h chunk List.mem_cons_self]

/-- A packet emits its complete NALs, wherever its marker stands. -/
theorem emitted_promptItems (codec : VideoCodec) (packet : NalPacket) :
    emitted (promptItems codec packet) = promptChunks codec packet := by
  unfold promptItems
  by_cases hempty : promptChunks codec packet = []
  · rw [hempty, packetItems_nil]
    rfl
  · obtain ⟨front, data, hchunks, hdata, hfront⟩ := promptChunks_concat hempty
    rw [hchunks, packetItems_concat, emitted_append, emitted_unmarked hfront]
    simp [emitted, hdata]

/-- What the items of the packets emit. -/
theorem emitted_flatMap (codec : VideoCodec) (packets : List NalPacket) :
    emitted (packets.flatMap (promptItems codec)) = packets.flatMap (promptChunks codec) := by
  induction packets with
  | nil => rfl
  | cons packet packets ih =>
    rw [List.flatMap_cons, List.flatMap_cons, emitted_append, emitted_promptItems, ih]

namespace RtpVideo

variable {aes : Aes128} {codec : VideoCodec} {video : UInt8} {packets : List Bytes}

/-- **A clear session.** With the codec and the payload type that it selects, it emits the NALs of
its packets, or it fails where they cannot be depacketized. -/
theorem clear_session (aes : Aes128)
    (hparse : ∀ packet ∈ packets, ∃ rtp, parseRtp packet = .ok rtp)
    (hsel : selection 0 0 packets = some (codec, video)) :
    (∀ nals, nalPackets codec none (videoPackets video packets) = some nals →
      ∃ items, (Transducer.run (feed aes) clear packets).1 = .ok items ∧
        emitted items = nals.flatMap (promptChunks codec)) ∧
    (nalPackets codec none (videoPackets video packets) = none →
      ∃ e, (Transducer.run (feed aes) clear packets).1 = .error e) := by
  have hdecided : (Transducer.run (feed aes) clear packets).2.Decided (selection 0 0 packets) :=
    run_selection aes rfl rfl hparse
  rw [hsel] at hdecided
  -- the packets can be depacketized: the session succeeds
  constructor
  · intro nals hnals
    obtain ⟨items, self', hrun⟩ := @run_of_probing aes clear video codec packets rfl rfl
      (fun _ hnil => nomatch hnil) hparse hsel nals hnals
    rw [hrun] at hdecided ⊢
    refine ⟨items, rfl, ?_⟩
    -- what has come out is known from the session that succeeds
    obtain ⟨nals', decryptor, hnals', -, hitems⟩ := session_items hrun hdecided.1 hdecided.2
    obtain rfl := Option.some.inj (hnals.symm.trans hnals')
    obtain ⟨decryptor', hclear⟩ :=
      @NalDecryptor.run_clear (NalDecryptor.new codec none) aes rfl rfl nals
    have hsame := Except.ok.inj (congrArg Prod.fst (hitems.symm.trans hclear))
    rw [← emitted_isVideo, hsame]
    exact emitted_flatMap codec nals
  -- they cannot: a session that succeeded would have depacketized them
  · intro hnone
    cases hrun : Transducer.run (feed aes) clear packets with
    | mk result self' =>
      cases result with
      | error e => exact ⟨e, rfl⟩
      | ok items =>
        rw [hrun] at hdecided
        obtain ⟨nals, -, hnals, -⟩ := session_items hrun hdecided.1 hdecided.2
        rw [hnone] at hnals
        cases hnals

end RtpVideo

/-! ### The reads of `feed_aggregation` -/

namespace RtpNalDecryptor

variable (aes : Aes128)

/-- `feed_aggregation` with every read checked: `none` where one of them is outside of the payload,
and where the given number of passes does not suffice. -/
def feedAggregationIndexed : ℕ → RtpNalDecryptor → Bytes → Chunks →
    Option (Outcome RtpNalDecryptor Chunks)
  | 0, _, _, _ => none
  | passes + 1, self, payload, output =>
    if payload.isEmpty then some (.ok output, self)
    else if payload.length < 2 then
      some (.error (.upstream "RTP aggregation length is truncated"), self)
    else do
      let hi ← payload[0]?
      let lo ← payload[1]?
      let size := (u16FromBe hi lo).toNat
      let payload ← sliceOf payload 2 payload.length
      if size = 0 ∨ size > payload.length then
        some (.error (.upstream "RTP aggregation unit is invalid"), self)
      else
        let nal ← sliceOf payload 0 size
        match self.feedNal aes nal with
        | (.error e, self) => some (.error e, self)
        | (.ok chunks, self) =>
          let payload ← sliceOf payload size payload.length
          feedAggregationIndexed passes self payload (output ++ chunks)

variable {aes}

/-- **The loop comes to an end** within the length of the payload, and all its reads are inside. -/
theorem feedAggregationLoop_indexed {fuel passes : ℕ} {self : RtpNalDecryptor} {payload : Bytes}
    (hfuel : payload.length ≤ fuel) (hpasses : payload.length < passes) (output : Chunks) :
    feedAggregationIndexed aes passes self payload output =
      some (feedAggregationLoop aes fuel self payload output) := by
  -- on the passes of the loop that may index
  induction passes generalizing fuel self payload output with
  | zero => exact absurd hpasses (Nat.not_lt_zero _)
  | succ passes ih =>
    match payload with
    -- the loop ends with the payload, or with one byte that is left
    | [] => cases fuel <;> rfl
    | [_] =>
      obtain ⟨fuel, rfl⟩ : ∃ n, fuel = n + 1 := ⟨fuel - 1, by simp at hfuel; omega⟩
      rfl
    -- the size is read, and the NAL behind it is sliced
    | hi :: lo :: payload =>
      rw [List.length_cons, List.length_cons] at hfuel hpasses
      obtain ⟨fuel, rfl⟩ : ∃ n, fuel = n + 1 := ⟨fuel - 1, by omega⟩
      have hlong : ¬ (hi :: lo :: payload).length < 2 := by simp
      have hrest : sliceOf (hi :: lo :: payload) 2 (hi :: lo :: payload).length = some payload := by
        rw [sliceOf, if_pos ⟨by simp, Nat.le_refl _⟩, List.take_length]
        rfl
      rw [feedAggregationIndexed, feedAggregationLoop, List.isEmpty_cons, if_neg Bool.false_ne_true,
        if_neg hlong, hrest]
      simp only [List.getElem?_cons_zero, List.getElem?_cons_succ, Option.bind_eq_bind,
        Option.bind_some]
      split
      · rfl
      · next hsize =>
        -- the size is within the payload, so both slices are there
        have hle : (u16FromBe hi lo).toNat ≤ payload.length := by omega
        have hnal : sliceOf payload 0 (u16FromBe hi lo).toNat =
            some (payload.take (u16FromBe hi lo).toNat) := if_pos ⟨Nat.zero_le _, hle⟩
        have hmore : sliceOf payload (u16FromBe hi lo).toNat payload.length =
            some (payload.drop (u16FromBe hi lo).toNat) := by
          rw [sliceOf, if_pos ⟨hle, Nat.le_refl _⟩, List.take_length]
        rw [hnal, Option.bind_some]
        obtain ⟨result, behind⟩ := self.feedNal aes (payload.take (u16FromBe hi lo).toNat)
        cases result with
        | error e => rfl
        | ok chunks =>
          have hshort : (payload.drop (u16FromBe hi lo).toNat).length ≤ payload.length := by
            rw [List.length_drop]
            exact Nat.sub_le _ _
          dsimp only
          rw [hmore, Option.bind_some]
          exact ih (hshort.trans (by omega)) (by omega) _

theorem feedAggregation_indexed (aes : Aes128) (self : RtpNalDecryptor) (payload : Bytes) :
    feedAggregationIndexed aes (payload.length + 1) self payload [] =
      some (self.feedAggregation aes payload) :=
  feedAggregationLoop_indexed (Nat.le_refl _) (Nat.lt_succ_self _) []

end RtpNalDecryptor

/-! ### The property -/

section Packetization

variable {codec : VideoCodec} {stream : List Packetized}

/-- The later fragments complete the NAL with the last of them. -/
theorem completes_laterFragments (nal : Bytes) {pieces : List Bytes} (hne : pieces ≠ []) :
    (Packetized.laterFragments codec nal pieces).flatMap (·.completes) = [nal] := by
  induction pieces with
  | nil => exact absurd rfl hne
  | cons piece pieces ih =>
    cases pieces with
    | nil => rfl
    | cons next pieces => exact ih (List.cons_ne_nil next pieces)

/-- The NALs that the payloads of a choice complete are its NALs. -/
theorem completes_payloads {choice : Packetized} (h : choice.WellFormed codec) :
    (choice.payloads codec).flatMap (·.completes) = choice.nals := by
  match choice, h with
  | .single nal, _ => rfl
  | .aggregate head nals, _ => exact List.append_nil nals
  | .fragmented nal (piece :: pieces), ⟨_, htwo, _⟩ =>
    have hne : pieces ≠ [] := by
      rintro rfl
      simp at htwo
    exact completes_laterFragments nal hne

theorem completes_sentPayloads (h : ∀ choice ∈ stream, choice.WellFormed codec) :
    (sentPayloads codec stream).flatMap (·.completes) = stream.flatMap Packetized.nals := by
  rw [sentPayloads, List.flatMap_assoc]
  exact List.flatMap_congr fun choice hchoice => completes_payloads (h choice hchoice)

/-- The choices of the sender carry NALs of the codec. -/
theorem carries_nals {choice : Packetized} (h : choice.WellFormed codec) :
    ∀ nal ∈ choice.nals, codec.carries nal := by
  match choice, h with
  | .single nal, h => exact fun other hother => List.mem_singleton.mp hother ▸ h
  | .aggregate head nals, ⟨_, _, h⟩ => exact fun nal hnal => (h nal hnal).1
  | .fragmented nal pieces, ⟨h, _⟩ => exact fun other hother => List.mem_singleton.mp hother ▸ h

/-- The start code and the NAL, with the timestamp of its packet, for each NAL that a payload
completes. -/
def expected (rtps : List RtpPacket) (sent : List SentPayload) : Chunks :=
  (List.zipWith (fun rtp payload => payload.completes.map fun nal => (rtp.timestamp, annexB nal))
    rtps sent).flatten

/-- What was sent complete comes out as it was sent. -/
theorem promptChunks_sent {rtps : List RtpPacket} {sent : List SentPayload}
    (h : ∀ payload ∈ sent, ∀ nal ∈ payload.completes, codec.complete nal) :
    (List.zipWith (fun rtp nals => (⟨rtp.timestamp, rtp.marker, nals⟩ : NalPacket)) rtps
      (sent.map (·.completes))).flatMap (promptChunks codec) = expected rtps sent := by
  induction rtps generalizing sent with
  | nil => rfl
  | cons rtp rtps ih =>
    cases sent with
    | nil => rfl
    | cons payload sent =>
      have hall : payload.completes.filter codec.complete = payload.completes :=
        List.filter_eq_self.mpr (h payload List.mem_cons_self)
      rw [List.map_cons, List.zipWith_cons_cons, List.flatMap_cons, expected,
        List.zipWith_cons_cons, List.flatten_cons, promptChunks, hall,
        ih fun other hother => h other (List.mem_cons_of_mem _ hother)]
      rfl

/-- The expected NALs are those that the payloads complete. -/
theorem expected_nals {rtps : List RtpPacket} {sent : List SentPayload}
    (h : rtps.length = sent.length) :
    (expected rtps sent).map Prod.snd = (sent.flatMap (·.completes)).map annexB := by
  induction rtps generalizing sent with
  | nil =>
    rw [List.eq_nil_of_length_eq_zero h.symm]
    rfl
  | cons rtp rtps ih =>
    cases sent with
    | nil => cases h
    | cons payload sent =>
      rw [expected, List.zipWith_cons_cons, List.flatten_cons, List.map_append, List.map_map,
        List.flatMap_cons, List.map_append, ← ih (Nat.succ.inj h)]
      rfl

end Packetization

namespace RtpVideo

variable {codec : VideoCodec} {video : UInt8} {stream : List Packetized} {packets : List Bytes}

/-- **Depacketization inverts packetization.** Over the packets of a well-formed stream whose NALs
are within the bound of the fragment buffer, a clear session that selects the codec of the stream
emits the start code and the NAL for each NAL, in order, with the timestamp of the packet that
completed it. For every payload whatsoever the loop over an aggregate ends, with all its reads
inside of the payload. -/
theorem depacketizes_stream (aes : Aes128) (hstream : ∀ choice ∈ stream, choice.WellFormed codec)
    (hbound : ∀ choice ∈ stream, ∀ nal ∈ choice.nals, nal.length ≤ RtpNalDecryptor.maxFragmentBytes)
    (hparse : ∀ packet ∈ packets, ∃ rtp, parseRtp packet = .ok rtp)
    (hsent : (videoPackets video packets).map (·.payload) =
      (sentPayloads codec stream).map (·.payload)) :
    let session := Transducer.run (feed aes) clear packets
    (session.2.codec = some codec → session.2.payloadType = some video →
      ∃ items, session.1 = .ok items ∧
        emitted items = expected (videoPackets video packets) (sentPayloads codec stream) ∧
        (emitted items).map Prod.snd = (stream.flatMap Packetized.nals).map annexB) ∧
    ∀ (self : RtpNalDecryptor) (payload : Bytes),
      RtpNalDecryptor.feedAggregationIndexed aes (payload.length + 1) self payload [] =
        some (self.feedAggregation aes payload) := by
  intro session
  refine ⟨fun hcodec htype => ?_, RtpNalDecryptor.feedAggregation_indexed aes⟩
  -- the session ends with its selection
  have hdecided : session.2.Decided (selection 0 0 packets) := run_selection aes rfl rfl hparse
  have hsel : selection 0 0 packets = some (codec, video) := by
    cases hcases : selection 0 0 packets with
    | none =>
      rw [hcases] at hdecided
      exact nomatch hcodec.symm.trans hdecided.1
    | some decision =>
      rw [hcases] at hdecided
      obtain ⟨found, type⟩ := decision
      cases hcodec.symm.trans hdecided.1
      cases htype.symm.trans hdecided.2
      rfl
  -- the fragments fit the buffer by assumption, and the other kinds need none
  have hfits : ∀ choice ∈ stream, choice.Fits := by
    intro choice hchoice
    cases choice with
    | fragmented nal pieces => exact hbound _ hchoice nal (List.mem_singleton_self nal)
    | single nal => exact trivial
    | aggregate head nals => exact trivial
  have hnals : nalPackets codec none (videoPackets video packets) =
      some (List.zipWith (fun rtp nals => ⟨rtp.timestamp, rtp.marker, nals⟩)
        (videoPackets video packets) ((sentPayloads codec stream).map (·.completes))) := by
    rw [nalPackets_eq, hsent, completions_sent hstream, if_pos hfits, Option.map_some]
  -- every NAL is one of a choice of the sender
  have hcomplete : ∀ payload ∈ sentPayloads codec stream, ∀ nal ∈ payload.completes,
      codec.complete nal := by
    intro payload hpayload nal hnal
    have hmem : nal ∈ stream.flatMap Packetized.nals := by
      rw [← completes_sentPayloads hstream]
      exact List.mem_flatMap_of_mem hpayload hnal
    obtain ⟨choice, hchoice, hin⟩ := List.mem_flatMap.mp hmem
    exact (Bool.and_eq_true_iff.mp (carries_nals (hstream choice hchoice) nal hin)).1
  obtain ⟨items, hitems, hemitted⟩ := (clear_session aes hparse hsel).1 _ hnals
  rw [promptChunks_sent hcomplete] at hemitted
  refine ⟨items, hitems, hemitted, ?_⟩
  have hlength := congrArg List.length hsent
  rw [List.length_map, List.length_map] at hlength
  rw [hemitted, expected_nals hlength, completes_sentPayloads hstream]

/-- What starts as an RTP packet is parsed as one. -/
theorem exists_of_isRtp {packet : Bytes} (h : isRtp packet) : ∃ rtp, parseRtp packet = .ok rtp := by
  unfold isRtp at h
  cases hparse : parseRtp packet with
  | error e =>
    rw [hparse] at h
    cases h
  | ok rtp => exact ⟨rtp, rfl⟩

/-- An SPS on its own, a PPS and an SEI in one packet, and an IDR slice in three fragments, the
second of them empty. -/
def mixedStream : List Packetized :=
  [.single [0x67, 0x42, 0xc0, 0x1e], .aggregate [0x78] [[0x68, 0xce], [0x06, 0x05, 0x01]],
    .fragmented [0x65, 0x88, 0x84, 0x21] [[0x88, 0x84], [], [0x21]]]

/-- The packets of the stream, stamped 3000 and 6000. -/
def mixedPackets : List Bytes :=
  List.zipWith (fun timestamp payload => samplePacket false timestamp payload)
    [3000, 3000, 6000, 6000, 6000] ((sentPayloads .h264 mixedStream).map (·.payload))

/-- A stream of a single NAL, an aggregate and fragments. -/
theorem depacketizes_stream_sample :
    ∃ items, (Transducer.run (feed noCipher) clear mixedPackets).1 = .ok items ∧
      emitted items = [(3000, annexB [0x67, 0x42, 0xc0, 0x1e]), (3000, annexB [0x68, 0xce]),
        (3000, annexB [0x06, 0x05, 0x01]), (6000, annexB [0x65, 0x88, 0x84, 0x21])] := by
  have hrtp : ∀ packet ∈ mixedPackets, isRtp packet := by decide
  have h := @depacketizes_stream .h264 0x60 mixedStream mixedPackets noCipher (by decide)
    (by decide)
    (fun packet hmem => exists_of_isRtp (hrtp packet hmem)) (by decide)
  obtain ⟨items, hitems, hemitted, -⟩ := h.1 (by decide) (by decide)
  exact ⟨items, hitems, hemitted.trans (by decide)⟩

end RtpVideo

end EzvizBridge
