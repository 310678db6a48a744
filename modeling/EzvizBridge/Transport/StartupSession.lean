import EzvizBridge.Transport.RtpTsSession
import EzvizBridge.Transport.StartupQueue
import EzvizBridge.Transport.VideoCipherModes

/-!
# An encrypted session and its clear twin

`run_waiting` compares the two sessions from a decryptor whose mode is known and whose queue is
empty. A session gets there: while the mode is unknown nothing comes out and only the clock of the
decryptor moves (`feedAll_unknown`, `run_unknown`), and the NAL that fixes the mode is fed as if the
mode had been known from the start (`run_fixing`).

A `PacketizedUnit` is an access unit as the packets carry it: one timestamp, a marker on no packet
but the last, at least one NAL. The prompt cutter recovers such units one by one
(`foldl_packetized`), so when consecutive units differ in their timestamps nothing can be merged,
and both sessions hand the muxer the same units with the same time stamps
(`startup_queue_transparent`).
-/

namespace EzvizBridge

open RtpNalDecryptor (stampedNals)

/-! ### Until the mode is fixed -/

/-- The NALs of a packet with its timestamp. -/
def NalPacket.stamped (packet : NalPacket) : List (UInt32 × Bytes) :=
  stampedNals packet.timestamp packet.nals

namespace NalDecryptor

variable {aes : Aes128} {codec : VideoCodec} {key : Block} {self self' : NalDecryptor}

theorem feedAll_unknown {nals : List (UInt32 × Bytes)} {chunks : Chunks}
    (hfeed : self.feedAll aes nals = (.ok chunks, self')) (hmode : self'.mode = .unknown) :
    self.mode = .unknown ∧ chunks = [] ∧ ∃ stamp, self' = { self with stamp := stamp } := by
  induction nals generalizing self chunks with
  | nil =>
    cases hfeed
    exact ⟨hmode, rfl, self'.stamp, rfl⟩
  | cons nal nals ih =>
    obtain ⟨first, middle, more, hfirst, hmore, rfl⟩ := Transducer.run_eq_ok_cons.1 hfeed
    obtain ⟨hmiddle, rfl, stamp, rfl⟩ := ih hmore
    obtain ⟨hself, rfl, rfl⟩ := feed_unknown hfirst hmiddle
    exact ⟨hself, rfl, stamp, rfl⟩

/-- The packets of a run are its NALs, as far as the decryptor goes. -/
theorem feedAll_of_run {packets : List NalPacket} {items : List RtpOutput}
    (hrun : Transducer.run (nalStep aes) self packets = (.ok items, self')) :
    ∃ chunks, self.feedAll aes (packets.flatMap NalPacket.stamped) = (.ok chunks, self') := by
  induction packets generalizing self items with
  | nil =>
    cases hrun
    exact ⟨[], rfl⟩
  | cons packet packets ih =>
    obtain ⟨first, middle, more, hfirst, hmore, rfl⟩ := Transducer.run_eq_ok_cons.1 hrun
    unfold nalStep at hfirst
    split at hfirst
    · cases hfirst
    · next chunks middle' hfeed =>
      cases hfirst
      obtain ⟨chunks', hrest⟩ := ih hmore
      exact ⟨chunks ++ chunks',
        Transducer.run_eq_ok_append.2 ⟨chunks, _, chunks', hfeed, hrest, rfl⟩⟩

/-- While the mode is unknown the cutter sees empty items only. -/
theorem run_unknown {packets : List NalPacket} {items : List RtpOutput}
    (hrun : Transducer.run (nalStep aes) self packets = (.ok items, self'))
    (hmode : self'.mode = .unknown) :
    items.foldl CutState.next ([], none) = ([], none) := by
  induction packets generalizing self items with
  | nil =>
    cases hrun
    rfl
  | cons packet packets ih =>
    obtain ⟨first, middle, more, hfirst, hmore, rfl⟩ := Transducer.run_eq_ok_cons.1 hrun
    obtain ⟨chunks', hrest⟩ := feedAll_of_run hmore
    -- the mode was still unknown behind the first packet
    have hmiddle := (feedAll_unknown hrest hmode).1
    unfold nalStep at hfirst
    split at hfirst
    · cases hfirst
    · next chunks middle' hfeed =>
      cases hfirst
      obtain ⟨-, rfl, -⟩ := feedAll_unknown hfeed hmiddle
      rw [packetItems_nil, List.foldl_append, List.foldl_cons, List.foldl_nil, next_empty]
      exact ih hmore

/-- `nal` is the NAL that fixes the mode of the session, behind the NALs `earlier`. -/
structure FixesMode (aes : Aes128) (codec : VideoCodec) (key : Block)
    (earlier : List (UInt32 × Bytes)) (nal : UInt32 × Bytes) (mode : EncryptionMode) : Prop where
  unknown : ((new codec (some key)).feedAll aes earlier).2.mode = .unknown
  fixed : ((new codec (some key)).feedAll aes (earlier ++ [nal])).2.mode = mode
  known : mode ≠ .unknown

/-- **From the NAL that fixes the mode on** the session is that of a decryptor which has known the
mode from the start, and the cutter has seen nothing before. -/
theorem run_fixing {before rest : List NalPacket} {t : UInt32} {marker : Bool}
    {skipped after : List Bytes} {fixing : Bytes} {mode : EncryptionMode} {items : List RtpOutput}
    (hrun : Transducer.run (nalStep aes) (new codec (some key))
      (before ++ ⟨t, marker, skipped ++ fixing :: after⟩ :: rest) = (.ok items, self'))
    (hfixes : FixesMode aes codec key (before.flatMap NalPacket.stamped ++ stampedNals t skipped)
      (t, fixing) mode) :
    mode ∈ [.clear, .encrypted codec.header 0, .encrypted 0 codec.header, .encrypted 0 0] ∧
    ∃ items', Transducer.run (nalStep aes) ((new codec (some key)).settle t mode)
        (⟨t, marker, fixing :: after⟩ :: rest) = (.ok items', self') ∧
      items.foldl CutState.next ([], none) = items'.foldl CutState.next ([], none) := by
  obtain ⟨empties, d, more, hbefore, hmore, rfl⟩ := Transducer.run_eq_ok_append.1 hrun
  obtain ⟨first, middle, rest', hfirst, hrest, rfl⟩ := Transducer.run_eq_ok_cons.1 hmore
  obtain ⟨chunks₀, hearlier⟩ := feedAll_of_run hbefore
  unfold nalStep at hfirst
  split at hfirst
  · cases hfirst
  · next chunks middle' hfeed =>
    cases hfirst
    -- the packet in three parts: NALs that are skipped, the one that fixes the mode, and the rest
    have hparts : stampedNals t (skipped ++ fixing :: after) =
        stampedNals t skipped ++ (t, fixing) :: stampedNals t after := List.map_append
    rw [hparts] at hfeed
    obtain ⟨chunks₁, d₁, chunks₂, hskipped, htail, rfl⟩ := Transducer.run_eq_ok_append.1 hfeed
    obtain ⟨chunks₃, d₂, chunks₄, hfixing, hafter, rfl⟩ := Transducer.run_eq_ok_cons.1 htail
    have hall : (new codec (some key)).feedAll aes
        (before.flatMap NalPacket.stamped ++ stampedNals t skipped) =
          (.ok (chunks₀ ++ chunks₁), d₁) :=
      Transducer.run_eq_ok_append.2 ⟨chunks₀, d, chunks₁, hearlier, hskipped, rfl⟩
    have hsnoc : (new codec (some key)).feedAll aes
        (before.flatMap NalPacket.stamped ++ stampedNals t skipped ++ [(t, fixing)]) =
          (.ok (chunks₀ ++ chunks₁ ++ chunks₃), d₂) := by
      refine Transducer.run_eq_ok_append.2 ⟨_, d₁, chunks₃, hall, ?_, rfl⟩
      rw [Transducer.run_singleton]
      exact hfixing
    have hunknown : d₁.mode = .unknown := by
      have h := hfixes.unknown
      rwa [hall] at h
    have hmode : (d₁.feed aes t fixing).2.mode = mode := by
      have h := hfixes.fixed
      rw [hsnoc] at h
      change d₁.feed aes t fixing = _ at hfixing
      rwa [hfixing]
    obtain ⟨-, -, stamp, hd₁⟩ := feedAll_unknown hall hunknown
    obtain ⟨hd, rfl, -⟩ := feedAll_unknown hskipped hunknown
    have hknown : (d₁.feed aes t fixing).2.mode ≠ .unknown := by
      rw [hmode]
      exact hfixes.known
    have hstart : d₁.settle t mode = (new codec (some key)).settle t mode := by
      rw [hd₁]
      rfl
    refine ⟨?_, packetItems t marker (chunks₃ ++ chunks₄) ++ rest', ?_, ?_⟩
    · have h := mode_of_feed hunknown hknown
      rwa [hmode, hd₁] at h
    · refine Transducer.run_cons_ok ?_ hrest
      refine nalStep_of_feedAll ?_
      refine Transducer.run_cons_ok (i := (t, fixing)) ?_ hafter
      have h := feed_fixing hunknown hknown
      rw [hmode, hstart] at h
      exact h.symm.trans hfixing
    · rw [List.foldl_append, run_unknown hbefore hd]
      rfl

/-- A decryptor that has known the layout with a clear NAL header from the start has an empty
queue. -/
theorem ledger_settle (aes : Aes128) (codec : VideoCodec) (key : Block) (t : UInt32) :
    Ledger aes codec key [] [] ((new codec (some key)).settle t (.encrypted codec.header 0)) := by
  have hheader : headerClear (.encrypted codec.header 0) = true := by
    simpa [headerClear] using codec.header_pos
  refine ⟨rfl, rfl, rfl, Or.inl ⟨rfl, ?_, rfl⟩⟩
  simp [settle, hheader, new]

/-- The only layout with a clear header is that of the NAL header. -/
theorem clear_eq_header {clear : ℕ} (hclear : 0 < clear)
    (hmode : EncryptionMode.encrypted clear 0 ∈ [.clear, .encrypted codec.header 0,
      .encrypted 0 codec.header, .encrypted 0 0]) : clear = codec.header := by
  simp only [List.mem_cons, List.not_mem_nil, or_false, reduceCtorEq, false_or,
    EncryptionMode.encrypted.injEq, and_true] at hmode
  omega

end NalDecryptor

/-! ### Access units, as packets carry them -/

/-- An access unit in packets: they share one timestamp, only the last may have the marker, and
there is a NAL among them. -/
structure PacketizedUnit (codec : VideoCodec) where
  timestamp : UInt32
  /-- The NALs that each packet but the last completes. -/
  front : List (List Bytes)
  /-- The NALs that the last packet completes. -/
  last : List Bytes
  marker : Bool
  carries : ∃ nal ∈ front.flatten ++ last, codec.complete nal = true

namespace PacketizedUnit

variable {codec : VideoCodec}

/-- The packets of the unit, in order. -/
def packets (unit : PacketizedUnit codec) : List NalPacket :=
  unit.front.map (fun nals => ⟨unit.timestamp, false, nals⟩) ++
    [⟨unit.timestamp, unit.marker, unit.last⟩]

/-- The unit with its NALs decrypted. -/
def opened (aes : Aes128) (key : Block) (inter : Bool) (unit : PacketizedUnit codec) :
    PacketizedUnit codec where
  timestamp := unit.timestamp
  front := unit.front.map fun nals => nals.map (openNal aes codec key inter)
  last := unit.last.map (openNal aes codec key inter)
  marker := unit.marker
  carries := by
    obtain ⟨nal, hnal, hcomplete⟩ := unit.carries
    refine ⟨openNal aes codec key inter nal, ?_, ?_⟩
    · rw [← List.map_flatten, ← List.map_append]
      exact List.mem_map_of_mem hnal
    · rwa [NalDecryptor.complete_openNal]

/-- The access unit: the complete NALs in order, in Annex-B form. -/
def accessUnit (unit : PacketizedUnit codec) : AccessUnit :=
  (unit.timestamp, ((unit.front.flatten ++ unit.last).filter codec.complete).flatMap annexB)

theorem packets_opened (aes : Aes128) (key : Block) (inter : Bool) (unit : PacketizedUnit codec) :
    (unit.opened aes key inter).packets =
      unit.packets.map (NalPacket.opened aes codec key inter) := by
  simp only [packets, opened, List.map_append, List.map_map, List.map_singleton]
  rfl

end PacketizedUnit

/-! ### The prompt cutter on packetized units -/

/-- The items of a packet: the last one has the marker, and they bring its complete NALs. -/
theorem promptItems_parts (codec : VideoCodec) (packet : NalPacket) :
    ∃ (parts : List Bytes) (last : Bytes), promptItems codec packet =
        (parts.map fun part => RtpOutput.video packet.timestamp false part) ++
          [.video packet.timestamp packet.marker last] ∧
      parts.flatten ++ last = (packet.nals.filter codec.complete).flatMap annexB := by
  have hbytes : ((promptChunks codec packet).map Prod.snd).flatten =
      (packet.nals.filter codec.complete).flatMap annexB := by
    rw [promptChunks, List.map_map, List.flatMap_def]
    rfl
  -- only the last chunk can carry the marker
  by_cases hempty : promptChunks codec packet = []
  · refine ⟨[], [], ?_, ?_⟩
    · rw [promptItems, hempty]
      rfl
    · rw [← hbytes, hempty]
      rfl
  · obtain ⟨front, data, hchunks, -, -⟩ := promptChunks_concat hempty
    refine ⟨front.map Prod.snd, data, ?_, ?_⟩
    · rw [promptItems, hchunks, packetItems_concat, unmarked, List.map_map]
      congr 1
      refine List.map_congr_left fun chunk hchunk => ?_
      have hmem : chunk ∈ promptChunks codec packet := by
        rw [hchunks]
        exact List.mem_append_left _ hchunk
      rw [Function.comp_apply, (mem_promptChunks hmem).1]
    · rw [← hbytes, hchunks, List.map_append, List.flatten_append]
      simp

/-- Items of one timestamp without a marker bring their bytes together. -/
theorem foldl_parts (state : CutState) (t : UInt32) (marker : Bool) (parts : List Bytes)
    (last : Bytes) :
    ((parts.map fun part => RtpOutput.video t false part) ++ [RtpOutput.video t marker last]).foldl
      CutState.next state = state.next (.video t marker (parts.flatten ++ last)) := by
  induction parts generalizing state with
  | nil => rfl
  | cons part parts ih =>
    rw [List.map_cons, List.cons_append, List.foldl_cons, ih, next_next, List.flatten_cons,
      List.append_assoc]

/-- **A packet is cut like one item**: its complete NALs in Annex-B form, and its marker. -/
theorem foldl_promptItems (codec : VideoCodec) (packet : NalPacket) (state : CutState) :
    (promptItems codec packet).foldl CutState.next state =
      state.next (.video packet.timestamp packet.marker
        ((packet.nals.filter codec.complete).flatMap annexB)) := by
  obtain ⟨parts, last, hitems, hbytes⟩ := promptItems_parts codec packet
  rw [hitems, foldl_parts, hbytes]

/-- **A packetized unit is cut like one item.** -/
theorem foldl_packets {codec : VideoCodec} (unit : PacketizedUnit codec) (state : CutState) :
    (unit.packets.flatMap (promptItems codec)).foldl CutState.next state =
      state.next (.video unit.timestamp unit.marker unit.accessUnit.2) := by
  have hfold : ∀ (front : List (List Bytes)) (state : CutState),
      ((front.map (fun nals => (⟨unit.timestamp, false, nals⟩ : NalPacket)) ++
        [(⟨unit.timestamp, unit.marker, unit.last⟩ : NalPacket)]).flatMap (promptItems codec)).foldl
          CutState.next state =
        state.next (.video unit.timestamp unit.marker
          (((front.flatten ++ unit.last).filter codec.complete).flatMap annexB)) := by
    -- the packets of one timestamp add up to one unit
    intro front
    induction front with
    | nil =>
      intro state
      rw [List.map_nil, List.nil_append, List.flatMap_singleton, foldl_promptItems]
      rfl
    | cons nals front ih =>
      intro state
      rw [List.map_cons, List.cons_append, List.flatMap_cons, List.foldl_append, foldl_promptItems,
        ih, next_next, ← List.flatMap_append, ← List.filter_append, List.flatten_cons,
        List.append_assoc]
  exact hfold unit.front state

/-- A packetized unit has bytes. -/
theorem PacketizedUnit.accessUnit_ne_nil {codec : VideoCodec} (unit : PacketizedUnit codec) :
    unit.accessUnit.2 ≠ [] := by
  obtain ⟨nal, hnal, hcomplete⟩ := unit.carries
  intro hempty
  have hpart := List.flatMap_eq_nil_iff.1 hempty nal (List.mem_filter.2 ⟨hnal, hcomplete⟩)
  exact annexB_ne_nil nal hpart

/-- A packetized unit becomes one access unit, unless an open unit has its timestamp. -/
theorem foldl_packetized {codec : VideoCodec} {state : CutState} (unit : PacketizedUnit codec)
    (hother : ∀ current ∈ state.2, current.1 ≠ unit.timestamp) :
    let after := (unit.packets.flatMap (promptItems codec)).foldl CutState.next state
    after.1 ++ after.2.toList = state.1 ++ state.2.toList ++ [unit.accessUnit] ∧
      ∀ current ∈ after.2, current.1 = unit.timestamp := by
  intro after
  have hafter : after = _ := foldl_packets unit state
  rcases cutItem_data state.2 unit.timestamp unit.marker unit.accessUnit_ne_nil with
    ⟨bytes, hcur, -⟩ | ⟨-, hcut⟩
  · exact absurd rfl (hother _ hcur)
  · rw [hafter, CutState.next, hcut]
    cases unit.marker with
    | false =>
      refine ⟨rfl, fun current hcurrent => ?_⟩
      rw [← Option.some.inj hcurrent]
    | true =>
      constructor
      · exact (List.append_nil _).trans (List.append_assoc _ _ _).symm
      · rintro current ⟨⟩

/-- **Packetized units whose neighbours differ in their timestamps** are cut one by one. -/
theorem unitsOf_packetized {codec : VideoCodec} (units : List (PacketizedUnit codec))
    (hchain : units.IsChain fun unit unit' => unit.timestamp ≠ unit'.timestamp) :
    unitsOf ((units.flatMap PacketizedUnit.packets).flatMap (promptItems codec)) =
      units.map PacketizedUnit.accessUnit := by
  -- with any units before it, the open one of another timestamp
  have hfold : ∀ state : CutState,
      (∀ current ∈ state.2, ∀ unit ∈ units.head?, current.1 ≠ unit.timestamp) →
      let after := ((units.flatMap PacketizedUnit.packets).flatMap (promptItems codec)).foldl
        CutState.next state
      after.1 ++ after.2.toList =
        state.1 ++ state.2.toList ++ units.map PacketizedUnit.accessUnit := by
    induction units with
    | nil => exact fun state _ => (List.append_nil _).symm
    | cons unit units ih =>
      intro state hother
      have hunit := foldl_packetized unit fun current hcurrent => hother current hcurrent unit rfl
      dsimp only at hunit
      obtain ⟨htotal, hcurrent⟩ := hunit
      have hrest := ih hchain.tail
        ((unit.packets.flatMap (promptItems codec)).foldl CutState.next state) ?_
      · dsimp only at hrest ⊢
        rw [List.flatMap_cons, List.flatMap_append, List.foldl_append, hrest, htotal,
          List.map_cons, List.append_assoc, List.singleton_append]
      · -- the unit left open has the timestamp of this unit, the next one another
        intro current hmem next hnext
        rw [hcurrent current hmem]
        cases units with
        | nil => exact nomatch hnext
        | cons unit' units =>
          obtain rfl := Option.some.inj hnext
          exact (List.isChain_cons_cons.1 hchain).1
  rw [unitsOf_eq_foldl]
  exact hfold ([], none) fun current hcurrent => nomatch hcurrent

/-! ### Whole sessions -/

namespace RtpToTs

variable {aes : Aes128} {codec : VideoCodec} {out : Bytes} {s : RtpToTs}

/-- The codec of the session is known, and `nals` are the NAL packets among `packets`. -/
def Named (packets : List Bytes) (codec : VideoCodec) (nals : List NalPacket)
    (s : RtpToTs) : Prop :=
  s.video.codec = some codec ∧
  ∃ type, s.video.payloadType = some type ∧
    nalPackets codec none (videoPackets type packets) = some nals

/-- A session of the given codec that has not failed on `packets`, and the NAL packets in them. -/
def Plays (aes : Aes128) (key : Option Block) (codec : VideoCodec) (packets : List Bytes)
    (nals : List NalPacket) (out : Bytes) (s : RtpToTs) : Prop :=
  Transducer.run (feed aes) (new (RtpVideo.withKey key)) packets = (.ok out, s) ∧
  Named packets codec nals s

/-- When the session is finished, the video calls made on its muxer are those of `units`. -/
def HandsOver (codec : VideoCodec) (units : List HeldUnit) (out : Bytes) (s : RtpToTs) : Prop :=
  ∃ calls, Written codec calls (out ++ (s.finish).1) (s.finish).2 ∧
    calls.filter TsMuxer.Call.isVideo = units.map videoCall

/-- A session accounts for the items that the decryptor made of its NAL packets. -/
theorem Plays.account {key : Option Block} {packets : List Bytes} {nals : List NalPacket}
    (h : Plays aes key codec packets nals out s) :
    ∃ items decryptor, ItemAccount codec items out s ∧ s.video.decryptor = some decryptor ∧
      Transducer.run (NalDecryptor.nalStep aes) (NalDecryptor.new codec key) nals =
        (.ok (items.filter RtpOutput.isVideo), decryptor.nal) := by
  obtain ⟨hrun, hcodec, type, htype, hnals⟩ := h
  obtain ⟨items, hitems, hcases⟩ := run_session key hrun
  obtain ⟨nals', decryptor, hnals', hdec, hstep⟩ := RtpVideo.session_items hitems hcodec htype
  obtain rfl := Option.some.inj (hnals.symm.trans hnals')
  rcases hcases with ⟨hnone, -⟩ | ⟨codec', -, -, haccount⟩
  · exact nomatch hcodec.symm.trans hnone
  · obtain rfl := Option.some.inj (hcodec.symm.trans haccount.closed.codec_eq)
    exact ⟨items, decryptor, haccount, hdec, hstep⟩

/-- A session hands over the units of what the decryptor made of its NAL packets. -/
theorem Plays.handsOver {key : Option Block} {packets : List Bytes} {nals : List NalPacket}
    (h : Plays aes key codec packets nals out s) :
    ∃ items decryptor, s.video.decryptor = some decryptor ∧
      Transducer.run (NalDecryptor.nalStep aes) (NalDecryptor.new codec key) nals =
        (.ok items, decryptor.nal) ∧
      HandsOver codec (stamped codec (fromKeyframe codec (unitsOf items))) out s := by
  obtain ⟨items, decryptor, haccount, hdec, hstep⟩ := h.account
  refine ⟨items.filter RtpOutput.isVideo, decryptor, hdec, hstep, ?_⟩
  rw [unitsOf_filter_isVideo]
  exact finish_handed haccount

/-- **The start-up queue is transparent.** An encrypted session in the layout with a clear NAL
header whose queue has been released, and a clear session that is given the decrypted NALs of the
same packets, from the NAL that fixed the mode on, hand the same units to the muxer: the access
units of these packets from the first keyframe on, each under its own timestamp. -/
theorem startup_queue_transparent (aes : Aes128) (codec : VideoCodec) (key : Block)
    (before rest : List NalPacket) (t : UInt32) (marker : Bool) (skipped after : List Bytes)
    (fixing : Bytes) (clear : ℕ) (hheader : 0 < clear)
    (hfixes : NalDecryptor.FixesMode aes codec key
      (before.flatMap NalPacket.stamped ++ stampedNals t skipped) (t, fixing) (.encrypted clear 0))
    (units : List (PacketizedUnit codec))
    (hunits : units.flatMap PacketizedUnit.packets = ⟨t, marker, fixing :: after⟩ :: rest)
    (hchain : units.IsChain fun unit unit' => unit.timestamp ≠ unit'.timestamp)
    (packets : List Bytes) (out : Bytes) (s : RtpToTs)
    (hencrypted : Plays aes (some key) codec packets
      (before ++ ⟨t, marker, skipped ++ fixing :: after⟩ :: rest) out s)
    (decryptor : RtpNalDecryptor) (hdec : s.video.decryptor = some decryptor)
    (inter : Bool) (hreleased : decryptor.nal.interEncrypted = some inter)
    (packets' : List Bytes) (out' : Bytes) (s' : RtpToTs)
    (hclear : Plays aes none codec packets'
      ((⟨t, marker, fixing :: after⟩ :: rest).map (NalPacket.opened aes codec key inter)) out' s') :
    let handed := stamped codec (fromKeyframe codec
      (units.map fun unit => (unit.opened aes key inter).accessUnit))
    HandsOver codec handed out s ∧ HandsOver codec handed out' s' := by
  intro handed
  -- what the prompt cutter makes of the decrypted packets
  have hprompt : unitsOf (((⟨t, marker, fixing :: after⟩ :: rest).map
      (NalPacket.opened aes codec key inter)).flatMap (promptItems codec)) =
        units.map fun unit => (unit.opened aes key inter).accessUnit := by
    have hopened :
        (units.map (PacketizedUnit.opened aes key inter)).flatMap PacketizedUnit.packets =
        (⟨t, marker, fixing :: after⟩ :: rest).map (NalPacket.opened aes codec key inter) := by
      rw [← hunits, List.map_flatMap, List.flatMap_map]
      exact List.flatMap_congr fun unit _ => unit.packets_opened aes key inter
    have hsteps : (units.map (PacketizedUnit.opened aes key inter)).IsChain
        fun unit unit' => unit.timestamp ≠ unit'.timestamp := by
      rw [List.isChain_map]
      exact hchain
    rw [← hopened, unitsOf_packetized _ hsteps, List.map_map]
    rfl
  obtain ⟨items, decryptor₁, hdec₁, hrun, hhanded⟩ := hencrypted.handsOver
  obtain ⟨items', decryptor₂, hdec₂, hrun', hhanded'⟩ := hclear.handsOver
  obtain rfl := Option.some.inj (hdec.symm.trans hdec₁)
  refine ⟨?_, ?_⟩
  · obtain ⟨hmode, late, hlate, hsame⟩ := NalDecryptor.run_fixing hrun hfixes
    obtain rfl := NalDecryptor.clear_eq_header hheader hmode
    have hmerges := (NalDecryptor.run_waiting (NalDecryptor.ledger_settle aes codec key t) rfl
      (Or.inl ⟨rfl, rfl⟩) hlate hreleased).merges
    rw [← hsame, ← unitsOf_eq_foldl, ← List.flatMap_map, ← unitsOf_eq_foldl, hprompt] at hmerges
    have hsteps : ((units.map fun unit => (unit.opened aes key inter).accessUnit).map
        Prod.fst).IsChain (· ≠ ·) := by
      rw [List.map_map, List.isChain_map]
      exact hchain
    rwa [hmerges.eq_of_isChain hsteps] at hhanded
  · obtain ⟨last, hprompt'⟩ := NalDecryptor.run_clear aes
      (show (NalDecryptor.new codec none).mode = .clear from rfl) rfl
      ((⟨t, marker, fixing :: after⟩ :: rest).map (NalPacket.opened aes codec key inter))
    obtain ⟨hitems, -⟩ := Prod.mk.inj (hrun'.symm.trans hprompt')
    rw [Except.ok.inj hitems] at hhanded'
    change HandsOver codec (stamped codec (fromKeyframe codec (unitsOf (List.flatMap
      (promptItems codec) _)))) out' s' at hhanded'
    rwa [hprompt] at hhanded'

/-! ### A session of ten packets -/

/-- What AES-128 under the sample key makes a slice of, read backwards: a camera that leaves inter
slices in the clear sends the second block. -/
def sampleInter : Block × Block :=
  (toBlock [0x13, 0xcd, 0xc0, 0x7c, 0x6f, 0x5c, 0x53, 0x48, 0x32, 0x3a, 0x6e, 0x77, 0xd2, 0x11,
      0xd7, 0xc0],
    toBlock [0x9a, 0x24, 0x6c, 0x41, 0xff, 0xe3, 0x8a, 0x44, 0xe5, 0xcf, 0x0b, 0x7d, 0x30, 0xc2,
      0x4c, 0xb2])

/-- A cipher that agrees with AES-128 on the blocks of the sample session. -/
def sessionAes : Aes128 := fun key =>
  (NalDecryptor.sampleAes key).trans (Equiv.swap sampleInter.1 sampleInter.2)

def sampleSlice : Bytes := 0x41 :: sampleInter.2.1

/-- An access unit of a parameter set and a key picture in two packets, and eight of one inter slice
each. -/
def sampleUnits (sps idr : Block) : List (PacketizedUnit .h264) :=
  ⟨0, [[0x67 :: sps.1]], [0x65 :: idr.1], true, ⟨0x67 :: sps.1, by simp, rfl⟩⟩ ::
    [3000, 6000, 9000, 12000, 15000, 18000, 21000, 24000].map fun t =>
      ⟨t, [], [sampleSlice], true, ⟨sampleSlice, by simp, rfl⟩⟩

/-- The packets of the sample session. -/
def samplePackets (sps idr : Block) : List Bytes :=
  RtpVideo.samplePacket false 0 (0x67 :: sps.1) :: RtpVideo.samplePacket true 0 (0x65 :: idr.1) ::
    [3000, 6000, 9000, 12000, 15000, 18000, 21000, 24000].map fun t =>
      RtpVideo.samplePacket true t sampleSlice

theorem startup_queue_transparent_sample :
    let units := sampleUnits NalDecryptor.sampleSps.2 NalDecryptor.sampleIdr.2
    let handed := stamped .h264 (fromKeyframe .h264
      (units.map fun unit => (unit.opened sessionAes NalDecryptor.sampleKey false).accessUnit))
    ∃ s s',
      Plays sessionAes (some NalDecryptor.sampleKey) .h264
        (samplePackets NalDecryptor.sampleSps.2 NalDecryptor.sampleIdr.2)
        (units.flatMap PacketizedUnit.packets) [] s ∧
      Plays sessionAes none .h264
        (samplePackets NalDecryptor.sampleSps.1 NalDecryptor.sampleIdr.1)
        ((units.flatMap PacketizedUnit.packets).map
          (NalPacket.opened sessionAes .h264 NalDecryptor.sampleKey false)) [] s' ∧
      HandsOver .h264 handed [] s ∧ HandsOver .h264 handed [] s' := by
  intro units handed
  set s := (Transducer.run (feed sessionAes) (new (RtpVideo.withKey (some NalDecryptor.sampleKey)))
    (samplePackets NalDecryptor.sampleSps.2 NalDecryptor.sampleIdr.2)).2 with hs
  set s' := (Transducer.run (feed sessionAes) (new (RtpVideo.withKey none))
    (samplePackets NalDecryptor.sampleSps.1 NalDecryptor.sampleIdr.1)).2 with hs'
  have hencrypted : Plays sessionAes (some NalDecryptor.sampleKey) .h264
      (samplePackets NalDecryptor.sampleSps.2 NalDecryptor.sampleIdr.2)
      (units.flatMap PacketizedUnit.packets) [] s :=
    ⟨Prod.ext (by decide +kernel) rfl, by
      decide +kernel, 0x60, by decide +kernel, by decide +kernel⟩
  have hclear : Plays sessionAes none .h264
      (samplePackets NalDecryptor.sampleSps.1 NalDecryptor.sampleIdr.1)
      ((units.flatMap PacketizedUnit.packets).map
        (NalPacket.opened sessionAes .h264 NalDecryptor.sampleKey false)) [] s' :=
    ⟨Prod.ext (by decide +kernel) rfl, by
      decide +kernel, 0x60, by decide +kernel, by decide +kernel⟩
  have hdec : (s.video.decryptor.map fun d => d.nal.interEncrypted) = some (some false) := by
    decide +kernel
  obtain ⟨decryptor, hdecryptor, hreleased⟩ := Option.map_eq_some_iff.1 hdec
  have hfixes : NalDecryptor.FixesMode sessionAes .h264 NalDecryptor.sampleKey []
      (0, 0x67 :: NalDecryptor.sampleSps.2.1) (.encrypted 1 0) :=
        ⟨rfl, by decide +kernel, by decide⟩
  exact ⟨s, s', hencrypted, hclear, startup_queue_transparent sessionAes .h264
    NalDecryptor.sampleKey [] _ 0 false []
      [] _ 1 Nat.one_pos hfixes units rfl (by decide) _ [] s hencrypted
    decryptor hdecryptor false hreleased _ [] s' hclear⟩

end RtpToTs

end EzvizBridge
