import EzvizBridge.Transport.StartupSession

/-!
# When the queue is released, and what the cutter then sees

Whether the start-up queue has been released can be read off the NALs alone: eight inter NALs with a
full block behind their header, or more than 4 MiB held (`releases`). `Tally` is the invariant that
ties the counters of the decryptor to the NALs fed so far.

A session in the layout with a clear NAL header is then cut like a clear session of other packets
(`regroup`): the packets up to the release lose their markers, those of them without a NAL
disappear, and if the release never comes nothing is left. `run_regroup` is this equation.
-/

namespace EzvizBridge

open RtpNalDecryptor (stampedNals)

/-! ### The counters -/

namespace VideoCodec

/-- A NAL that is emitted according to the decision about inter slices. -/
def isInter (codec : VideoCodec) (nal : Bytes) : Bool :=
  codec.header < nal.length && !codec.encryptedNalType (nal.getD 0 0)

/-- An inter NAL with a full block behind its header, from which samples are taken. -/
def isSample (codec : VideoCodec) (nal : Bytes) : Bool :=
  codec.isInter nal && codec.header + 16 ≤ nal.length

/-- What a NAL adds to `pending_bytes`: inter NALs wait as they came, others in Annex-B form. -/
def heldBytes (codec : VideoCodec) (nal : Bytes) : ℕ :=
  if codec.isInter nal then nal.length else nal.length + 4

/-- The bytes that the complete ones of the NALs hold. -/
def queueBytes (codec : VideoCodec) (nals : List Bytes) : ℕ :=
  ((nals.filter codec.complete).map codec.heldBytes).sum

/-- These NALs release a queue: eight samples, or more than 4 MiB. -/
def releases (codec : VideoCodec) (nals : List Bytes) : Bool :=
  NalDecryptor.interSamples ≤ nals.countP codec.isSample ||
    NalDecryptor.maxPendingBytes < codec.queueBytes nals

theorem queueBytes_append (codec : VideoCodec) (nals nals' : List Bytes) :
    codec.queueBytes (nals ++ nals') = codec.queueBytes nals + codec.queueBytes nals' := by
  rw [queueBytes, List.filter_append, List.map_append, List.sum_append]
  rfl

theorem releases_append {codec : VideoCodec} {nals : List Bytes} (h : codec.releases nals = true)
    (nals' : List Bytes) : codec.releases (nals ++ nals') = true := by
  simp only [releases, Bool.or_eq_true, decide_eq_true_eq, List.countP_append,
    queueBytes_append] at h ⊢
  omega

end VideoCodec

namespace NalDecryptor

variable {aes : Aes128} {codec : VideoCodec} {key : Block} {self self' : NalDecryptor}
  {held : List PendingNal} {nal : Bytes} {nals : List Bytes}

/-- The counters are those of the NALs fed so far, which do not release the queue. -/
structure Tally (codec : VideoCodec) (nals : List Bytes) (d : NalDecryptor) : Prop where
  samples : d.interClear.length = nals.countP codec.isSample
  bytes : d.pendingBytes = codec.queueBytes nals
  holds : codec.releases nals = false

theorem tally_settle (codec : VideoCodec) (key : Block) (t : UInt32) :
    Tally codec [] ((new codec (some key)).settle t (.encrypted codec.header 0)) :=
  ⟨rfl, rfl, rfl⟩

/-- Fewer than eight samples so far, and no more than 4 MiB. -/
theorem Tally.bounds (h : Tally codec nals self) :
    self.interClear.length < interSamples ∧ self.pendingBytes ≤ maxPendingBytes := by
  have hholds := h.holds
  rw [VideoCodec.releases, Bool.or_eq_false_iff, decide_eq_false_iff_not,
    decide_eq_false_iff_not] at hholds
  rw [h.samples, h.bytes]
  omega

/-- A NAL that is held in Annex-B form. -/
theorem put_waiting (aes : Aes128) {queue : List PendingNal} (hpending : self.pending = some queue)
    (hnone : self.interEncrypted = none) (data : Bytes) :
    ((self.put aes data).2.interEncrypted = none ∧
      (self.put aes data).2.interClear = self.interClear ∧
      (self.put aes data).2.pendingBytes = self.pendingBytes + data.length ∧
      self.pendingBytes + data.length ≤ maxPendingBytes) ∨
    ((self.put aes data).2.interEncrypted ≠ none ∧
      maxPendingBytes < self.pendingBytes + data.length) := by
  unfold put
  simp only [hpending]
  unfold guardPending
  dsimp only
  split
  · next hle => exact Or.inl ⟨hnone, rfl, rfl, hle⟩
  · next hgt => exact Or.inr ⟨Option.some_ne_none _, not_le.1 hgt⟩

/-- The samples of an inter NAL. -/
theorem sampleInter_waiting (aes : Aes128) (hnone : self.interEncrypted = none)
    (hfew : self.interClear.length < interSamples) (nal : Bytes) (header : ℕ) :
    let sampled := self.sampleInter aes nal header
    let count := self.interClear.length + if header + 16 ≤ nal.length then 1 else 0
    sampled.pendingBytes = self.pendingBytes ∧
    ((sampled.interEncrypted = none ∧ sampled.interClear.length = count ∧ count < interSamples) ∨
      (sampled.interEncrypted ≠ none ∧ interSamples ≤ count)) := by
  intro sampled count
  simp only [sampled, count]
  unfold sampleInter
  split
  · dsimp only
    rw [List.length_append, List.length_singleton]
    split
    · next hmany => exact ⟨rfl, Or.inr ⟨Option.some_ne_none _, hmany⟩⟩
    · next hstill => exact ⟨rfl, Or.inl ⟨hnone, by simp, not_le.1 hstill⟩⟩
  · exact ⟨rfl, Or.inl ⟨hnone, rfl, hfew⟩⟩

/-- An inter NAL that is held as it came. -/
theorem putInter_waiting (aes : Aes128) {queue : List PendingNal}
    (hpending : self.pending = some queue) (hnone : self.interEncrypted = none)
    (hfew : self.interClear.length < interSamples) (nal : Bytes) (header : ℕ) :
    let next := (self.putInter aes nal header).2
    let count := self.interClear.length + if header + 16 ≤ nal.length then 1 else 0
    (next.interEncrypted = none ∧ next.interClear.length = count ∧
      next.pendingBytes = self.pendingBytes + nal.length ∧ count < interSamples ∧
      self.pendingBytes + nal.length ≤ maxPendingBytes) ∨
    (next.interEncrypted ≠ none ∧
      (interSamples ≤ count ∨ maxPendingBytes < self.pendingBytes + nal.length)) := by
  intro next count
  set queued : NalDecryptor := { self with
    pendingBytes := self.pendingBytes + nal.length
    pending := some (queue ++ [PendingNal.inter self.stamp nal header]) } with hqueued
  have hnext : next = (if (queued.sampleInter aes nal header).interEncrypted.isSome then
      (queued.sampleInter aes nal header).flushPending aes
      else (queued.sampleInter aes nal header).guardPending aes).2 := by
    simp only [next, putInter, hpending, hqueued]
  obtain ⟨hbytes, ⟨hstill, hcount, hlt⟩ | ⟨hdecided, hge⟩⟩ :=
    sampleInter_waiting aes (show queued.interEncrypted = none from hnone) hfew nal header
  · -- no decision from the samples: only the bound on the bytes is left
    rw [hstill, Option.isSome_none, if_neg Bool.false_ne_true] at hnext
    rw [hnext]
    unfold guardPending
    rw [hbytes]
    split
    · next hle => exact Or.inl ⟨hstill, hcount, hbytes, hlt, hle⟩
    · next hgt => exact Or.inr ⟨Option.some_ne_none _, Or.inr (not_le.1 hgt)⟩
  -- decided, so the queue is flushed
  · rw [if_pos (Option.isSome_iff_ne_none.2 hdecided)] at hnext
    rw [hnext]
    exact Or.inr ⟨hdecided, Or.inl hge⟩

/-- In the layout with a clear NAL header, an inter NAL is put aside as it is and any other one in
Annex-B form. -/
theorem emitNal_headerClear (aes : Aes128) (hcodec : self.codec = codec)
    (hmode : self.mode = .encrypted codec.header 0) (nal : Bytes) :
    (codec.isInter nal = true ∧
      self.emitNal aes nal = okOf (self.putInter aes nal codec.header)) ∨
    (codec.isInter nal = false ∧ ∃ data : Bytes, data.length = nal.length + 4 ∧
      self.emitNal aes nal = okOf (self.put aes data)) := by
  have hpos := codec.header_pos
  have hlength : ∀ nal : Bytes, (annexB nal).length = nal.length + 4 := by
    intro nal
    rw [annexB, List.length_append, startCode, Nat.add_comm]
    rfl
  unfold emitNal VideoCodec.isInter
  simp only [hmode, hcodec]
  rw [if_neg (lt_irrefl 0), if_neg hpos.ne', if_pos trivial]
  -- a NAL no longer than its header goes out as it is
  split
  · next hlen =>
    refine Or.inr ⟨?_, annexB nal, hlength nal, rfl⟩
    simp [not_lt.2 hlen]
  · next hlen =>
    split
    · next htype =>
      refine Or.inr ⟨by rw [htype]; simp, _, ?_, rfl⟩
      rw [hlength, List.length_append, decryptPrefix, length_mapBlocks, ← List.length_append,
        List.take_append_drop]
    · next htype =>
      refine Or.inl ⟨?_, rfl⟩
      rw [Bool.eq_false_iff.2 htype, Bool.not_false, Bool.and_true, decide_eq_true_eq]
      exact not_le.1 hlen

/-- What one more complete NAL adds up to. -/
theorem releases_concat (codec : VideoCodec) (nals : List Bytes)
    (hnal : codec.complete nal = true) :
    codec.releases (nals ++ [nal]) = true ↔
      interSamples ≤ nals.countP codec.isSample + (if codec.isSample nal then 1 else 0) ∨
        maxPendingBytes < codec.queueBytes nals + codec.heldBytes nal := by
  have hbytes : codec.queueBytes [nal] = codec.heldBytes nal := by
    simp [VideoCodec.queueBytes, hnal]
  rw [VideoCodec.releases, VideoCodec.queueBytes_append, hbytes, List.countP_append,
    List.countP_singleton, Bool.or_eq_true, decide_eq_true_eq, decide_eq_true_eq]

/-- The counters after one more complete NAL. -/
theorem Tally.concat (h : Tally codec nals self) (hnal : codec.complete nal = true)
    (hsamples : self'.interClear.length =
      self.interClear.length + if codec.isSample nal then 1 else 0)
    (hbytes : self'.pendingBytes = self.pendingBytes + codec.heldBytes nal)
    (hfew : self'.interClear.length < interSamples)
    (hsmall : self'.pendingBytes ≤ maxPendingBytes) :
    Tally codec (nals ++ [nal]) self' := by
  rw [hsamples, h.samples] at hfew
  rw [hbytes, h.bytes] at hsmall
  refine ⟨?_, ?_, ?_⟩
  · rw [hsamples, h.samples, List.countP_append, List.countP_singleton]
  · rw [hbytes, h.bytes, VideoCodec.queueBytes_append]
    simp [VideoCodec.queueBytes, hnal]
  · rw [Bool.eq_false_iff, ne_eq, releases_concat codec nals hnal]
    omega

/-- A NAL without its header is not counted. -/
theorem Tally.skip (h : Tally codec nals self) (hnal : codec.complete nal = false)
    (stamp : UInt32) :
    Tally codec (nals ++ [nal]) { self with stamp := stamp } := by
  have hsample : codec.isSample nal = false := by
    have hlen : nal.length < codec.header := by simpa [VideoCodec.complete] using hnal
    have hshort : ¬ codec.header < nal.length := by omega
    simp [VideoCodec.isSample, VideoCodec.isInter, hshort]
  have hcount : (nals ++ [nal]).countP codec.isSample = nals.countP codec.isSample := by
    rw [List.countP_append, List.countP_singleton, hsample]
    rfl
  have hbytes : codec.queueBytes (nals ++ [nal]) = codec.queueBytes nals := by
    rw [VideoCodec.queueBytes, List.filter_append, List.filter_singleton, hnal]
    simp [VideoCodec.queueBytes]
  refine ⟨h.samples.trans hcount.symm, h.bytes.trans hbytes.symm, ?_⟩
  rw [VideoCodec.releases, hcount, hbytes]
  exact h.holds

/-- **One NAL**: the counters go on, or the queue is released, just when the NALs so far say so. -/
theorem feed_tally {stamp : UInt32} {chunks : Chunks} (h : Ledger aes codec key held [] self)
    (hnone : self.interEncrypted = none) (htally : Tally codec nals self)
    (hfeed : self.feed aes stamp nal = (.ok chunks, self')) :
    (self'.interEncrypted = none ∧ Tally codec (nals ++ [nal]) self') ∨
      (self'.interEncrypted ≠ none ∧ codec.releases (nals ++ [nal]) = true) := by
  obtain ⟨hfew, -⟩ := htally.bounds
  have hpending : self.pending = some held := by
    rcases h.queue with ⟨-, hpending, -⟩ | ⟨inter, hsome, -⟩
    · exact hpending
    · exact nomatch hnone.symm.trans hsome
  have hknown : self.mode ≠ .unknown := by
    rw [h.mode_eq]
    exact EncryptionMode.noConfusion
  rcases feed_cases aes self stamp nal with
    ⟨hcase, hnal | hmode⟩ | ⟨-, hmode⟩ | ⟨mode, hcase, hnal, -, hmode | ⟨hmode, -⟩⟩
  · rw [hcase] at hfeed
    cases hfeed
    rw [h.codec_eq] at hnal
    exact Or.inl ⟨hnone, htally.skip hnal stamp⟩
  · exact absurd hmode hknown
  · exact absurd hmode hknown
  · rw [h.codec_eq] at hnal
    rw [h.mode_eq] at hmode
    -- the layout has a clear header, so the queue is kept
    have hqueue : (self.settle stamp mode).pending = some held := by
      have hheader : headerClear mode = true := by
        rw [hmode]
        simpa [headerClear] using codec.header_pos
      simp [settle, hheader, hpending]
    have hself : self' = (self.feed aes stamp nal).2 := by rw [hfeed]
    rw [hcase] at hself
    rcases emitNal_headerClear aes (show (self.settle stamp mode).codec = codec from h.codec_eq)
      hmode nal with ⟨hinter, hemit⟩ | ⟨hinter, data, hdata, hemit⟩
    · have hsample : codec.isSample nal = decide (codec.header + 16 ≤ nal.length) := by
        rw [VideoCodec.isSample, hinter, Bool.true_and]
      have hheld : codec.heldBytes nal = nal.length := by rw [VideoCodec.heldBytes, if_pos hinter]
      rw [hemit] at hself
      subst hself
      rcases putInter_waiting aes hqueue hnone hfew nal codec.header with
        ⟨hstill, hcount, hbytes, hlt, hle⟩ | ⟨hdecided, hreason⟩
      · refine Or.inl ⟨hstill, htally.concat hnal ?_ ?_ ?_ ?_⟩
        · simp only [hsample, decide_eq_true_eq]
          exact hcount
        · rw [hheld]
          exact hbytes
        · exact hcount ▸ hlt
        · exact hbytes ▸ hle
      · refine Or.inr ⟨hdecided, (releases_concat codec nals hnal).2 ?_⟩
        rw [hheld, ← htally.samples, ← htally.bytes]
        simp only [hsample, decide_eq_true_eq]
        exact hreason
    · have hsample : codec.isSample nal = false := by
        rw [VideoCodec.isSample, hinter, Bool.false_and]
      have hheld : codec.heldBytes nal = data.length := by
        rw [VideoCodec.heldBytes, hinter, hdata]
        rfl
      rw [hemit] at hself
      subst hself
      rcases put_waiting aes hqueue hnone data with ⟨hstill, hclear, hbytes, hle⟩ | ⟨hdecided, hgt⟩
      · refine Or.inl ⟨hstill, htally.concat hnal ?_ ?_ ?_ ?_⟩
        · rw [hsample]
          exact congrArg List.length hclear
        · rw [hheld]
          exact hbytes
        · exact hclear ▸ hfew
        · exact hbytes ▸ hle
      · refine Or.inr ⟨hdecided, (releases_concat codec nals hnal).2 (Or.inr ?_)⟩
        rw [hheld, ← htally.bytes]
        exact hgt
  · exact absurd hmode hknown

/-- **The NALs of a packet.** -/
theorem feedAll_tally {stamp : UInt32} {more : List Bytes} {chunks : Chunks}
    (h : Ledger aes codec key held [] self) (hnone : self.interEncrypted = none)
    (htally : Tally codec nals self)
    (hfeed : self.feedAll aes (stampedNals stamp more) = (.ok chunks, self')) :
    (self'.interEncrypted = none ∧ Tally codec (nals ++ more) self') ∨
      (self'.interEncrypted ≠ none ∧ codec.releases (nals ++ more) = true) := by
  induction more generalizing self held nals chunks with
  | nil =>
    cases hfeed
    rw [List.append_nil]
    exact Or.inl ⟨hnone, htally⟩
  | cons nal more ih =>
    obtain ⟨first, middle, rest, hfirst, hrest, rfl⟩ := Transducer.run_eq_ok_cons.1 hfeed
    rw [List.append_cons]
    obtain ⟨chunks', next, hnext, hledger⟩ := feed_ledger h stamp nal
    obtain ⟨hchunks, rfl⟩ := Prod.mk.inj (hfirst.symm.trans hnext)
    rcases feed_tally h hnone htally hfirst with ⟨hstill, htally'⟩ | ⟨hdecided, hreleases⟩
    · rcases hledger.queue with ⟨-, -, hout⟩ | ⟨inter, hsome, -⟩
      · rw [hout] at hledger
        exact ih hledger hstill htally' hrest
      · exact nomatch hstill.symm.trans hsome
    · -- released within the packet: the other NALs pass at once
      refine Or.inr ⟨?_, VideoCodec.releases_append hreleases more⟩
      rcases hledger.queue with ⟨hnone', -⟩ | ⟨inter, -, hpending, -⟩
      · exact absurd hnone' hdecided
      · have hsame := (feedAll_settled aes hpending (stampedNals stamp more)).2
        have hrest' : middle.feedAll aes (stampedNals stamp more) = (.ok rest, self') := hrest
        rw [hrest'] at hsame
        rw [hsame]
        exact hdecided

end NalDecryptor

/-! ### The packets that the cutter sees -/

/-- The packet completes a NAL. -/
def NalPacket.carries (codec : VideoCodec) (packet : NalPacket) :
    Bool := packet.nals.any codec.complete

/-- The packet without its marker. -/
def NalPacket.quiet (packet : NalPacket) : NalPacket := { packet with marker := false }

/-- What a clear session would have to be given to be cut like a session in the layout with a clear
NAL header: `held` are the packets in the queue. -/
def regroup (codec : VideoCodec) (held : List NalPacket) : List NalPacket → List NalPacket
  | [] => []
  | packet :: packets =>
    if codec.releases ((held ++ [packet]).flatMap NalPacket.nals) then
      (held.filter (NalPacket.carries codec)).map NalPacket.quiet ++ packet :: packets
    else regroup codec (held ++ [packet]) packets

theorem promptChunks_eq_nil {codec : VideoCodec} {packet : NalPacket} :
    promptChunks codec packet = [] ↔ packet.carries codec = false := by
  rw [promptChunks, List.map_eq_nil_iff, List.filter_eq_nil_iff, NalPacket.carries,
    List.any_eq_false]

theorem carries_opened (aes : Aes128) (codec : VideoCodec) (key : Block) (inter : Bool)
    (packet : NalPacket) :
    (packet.opened aes codec key inter).carries codec = packet.carries codec := by
  rw [NalPacket.carries, NalPacket.opened, List.any_map, NalPacket.carries]
  congr 1
  exact funext fun nal => NalDecryptor.complete_openNal aes codec key inter nal

/-- The queue as items: those of the packets without their markers. -/
theorem unmarked_queue (codec : VideoCodec) (packets : List NalPacket) :
    unmarked (packets.flatMap (promptChunks codec)) =
      ((packets.filter (NalPacket.carries codec)).map NalPacket.quiet).flatMap
        (promptItems codec) := by
  induction packets with
  | nil => rfl
  | cons packet packets ih =>
    rw [List.flatMap_cons, unmarked_append, ih]
    -- a packet without carried NALs leaves no chunk
    cases hcarries : packet.carries codec with
    | false =>
      rw [List.filter_cons_of_neg (by simp [hcarries]), promptChunks_eq_nil.2 hcarries]
      rfl
    | true =>
      have hne : promptChunks codec packet ≠ [] := by
        rw [ne_eq, promptChunks_eq_nil, hcarries]
        exact Bool.noConfusion
      obtain ⟨front, data, hchunks, -, -⟩ := promptChunks_concat hne
      have hquiet : promptItems codec packet.quiet = unmarked (promptChunks codec packet) := by
        change packetItems packet.timestamp false (promptChunks codec packet) = _
        rw [hchunks, packetItems_concat, unmarked_append]
        rfl
      rw [List.filter_cons_of_pos hcarries, List.map_cons, List.flatMap_cons, hquiet]

/-- The queue and the packet that releases it, item by item. -/
theorem packetItems_queue {t : UInt32} {marker : Bool} {codec : VideoCodec} {packet : NalPacket}
    (ht : packet.timestamp = t) (hmarker : packet.marker = marker) (queue : Chunks)
    (hpacket : promptChunks codec packet ≠ []) :
    packetItems t marker (queue ++ promptChunks codec packet) =
      unmarked queue ++ promptItems codec packet := by
  subst ht hmarker
  obtain ⟨front, data, hchunks, -, -⟩ := promptChunks_concat hpacket
  rw [promptItems, hchunks, ← List.append_assoc, packetItems_concat, packetItems_concat,
    unmarked_append, List.append_assoc]

namespace NalDecryptor

variable {aes : Aes128} {codec : VideoCodec} {key : Block} {self self' : NalDecryptor}

/-- The entries of packets, read under a decision, are what the clear session emits for them. -/
theorem readings_packets (inter : Bool) (packets : List NalPacket) :
    (entries aes codec key (packets.flatMap NalPacket.stamped)).map (reading aes key inter) =
      (packets.map (NalPacket.opened aes codec key inter)).flatMap (promptChunks codec) := by
  induction packets with
  | nil => rfl
  | cons packet packets ih =>
    have happend : entries aes codec key ((packet :: packets).flatMap NalPacket.stamped) =
        entries aes codec key (stampedNals packet.timestamp packet.nals) ++
          entries aes codec key (packets.flatMap NalPacket.stamped) := by
      rw [entries, List.flatMap_cons, List.filter_append, List.map_append]
      rfl
    rw [happend, List.map_append, readings_packet, ih]
    rfl

/-- **A session with a clear NAL header is cut like a clear session of the regrouped packets.** If
the queue is never released there is nothing to cut. -/
theorem run_regroup (held : List NalPacket) {packets : List NalPacket} {items : List RtpOutput}
    (h : Ledger aes codec key (entries aes codec key (held.flatMap NalPacket.stamped)) [] self)
    (hnone : self.interEncrypted = none)
    (htally : Tally codec (held.flatMap NalPacket.nals) self)
    (hrun : Transducer.run (nalStep aes) self packets = (.ok items, self')) :
    let inter := decide (self'.interEncrypted = some true)
    items.foldl CutState.next ([], none) =
        (((regroup codec held packets).map (NalPacket.opened aes codec key inter)).flatMap
          (promptItems codec)).foldl CutState.next ([], none) ∧
      (self'.interEncrypted = none → regroup codec held packets = []) := by
  intro inter
  induction packets generalizing self held items with
  | nil =>
    cases hrun
    exact ⟨rfl, fun _ => rfl⟩
  | cons packet packets ih =>
    obtain ⟨first, middle, more, hfirst, hmore, rfl⟩ := Transducer.run_eq_ok_cons.1 hrun
    obtain ⟨chunks, next, hfeed, -⟩ := feedAll_ledger h (stampedNals packet.timestamp packet.nals)
    obtain ⟨-, rfl⟩ := Prod.mk.inj (hfirst.symm.trans (nalStep_of_feedAll hfeed))
    have hnals : (held ++ [packet]).flatMap NalPacket.nals =
        held.flatMap NalPacket.nals ++ packet.nals := by
      rw [List.flatMap_append, List.flatMap_singleton]
    have hentries : entries aes codec key (held.flatMap NalPacket.stamped) ++
        entries aes codec key (stampedNals packet.timestamp packet.nals) =
          entries aes codec key ((held ++ [packet]).flatMap NalPacket.stamped) := by
      rw [List.flatMap_append, List.flatMap_singleton, entries, entries, entries,
        List.filter_append, List.map_append]
      rfl
    rw [regroup, hnals]
    rcases feedAll_tally h hnone htally hfeed with ⟨hstill, htally'⟩ | ⟨hdecided, hreleases⟩
    · rw [htally'.holds, if_neg Bool.false_ne_true]
      rcases nalStep_waiting h hnone hfirst with ⟨hnext, -, rfl⟩ | ⟨inter', -, -, hsome, -⟩
      · rw [hentries] at hnext
        rw [← hnals] at htally'
        rw [List.foldl_append, List.foldl_cons, List.foldl_nil, next_empty]
        exact ih _ hnext hstill htally' hmore
      · cases hstill.symm.trans hsome
    · rw [if_pos hreleases]
      rcases nalStep_waiting h hnone hfirst with ⟨-, hnone', -⟩ |
        ⟨inter', out, hnext, hsome, hpacket, rfl⟩
      · exact absurd hnone' hdecided
      · obtain ⟨hitems, hlast⟩ := run_released hnext hsome hmore
        have hinter : inter = inter' := by
          simp only [inter, hlast]
          cases inter' <;> rfl
        refine ⟨?_, fun hnone' => by cases hlast.symm.trans hnone'⟩
        -- the marker of a held packet is gone, whether its NALs are decrypted before or after
        have hquiet : ((held.map (NalPacket.opened aes codec key inter')).filter
            (NalPacket.carries codec)).map NalPacket.quiet =
              ((held.filter (NalPacket.carries codec)).map NalPacket.quiet).map
                (NalPacket.opened aes codec key inter') := by
          have hcarries : NalPacket.carries codec ∘ NalPacket.opened aes codec key inter' =
              NalPacket.carries codec :=
            funext fun packet => carries_opened aes codec key inter' packet
          rw [List.filter_map, List.map_map, List.map_map, hcarries]
          rfl
        have hpacketItems := fun queue => packetItems_queue
          (show (packet.opened aes codec key inter').timestamp = packet.timestamp from rfl)
          (show (packet.opened aes codec key inter').marker = packet.marker from rfl) queue hpacket
        rw [← List.flatMap_map] at hitems
        rw [hinter, hitems, readings_packets, hpacketItems, unmarked_queue, hquiet,
          List.map_append, List.flatMap_append, List.map_cons, List.flatMap_cons,
          List.append_assoc]

end NalDecryptor

end EzvizBridge
