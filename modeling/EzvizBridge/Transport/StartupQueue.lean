import EzvizBridge.Transport.RtpTsSession
import EzvizBridge.Transport.UnitMerge

/-!
# The start-up queue is transparent

In the layout with a clear NAL header the decryptor withholds every NAL until it knows whether inter
slices are encrypted. The session goes on meanwhile: packets arrive, their markers are delivered on
empty items, and at some packet the whole queue comes out at once, that packet's own NALs last.

The comparison is with a clear session whose packets carry the decrypted NALs (`opened`), which the
same cutter sees promptly (`promptItems`). `run_waiting` follows the two sessions from the NAL that
fixed the mode: the units of the encrypted one are those of the clear one with adjacent units of one
timestamp put together (`Merges`), whatever the packets are. Where consecutive access units differ
in their timestamps there is nothing to put together, and the two sessions hand the same units to
the muxer (`startup_queue_transparent`).
-/

namespace EzvizBridge

open RtpNalDecryptor (stampedNals)

/-! ### The prompt session -/

/-- A NAL of the layout with a clear NAL header, decrypted: parameter sets and key pictures always,
other NALs if inter slices are encrypted. -/
def openNal (aes : Aes128) (codec : VideoCodec) (key : Block) (inter : Bool)
    (nal : Bytes) : Bytes :=
  if nal.length ≤ codec.header then nal
  else if codec.encryptedNalType (nal.getD 0 0) ∨ inter = true then
    nal.take codec.header ++ NalDecryptor.decryptWith aes key (nal.drop codec.header)
  else nal

/-- The packet with its NALs decrypted. -/
def NalPacket.opened (aes : Aes128) (codec : VideoCodec) (key : Block) (inter : Bool)
    (packet : NalPacket) : NalPacket :=
  { packet with nals := packet.nals.map (openNal aes codec key inter) }

/-- What a clear session emits for the NALs of a packet. -/
def promptChunks (codec : VideoCodec) (packet : NalPacket) : Chunks :=
  (packet.nals.filter codec.complete).map fun nal => (packet.timestamp, annexB nal)

/-- The items of a packet in a clear session. -/
def promptItems (codec : VideoCodec) (packet : NalPacket) : List RtpOutput :=
  packetItems packet.timestamp packet.marker (promptChunks codec packet)

/-- Chunks as items without a marker. -/
def unmarked (chunks : Chunks) : List RtpOutput :=
  chunks.map fun chunk => .video chunk.1 false chunk.2

theorem unmarked_append (chunks chunks' : Chunks) :
    unmarked (chunks ++ chunks') = unmarked chunks ++ unmarked chunks' := List.map_append

/-- A packet without chunks still has its item. -/
theorem packetItems_nil (t : UInt32) (marker : Bool) :
    packetItems t marker [] = [.video t marker []] := rfl

/-- When the last chunk has the timestamp of the packet, it takes the marker. -/
theorem packetItems_concat (t : UInt32) (marker : Bool) (chunks : Chunks) (data : Bytes) :
    packetItems t marker (chunks ++ [(t, data)]) =
      unmarked chunks ++ [.video t marker data] := by
  simp only [packetItems, RtpVideo.closeItems, List.map_append, List.map_singleton,
    List.getLast?_append, List.getLast?_singleton, Option.some_or, List.dropLast_concat, if_true]
  rfl

theorem annexB_ne_nil (nal : Bytes) : annexB nal ≠ [] := by
  simp [annexB, startCode]

/-- The chunks of a packet carry its timestamp, and none is empty. -/
theorem mem_promptChunks {codec : VideoCodec} {packet : NalPacket} {chunk : UInt32 × Bytes}
    (h : chunk ∈ promptChunks codec packet) : chunk.1 = packet.timestamp ∧ chunk.2 ≠ [] := by
  obtain ⟨nal, -, rfl⟩ := List.mem_map.1 h
  exact ⟨rfl, annexB_ne_nil nal⟩

namespace NalDecryptor

variable {aes : Aes128} {codec : VideoCodec} {key : Block} {self self' : NalDecryptor} {nal : Bytes}

@[simp] theorem length_decryptWith (aes : Aes128) (key : Block) (value : Bytes) :
    (decryptWith aes key value).length = value.length := by
  rw [decryptWith, length_mapBlocks]

/-- An opened NAL has the length of the one that was sent. -/
theorem length_openNal (aes : Aes128) (codec : VideoCodec) (key : Block) (inter : Bool)
    (nal : Bytes) : (openNal aes codec key inter nal).length = nal.length := by
  unfold openNal
  split
  · rfl
  · split
    · rw [List.length_append, List.length_take, length_decryptWith, List.length_drop]
      omega
    · rfl

/-- An opened NAL has its header if the one that was sent has it. -/
theorem complete_openNal (aes : Aes128) (codec : VideoCodec) (key : Block) (inter : Bool)
    (nal : Bytes) : codec.complete (openNal aes codec key inter nal) = codec.complete nal := by
  rw [VideoCodec.complete, VideoCodec.complete, length_openNal]

/-- The reading of an entry is the decrypted NAL with the timestamp it arrived with. -/
theorem reading_entry (inter : Bool) (stamp : UInt32) (nal : Bytes) :
    reading aes key inter (entry aes codec key stamp nal) =
      (stamp, annexB (openNal aes codec key inter nal)) := by
  unfold entry openNal
  -- a NAL that is only a header is as it was
  by_cases hlen : nal.length ≤ codec.header
  · rw [if_pos hlen, if_pos hlen]
    rfl
  · rw [if_neg hlen, if_neg hlen]
    -- a type that is encrypted in any mode
    by_cases htype : codec.encryptedNalType (nal.getD 0 0) = true
    · rw [if_pos htype, if_pos (Or.inl htype)]
      rfl
    -- the others are encrypted if inter slices are
    · rw [if_neg htype]
      cases inter with
      | false =>
        rw [if_neg (not_or.2 ⟨htype, Bool.false_ne_true⟩)]
        rfl
      | true =>
        rw [if_pos (Or.inr rfl)]
        rfl

/-- The readings of a packet are what the clear session emits for the decrypted packet. -/
theorem readings_packet (inter : Bool) (packet : NalPacket) :
    (entries aes codec key (stampedNals packet.timestamp packet.nals)).map (reading aes key inter) =
      promptChunks codec (packet.opened aes codec key inter) := by
  unfold entries promptChunks NalPacket.opened stampedNals
  rw [List.filter_map, List.map_map, List.map_map, List.filter_map, List.map_map]
  have hfilter : (codec.complete ∘ openNal aes codec key inter) = codec.complete :=
    funext fun nal => complete_openNal aes codec key inter nal
  rw [hfilter]
  refine List.map_congr_left fun nal _ => ?_
  exact reading_entry inter packet.timestamp nal

/-! ### A clear session -/

/-- A clear decryptor passes every complete NAL on. -/
theorem feed_passes (aes : Aes128) (hmode : self.mode = .clear) (hpending : self.pending = none)
    (stamp : UInt32) (nal : Bytes) :
    self.feed aes stamp nal =
      (.ok (if self.codec.complete nal then [(stamp, annexB nal)] else []),
        { self with stamp := stamp }) := by
  unfold feed
  by_cases hlen : nal.length < self.codec.header
  · have hnot : self.codec.complete nal = false := by simpa [VideoCodec.complete] using hlen
    simp [hlen, hnot]
  · have hnal : self.codec.complete nal = true := by simpa [VideoCodec.complete] using hlen
    simp [hlen, hnal, classify, hmode, hpending, emitNal, put, okOf]

/-- In a clear mode without a queue the NALs come out at once. -/
theorem feedAll_passes (aes : Aes128) (hmode : self.mode = .clear) (hpending : self.pending = none)
    (stamp : UInt32) (nals : List Bytes) :
    ∃ self', self.feedAll aes (stampedNals stamp nals) =
        (.ok ((nals.filter self.codec.complete).map fun nal => (stamp, annexB nal)), self') ∧
      self'.mode = .clear ∧ self'.pending = none ∧ self'.codec = self.codec := by
  -- on the NALs
  induction nals generalizing self with
  | nil => exact ⟨self, rfl, hmode, hpending, rfl⟩
  | cons nal nals ih =>
    obtain ⟨self', hrest, h₁, h₂, h₃⟩ := @ih { self with stamp := stamp } hmode hpending
    refine ⟨self', ?_, h₁, h₂, h₃⟩
    have hfirst := feed_passes aes hmode hpending stamp nal
    have hrun := Transducer.run_cons_ok (i := (stamp, nal)) hfirst hrest
    refine hrun.trans ?_
    -- a NAL without its header is dropped
    by_cases hnal : self.codec.complete nal = true <;> simp [hnal]

/-- **A clear session** cuts every packet promptly. -/
theorem run_clear (aes : Aes128) (hmode : self.mode = .clear) (hpending : self.pending = none)
    (packets : List NalPacket) :
    ∃ self', Transducer.run (nalStep aes) self packets =
      (.ok (packets.flatMap (promptItems self.codec)), self') := by
  induction packets generalizing self with
  | nil => exact ⟨self, rfl⟩
  | cons packet packets ih =>
    obtain ⟨middle, hfirst, h₁, h₂, h₃⟩ :=
      feedAll_passes aes hmode hpending packet.timestamp packet.nals
    obtain ⟨self', hrest⟩ := @ih middle h₁ h₂
    rw [h₃] at hrest
    exact ⟨self', Transducer.run_cons_ok (nalStep_of_feedAll hfirst) hrest⟩

/-! ### Before the mode is fixed, and after the release -/

/-- What `classify` can do: refuse the key, or settle on a mode while none is known. -/
theorem classify_cases (aes : Aes128) (self : NalDecryptor) (nal : Bytes) (header : ℕ) :
    (self.mode = .unknown ∧ self.classify aes nal header = (.error .keyRejected, self)) ∨
      ∃ mode, self.classify aes nal header = (.ok (), { self with mode := mode }) ∧
        (mode = self.mode ∨ self.mode = .unknown ∧
          (mode = .clear ∨ mode = .encrypted header 0 ∨ mode = .encrypted 0 header ∨
            mode = .encrypted 0 0)) := by
  unfold classify
  -- the checks of the source, in their order
  by_cases hmode : self.mode = .unknown
  · rw [if_neg (not_not.2 hmode)]
    dsimp only
    split
    · exact Or.inr ⟨_, rfl, Or.inr ⟨hmode, Or.inl rfl⟩⟩
    split
    · exact Or.inr ⟨_, rfl, Or.inr ⟨hmode, Or.inr (Or.inl rfl)⟩⟩
    split
    · exact Or.inr ⟨_, rfl, Or.inr ⟨hmode, Or.inr (Or.inr (Or.inl rfl))⟩⟩
    split
    · exact Or.inr ⟨_, rfl, Or.inr ⟨hmode, Or.inr (Or.inr (Or.inr rfl))⟩⟩
    split
    · exact Or.inl ⟨hmode, rfl⟩
    · exact Or.inr ⟨self.mode, rfl, Or.inl rfl⟩
  · rw [if_pos hmode]
    exact Or.inr ⟨self.mode, rfl, Or.inl rfl⟩

variable (aes) in
/-- The guard of the queue leaves the mode. -/
theorem guardPending_mode (self : NalDecryptor) : (self.guardPending aes).2.mode = self.mode := by
  unfold guardPending
  split <;> rfl

variable (aes) in
theorem put_mode (self : NalDecryptor) (data : Bytes) : (self.put aes data).2.mode = self.mode := by
  unfold put
  split
  · rfl
  · rw [guardPending_mode]

variable (aes) in
/-- An inter slice that is put leaves the mode. -/
theorem putInter_mode (self : NalDecryptor) (nal : Bytes) (header : ℕ) :
    (self.putInter aes nal header).2.mode = self.mode := by
  unfold putInter
  split
  · rfl
  · next pending _ =>
    obtain ⟨-, -, hmode, -⟩ := sampleInter_frame aes { self with
      pendingBytes := self.pendingBytes + nal.length
      pending := some (pending ++ [PendingNal.inter self.stamp nal header]) } nal header
    dsimp only
    split
    · exact hmode
    · rw [guardPending_mode]
      exact hmode

variable (aes) in
/-- The mode of a session is fixed once: emitting a NAL leaves it alone. -/
theorem emitNal_mode (self : NalDecryptor) (nal : Bytes) :
    (self.emitNal aes nal).2.mode = self.mode := by
  unfold emitNal okOf emitHint
  repeat' split
  all_goals first
    | rfl
    | exact put_mode aes self _
    | exact putInter_mode aes self _ _

/-- Without a queue, emitting a NAL leaves the decryptor as it is. -/
theorem emitNal_settled (hpending : self.pending = none) (nal : Bytes) :
    (self.emitNal aes nal).2 = self := by
  have hput : ∀ data, (self.put aes data).2 = self := by
    intro data
    rw [put, hpending]
  have hinter : ∀ header, (self.putInter aes nal header).2 = self := by
    intro header
    rw [putInter, hpending]
  unfold emitNal okOf emitHint
  -- every branch ends in a put, or in a text that is handed on
  repeat' split
  all_goals first
    | rfl
    | exact hput _
    | exact hinter _

/-- The decryptor behind `classify`: its mode is known, and outside the layout with a clear NAL
header the queue is given up. -/
def settle (self : NalDecryptor) (stamp : UInt32) (mode : EncryptionMode) : NalDecryptor :=
  { self with
    stamp := stamp
    mode := mode
    pending := if self.pending.isSome && !headerClear mode then none else self.pending }

/-- **What `feed` can do.** It ignores the NAL, which is incomplete or arrives while no mode is
known; it refuses the key; or it emits the NAL in a mode that was known or that this NAL fixes. -/
theorem feed_cases (aes : Aes128) (self : NalDecryptor) (stamp : UInt32) (nal : Bytes) :
    (self.feed aes stamp nal = (.ok [], { self with stamp := stamp }) ∧
      (self.codec.complete nal = false ∨ self.mode = .unknown)) ∨
    (self.feed aes stamp nal = (.error .keyRejected, { self with stamp := stamp }) ∧
      self.mode = .unknown) ∨
    ∃ mode, self.feed aes stamp nal = (self.settle stamp mode).emitNal aes nal ∧
      self.codec.complete nal = true ∧ mode ≠ .unknown ∧
      (mode = self.mode ∨ self.mode = .unknown ∧
        (mode = .clear ∨ mode = .encrypted self.codec.header 0 ∨
          mode = .encrypted 0 self.codec.header ∨ mode = .encrypted 0 0)) := by
  unfold feed
  -- a NAL without its header is ignored
  by_cases hlen : nal.length < self.codec.header
  · have hnal : self.codec.complete nal = false := by simpa [VideoCodec.complete] using hlen
    exact Or.inl ⟨if_pos hlen, Or.inl hnal⟩
  · have hnal : self.codec.complete nal = true := by simpa [VideoCodec.complete] using hlen
    simp only [if_neg hlen]
    -- the key is refused, or the mode is still unknown, or it is known now
    rcases classify_cases aes { self with stamp := stamp } nal self.codec.header with
      ⟨hunknown, hclassify⟩ | ⟨mode, hclassify, hcases⟩
    · rw [hclassify]
      exact Or.inr (Or.inl ⟨rfl, hunknown⟩)
    · rw [hclassify]
      dsimp only
      by_cases hmode : mode = .unknown
      · rw [if_pos hmode]
        have hself : self.mode = .unknown := by
          rcases hcases with h | ⟨h, -⟩
          · exact h.symm.trans hmode
          · exact h
        refine Or.inl ⟨?_, Or.inr hself⟩
        rw [hmode, ← hself]
      · rw [if_neg hmode]
        refine Or.inr (Or.inr ⟨mode, ?_, hnal, hmode, hcases⟩)
        unfold settle
        split <;> rfl

/-- **While the mode is unknown** afterwards, it was unknown before, nothing has come out and only
the clock has moved. -/
theorem feed_unknown {stamp : UInt32} {chunks : Chunks}
    (hfeed : self.feed aes stamp nal = (.ok chunks, self')) (hmode : self'.mode = .unknown) :
    self.mode = .unknown ∧ chunks = [] ∧ self' = { self with stamp := stamp } := by
  -- the NAL was ignored, the key refused, or the mode settled
  rcases feed_cases aes self stamp nal with ⟨h, -⟩ | ⟨h, -⟩ | ⟨mode, h, -, hknown, -⟩
  · rw [h] at hfeed
    cases hfeed
    exact ⟨hmode, rfl, rfl⟩
  · rw [h] at hfeed
    cases hfeed
  · -- a known mode is kept by `emit_nal`
    have hkept := emitNal_mode aes (self.settle stamp mode) nal
    rw [← h, hfeed] at hkept
    exact absurd (hkept.symm.trans hmode) hknown

/-- The modes that a NAL can fix. -/
theorem mode_of_feed {stamp : UInt32} (hmode : self.mode = .unknown)
    (hfixed : (self.feed aes stamp nal).2.mode ≠ .unknown) :
    (self.feed aes stamp nal).2.mode ∈ [.clear, .encrypted self.codec.header 0,
      .encrypted 0 self.codec.header, .encrypted 0 0] := by
  rcases feed_cases aes self stamp nal with ⟨h, -⟩ | ⟨h, -⟩ | ⟨mode, h, -, hknown, hcases⟩
  · rw [h] at hfixed
    exact absurd hmode hfixed
  · rw [h] at hfixed
    exact absurd hmode hfixed
  · rw [h, emitNal_mode]
    rcases hcases with hsame | ⟨-, hc⟩
    · exact absurd (hsame.trans hmode) hknown
    · simpa [settle] using hc

/-- **The NAL that fixes the mode** is fed as if the mode had been known. -/
theorem feed_fixing {stamp : UInt32} (hmode : self.mode = .unknown)
    (hfixed : (self.feed aes stamp nal).2.mode ≠ .unknown) :
    self.feed aes stamp nal =
      (self.settle stamp (self.feed aes stamp nal).2.mode).feed aes stamp nal := by
  -- only the third of the cases fixes a mode
  rcases feed_cases aes self stamp nal with ⟨h, -⟩ | ⟨h, -⟩ | ⟨mode, h, hnal, hknown, -⟩
  · rw [h] at hfixed
    exact absurd hmode hfixed
  · rw [h] at hfixed
    exact absurd hmode hfixed
  · have hkept : (self.feed aes stamp nal).2.mode = mode := by
      rw [h, emitNal_mode]
      rfl
    rw [hkept]
    rcases feed_cases aes (self.settle stamp mode) stamp nal with
      ⟨-, h' | h'⟩ | ⟨-, h'⟩ | ⟨mode', h', -, -, h'' | ⟨h'', -⟩⟩
    · exact nomatch hnal.symm.trans h'
    · exact absurd h' hknown
    · exact absurd h' hknown
    · -- settling a second time changes nothing
      have hagain : (self.settle stamp mode).settle stamp mode = self.settle stamp mode := by
        unfold settle
        dsimp only
        split <;> simp [*]
      rw [h, h', h'']
      exact congrArg (fun d : NalDecryptor => d.emitNal aes nal) hagain.symm
    · exact absurd h'' hknown

/-- **Without a queue** the decision about inter slices stands. -/
theorem feed_settled (aes : Aes128) (hpending : self.pending = none) (stamp : UInt32)
    (nal : Bytes) :
    (self.feed aes stamp nal).2.pending = none ∧
      (self.feed aes stamp nal).2.interEncrypted = self.interEncrypted := by
  rcases feed_cases aes self stamp nal with ⟨h, -⟩ | ⟨h, -⟩ | ⟨mode, h, -⟩
  · rw [h]
    exact ⟨hpending, rfl⟩
  · rw [h]
    exact ⟨hpending, rfl⟩
  · have hnone : (self.settle stamp mode).pending = none := by
      rw [settle, hpending]
      rfl
    rw [h, emitNal_settled hnone]
    exact ⟨hnone, rfl⟩

/-- Without a queue the decision stands over all NALs. -/
theorem feedAll_settled (aes : Aes128) (hpending : self.pending = none)
    (nals : List (UInt32 × Bytes)) :
    (self.feedAll aes nals).2.pending = none ∧
      (self.feedAll aes nals).2.interEncrypted = self.interEncrypted := by
  refine Transducer.run_keeps
    (fun d : NalDecryptor => d.pending = none ∧ d.interEncrypted = self.interEncrypted) ?_
    ⟨hpending, rfl⟩ nals
  intro d nal h
  obtain ⟨h₁, h₂⟩ := feed_settled aes h.1 nal.1 nal.2
  exact ⟨h₁, h₂.trans h.2⟩

/-- NALs without their header move nothing but the clock. -/
theorem feedAll_incomplete (aes : Aes128) {nals : List (UInt32 × Bytes)}
    (hnals : ∀ nal ∈ nals, self.codec.complete nal.2 = false) :
    ∃ stamp, self.feedAll aes nals = (.ok [], { self with stamp := stamp }) := by
  -- on the NALs
  induction nals generalizing self with
  | nil => exact ⟨self.stamp, rfl⟩
  | cons nal nals ih =>
    have hnal : nal.2.length < self.codec.header := by
      simpa [VideoCodec.complete] using hnals nal List.mem_cons_self
    have hfirst : self.feed aes nal.1 nal.2 = (.ok [], { self with stamp := nal.1 }) := by
      unfold feed
      exact if_pos hnal
    obtain ⟨stamp, hrest⟩ := @ih { self with stamp := nal.1 } fun nal hnal =>
      hnals nal (List.mem_cons_of_mem _ hnal)
    have hrun := Transducer.run_cons_ok (i := nal) hfirst hrest
    exact ⟨stamp, hrun⟩

/-- A run that releases the queue has fed a complete NAL. -/
theorem entries_ne_nil {nals : List (UInt32 × Bytes)} (hcodec : self.codec = codec)
    (hnone : self.interEncrypted = none)
    (hsome : (self.feedAll aes nals).2.interEncrypted ≠ none) :
    entries aes codec key nals ≠ [] := by
  intro hempty
  -- a NAL with its header would have been an entry
  have hincomplete : ∀ nal ∈ nals, self.codec.complete nal.2 = false := by
    rw [entries, List.map_eq_nil_iff, List.filter_eq_nil_iff] at hempty
    intro nal hnal
    rw [hcodec]
    exact Bool.eq_false_iff.2 (hempty nal hnal)
  obtain ⟨stamp, hfeed⟩ := feedAll_incomplete aes hincomplete
  rw [hfeed] at hsome
  exact hsome hnone

/-! ### The two sessions side by side -/

/-- **After the release** every packet is cut promptly, under the decision that was taken. -/
theorem run_released {inter : Bool} {held : List PendingNal} {out : Chunks}
    (h : Ledger aes codec key held out self) (hinter : self.interEncrypted = some inter)
    {packets : List NalPacket} {items : List RtpOutput}
    (hrun : Transducer.run (nalStep aes) self packets = (.ok items, self')) :
    items = packets.flatMap (fun packet => promptItems codec (packet.opened aes codec key inter)) ∧
      self'.interEncrypted = some inter := by
  -- on the packets
  induction packets generalizing self held out items with
  | nil =>
    cases hrun
    exact ⟨rfl, hinter⟩
  | cons packet packets ih =>
    obtain ⟨first, middle, more, hfirst, hmore, rfl⟩ := Transducer.run_eq_ok_cons.1 hrun
    obtain ⟨chunks, next, hfeed, hnext⟩ :=
      feedAll_ledger h (stampedNals packet.timestamp packet.nals)
    rw [nalStep_of_feedAll hfeed] at hfirst
    cases hfirst
    -- the queue is gone, so the decision is the one taken before
    have hqueue : self.pending = none ∧ out = held.map (reading aes key inter) := by
      rcases h.queue with ⟨hnone, -⟩ | ⟨inter', hsome, hpending, hout⟩
      · exact nomatch hinter.symm.trans hnone
      · obtain rfl := Option.some.inj (hinter.symm.trans hsome)
        exact ⟨hpending, hout⟩
    have hsame := (feedAll_settled aes hqueue.1 (stampedNals packet.timestamp packet.nals)).2
    rw [hfeed, hinter] at hsame
    -- what comes out of this packet is what was taken of it
    have hchunks : chunks = promptChunks codec (packet.opened aes codec key inter) := by
      rcases hnext.queue with ⟨hnone, -⟩ | ⟨inter', hsome, -, hout⟩
      · exact nomatch hsame.symm.trans hnone
      · obtain rfl := Option.some.inj (hsame.symm.trans hsome)
        rw [hqueue.2, List.map_append, readings_packet] at hout
        exact List.append_cancel_left hout
    obtain ⟨hitems, hlast⟩ := ih hnext hsame hmore
    refine ⟨?_, hlast⟩
    rw [List.flatMap_cons, ← hitems, hchunks]
    rfl

end NalDecryptor

/-- Chunks that join the queue while it fills. -/
theorem waiting_unmarked {prompt queue : CutState} (h : Waiting prompt queue) {chunks : Chunks}
    (hchunks : ∀ chunk ∈ chunks, chunk.2 ≠ []) :
    Waiting ((unmarked chunks).foldl CutState.next prompt)
      ((unmarked chunks).foldl CutState.next queue) := by
  induction chunks generalizing prompt queue with
  | nil => exact h
  | cons chunk chunks ih =>
    exact ih (waiting_data h chunk.1 false (hchunks chunk List.mem_cons_self))
      fun c hc => hchunks c (List.mem_cons_of_mem _ hc)

/-- The chunks of a packet that has any: the last one has its timestamp. -/
theorem promptChunks_concat {codec : VideoCodec} {packet : NalPacket}
    (h : promptChunks codec packet ≠ []) :
    ∃ front data, promptChunks codec packet = front ++ [(packet.timestamp, data)] ∧ data ≠ [] ∧
      ∀ chunk ∈ front, chunk.2 ≠ [] := by
  obtain ⟨front, last, hchunks⟩ := (List.eq_nil_or_concat _).resolve_left h
  rw [List.concat_eq_append] at hchunks
  have hmem : ∀ chunk ∈ front ++ [last], chunk.1 = packet.timestamp ∧ chunk.2 ≠ [] := by
    rw [← hchunks]
    exact fun chunk => mem_promptChunks
  obtain ⟨hstamp, hdata⟩ := hmem last (by simp)
  refine ⟨front, last.2, ?_, hdata, fun chunk hchunk => (hmem chunk (by simp [hchunk])).2⟩
  rw [hchunks, ← hstamp]

/-- **One packet while the queue fills.** -/
theorem waiting_packet {prompt queue : CutState} (h : Waiting prompt queue) (codec : VideoCodec)
    (packet : NalPacket) :
    Waiting ((promptItems codec packet).foldl CutState.next prompt)
      ((unmarked (promptChunks codec packet)).foldl CutState.next queue) := by
  unfold promptItems
  by_cases hempty : promptChunks codec packet = []
  · rw [hempty, packetItems_nil]
    exact waiting_empty h _ _
  · obtain ⟨front, data, hchunks, hdata, hfront⟩ := promptChunks_concat hempty
    rw [hchunks, packetItems_concat, unmarked_append, List.foldl_append, List.foldl_append]
    exact waiting_data (waiting_unmarked h hfront) _ _ hdata

/-- **The packet that releases the queue.** The whole queue comes out with it, and the marker stands
on its own last NAL. -/
theorem released_packet {prompt : CutState} {codec : VideoCodec} {packet : NalPacket}
    {queue : Chunks} (h : Waiting prompt ((unmarked queue).foldl CutState.next ([], none)))
    (hpacket : promptChunks codec packet ≠ []) :
    Released ((promptItems codec packet).foldl CutState.next prompt)
      ((packetItems packet.timestamp packet.marker (queue ++ promptChunks codec packet)).foldl
        CutState.next ([], none)) := by
  obtain ⟨front, data, hchunks, hdata, hfront⟩ := promptChunks_concat hpacket
  rw [promptItems, hchunks, ← List.append_assoc, packetItems_concat, packetItems_concat,
    unmarked_append, List.foldl_append, List.foldl_append, List.foldl_append]
  exact released_data (waiting_unmarked h hfront) _ _ hdata

/-- An empty item cuts nothing where nothing is open. -/
theorem next_empty (t : UInt32) (marker : Bool) :
    CutState.next ([], none) (.video t marker []) = ([], none) := by
  cases marker <;> rfl

namespace NalDecryptor

variable {aes : Aes128} {codec : VideoCodec} {key : Block} {self self' : NalDecryptor}
  {held : List PendingNal} {items : List RtpOutput}

/-- **A packet and the queue.** The packet joins the queue and yields an empty item, or the whole
queue comes out with it, read under the decision, the packet's own NALs last. -/
theorem nalStep_waiting {packet : NalPacket} (h : Ledger aes codec key held [] self)
    (hnone : self.interEncrypted = none) (hstep : self.nalStep aes packet = (.ok items, self')) :
    (Ledger aes codec key
        (held ++ entries aes codec key (stampedNals packet.timestamp packet.nals)) [] self' ∧
      self'.interEncrypted = none ∧ items = [.video packet.timestamp packet.marker []]) ∨
    ∃ inter out, Ledger aes codec key
        (held ++ entries aes codec key (stampedNals packet.timestamp packet.nals)) out self' ∧
      self'.interEncrypted = some inter ∧
      promptChunks codec (packet.opened aes codec key inter) ≠ [] ∧
      items = packetItems packet.timestamp packet.marker (held.map (reading aes key inter) ++
        promptChunks codec (packet.opened aes codec key inter)) := by
  obtain ⟨chunks, next, hfeed, hnext⟩ := feedAll_ledger h (stampedNals packet.timestamp packet.nals)
  rw [nalStep_of_feedAll hfeed] at hstep
  cases hstep
  have hqueue := hnext.queue
  rw [List.nil_append] at hqueue hnext
  rcases hqueue with ⟨hstill, -, rfl⟩ | ⟨inter, hdecided, -, hchunks⟩
  · exact Or.inl ⟨hnext, hstill, packetItems_nil _ _⟩
  · have hnew : entries aes codec key (stampedNals packet.timestamp packet.nals) ≠ [] := by
      refine entries_ne_nil h.codec_eq hnone ?_
      rw [hfeed, hdecided]
      exact Option.some_ne_none _
    refine Or.inr ⟨inter, chunks, hnext, hdecided, ?_, ?_⟩
    · rw [← readings_packet]
      exact fun hmap => hnew (List.map_eq_nil_iff.1 hmap)
    · rw [hchunks, List.map_append, readings_packet]

/-- **From the mode-fixing NAL on.** The queue fills, is released at some packet, and the units of
the session are those of the prompt session with neighbours of one timestamp put together. -/
theorem run_waiting {inter : Bool} {prompt : CutState} (h : Ledger aes codec key held [] self)
    (hnone : self.interEncrypted = none)
    (hprompt : Waiting prompt
      ((unmarked (held.map (reading aes key inter))).foldl CutState.next ([], none)))
    {packets : List NalPacket}
    (hrun : Transducer.run (nalStep aes) self packets = (.ok items, self'))
    (hinter : self'.interEncrypted = some inter) :
    Released
      ((packets.flatMap fun packet => promptItems codec (packet.opened aes codec key inter)).foldl
        CutState.next prompt)
      (items.foldl CutState.next ([], none)) := by
  induction packets generalizing self held prompt items with
  | nil =>
    cases hrun
    exact nomatch hnone.symm.trans hinter
  | cons packet packets ih =>
    obtain ⟨first, middle, more, hfirst, hmore, rfl⟩ := Transducer.run_eq_ok_cons.1 hrun
    rw [List.flatMap_cons, List.foldl_append, List.foldl_append]
    rcases nalStep_waiting h hnone hfirst with ⟨hnext, hstill, rfl⟩ |
      ⟨inter', out, hnext, hdecided, hpacket, rfl⟩
    · -- the queue goes on: the packet yields an empty item, which cuts nothing
      rw [List.foldl_cons, List.foldl_nil, next_empty]
      refine ih hnext hstill ?_ hmore
      rw [List.map_append, readings_packet, unmarked_append, List.foldl_append]
      exact waiting_packet hprompt codec _
    · obtain ⟨hitems, hlast⟩ := run_released hnext hdecided hmore
      obtain rfl := Option.some.inj (hlast.symm.trans hinter)
      rw [hitems]
      exact released_items (released_packet hprompt hpacket) _

end NalDecryptor

end EzvizBridge
