import EzvizBridge.Lib.Transducer
import EzvizBridge.Transport.VideoCipher

/-!
# The start-up queue of the NAL decryptor

In the layout with a clear NAL header the decryptor withholds every NAL until it knows whether
inter slices are encrypted. The knowledge arrives inside `put_inter`, with the eighth sample, or
inside `guard_pending`, when the queue outgrows its bound, and from then on NALs pass at once.

`Ledger` is the invariant that carries all of it. At any point the NALs fed so far are a list of
queue entries, one entry per NAL in the order of arrival (`entry`), and either all of them still
wait and nothing has come out, or one decision has been taken and what has come out is exactly
the list of entries read under that decision (`reading`). There is no third state, so no NAL can
be lost, duplicated or moved around the release, and the decision cannot differ between two NALs.

* `put_ledger`, `putInter_ledger`, `emitNal_ledger` — one NAL appends one entry;
* `feedAll_ledger` — a run appends the entries of the run.
-/

namespace EzvizBridge

/-- A NAL long enough to have its header; shorter ones are ignored by `feed`. -/
def VideoCodec.complete (codec : VideoCodec) (nal : Bytes) : Bool := codec.header ≤ nal.length

theorem VideoCodec.header_pos (codec : VideoCodec) : 0 < codec.header := by
  cases codec <;> decide

namespace NalDecryptor

variable (aes : Aes128)

/-- Feed NALs in order, up to the first error. -/
def feedAll (self : NalDecryptor) (nals : List (UInt32 × Bytes)) : Outcome NalDecryptor Chunks :=
  Transducer.run (fun (self : NalDecryptor) nal => self.feed aes nal.1 nal.2) self nals

/-! ### Entries and their readings -/

/-- `decrypt_prefix`, as a function of the key alone. -/
def decryptWith (key : Block) (value : Bytes) : Bytes :=
  mapBlocks (aes key).symm (min value.length encryptedPrefixBytes / 16) value

/-- The queue entry of a NAL in the layout with a clear NAL header. -/
def entry (codec : VideoCodec) (key : Block) (stamp : UInt32) (nal : Bytes) : PendingNal :=
  if nal.length ≤ codec.header then .ready stamp (annexB nal)
  else if codec.encryptedNalType (nal.getD 0 0) then
    .ready stamp (annexB (nal.take codec.header ++ decryptWith aes key (nal.drop codec.header)))
  else .inter stamp nal codec.header

/-- What an entry comes out as, once it is decided whether inter slices are encrypted. -/
def reading (key : Block) (encrypted : Bool) : PendingNal → UInt32 × Bytes
  | .ready stamp data => (stamp, data)
  | .inter stamp nal header =>
    (stamp,
      if encrypted then annexB (nal.take header ++ decryptWith aes key (nal.drop header))
      else annexB nal)

/-- The entries of a run, one for each complete NAL. -/
def entries (codec : VideoCodec) (key : Block) (nals : List (UInt32 × Bytes)) : List PendingNal :=
  (nals.filter fun nal => codec.complete nal.2).map fun nal => entry aes codec key nal.1 nal.2

theorem entries_cons (codec : VideoCodec) (key : Block) (nal : UInt32 × Bytes)
    (nals : List (UInt32 × Bytes)) :
    entries aes codec key (nal :: nals) =
      (if codec.complete nal.2 then [entry aes codec key nal.1 nal.2] else []) ++
        entries aes codec key nals := by
  unfold entries
  by_cases h : codec.complete nal.2 <;> simp [h]

theorem release_eq_reading {self : NalDecryptor} {encrypted : Bool}
    (h : self.interEncrypted = some encrypted) (entry : PendingNal) :
    self.release aes entry = reading aes self.key encrypted entry := by
  cases entry with
  | ready stamp data => rfl
  | inter stamp nal header =>
    simp only [release, reading, interBytes, h]
    cases encrypted <;> rfl

/-! ### The ledger -/

/-- The NALs fed so far have the given entries, and `out` is what has come out of them: nothing
while they wait, and all of them, read under one decision, after the release. -/
structure Ledger (codec : VideoCodec) (key : Block) (entries : List PendingNal) (out : Chunks)
    (d : NalDecryptor) : Prop where
  codec_eq : d.codec = codec
  key_eq : d.key = key
  mode_eq : d.mode = .encrypted codec.header 0
  queue :
    (d.interEncrypted = none ∧ d.pending = some entries ∧ out = []) ∨
    ∃ encrypted, d.interEncrypted = some encrypted ∧ d.pending = none ∧
      out = entries.map (reading aes key encrypted)

variable {aes} {codec : VideoCodec} {key : Block} {entries : List PendingNal} {out : Chunks}
  {self : NalDecryptor}

/-- Neither the codec, nor the key, nor the mode moves when the queue is released. -/
theorem flushPending_ledger {encrypted : Bool} (hcodec : self.codec = codec)
    (hkey : self.key = key) (hmode : self.mode = .encrypted codec.header 0)
    (hdecided : self.interEncrypted = some encrypted) (hpending : self.pending = some entries) :
    Ledger aes codec key entries (self.flushPending aes).1 (self.flushPending aes).2 where
  codec_eq := hcodec
  key_eq := hkey
  mode_eq := hmode
  queue := by
    refine Or.inr ⟨encrypted, hdecided, rfl, ?_⟩
    simp only [flushPending, hpending, Option.getD_some]
    refine List.map_congr_left fun entry _ => ?_
    rw [← hkey]
    exact release_eq_reading aes (show _ = some encrypted from hdecided) entry

/-- A queue within its bound stays as it is, and one beyond it is released undecrypted. -/
theorem guardPending_ledger (hcodec : self.codec = codec) (hkey : self.key = key)
    (hmode : self.mode = .encrypted codec.header 0) (hdecided : self.interEncrypted = none)
    (hpending : self.pending = some entries) :
    Ledger aes codec key entries (self.guardPending aes).1 (self.guardPending aes).2 := by
  unfold guardPending
  split
  · exact ⟨hcodec, hkey, hmode, Or.inl ⟨hdecided, hpending, rfl⟩⟩
  · exact flushPending_ledger hcodec hkey hmode rfl hpending

theorem put_ledger (h : Ledger aes codec key entries out self) (data : Bytes) :
    Ledger aes codec key (entries ++ [.ready self.stamp data]) (out ++ (self.put aes data).1)
      (self.put aes data).2 := by
  obtain ⟨hcodec, hkey, hmode, ⟨hnone, hpending, rfl⟩ | ⟨encrypted, hsome, hpending, rfl⟩⟩ := h
  · unfold put
    simp only [hpending, List.nil_append]
    exact guardPending_ledger hcodec hkey hmode hnone rfl
  · unfold put
    simp only [hpending]
    exact ⟨hcodec, hkey, hmode, Or.inr ⟨encrypted, hsome, hpending, by simp [reading]⟩⟩

variable (aes) in
/-- Sampling decides about inter slices and touches nothing else. -/
theorem sampleInter_frame (self : NalDecryptor) (nal : Bytes) (header : ℕ) :
    (self.sampleInter aes nal header).codec = self.codec ∧
    (self.sampleInter aes nal header).key = self.key ∧
    (self.sampleInter aes nal header).mode = self.mode ∧
    (self.sampleInter aes nal header).pending = self.pending := by
  unfold sampleInter
  split
  · dsimp only
    split <;> exact ⟨rfl, rfl, rfl, rfl⟩
  · exact ⟨rfl, rfl, rfl, rfl⟩

theorem putInter_ledger (h : Ledger aes codec key entries out self) (nal : Bytes) (header : ℕ) :
    Ledger aes codec key (entries ++ [.inter self.stamp nal header])
      (out ++ (self.putInter aes nal header).1) (self.putInter aes nal header).2 := by
  obtain ⟨hcodec, hkey, hmode, ⟨hnone, hpending, rfl⟩ | ⟨encrypted, hsome, hpending, rfl⟩⟩ := h
  · unfold putInter
    simp only [hpending, List.nil_append]
    -- the queue holds the new entry before the samples are looked at, so a decision taken now
    -- already applies to it
    set queued : NalDecryptor := { self with
      pendingBytes := self.pendingBytes + nal.length
      pending := some (entries ++ [PendingNal.inter self.stamp nal header]) } with hqueued
    obtain ⟨h1, h2, h3, h4⟩ := sampleInter_frame aes queued nal header
    cases hdecided : (queued.sampleInter aes nal header).interEncrypted with
    | none =>
      simp only [Option.isSome_none, Bool.false_eq_true, if_false]
      exact guardPending_ledger (h1.trans hcodec) (h2.trans hkey) (h3.trans hmode) hdecided h4
    | some encrypted =>
      simp only [Option.isSome_some, if_true]
      exact flushPending_ledger (h1.trans hcodec) (h2.trans hkey) (h3.trans hmode) hdecided h4
  · unfold putInter
    simp only [hpending]
    refine ⟨hcodec, hkey, hmode, Or.inr ⟨encrypted, hsome, hpending, ?_⟩⟩
    have hread := release_eq_reading aes hsome (.inter self.stamp nal header)
    rw [hkey] at hread
    simp only [release] at hread
    rw [hread, List.map_append, List.map_singleton]

/-- One NAL appends its own entry. -/
theorem emitNal_ledger (h : Ledger aes codec key entries out self) (nal : Bytes) :
    ∃ chunks self', self.emitNal aes nal = (.ok chunks, self') ∧
      Ledger aes codec key (entries ++ [entry aes codec key self.stamp nal]) (out ++ chunks)
        self' := by
  have hpos := codec.header_pos
  have hdec : ∀ value, self.decryptPrefix aes value = decryptWith aes key value := by
    intro value
    rw [← h.key_eq]
    rfl
  unfold emitNal entry
  simp only [h.mode_eq, h.codec_eq, hdec]
  rw [if_neg (by omega), if_neg (by omega), if_pos trivial]
  split
  · exact ⟨_, _, rfl, put_ledger h _⟩
  · split
    · exact ⟨_, _, rfl, put_ledger h _⟩
    · exact ⟨_, _, rfl, putInter_ledger h _ _⟩

/-- The clock of the decryptor is not part of the ledger. -/
theorem Ledger.stamped (h : Ledger aes codec key entries out self) (stamp : UInt32) :
    Ledger aes codec key entries out { self with stamp := stamp } :=
  ⟨h.codec_eq, h.key_eq, h.mode_eq, h.queue⟩

/-- Once the mode is fixed, `feed` is `emit_nal` on complete NALs. -/
theorem feed_ledger (h : Ledger aes codec key entries out self) (stamp : UInt32) (nal : Bytes) :
    ∃ chunks self', self.feed aes stamp nal = (.ok chunks, self') ∧
      Ledger aes codec key
        (entries ++ if codec.complete nal then [entry aes codec key stamp nal] else [])
        (out ++ chunks) self' := by
  obtain rfl := h.codec_eq
  have hstamped := h.stamped stamp
  unfold feed
  by_cases hnal : self.codec.complete nal
  · have hlen : ¬ nal.length < self.codec.header := by
      simpa [VideoCodec.complete] using hnal
    have hclassify : ({ self with stamp := stamp } : NalDecryptor).classify aes nal
      self.codec.header =
        (.ok (), { self with stamp := stamp }) := by
      unfold classify
      rw [if_pos (by rw [hstamped.mode_eq]; simp)]
    simp only [if_neg hlen, hclassify]
    have hknown : self.mode ≠ .unknown := by rw [h.mode_eq]; simp
    have hheader : headerClear self.mode = true := by
      rw [h.mode_eq]
      simpa [headerClear] using self.codec.header_pos
    simp only [if_neg hknown, hheader, Bool.not_true, Bool.and_false, Bool.false_eq_true, if_false,
      if_pos hnal]
    exact emitNal_ledger hstamped nal
  · have hlen : nal.length < self.codec.header := by
      simpa [VideoCodec.complete] using hnal
    simp only [if_pos hlen, if_neg hnal]
    exact ⟨[], _, rfl, by simpa using hstamped⟩

/-- **A run appends the entries of the run**, and never fails. -/
theorem feedAll_ledger (h : Ledger aes codec key entries out self)
    (nals : List (UInt32 × Bytes)) :
    ∃ chunks self', self.feedAll aes nals = (.ok chunks, self') ∧
      Ledger aes codec key (entries ++ NalDecryptor.entries aes codec key nals) (out ++ chunks)
        self' := by
  induction nals generalizing entries out self with
  | nil => exact ⟨[], self, rfl, by simpa [NalDecryptor.entries] using h⟩
  | cons nal nals ih =>
    obtain ⟨chunks, self', hfeed, hnext⟩ := feed_ledger h nal.1 nal.2
    obtain ⟨more, self'', hmore, hlast⟩ := ih hnext
    refine ⟨chunks ++ more, self'', ?_, ?_⟩
    · exact Transducer.run_cons_ok hfeed hmore
    · rwa [entries_cons, ← List.append_assoc, ← List.append_assoc]

end NalDecryptor

end EzvizBridge
