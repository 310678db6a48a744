import EzvizBridge.Transport.VideoCipherQueue

/-!
# Recognising an encrypted stream

What the camera sends in the layout with a clear NAL header is `sealNal`: the whole 16-byte blocks
among the first 4096 body bytes of parameter sets and key pictures are encrypted, everything else
is left alone. The question is whether `classify`, fed such a stream, ends in the mode that undoes
`sealNal`, for every key, every parameter set and every cipher that is a permutation of blocks.

It does exactly when the first check of `classify`, which looks for a body marker in the raw
bytes, does not fire on the sealed parameter set (`sealed_stream_recognised_iff`). A body shorter
than a block is not encrypted at all and so still shows its plaintext marker; and a first
ciphertext byte may by chance be one of the marker values. In both cases the session is taken for
a clear one and every later ciphertext is passed on as video (`short_parameter_set_leaks`).

Given the right verdict, the rest is the ledger of the start-up queue: the entry of a sealed
parameter set or key picture is its plaintext (`entry_sealNal`).
-/

namespace EzvizBridge

namespace NalDecryptor

variable (aes : Aes128)

/-! ### The camera's side -/

/-- The whole blocks among the first 4096 bytes, encrypted. -/
def encryptPrefix (key : Block) (value : Bytes) : Bytes :=
  mapBlocks (aes key) (min value.length encryptedPrefixBytes / 16) value

/-- A NAL as the camera sends it in the layout with a clear NAL header. -/
def sealNal (codec : VideoCodec) (key : Block) (nal : Bytes) : Bytes :=
  if codec.encryptedNalType (nal.getD 0 0) then
    nal.take codec.header ++ encryptPrefix aes key (nal.drop codec.header)
  else nal

variable {aes} {codec : VideoCodec} {key : Block}

theorem length_encryptPrefix (value : Bytes) :
    (encryptPrefix aes key value).length = value.length :=
  length_mapBlocks _ _ _

/-- Decrypting the prefix undoes encrypting it: both touch the same blocks. -/
theorem decryptWith_encryptPrefix (value : Bytes) :
    decryptWith aes key (encryptPrefix aes key value) = value := by
  unfold decryptWith
  rw [length_encryptPrefix]
  exact mapBlocks_leftInverse (aes key).symm_apply_apply _ value

theorem encryptPrefix_of_lt {value : Bytes} (h : value.length < 16) :
    encryptPrefix aes key value = value := by
  have hzero : min value.length encryptedPrefixBytes / 16 = 0 := by omega
  rw [encryptPrefix, hzero, mapBlocks]

theorem toBlock_of_le {value : Bytes} (h : 16 ≤ value.length) :
    toBlock value = ⟨value.take 16, List.length_take_of_le h⟩ := by
  apply Subtype.ext
  change value.take 16 ++ List.replicate (16 - value.length) 0 = value.take 16
  rw [show 16 - value.length = 0 by omega, List.replicate_zero, List.append_nil]

/-- The first byte of the block. -/
theorem getD_toBlock (value : Bytes) (h : 16 ≤ value.length) :
    (toBlock value).1.getD 0 0 = value.getD 0 0 := by
  rw [toBlock_of_le h]
  cases value with
  | nil => rfl
  | cons byte value => rfl

/-- The first block of the sealed body is the cipher applied to the first block of the body. -/
theorem toBlock_encryptPrefix {value : Bytes} (h : 16 ≤ value.length) :
    toBlock (encryptPrefix aes key value) = aes key (toBlock value) := by
  have hpos : 0 < min value.length encryptedPrefixBytes / 16 := by
    unfold encryptedPrefixBytes
    omega
  rw [toBlock_of_le (by rwa [length_encryptPrefix]), toBlock_of_le h]
  exact Subtype.ext (take_mapBlocks (aes key) hpos h)

theorem length_sealNal (nal : Bytes) : (sealNal aes codec key nal).length = nal.length := by
  unfold sealNal
  split
  · rw [List.length_append, length_encryptPrefix, ← List.length_append, List.take_append_drop]
  · rfl

/-- The header of a NAL is sent in the clear, so its type can be read off either form. -/
theorem getD_sealNal (nal : Bytes) : (sealNal aes codec key nal).getD 0 0 = nal.getD 0 0 := by
  unfold sealNal
  split
  · cases nal with
    | nil =>
      rw [List.take_nil, List.drop_nil, encryptPrefix_of_lt (by decide)]
      rfl
    | cons byte nal =>
      obtain ⟨n, hn⟩ := Nat.exists_eq_succ_of_ne_zero codec.header_pos.ne'
      rw [hn]
      rfl
  · rfl

theorem drop_sealNal {nal : Bytes} (htype : codec.encryptedNalType (nal.getD 0 0))
    (hlen : codec.header ≤ nal.length) :
    (sealNal aes codec key nal).drop codec.header =
      encryptPrefix aes key (nal.drop codec.header) := by
  rw [sealNal, if_pos htype, List.drop_left' (List.length_take_of_le hlen)]

theorem complete_sealNal (nal : Bytes) :
    codec.complete (sealNal aes codec key nal) = codec.complete nal := by
  rw [VideoCodec.complete, length_sealNal, VideoCodec.complete]

/-- **The entry of a sealed parameter set or key picture is its plaintext.** -/
theorem entry_sealNal {nal : Bytes} (htype : codec.encryptedNalType (nal.getD 0 0))
    (stamp : UInt32) :
    entry aes codec key stamp (sealNal aes codec key nal) = .ready stamp (annexB nal) := by
  unfold entry
  -- the body was encrypted, or there is none
  rw [length_sealNal, getD_sealNal]
  by_cases hlen : nal.length ≤ codec.header
  · -- a NAL without a body: nothing was encrypted
    rw [if_pos hlen, sealNal, if_pos htype, List.drop_eq_nil_of_le hlen,
      encryptPrefix_of_lt (by decide), List.append_nil, List.take_of_length_le hlen]
  · have hheader : (sealNal aes codec key nal).take codec.header = nal.take codec.header := by
      rw [sealNal, if_pos htype]
      exact List.take_left' (List.length_take_of_le (by omega))
    rw [if_neg hlen, if_pos htype, drop_sealNal htype (by omega),
      decryptWith_encryptPrefix, hheader, List.take_append_drop]

/-! ### The verdict of `classify` -/

variable (aes) in
/-- No check of `classify` succeeds on `nal` under `key`. -/
structure NoCheckSucceeds (codec : VideoCodec) (key : Block) (nal : Bytes) : Prop where
  clear : ¬ (codec.isParamSet (nal.getD 0 0) ∧ (nal[codec.header]?).any codec.bodyMarker)
  headerClear : ¬ (codec.isParamSet (nal.getD 0 0) ∧ codec.header + 16 ≤ nal.length ∧
    codec.bodyMarker (((aes key).symm (toBlock (nal.drop codec.header))).1.getD 0 0))
  hint : ¬ (codec.header + 16 ≤ nal.length ∧
    readsAsParamSet codec ((aes key).symm (toBlock (nal.drop codec.header))).1)
  whole : ¬ (16 ≤ nal.length ∧ readsAsParamSet codec ((aes key).symm (toBlock nal)).1)

/-- A parameter set has a type that the layout encrypts. -/
theorem encryptedNalType_of_isParamSet {first : UInt8} (h : codec.isParamSet first) :
    codec.encryptedNalType first := by
  cases codec <;> simp_all [VideoCodec.isParamSet, VideoCodec.encryptedNalType]

theorem any_getElem?_header {nal : Bytes} (h : codec.header < nal.length) (p : UInt8 → Bool) :
    (nal[codec.header]?).any p = p ((nal.drop codec.header).getD 0 0) := by
  rw [List.getD_eq_getElem?_getD, List.getElem?_drop, Nat.add_zero,
    List.getElem?_eq_getElem h]
  rfl

theorem header_lt_of_marker {nal : Bytes} {p : UInt8 → Bool} (h : (nal[codec.header]?).any p) :
    codec.header < nal.length := by
  by_contra hlen
  rw [List.getElem?_eq_none (by omega)] at h
  simp at h

variable (aes key) in
/-- The first check of `classify` reads, off the sealed parameter set, the plaintext marker of a
short body and the first ciphertext byte of a longer one. -/
theorem rawMarker_sealNal {nal : Bytes} (hparam : codec.isParamSet (nal.getD 0 0))
    (hmarker : (nal[codec.header]?).any codec.bodyMarker) :
    ((sealNal aes codec key nal)[codec.header]?).any codec.bodyMarker ↔
      ¬ (16 ≤ (nal.drop codec.header).length ∧
        ¬ codec.bodyMarker ((aes key (toBlock (nal.drop codec.header))).1.getD 0 0)) := by
  have hlen := header_lt_of_marker hmarker
  have htype := encryptedNalType_of_isParamSet hparam
  rw [any_getElem?_header (by rwa [length_sealNal]), drop_sealNal htype (by omega)]
  rw [any_getElem?_header hlen] at hmarker
  -- there is a whole block, or nothing is encrypted
  by_cases h16 : 16 ≤ (nal.drop codec.header).length
  · have hfirst := getD_toBlock (encryptPrefix aes key (nal.drop codec.header))
      (by rwa [length_encryptPrefix])
    rw [toBlock_encryptPrefix h16] at hfirst
    rw [hfirst]
    simp only [h16, true_and, not_not]
  · rw [encryptPrefix_of_lt (by omega)]
    simp only [h16, false_and, not_false_eq_true, iff_true]
    exact hmarker

variable {self : NalDecryptor} {nal : Bytes}

/-- The raw marker ends the classification at once. -/
theorem classify_clear (hmode : self.mode = .unknown)
    (hparam : self.codec.isParamSet (nal.getD 0 0))
    (hraw : (nal[self.codec.header]?).any self.codec.bodyMarker) :
    self.classify aes nal self.codec.header = (.ok (), { self with mode := .clear }) := by
  unfold classify
  rw [if_neg (by simp [hmode])]
  simp only [hparam, hraw, Bool.and_self, if_true]

/-- Past the raw marker, a parameter set whose first block decrypts to a marker fixes the layout
with a clear NAL header. -/
theorem classify_headerClear (hmode : self.mode = .unknown)
    (hparam : self.codec.isParamSet (nal.getD 0 0))
    (hraw : ¬ (nal[self.codec.header]?).any self.codec.bodyMarker)
    (hlen : self.codec.header + 16 ≤ nal.length)
    (hfirst : self.codec.bodyMarker
      ((self.decryptFirst aes (nal.drop self.codec.header)).getD 0 0)) :
    self.classify aes nal self.codec.header =
      (.ok (), { self with mode := .encrypted self.codec.header 0 }) := by
  unfold classify
  rw [if_neg (by simp [hmode])]
  simp only [hparam, Bool.true_and, if_neg hraw, hfirst, Bool.and_true, ge_iff_le,
    decide_eq_true_eq, if_pos hlen]

/-- Where no check succeeds, a parameter set with a whole block is refused. -/
theorem classify_rejected (hmode : self.mode = .unknown)
    (hparam : self.codec.isParamSet (nal.getD 0 0))
    (hlen : self.codec.header + 16 ≤ nal.length)
    (hno : NoCheckSucceeds aes self.codec self.key nal) :
    self.classify aes nal self.codec.header = (.error .keyRejected, self) := by
  -- none of the four checks succeeds
  have h1 : ¬ (nal[self.codec.header]?).any self.codec.bodyMarker := fun h => hno.clear ⟨hparam, h⟩
  have h2 : ¬ self.codec.bodyMarker
      ((self.decryptFirst aes (nal.drop self.codec.header)).getD 0 0) :=
    fun h => hno.headerClear ⟨hparam, hlen, h⟩
  have h3 : ¬ readsAsParamSet self.codec (self.decryptFirst aes (nal.drop self.codec.header)) :=
    fun h => hno.hint ⟨hlen, h⟩
  have h4 : ¬ readsAsParamSet self.codec (self.decryptFirst aes nal) :=
    fun h => hno.whole ⟨by omega, h⟩
  unfold classify
  rw [if_neg (by simp [hmode])]
  simp only [hparam, Bool.true_and, if_neg h1, Bool.and_eq_true, h2, h3, h4, Bool.false_eq_true,
    and_false, if_false, ge_iff_le, decide_eq_true_eq, if_pos hlen]

/-! ### The first NAL of a session -/

/-- A session whose first NAL shows a raw marker is a clear one. -/
theorem feed_clear (hmode : self.mode = .unknown)
    (hparam : self.codec.isParamSet (nal.getD 0 0))
    (hraw : (nal[self.codec.header]?).any self.codec.bodyMarker) (stamp : UInt32) :
    (self.feed aes stamp nal).2.mode = .clear := by
  have hlen : ¬ nal.length < self.codec.header := by
    have := header_lt_of_marker hraw
    omega
  have hclassify : ({ self with stamp := stamp } : NalDecryptor).classify aes nal
      self.codec.header = (.ok (), { self with stamp := stamp, mode := .clear }) :=
    classify_clear hmode hparam hraw
  unfold feed
  simp only [if_neg hlen, hclassify, reduceCtorEq, if_false, headerClear, Bool.not_false,
    Bool.and_true]
  -- a clear session has no queue: what was there is thrown away before the NAL is emitted
  cases self.pending with
  | none => simp [emitNal, put, okOf]
  | some queue => simp [emitNal, put, okOf]

/-- A session whose first NAL passes no check and has a whole block is refused. -/
theorem feed_rejected (hmode : self.mode = .unknown)
    (hparam : self.codec.isParamSet (nal.getD 0 0))
    (hlen : self.codec.header + 16 ≤ nal.length)
    (hno : NoCheckSucceeds aes self.codec self.key nal) (stamp : UInt32) :
    self.feed aes stamp nal = (.error .keyRejected, { self with stamp := stamp }) := by
  have hclassify : ({ self with stamp := stamp } : NalDecryptor).classify aes nal
      self.codec.header = (.error .keyRejected, { self with stamp := stamp }) :=
    classify_rejected hmode hparam hlen hno
  have hcomplete : ¬ nal.length < self.codec.header := by omega
  unfold feed
  simp only [if_neg hcomplete, hclassify]

variable (aes self) in
/-- What `feed` does with the NAL that fixes the layout with a clear NAL header: it is the first
entry of the ledger. -/
theorem feed_headerClear (hcodec : self.codec = codec) (hkey : self.key = key)
    (hundecided : self.interEncrypted = none) (hqueue : self.pending = some []) (stamp : UInt32)
    (hnal : codec.complete nal)
    (hclassify : ({ self with stamp := stamp } : NalDecryptor).classify aes nal codec.header =
      (.ok (), { self with stamp := stamp, mode := .encrypted codec.header 0 })) :
    ∃ chunks self', self.feed aes stamp nal = (.ok chunks, self') ∧
      Ledger aes codec key [entry aes codec key stamp nal] chunks self' := by
  -- the NAL is the first one of the queue
  subst hcodec
  have hlen : ¬ nal.length < self.codec.header := by
    simpa [VideoCodec.complete] using hnal
  have hheader : headerClear (.encrypted self.codec.header 0) = true := by
    simpa [headerClear] using self.codec.header_pos
  have hstart : Ledger aes self.codec key [] []
      { self with stamp := stamp, mode := .encrypted self.codec.header 0 } :=
    ⟨rfl, hkey, rfl, Or.inl ⟨hundecided, hqueue, rfl⟩⟩
  obtain ⟨chunks, self', hemit, hledger⟩ := emitNal_ledger hstart nal
  refine ⟨chunks, self', ?_, by simpa using hledger⟩
  unfold feed
  simp only [if_neg hlen, hclassify, reduceCtorEq, if_false, hheader, Bool.not_true,
    Bool.and_false, Bool.false_eq_true]
  exact hemit

/-! ### The property -/

variable (aes) in
/-- A run as the camera sends it. -/
def sealAll (codec : VideoCodec) (key : Block) (nals : List (UInt32 × Bytes)) :
    List (UInt32 × Bytes) :=
  nals.map fun nal => (nal.1, sealNal aes codec key nal.2)

/-- Everything that has come out of the decryptor, and behind it what still waits. -/
def delivered (chunks : Chunks) (self : NalDecryptor) : List PendingNal :=
  chunks.map (fun chunk => .ready chunk.1 chunk.2) ++ self.pending.getD []

/-- A parameter set or key picture that was sent is delivered as its plaintext. -/
def ShowsPlaintext (codec : VideoCodec) (sent : UInt32 × Bytes) (entry : PendingNal) : Prop :=
  codec.encryptedNalType (sent.2.getD 0 0) → entry = .ready sent.1 (annexB sent.2)

variable (aes) in
/-- **Recognised, and failing closed.** The sealed stream `first :: rest` fixes the layout with a
clear NAL header and never another mode; what is delivered is one entry per NAL, the plaintext
for each NAL that was encrypted; and a key under which no check succeeds is refused at the first
NAL, with nothing emitted and nothing queued. -/
structure RecognisedAndFailsClosed (codec : VideoCodec) (key : Block) (first : UInt32 × Bytes)
    (rest : List (UInt32 × Bytes)) : Prop where
  mode : ∀ k,
    ((new codec (some key)).feedAll aes (sealAll aes codec key (first :: rest.take k))).2.mode
    = .encrypted codec.header 0
  plaintext : ∃ chunks self',
    (new codec (some key)).feedAll aes (sealAll aes codec key (first :: rest)) =
      (.ok chunks, self') ∧
    List.Forall₂ (ShowsPlaintext codec)
      ((first :: rest).filter fun nal => codec.complete nal.2) (delivered chunks self')
  rejected : ∀ wrong, NoCheckSucceeds aes codec wrong (sealNal aes codec key first.2) →
    (new codec (some wrong)).feed aes first.1 (sealNal aes codec key first.2) =
      (.error .keyRejected, { new codec (some wrong) with stamp := first.1 })

/-- The entries of a sealed stream. -/
theorem entries_sealAll (nals : List (UInt32 × Bytes)) :
    entries aes codec key (sealAll aes codec key nals) =
      (nals.filter fun nal => codec.complete nal.2).map fun nal =>
        entry aes codec key nal.1 (sealNal aes codec key nal.2) := by
  unfold entries sealAll
  rw [List.filter_map, List.map_map]
  congr 1
  exact List.filter_congr fun nal _ => complete_sealNal nal.2

/-- Whether the entries wait or have been read, the encrypted NALs appear as their plaintext. -/
theorem Ledger.showsPlaintext {nals : List (UInt32 × Bytes)} {out : Chunks}
    (h : Ledger aes codec key (entries aes codec key (sealAll aes codec key nals)) out self) :
    List.Forall₂ (ShowsPlaintext codec) (nals.filter fun nal => codec.complete nal.2)
      (delivered out self) := by
  rw [entries_sealAll] at h
  -- the entries wait, or they have been read
  obtain ⟨-, hpending, rfl⟩ | ⟨encrypted, -, hpending, rfl⟩ := h.queue
  · rw [delivered, hpending, List.map_nil, List.nil_append, Option.getD_some,
      List.forall₂_map_right_iff, List.forall₂_same]
    exact fun nal _ htype => entry_sealNal htype nal.1
  · rw [delivered, hpending, Option.getD_none, List.append_nil, List.map_map, List.map_map,
      List.forall₂_map_right_iff, List.forall₂_same]
    intro nal _ htype
    simp only [Function.comp_apply, entry_sealNal htype nal.1, reading]

variable {first : UInt32 × Bytes}

/-- A body that is still readable in the sealed parameter set makes the session a clear one. -/
theorem mode_of_rawMarker (hparam : codec.isParamSet (first.2.getD 0 0))
    (hraw : ((sealNal aes codec key first.2)[codec.header]?).any codec.bodyMarker) :
    ((new codec (some key)).feedAll aes (sealAll aes codec key [first])).2.mode = .clear := by
  rw [feedAll, sealAll, List.map_singleton, Transducer.run_singleton]
  exact feed_clear rfl (by rw [getD_sealNal]; exact hparam) hraw first.1

/-- Otherwise the run is on the ledger from its first NAL on. -/
theorem feedAll_sealAll_ledger (hparam : codec.isParamSet (first.2.getD 0 0))
    (hmarker : (first.2[codec.header]?).any codec.bodyMarker)
    (h16 : 16 ≤ (first.2.drop codec.header).length)
    (hcipher : ¬ codec.bodyMarker ((aes key (toBlock (first.2.drop codec.header))).1.getD 0 0))
    (rest : List (UInt32 × Bytes)) :
    ∃ chunks self',
      (new codec (some key)).feedAll aes (sealAll aes codec key (first :: rest)) =
        (.ok chunks, self') ∧
      Ledger aes codec key (entries aes codec key (sealAll aes codec key (first :: rest))) chunks
        self' := by
  have hheader := header_lt_of_marker hmarker
  have htype := encryptedNalType_of_isParamSet hparam
  have hraw : ¬ ((sealNal aes codec key first.2)[codec.header]?).any codec.bodyMarker := by
    rw [rawMarker_sealNal aes key hparam hmarker, not_not]
    exact ⟨h16, hcipher⟩
  have hcomplete : codec.complete (sealNal aes codec key first.2) := by
    rw [complete_sealNal]
    simpa [VideoCodec.complete] using hheader.le
  -- the first block decrypts back to the plaintext, whose first byte is the marker
  have hdecoded : codec.bodyMarker (((aes key).symm
      (toBlock ((sealNal aes codec key first.2).drop codec.header))).1.getD 0 0) := by
    rw [drop_sealNal htype hheader.le, toBlock_encryptPrefix h16, Equiv.symm_apply_apply,
      getD_toBlock _ h16, ← any_getElem?_header hheader codec.bodyMarker]
    exact hmarker
  have hlen : codec.header + 16 ≤ (sealNal aes codec key first.2).length := by
    rw [length_sealNal]
    rw [List.length_drop] at h16
    omega
  obtain ⟨chunks, self', hfeed, hledger⟩ :=
    feed_headerClear aes (new codec (some key)) rfl rfl rfl rfl first.1 hcomplete
      (classify_headerClear rfl (by rw [getD_sealNal]; exact hparam) hraw hlen hdecoded)
  obtain ⟨more, self'', hrun, hlast⟩ := feedAll_ledger hledger (sealAll aes codec key rest)
  refine ⟨chunks ++ more, self'', Transducer.run_cons_ok hfeed hrun, ?_⟩
  rw [sealAll, List.map_cons, entries_cons, if_pos hcomplete]
  exact hlast

/-- **Exactly when a sealed stream is recognised**: its first parameter set must reach into a
whole cipher block, and the first byte of that block, encrypted, must not be a marker value. -/
theorem sealed_stream_recognised_iff (aes : Aes128) (codec : VideoCodec) (key : Block)
    (first : UInt32 × Bytes) (rest : List (UInt32 × Bytes))
    (hparam : codec.isParamSet (first.2.getD 0 0))
    (hmarker : (first.2[codec.header]?).any codec.bodyMarker) :
    RecognisedAndFailsClosed aes codec key first rest ↔
      16 ≤ (first.2.drop codec.header).length ∧
        ¬ codec.bodyMarker ((aes key (toBlock (first.2.drop codec.header))).1.getD 0 0) := by
  -- a raw marker makes the session a clear one, and nothing else does
  constructor
  · intro h
    by_contra hno
    have hclear := mode_of_rawMarker hparam ((rawMarker_sealNal aes key hparam hmarker).2 hno)
    have hmode := h.mode 0
    rw [List.take_zero, hclear] at hmode
    cases hmode
  · rintro ⟨h16, hcipher⟩
    -- the mode, the plaintext, and the refusal of another key
    refine ⟨fun k => ?_, ?_, fun wrong hno => ?_⟩
    · obtain ⟨chunks, self', hrun, hledger⟩ :=
        feedAll_sealAll_ledger hparam hmarker h16 hcipher (rest.take k)
      rw [hrun]
      exact hledger.mode_eq
    · obtain ⟨chunks, self', hrun, hledger⟩ :=
        feedAll_sealAll_ledger hparam hmarker h16 hcipher rest
      exact ⟨chunks, self', hrun, hledger.showsPlaintext⟩
    · have hlen : codec.header + 16 ≤ (sealNal aes codec key first.2).length := by
        have := header_lt_of_marker hmarker
        rw [length_sealNal]
        rw [List.length_drop] at h16
        omega
      exact feed_rejected rfl (by rw [getD_sealNal]; exact hparam) hlen hno first.1

/-! ### A stream with a short parameter set -/

def sampleKey : Block := toBlock [0x41, 0x42, 0x43, 0x44, 0x45, 0x46]

/-- The body of an SPS, and what AES-128 under `sampleKey` makes of it. -/
def sampleSps : Block × Block :=
  (toBlock [0x64, 0x00, 0x1f, 0xac, 0xd9, 0x40, 0x50, 0x05, 0xbb, 0x01, 0x10, 0x00, 0x00, 0x03,
      0x00, 0x10],
    toBlock [0x60, 0x5c, 0xdd, 0x4b, 0xed, 0xfe, 0xca, 0x51, 0xe3, 0xb2, 0x3a, 0xd9, 0x51, 0xd8,
      0xca, 0x24])

/-- The first block of an IDR slice, and what AES-128 under `sampleKey` makes of it. -/
def sampleIdr : Block × Block :=
  (toBlock [0x88, 0x84, 0x00, 0x33, 0xff, 0xfe, 0xf6, 0xf0, 0xfe, 0x05, 0x36, 0x56, 0x04, 0x50,
      0x96, 0x7b],
    toBlock [0x2e, 0x44, 0xdc, 0x2e, 0x69, 0x18, 0x0a, 0x36, 0x8d, 0xde, 0x97, 0xad, 0x4c, 0x90,
      0x40, 0x40])

def sampleAes : Aes128 := fun _ =>
  (Equiv.swap sampleSps.1 sampleSps.2).trans (Equiv.swap sampleIdr.1 sampleIdr.2)

/-- An SPS of 17 bytes, whose ciphertext begins with `0x60`, and an IDR slice behind it. -/
theorem sealed_stream_recognised_sample :
    RecognisedAndFailsClosed sampleAes .h264 sampleKey (0, 0x67 :: sampleSps.1.1)
      [(3000, 0x65 :: sampleIdr.1.1)] :=
  (sealed_stream_recognised_iff sampleAes .h264 sampleKey (0, 0x67 :: sampleSps.1.1)
    [(3000, 0x65 :: sampleIdr.1.1)] (by decide) (by decide)).2 (by decide)

/-- **A short parameter set leaks.** Behind an SPS of ten bytes, which the layout leaves in the
clear, the session counts as a clear one and the encrypted IDR slice is emitted as it came. -/
theorem short_parameter_set_leaks :
    let first : UInt32 × Bytes := (0, [0x67, 0x42, 0xc0, 0x1e, 0xd9, 0x00, 0xa0, 0x47, 0xfe, 0x88])
    let idr : UInt32 × Bytes := (3000, 0x65 :: sampleIdr.1.1)
    VideoCodec.h264.isParamSet (first.2.getD 0 0) ∧
    (first.2[VideoCodec.h264.header]?).any VideoCodec.h264.bodyMarker ∧
    ((new .h264 (some sampleKey)).feedAll sampleAes
      (sealAll sampleAes .h264 sampleKey [first, idr])).1 =
        .ok [(0, annexB first.2), (3000, annexB (0x65 :: sampleIdr.2.1))] ∧
    ¬ RecognisedAndFailsClosed sampleAes .h264 sampleKey first [idr] := by
  refine ⟨by decide, by decide, by decide, fun h => ?_⟩
  have hmode := h.mode 0
  revert hmode
  decide

end NalDecryptor

end EzvizBridge
