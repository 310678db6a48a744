import EzvizBridge.Transport.StartupQueue
import EzvizBridge.Transport.VideoCipherModes

/-!
# The duplicated header and the whole NAL

In the layout with a duplicated header the camera sends the NAL header and behind it the NAL again,
its leading blocks encrypted; in the layout without one it sends only the latter. `hinted` is both
of them, with the number of bytes in front as a parameter. The decryptor keeps no queue in these
layouts, so a session is its NALs one by one (`feed_hinted`).

Both layouts are undone for every NAL and every key (`hinted_undone`). With a duplicated header,
`emit_hint` takes a NAL for encrypted when its first block decrypts to the header in front. An
encrypted NAL always does. But a NAL that was sent in the clear may do so as well, by its bytes and
the key alone, and then it is decrypted though nothing was encrypted: `clear_hinted_iff` is the
exact condition. The type of the NAL, by which the layout with a clear header tells the two apart,
is not looked at.
-/

namespace EzvizBridge

namespace NalDecryptor

variable {aes : Aes128} {key : Block} {self : NalDecryptor} {nal : Bytes} {drop : ℕ}

/-- The front of a NAL and behind it the same NAL, its leading blocks encrypted. -/
def hinted (aes : Aes128) (key : Block) (drop : ℕ) (nal : Bytes) : Bytes :=
  nal.take drop ++ encryptPrefix aes key nal

/-- The decryptor behind a NAL that was emitted at once. -/
def passed (self : NalDecryptor) (stamp : UInt32) : NalDecryptor :=
  { self with stamp := stamp, pending := none }

/-- **No queue.** In either layout a complete NAL goes to `emit_nal`, and what waited is given
up. -/
theorem feed_hinted (hmode : self.mode = .encrypted 0 drop) (hlen : self.codec.header ≤ nal.length)
    (stamp : UInt32) : self.feed aes stamp nal = (self.passed stamp).emitNal aes nal := by
  have hclassify : ({ self with stamp := stamp } : NalDecryptor).classify aes nal
    self.codec.header =
      (.ok (), { self with stamp := stamp }) := by
    unfold classify
    rw [if_pos]
    rw [hmode]
    exact fun h => EncryptionMode.noConfusion h
  have hnot : headerClear self.mode = false := by
    rw [hmode]
    cases drop <;> rfl
  have hknown : ¬ self.mode = .unknown := by
    rw [hmode]
    exact fun h => EncryptionMode.noConfusion h
  unfold feed
  simp only [if_neg (Nat.not_lt.mpr hlen), hclassify, if_neg hknown, hnot, Bool.not_false,
    Bool.and_true]
  cases hpending : self.pending with
  | none => rfl
  | some queue => rfl

/-- What is put out without a queue comes out at once. -/
theorem okOf_put_passed (stamp : UInt32) (data : Bytes) :
    okOf ((self.passed stamp).put aes data) = (.ok [(stamp, data)], self.passed stamp) := rfl

/-- The front of the first block is the front of the NAL. -/
theorem take_toBlock {count : ℕ} (h : 16 ≤ nal.length) (hcount : count ≤ 16) :
    (toBlock nal).1.take count = nal.take count := by
  rw [toBlock_of_le h, List.take_take, Nat.min_eq_left hcount]

theorem header_le (codec : VideoCodec) : codec.header ≤ 16 := by
  cases codec <;> decide

/-- The first block of the body decrypts to the header in front. -/
def NamesHeader (aes : Aes128) (key : Block) (front body : Bytes) : Prop :=
  16 ≤ body.length ∧ ((aes key).symm (toBlock body)).1.take front.length = front

/-- The body behind the header, taken for encrypted. -/
theorem emitHint_decrypts {front body : Bytes} (h : NamesHeader aes self.key front body) :
    self.emitHint aes (front ++ body) front.length =
      self.put aes (annexB (decryptWith aes self.key body)) := by
  unfold emitHint
  rw [List.drop_left, List.take_left, List.length_append]
  exact if_pos ⟨Nat.add_le_add_left h.1 _, h.2⟩

/-- The body behind the header, taken for clear. -/
theorem emitHint_drops {front body : Bytes} (h : ¬ NamesHeader aes self.key front body)
    (hfront : body.take front.length = front) :
    self.emitHint aes (front ++ body) front.length = self.put aes (annexB body) := by
  have hle : front.length ≤ body.length := by
    have hlength := congrArg List.length hfront
    rw [List.length_take] at hlength
    omega
  unfold emitHint
  rw [List.drop_left, List.take_left, List.length_append]
  have hnot : ¬ (front.length + body.length ≥ front.length + 16 ∧
      (self.decryptFirst aes body).take front.length = front) :=
    fun hboth => h ⟨Nat.le_of_add_le_add_left hboth.1, hboth.2⟩
  rw [if_neg hnot, if_pos ⟨by omega, hfront⟩]

/-- In the layout with a duplicated header a NAL goes to `emit_hint`. -/
theorem feed_duplicated {body : Bytes} (hmode : self.mode = .encrypted 0 self.codec.header)
    (hlen : self.codec.header ≤ nal.length) (stamp : UInt32) :
    self.feed aes stamp (nal.take self.codec.header ++ body) =
      okOf ((self.passed stamp).emitHint aes (nal.take self.codec.header ++ body)
        (nal.take self.codec.header).length) := by
  have hfront : (nal.take self.codec.header).length = self.codec.header :=
    List.length_take_of_le hlen
  have hcomplete : self.codec.header ≤ (nal.take self.codec.header ++ body).length := by
    rw [List.length_append, hfront]
    exact Nat.le_add_right _ _
  rw [feed_hinted hmode hcomplete, hfront]
  unfold emitNal
  rw [show (self.passed stamp).mode = .encrypted 0 self.codec.header from hmode]
  exact if_pos self.codec.header_pos

/-- **One NAL**, in either layout. -/
theorem feed_hinted_undone (hdrop : drop = 0 ∨ drop = self.codec.header)
    (hmode : self.mode = .encrypted 0 drop) (hlen : self.codec.header ≤ nal.length)
    (stamp : UInt32) :
    self.feed aes stamp (hinted aes self.key drop nal) =
      (.ok [(stamp, annexB nal)], self.passed stamp) := by
  rcases hdrop with rfl | rfl
  · -- nothing in front: the whole is decrypted
    have hwhole : hinted aes self.key 0 nal = encryptPrefix aes self.key nal := rfl
    rw [hwhole, feed_hinted hmode (by rwa [length_encryptPrefix])]
    unfold emitNal
    rw [show (self.passed stamp).mode = .encrypted 0 0 from hmode]
    change okOf ((self.passed stamp).put aes
      (annexB (decryptWith aes self.key (encryptPrefix aes self.key nal)))) = _
    rw [decryptWith_encryptPrefix, okOf_put_passed]
  · rw [hinted, feed_duplicated hmode hlen]
    have hfront : (nal.take self.codec.header).length = self.codec.header :=
      List.length_take_of_le hlen
    by_cases hblock : 16 ≤ nal.length
    · -- the first block decrypts to that of the NAL, whose front is the header
      have hnames : NamesHeader aes (self.passed stamp).key (nal.take self.codec.header)
          (encryptPrefix aes self.key nal) := by
        refine ⟨by rwa [length_encryptPrefix], ?_⟩
        rw [hfront]
        change ((aes self.key).symm (toBlock (encryptPrefix aes self.key nal))).1.take _ = _
        rw [toBlock_encryptPrefix hblock, Equiv.symm_apply_apply,
          take_toBlock hblock (header_le self.codec)]
      rw [emitHint_decrypts hnames]
      change okOf ((self.passed stamp).put aes
        (annexB (decryptWith aes self.key (encryptPrefix aes self.key nal)))) = _
      rw [decryptWith_encryptPrefix, okOf_put_passed]
    · -- too short for a block: nothing was encrypted
      have hshort : encryptPrefix aes self.key nal = nal :=
        encryptPrefix_of_lt (Nat.lt_of_not_le hblock)
      rw [hshort, emitHint_drops (fun h => hblock h.1) (by rw [hfront]), okOf_put_passed]

/-- **The two layouts are undone.** In the layout with a duplicated header and in the one without, a
session emits the start code and the NAL for each NAL that was sent, with its timestamp. After any
number of NALs just these have come out, and nothing waits. -/
theorem hinted_undone (aes : Aes128) (hdrop : drop = 0 ∨ drop = self.codec.header)
    (hmode : self.mode = .encrypted 0 drop) {nals : List (UInt32 × Bytes)}
    (hnals : ∀ nal ∈ nals, self.codec.header ≤ nal.2.length) (k : ℕ) :
    ∃ self', self.feedAll aes
      ((nals.take k).map fun nal => (nal.1, hinted aes self.key drop nal.2)) =
        (.ok ((nals.take k).map fun nal => (nal.1, annexB nal.2)), self') ∧
      (nals.take k ≠ [] → self'.pending = none) := by
  have hsome : ∀ nal ∈ nals.take k, self.codec.header ≤ nal.2.length :=
    fun nal hnal => hnals nal (List.mem_of_mem_take hnal)
  generalize nals.take k = sent at hsome
  clear hnals nals
  induction sent generalizing self with
  | nil => exact ⟨self, rfl, fun h => absurd rfl h⟩
  | cons nal sent ih =>
    have hfirst := @feed_hinted_undone aes self nal.2 drop hdrop hmode
      (hsome nal List.mem_cons_self)
      nal.1
    -- mode, codec and key are as before
    obtain ⟨self', hrest, hpending⟩ := @ih (self.passed nal.1) hdrop hmode
      fun other hother => hsome other (List.mem_cons_of_mem _ hother)
    have hrun := Transducer.run_cons_ok (i := (nal.1, hinted aes self.key drop nal.2)) hfirst hrest
    refine ⟨self', hrun, fun _ => ?_⟩
    by_cases hempty : sent = []
    · subst hempty
      cases hrest
      rfl
    · exact hpending hempty

/-- An SPS of one block, and what AES-128 under `sampleKey` makes of it. -/
def duplicatedSps : Block × Block :=
  (toBlock [0x67, 0x64, 0x00, 0x1f, 0xac, 0xd9, 0x40, 0x50, 0x05, 0xbb, 0x01, 0x10, 0x00,
    0x00, 0x03,
      0x00],
    toBlock [0xfb, 0x53, 0x67, 0x66, 0x83, 0x83, 0xde, 0x9c, 0xba, 0x0f, 0x00, 0x66, 0x2d,
      0x51, 0x5a, 0x87])

/-- A clear slice of one block, and what AES-128 under `sampleKey` decrypts it to. -/
def clearSlice : Block × Block :=
  (toBlock [0x41, 0xd3, 0xc1, 0x55, 0xd1, 0x36, 0x71, 0xde, 0xfb, 0x64, 0x93, 0x3e, 0xe3,
    0xdb, 0x17,
      0xa3],
    toBlock [0x41, 0x37, 0x2a, 0x35, 0xd0, 0x36, 0xb8, 0x44, 0xfe, 0xd7, 0x12, 0xf1, 0xbe,
      0xa4, 0x83, 0x3e])

/-- A cipher that agrees with AES-128 on the two blocks above. -/
def duplicatedAes : Aes128 := fun _ =>
  (Equiv.swap duplicatedSps.1 duplicatedSps.2).trans (Equiv.swap clearSlice.1 clearSlice.2)

/-- A session in the layout with a duplicated header. -/
def duplicatedSession : NalDecryptor :=
  { new .h264 (some sampleKey) with mode := .encrypted 0 1 }

/-- The SPS, and a PPS that is shorter than a block. -/
theorem hinted_undone_sample :
    ∃ self', duplicatedSession.feedAll duplicatedAes
        [(0, 0x67 :: duplicatedSps.2.1), (3000, [0x68, 0x68, 0xce])] =
          (.ok [(0, annexB duplicatedSps.1.1), (3000, annexB [0x68, 0xce])], self') ∧
      self'.pending = none := by
  have h := @hinted_undone duplicatedSession 1 duplicatedAes (Or.inr rfl) rfl
    [(0, duplicatedSps.1.1), (3000, [0x68, 0xce])] (by decide) 2
  have hsent : ([(0, duplicatedSps.1.1), (3000, [0x68, 0xce])].map fun nal : UInt32 × Bytes =>
      (nal.1, hinted duplicatedAes duplicatedSession.key 1 nal.2)) =
        [(0, 0x67 :: duplicatedSps.2.1), (3000, [0x68, 0x68, 0xce])] := by decide
  obtain ⟨self', hrun, hpending⟩ := h
  exact ⟨self', hsent ▸ hrun, hpending (List.cons_ne_nil _ _)⟩

/-! ### A clear NAL among encrypted ones -/

/-- Decrypting a NAL leaves it as it is exactly when encrypting it does. -/
theorem decryptWith_eq_self_iff :
    decryptWith aes key nal = nal ↔ encryptPrefix aes key nal = nal := by
  have hinverse : encryptPrefix aes key (decryptWith aes key nal) = nal := by
    unfold encryptPrefix
    rw [length_decryptWith]
    exact mapBlocks_leftInverse (aes key).apply_symm_apply _ nal
  constructor
  · intro h
    rwa [h] at hinverse
  · intro h
    have hback := @decryptWith_encryptPrefix aes key nal
    rwa [h] at hback

/-- **Exactly when a clear NAL comes through.** A NAL of whatever type that is sent in the clear
behind its header is emitted as it is if and only if it is shorter than a block, its first block
does not decrypt to the header in front, or it is one that encryption leaves alone. -/
theorem clear_hinted_iff (aes : Aes128) (hmode : self.mode = .encrypted 0 self.codec.header)
    (hlen : self.codec.header ≤ nal.length) (stamp : UInt32) :
    (self.feed aes stamp (nal.take self.codec.header ++ nal)).1 = .ok [(stamp, annexB nal)] ↔
      nal.length < 16 ∨
      ((aes self.key).symm (toBlock nal)).1.take self.codec.header ≠ nal.take self.codec.header ∨
      encryptPrefix aes self.key nal = nal := by
  have hfront : (nal.take self.codec.header).length = self.codec.header :=
    List.length_take_of_le hlen
  have hnames : NamesHeader aes (self.passed stamp).key (nal.take self.codec.header) nal ↔
      16 ≤ nal.length ∧
        ((aes self.key).symm (toBlock nal)).1.take self.codec.header =
          nal.take self.codec.header := by
    rw [NamesHeader, hfront]
    rfl
  rw [feed_duplicated hmode hlen]
  by_cases h : NamesHeader aes (self.passed stamp).key (nal.take self.codec.header) nal
  · -- the NAL is decrypted, which it bears only if nothing changes
    obtain ⟨hblock, hheader⟩ := hnames.mp h
    rw [emitHint_decrypts h, okOf_put_passed, ← decryptWith_eq_self_iff]
    constructor
    · intro hsame
      have hbytes := congrArg Prod.snd (List.cons.inj (Except.ok.inj hsame)).1
      exact Or.inr (Or.inr (List.append_cancel_left hbytes))
    · rintro (hshort | hother | hfixed)
      · exact absurd hblock (Nat.not_le.mpr hshort)
      · exact absurd hheader hother
      · show Except.ok [(stamp, annexB (decryptWith aes self.key nal))] = _
        rw [hfixed]
  · rw [emitHint_drops h (by rw [hfront]), okOf_put_passed]
    refine iff_of_true rfl ?_
    by_contra hnone
    obtain ⟨hblock, hrest⟩ := not_or.mp hnone
    exact h (hnames.mpr ⟨Nat.le_of_not_lt hblock, not_not.mp (not_or.mp hrest).1⟩)

/-- A slice that is shorter than a block. -/
theorem clear_hinted_sample :
    (duplicatedSession.feed duplicatedAes 3000 [0x41, 0x41, 0x9a]).1 =
      .ok [(3000, annexB [0x41, 0x9a])] :=
  (@clear_hinted_iff duplicatedSession [0x41, 0x9a] duplicatedAes rfl (by decide) 3000).mpr
    (Or.inl (by decide))

/-- **A clear slice is garbled.** Its first block happens to decrypt to a block that begins with the
same header byte, and this block is emitted in its place. -/
theorem clear_slice_garbled :
    VideoCodec.h264.encryptedNalType (clearSlice.1.1.getD 0 0) = false ∧
      (duplicatedSession.feed duplicatedAes 3000 (0x41 :: clearSlice.1.1)).1 =
        .ok [(3000, annexB clearSlice.2.1)] ∧
      annexB clearSlice.2.1 ≠ annexB clearSlice.1.1 := by
  decide

end NalDecryptor

end EzvizBridge
