import EzvizBridge.Transport.CodecDetection

/-!
# The RTP header

A sender puts together the fixed header, up to fifteen CSRC words, an extension, the payload and the
padding (`RtpHeader.assemble`); what such a header may contain is part of the structure. `parse_rtp`
gives back what was put in (`parseRtp_assemble`), and accepts nothing else: whatever it accepts
splits into these parts (`splits_of_parseRtp`). The one liberty it takes is a padding flag with a
count of zero.

`parseRtpIndexed` is the function with every read checked. Each of the four variable parts is
measured before the next is read, so no read is ever outside of the packet (`parseRtp_indexed`).
-/

namespace EzvizBridge

/-- The parts of an RTP packet around its payload. -/
structure RtpHeader where
  payloadType : UInt8
  marker : Bool
  sequence : UInt16
  timestamp : UInt32
  ssrc : UInt32
  csrcs : List UInt32
  /-- The profile word and the words of an extension. -/
  extension : Option (UInt16 × List UInt32)
  /-- The padding in front of its count. -/
  padding : Option Bytes
  payloadType_lt : payloadType < 128
  csrcs_le : csrcs.length ≤ 15
  extension_lt : ∀ e ∈ extension, e.2.length < 65536
  padding_lt : ∀ filler ∈ padding, filler.length < 255

namespace RtpHeader

/-- The flags byte: version 2, the padding and extension bits, and the number of CSRC words. -/
def flags (padded extended : Bool) (csrcs : UInt8) : UInt8 :=
  0x80 ||| (if padded then 0x20 else 0) ||| (if extended then 0x10 else 0) ||| csrcs

/-- The marker and the payload type, in one byte. -/
def typeByte (payloadType : UInt8) (marker : Bool) : UInt8 :=
  (if marker then 0x80 else 0) ||| payloadType

/-- The fixed header. -/
def fixed (header : RtpHeader) : Bytes :=
  [flags header.padding.isSome header.extension.isSome (.ofNat header.csrcs.length),
      typeByte header.payloadType header.marker] ++
    u16ToBe header.sequence ++ u32ToBe header.timestamp ++ u32ToBe header.ssrc

/-- The words, in network order. -/
def words (values : List UInt32) : Bytes := values.flatMap u32ToBe

/-- The extension header with its words, if there is one. -/
def extensionBytes (header : RtpHeader) : Bytes :=
  match header.extension with
  | none => []
  | some (profile, values) => u16ToBe profile ++ u16ToBe (.ofNat values.length) ++ words values

/-- The padding ends in its count, which includes the count itself. -/
def paddingBytes (header : RtpHeader) : Bytes :=
  match header.padding with
  | none => []
  | some filler => filler ++ [.ofNat (filler.length + 1)]

/-- The packet with the given payload. -/
def assemble (header : RtpHeader) (payload : Bytes) : Bytes :=
  header.fixed ++ words header.csrcs ++ header.extensionBytes ++ payload ++ header.paddingBytes

end RtpHeader

/-! ### Every read checked -/

/-- The offset of the payload, every index checked. -/
def payloadStartIndexed (packet : Bytes) : Option (Except BridgeError ℕ) := do
  let flags : UInt8 ← packet[0]?
  let offset := 12 + (flags &&& 0x0f).toNat * 4
  if offset > packet.length then some (.error (.upstream "RTP header is truncated"))
  else if flags &&& 0x10 != 0 then
    if offset + 4 > packet.length then some (.error (.upstream "RTP extension header is truncated"))
    else
      let hi : UInt8 ← packet[offset + 2]?
      let lo : UInt8 ← packet[offset + 3]?
      let offset := offset + 4 + (u16FromBe hi lo).toNat * 4
      if offset > packet.length then some (.error (.upstream "RTP extension is truncated"))
      else some (.ok offset)
  else some (.ok offset)

/-- The padding as the code reads it, by indices. -/
def paddingLengthIndexed (packet : Bytes) : Option (Except BridgeError ℕ) := do
  let flags : UInt8 ← packet[0]?
  if flags &&& 0x20 == 0 then some (.ok 0)
  else
    match packet.getLast? with
    | some last => some (.ok last.toNat)
    | none => some (.error (.upstream "RTP padding is missing"))

/-- `parse_rtp` with every index and every slice checked; `none` where one is outside of the
packet. -/
def parseRtpIndexed (packet : Bytes) : Option (Except BridgeError RtpPacket) :=
  if packet.length < 12 then some (.error (.upstream "media is not a valid RTP packet"))
  else do
    let flags : UInt8 ← packet[0]?
    if flags >>> 6 != 2 then some (.error (.upstream "media is not a valid RTP packet"))
    else
      match ← payloadStartIndexed packet with
      | .error e => some (.error e)
      | .ok offset =>
        match ← paddingLengthIndexed packet with
        | .error e => some (.error e)
        | .ok padding =>
          if padding ≤ packet.length ∧ offset ≤ packet.length - padding then
            let type : UInt8 ← packet[1]?
            let a : UInt8 ← packet[4]?
            let b : UInt8 ← packet[5]?
            let c : UInt8 ← packet[6]?
            let d : UInt8 ← packet[7]?
            let payload ← sliceOf packet offset (packet.length - padding)
            some (.ok
              { payloadType := type &&& 0x7f
                marker := type &&& 0x80 != 0
                timestamp := u32FromBe a b c d
                payload := payload })
          else some (.error (.upstream "RTP padding is invalid"))

/-- Behind the first check, `parse_rtp` is its three parts in turn. -/
theorem parseRtp_eq (packet : Bytes) :
    parseRtp packet =
      if packet.length < 12 ∨ packet.getD 0 0 >>> 6 ≠ 2 then
        .error (.upstream "media is not a valid RTP packet")
      else
        match payloadStart packet with
        | .error e => .error e
        | .ok offset =>
          match paddingLength packet with
          | .error e => .error e
          | .ok padding =>
            if padding ≤ packet.length ∧ offset ≤ packet.length - padding then
              .ok
                { payloadType := packet.getD 1 0 &&& 0x7f
                  marker := packet.getD 1 0 &&& 0x80 != 0
                  timestamp := u32FromBe (packet.getD 4 0) (packet.getD 5 0) (packet.getD 6 0)
                    (packet.getD 7 0)
                  payload := (packet.take (packet.length - padding)).drop offset }
            else .error (.upstream "RTP padding is invalid") := by
  have hcond : (packet.length < 12 || packet.getD 0 0 >>> 6 != 2) = true ↔
      packet.length < 12 ∨ packet.getD 0 0 >>> 6 ≠ 2 := by
    rw [Bool.or_eq_true, decide_eq_true_iff, bne_iff_ne]
  -- the two conditions say the same, and then both go case by case
  unfold parseRtp
  by_cases h : packet.length < 12 ∨ packet.getD 0 0 >>> 6 ≠ 2
  · rw [if_pos h, if_pos (hcond.2 h)]
  · rw [if_neg h, if_neg (hcond.not.2 h)]
    cases payloadStart packet with
    | error e => rfl
    | ok offset =>
      cases paddingLength packet with
      | error e => rfl
      | ok padding => rfl

theorem getElem?_getD {packet : Bytes} {i : ℕ} (h : i < packet.length) :
    packet[i]? = some (packet.getD i 0) := by
  rw [List.getD_eq_getElem?_getD, List.getElem?_eq_getElem h, Option.getD_some]

/-- No index is out of bounds in front of the payload. -/
theorem payloadStart_indexed {packet : Bytes} (hlen : 12 ≤ packet.length) :
    payloadStartIndexed packet = some (payloadStart packet) := by
  unfold payloadStartIndexed payloadStart
  rw [getElem?_getD (show 0 < packet.length by omega)]
  dsimp only [Option.bind_eq_bind, Option.bind_some]
  generalize packet.getD 0 0 = flags
  by_cases hcsrcs : 12 + (flags &&& 0x0f).toNat * 4 > packet.length
  · rw [if_pos hcsrcs, if_pos hcsrcs]
  rw [if_neg hcsrcs, if_neg hcsrcs]
  by_cases hflag : (flags &&& 0x10 != 0) = true
  · rw [if_pos hflag, if_pos hflag]
    by_cases hext : 12 + (flags &&& 0x0f).toNat * 4 + 4 > packet.length
    · rw [if_pos hext, if_pos hext]
    -- the extension header is there, so its length can be read
    rw [if_neg hext, if_neg hext, getElem?_getD (by omega), getElem?_getD (by omega)]
    dsimp only [Option.bind_eq_bind, Option.bind_some]
    split <;> rfl
  · rw [if_neg hflag, if_neg hflag]

/-- No index is out of bounds at the padding. -/
theorem paddingLength_indexed {packet : Bytes} (hlen : 12 ≤ packet.length) :
    paddingLengthIndexed packet = some (paddingLength packet) := by
  unfold paddingLengthIndexed paddingLength
  rw [getElem?_getD (show 0 < packet.length by omega)]
  dsimp only [Option.bind_eq_bind, Option.bind_some]
  split
  · rfl
  · cases packet.getLast? <;> rfl

/-- **No read is outside of the packet.** -/
theorem parseRtp_indexed (packet : Bytes) : parseRtpIndexed packet = some (parseRtp packet) := by
  rw [parseRtp_eq]
  unfold parseRtpIndexed
  by_cases hlen : packet.length < 12
  · rw [if_pos hlen, if_pos (Or.inl hlen)]
  have hget : ∀ i, i < 12 → packet[i]? = some (packet.getD i 0) :=
    fun i hi => getElem?_getD (hi.trans_le (Nat.le_of_not_lt hlen))
  rw [if_neg hlen, hget 0 (by decide), payloadStart_indexed (Nat.le_of_not_lt hlen),
    paddingLength_indexed (Nat.le_of_not_lt hlen)]
  dsimp only [Option.bind_eq_bind, Option.bind_some]
  by_cases hversion : packet.getD 0 0 >>> 6 ≠ 2
  · rw [if_pos (Or.inr hversion), if_pos (bne_iff_ne.2 hversion)]
  rw [if_neg (not_or.2 ⟨hlen, hversion⟩), if_neg (bne_iff_ne.not.2 hversion)]
  cases payloadStart packet with
  | error e => rfl
  | ok offset =>
    cases paddingLength packet with
    | error e => rfl
    | ok padding =>
      dsimp only
      split
      · next hvalid =>
        -- the payload is a slice as soon as the padding is found to be valid
        have hslice : sliceOf packet offset (packet.length - padding) =
            some ((packet.take (packet.length - padding)).drop offset) :=
          if_pos ⟨hvalid.2, Nat.sub_le _ _⟩
        rw [hget 1 (by decide), hget 4 (by decide), hget 5 (by decide), hget 6 (by decide),
          hget 7 (by decide), hslice]
        rfl
      · rfl

/-! ### Everything that is put together is read back -/

namespace RtpHeader

variable (header : RtpHeader) (payload : Bytes)

/-- What the flags byte says. -/
theorem flags_bits (padded extended : Bool) (csrcs : UInt8) (h : csrcs < 16) :
    flags padded extended csrcs >>> 6 = 2 ∧ flags padded extended csrcs &&& 0x0f = csrcs ∧
      (flags padded extended csrcs &&& 0x10 != 0) = extended ∧
      (flags padded extended csrcs &&& 0x20 == 0) = !padded := by
  revert csrcs
  cases padded <;> cases extended <;> decide +kernel

theorem typeByte_bits (payloadType : UInt8) (marker : Bool) (h : payloadType < 128) :
    typeByte payloadType marker &&& 0x7f = payloadType ∧
      (typeByte payloadType marker &&& 0x80 != 0) = marker := by
  revert payloadType
  cases marker <;> decide +kernel

/-- The number of CSRC words fits its four bits. -/
theorem csrcs_lt : UInt8.ofNat header.csrcs.length < 16 ∧
    (UInt8.ofNat header.csrcs.length).toNat = header.csrcs.length := by
  have hle := header.csrcs_le
  have hnat : (UInt8.ofNat header.csrcs.length).toNat = header.csrcs.length := by
    rw [UInt8.toNat_ofNat']
    exact Nat.mod_eq_of_lt (by omega)
  refine ⟨UInt8.lt_iff_toNat_lt.mpr ?_, hnat⟩
  rw [hnat]
  exact Nat.lt_succ_of_le hle

/-- A word has four bytes. -/
theorem length_words (values : List UInt32) : (words values).length = values.length * 4 := by
  induction values with
  | nil => rfl
  | cons value values ih =>
    rw [words, List.flatMap_cons, List.length_append, ← words, ih, length_u32ToBe, List.length_cons]
    omega

/-- The header in front of the extension. -/
def front : Bytes := header.fixed ++ words header.csrcs

/-- The fixed header and the contributing sources. -/
theorem length_front : header.front.length = 12 + header.csrcs.length * 4 := by
  rw [front, List.length_append, length_words]
  rfl

theorem assemble_eq : header.assemble payload =
    header.front ++ (header.extensionBytes ++ (payload ++ header.paddingBytes)) := by
  simp only [assemble, front, List.append_assoc]

theorem getD_assemble_zero : (header.assemble payload).getD 0 0 =
    flags header.padding.isSome header.extension.isSome (.ofNat header.csrcs.length) := rfl

/-- The payload starts behind the header and the extension. -/
theorem payloadStart_assemble :
    payloadStart (header.assemble payload) =
      .ok (header.front.length + header.extensionBytes.length) := by
  obtain ⟨hlt, hnat⟩ := header.csrcs_lt
  obtain ⟨-, hcount, hflag, -⟩ := flags_bits header.padding.isSome header.extension.isSome _ hlt
  have hlen : (header.assemble payload).length = header.front.length +
      (header.extensionBytes.length + (payload.length + header.paddingBytes.length)) := by
    rw [assemble_eq, List.length_append, List.length_append, List.length_append]
  unfold payloadStart
  dsimp only
  rw [getD_assemble_zero, hcount, hflag, hnat, ← length_front, if_neg (by omega)]
  -- with an extension or without
  cases hext : header.extension with
  | none =>
    have hnone : header.extensionBytes = [] := by
      rw [extensionBytes, hext]
    rw [hnone]
    rfl
  | some ext =>
    obtain ⟨profile, values⟩ := ext
    have hsome : header.extensionBytes =
        u16ToBe profile ++ u16ToBe (.ofNat values.length) ++ words values := by
      rw [extensionBytes, hext]
    have hextLen : header.extensionBytes.length = 4 + values.length * 4 := by
      rw [hsome, List.length_append, length_words]
      rfl
    -- the length of the extension stands behind its profile word
    have hread : ∀ i byte, (u16ToBe profile ++ u16ToBe (.ofNat values.length))[i]? = some byte →
        (header.assemble payload).getD (header.front.length + i) 0 = byte := by
      intro i byte hbyte
      obtain ⟨hi, -⟩ := List.getElem?_eq_some_iff.mp hbyte
      rw [assemble_eq, List.getD_eq_getElem?_getD,
        List.getElem?_append_right (Nat.le_add_right _ _), Nat.add_sub_cancel_left, hsome,
        List.append_assoc, List.getElem?_append_left hi, hbyte, Option.getD_some]
    rw [hread 2 _ rfl, hread 3 _ rfl, u16FromBe_toBe]
    have hvalues : (UInt16.ofNat values.length).toNat = values.length := by
      rw [UInt16.toNat_ofNat']
      exact Nat.mod_eq_of_lt (header.extension_lt _ hext)
    rw [if_pos (show (some (profile, values)).isSome from rfl), if_neg (by omega), hvalues,
      if_neg (by omega), hextLen]
    congr 1
    omega

/-- The padding is the one that was appended. -/
theorem paddingLength_assemble :
    paddingLength (header.assemble payload) = .ok header.paddingBytes.length := by
  obtain ⟨-, -, -, hflag⟩ :=
    flags_bits header.padding.isSome header.extension.isSome _ header.csrcs_lt.1
  unfold paddingLength
  rw [getD_assemble_zero, hflag]
  -- with padding or without
  cases hpad : header.padding with
  | none =>
    have hnone : header.paddingBytes = [] := by
      rw [paddingBytes, hpad]
    rw [hnone]
    rfl
  | some filler =>
    have hsome : header.paddingBytes = filler ++ [.ofNat (filler.length + 1)] := by
      rw [paddingBytes, hpad]
    have hlast : (header.assemble payload).getLast? = some (.ofNat (filler.length + 1)) := by
      rw [assemble, hsome, ← List.append_assoc, List.getLast?_concat]
    have hcount : (UInt8.ofNat (filler.length + 1)).toNat = filler.length + 1 := by
      rw [UInt8.toNat_ofNat']
      exact Nat.mod_eq_of_lt (Nat.succ_lt_succ (header.padding_lt filler hpad))
    rw [hlast, hsome, List.length_append, List.length_singleton]
    exact congrArg Except.ok hcount

/-- **What is put together is read back.** -/
theorem parseRtp_assemble :
    parseRtp (header.assemble payload) =
      .ok ⟨header.payloadType, header.marker, header.timestamp, payload⟩ := by
  obtain ⟨hversion, -⟩ :=
    flags_bits header.padding.isSome header.extension.isSome _ header.csrcs_lt.1
  obtain ⟨htype, hmarker⟩ := typeByte_bits _ header.marker header.payloadType_lt
  have hbody : header.assemble payload =
      header.front ++ header.extensionBytes ++ payload ++ header.paddingBytes := by
    rw [assemble_eq, List.append_assoc, List.append_assoc]
  have hlen := congrArg List.length hbody
  rw [List.length_append, List.length_append, List.length_append] at hlen
  have hfront := header.length_front
  have hvalid : ¬ ((header.assemble payload).length < 12 ∨
      (header.assemble payload).getD 0 0 >>> 6 ≠ 2) := by
    rw [getD_assemble_zero, hversion]
    exact not_or.2 ⟨by omega, fun hne => hne rfl⟩
  rw [parseRtp_eq, if_neg hvalid, payloadStart_assemble, paddingLength_assemble]
  dsimp only
  rw [if_pos ⟨by omega, by omega⟩]
  -- the padding is cut off, and then what stands in front
  have hpayload : ((header.assemble payload).take
      ((header.assemble payload).length - header.paddingBytes.length)).drop
        (header.front.length + header.extensionBytes.length) = payload := by
    rw [hlen, Nat.add_sub_cancel, hbody, ← List.length_append, ← List.length_append, List.take_left,
      List.drop_left]
  have htypeByte : (header.assemble payload).getD 1 0 =
      typeByte header.payloadType header.marker := rfl
  have htimestamp : u32FromBe ((header.assemble payload).getD 4 0)
      ((header.assemble payload).getD 5 0) ((header.assemble payload).getD 6 0)
      ((header.assemble payload).getD 7 0) = header.timestamp := u32FromBe_toBe header.timestamp
  rw [hpayload, htypeByte, htype, hmarker, htimestamp]

end RtpHeader

/-! ### Nothing else is accepted -/

/-- An accepted packet, taken apart: the fixed header, the CSRC words, the extension if its bit is
set, the payload, and the padding of which the last byte is the length, if its bit is set. -/
structure Splits (packet : Bytes) (rtp : RtpPacket) : Prop where
  version : packet.getD 0 0 >>> 6 = 2
  type : rtp.payloadType = packet.getD 1 0 &&& 0x7f
  marker : rtp.marker = (packet.getD 1 0 &&& 0x80 != 0)
  timestamp : rtp.timestamp = u32FromBe (packet.getD 4 0) (packet.getD 5 0) (packet.getD 6 0)
    (packet.getD 7 0)
  parts : ∃ fixed csrcs extension padding : Bytes,
    packet = fixed ++ csrcs ++ extension ++ rtp.payload ++ padding ∧ fixed.length = 12 ∧
    csrcs.length = 4 * (packet.getD 0 0 &&& 0x0f).toNat ∧
    (if packet.getD 0 0 &&& 0x10 != 0 then
      4 ≤ extension.length ∧ extension.length =
        4 + 4 * (u16FromBe (extension.getD 2 0) (extension.getD 3 0)).toNat
    else extension = []) ∧
    if packet.getD 0 0 &&& 0x20 != 0 then packet.getLast?.map (·.toNat) = some padding.length
    else padding = []

/-- What is in front of the payload. -/
theorem payloadStart_ok {packet : Bytes} {offset : ℕ} (h : payloadStart packet = .ok offset) :
    let csrcs := 12 + (packet.getD 0 0 &&& 0x0f).toNat * 4
    offset ≤ packet.length ∧
      if packet.getD 0 0 &&& 0x10 != 0 then
        offset = csrcs + 4 +
          (u16FromBe (packet.getD (csrcs + 2) 0) (packet.getD (csrcs + 3) 0)).toNat * 4
      else offset = csrcs := by
  unfold payloadStart at h
  dsimp only at h ⊢
  -- the sources fit, and then the flag tells whether there is an extension
  split at h
  · cases h
  · next hcsrcs =>
    split at h
    · next hflag =>
      rw [if_pos hflag]
      split at h
      · cases h
      · split at h
        · cases h
        · next hext =>
          cases h
          exact ⟨Nat.le_of_not_lt hext, rfl⟩
    · next hflag =>
      rw [if_neg hflag]
      cases h
      exact ⟨Nat.le_of_not_lt hcsrcs, rfl⟩

theorem take_append_slice (packet : Bytes) {start stop : ℕ} (h : start ≤ stop) :
    packet.take start ++ (packet.take stop).drop start = packet.take stop := by
  have htake : packet.take start = (packet.take stop).take start := by
    rw [List.take_take, Nat.min_eq_left h]
  rw [htake, List.take_append_drop]

theorem getD_slice (packet : Bytes) {start stop i : ℕ} (h : start + i < stop) :
    ((packet.take stop).drop start).getD i 0 = packet.getD (start + i) 0 := by
  rw [List.getD_eq_getElem?_getD, List.getElem?_drop, List.getElem?_take_of_lt h,
    List.getD_eq_getElem?_getD]

/-- The padding is counted by the last byte, if its bit is set. -/
theorem paddingLength_ok {packet : Bytes} {padding : ℕ} (h : paddingLength packet = .ok padding) :
    if packet.getD 0 0 &&& 0x20 != 0 then packet.getLast?.map (·.toNat) = some padding
    else padding = 0 := by
  unfold paddingLength at h
  rw [bne]
  -- the last byte is read only if the flag is set
  split at h
  · next hflag =>
    cases h
    rw [hflag, if_neg (by decide)]
  · next hflag =>
    rw [Bool.not_eq_true] at hflag
    rw [hflag, if_pos (by decide)]
    split at h
    · next last hlast =>
      cases h
      rw [hlast]
      rfl
    · cases h

/-- What an accepted packet has passed. -/
theorem parseRtp_ok {packet : Bytes} {rtp : RtpPacket} (h : parseRtp packet = .ok rtp) :
    12 ≤ packet.length ∧ packet.getD 0 0 >>> 6 = 2 ∧ ∃ offset padding,
      payloadStart packet = .ok offset ∧ paddingLength packet = .ok padding ∧
      padding ≤ packet.length ∧ offset ≤ packet.length - padding ∧
      rtp =
        { payloadType := packet.getD 1 0 &&& 0x7f
          marker := packet.getD 1 0 &&& 0x80 != 0
          timestamp := u32FromBe (packet.getD 4 0) (packet.getD 5 0) (packet.getD 6 0)
            (packet.getD 7 0)
          payload := (packet.take (packet.length - padding)).drop offset } := by
  rw [parseRtp_eq] at h
  -- the first check, and then the two lengths
  split at h
  · cases h
  · next hvalid =>
    obtain ⟨hlen, hversion⟩ := not_or.mp hvalid
    refine ⟨Nat.le_of_not_lt hlen, not_not.mp hversion, ?_⟩
    cases hstart : payloadStart packet with
    | error e =>
      rw [hstart] at h
      cases h
    | ok offset =>
      cases hpad : paddingLength packet with
      | error e =>
        rw [hstart, hpad] at h
        cases h
      | ok padding =>
        rw [hstart, hpad] at h
        dsimp only at h
        split at h
        · next hfits =>
          exact ⟨offset, padding, rfl, rfl, hfits.1, hfits.2, (Except.ok.inj h).symm⟩
        · cases h

/-- **An accepted packet splits** into its parts. -/
theorem splits_of_parseRtp {packet : Bytes} {rtp : RtpPacket} (h : parseRtp packet = .ok rtp) :
    Splits packet rtp := by
  obtain ⟨hlen, hversion, offset, padding, hstart, hpad, hpadding, hfits, rfl⟩ := parseRtp_ok h
  obtain ⟨hoffset, hext⟩ := payloadStart_ok hstart
  refine ⟨hversion, rfl, rfl, rfl, ?_⟩
  -- the end of the CSRC words, where the extension starts
  generalize hcsrcs : 12 + (packet.getD 0 0 &&& 0x0f).toNat * 4 = csrcs at hext
  have hle : csrcs ≤ offset := by
    split at hext <;> omega
  refine ⟨packet.take 12, (packet.take csrcs).drop 12, (packet.take offset).drop csrcs,
    packet.drop (packet.length - padding), ?_, ?_, ?_, ?_, ?_⟩
  · -- the parts follow one another
    rw [take_append_slice packet (by omega), take_append_slice packet hle,
      take_append_slice packet hfits, List.take_append_drop]
  · exact List.length_take_of_le hlen
  · rw [List.length_drop, List.length_take_of_le (hle.trans hoffset)]
    omega
  · have hlength : ((packet.take offset).drop csrcs).length = offset - csrcs := by
      rw [List.length_drop, List.length_take_of_le hoffset]
    split at hext
    · next hflag =>
      rw [if_pos hflag, hlength, getD_slice packet (by omega), getD_slice packet (by omega)]
      constructor <;> omega
    · next hflag =>
      rw [if_neg hflag, hext]
      exact List.drop_eq_nil_of_le (List.length_take_le _ _)
  · have hlast := paddingLength_ok hpad
    rw [List.length_drop, Nat.sub_sub_self hpadding]
    split at hlast
    · next hflag =>
      rw [if_pos hflag]
      exact hlast
    · next hflag =>
      rw [if_neg hflag, hlast]
      exact List.drop_eq_nil_of_le (Nat.le_refl _)

/-- **RTP header parsing is exact.** What a sender puts together is read back; no read is outside of
the packet, whatever it is; and an accepted packet splits into the parts that its header announces
and is not taken for a container of another format. -/
theorem parseRtp_exact :
    (∀ (header : RtpHeader) (payload : Bytes), parseRtp (header.assemble payload) =
      .ok ⟨header.payloadType, header.marker, header.timestamp, payload⟩) ∧
    (∀ packet, parseRtpIndexed packet = some (parseRtp packet)) ∧
    ∀ packet rtp, parseRtp packet = .ok rtp →
      Splits packet rtp ∧ rejectNonRtpContainer packet = .ok () :=
  ⟨RtpHeader.parseRtp_assemble, parseRtp_indexed, fun _ _ h =>
    ⟨splits_of_parseRtp h, RtpVideo.rejectNonRtpContainer_of_parseRtp h⟩⟩

/-- A packet with a CSRC word, an extension of one word and four bytes of padding. -/
def fullPacket : Bytes :=
  [0xb1, 96, 0, 1, 0, 0, 0, 0, 0, 0, 0, 0, 0, 0, 0, 0, 0xbe, 0xde, 0, 1, 1, 2, 3, 4, 0x40, 1,
    0, 0, 0, 4]

/-- A packet with everything in it. -/
theorem parseRtp_exact_sample : Splits fullPacket ⟨96, false, 0, [0x40, 1]⟩ :=
  (parseRtp_exact.2.2 fullPacket ⟨96, false, 0, [0x40, 1]⟩ rfl).1

end EzvizBridge
