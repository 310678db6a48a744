import EzvizBridge.Transport.Depacketize

/-!
# RTP payload formats

How a sender puts a list of NALs into RTP payloads (RFC 6184 for H.264, RFC 7798 for HEVC): a NAL
goes out whole, together with others in an aggregate, or cut into fragments. `Packetized` is one
such choice and `sentPayloads` what is sent for a list of them, each payload with the NALs that it
completes. The bytes that the formats leave to the sender are left open here as well: the header of
an aggregate beyond its type, and where a NAL is cut, empty pieces included.

The depacketizer is the inverse: over the payloads of a well-formed stream `completions` is the list
of completed NALs, unless a fragmented NAL is beyond the bound of the fragment buffer
(`completions_sent`).
-/

namespace EzvizBridge

/-! ### The sender -/

/-- The payload type of an aggregate: STAP-A, AP. -/
def VideoCodec.aggregateType : VideoCodec → UInt8
  | .h264 => 24
  | .hevc => 48

/-- The payload type of a fragment: FU-A, FU. -/
def VideoCodec.fragmentType : VideoCodec → UInt8
  | .h264 => 28
  | .hevc => 49

/-- A NAL with its header, of a type that the payload format does not use itself. -/
def VideoCodec.carries (codec : VideoCodec) (nal : Bytes) : Bool :=
  codec.complete nal &&
    match codec with
    | .h264 => 1 ≤ codec.nalType (nal.getD 0 0) && codec.nalType (nal.getD 0 0) ≤ 23
    | .hevc => codec.nalType (nal.getD 0 0) < 48 || 50 < codec.nalType (nal.getD 0 0)

/-- One choice of the sender. -/
inductive Packetized
  /-- A NAL as it is. -/
  | single (nal : Bytes)
  /-- NALs behind one payload header, each after its length. -/
  | aggregate (head : Bytes) (nals : List Bytes)
  /-- A NAL whose body is cut into pieces. -/
  | fragmented (nal : Bytes) (pieces : List Bytes)
  deriving DecidableEq, Repr

/-- A payload on its way, the NALs it completes, and whether it begins a NAL or an aggregate. -/
structure SentPayload where
  payload : Bytes
  completes : List Bytes
  begins : Bool
  deriving DecidableEq, Repr

namespace Packetized

/-- The NALs that are sent. -/
def nals : Packetized → List Bytes
  | single nal => [nal]
  | aggregate _ nals => nals
  | fragmented nal _ => [nal]

/-- What the payload formats ask of a sender. -/
def WellFormed (codec : VideoCodec) : Packetized → Prop
  | single nal => codec.carries nal
  | aggregate head nals => head.length = codec.header ∧
      codec.nalType (head.getD 0 0) = codec.aggregateType ∧
      ∀ nal ∈ nals, codec.carries nal ∧ nal.length ≤ 65535
  | fragmented nal pieces => codec.carries nal ∧ 2 ≤ pieces.length ∧
      pieces.flatten = nal.drop codec.header

instance (codec : VideoCodec) : DecidablePred (WellFormed codec)
  | single nal => inferInstanceAs (Decidable (codec.carries nal = true))
  | aggregate head nals => inferInstanceAs (Decidable (head.length = codec.header ∧
      codec.nalType (head.getD 0 0) = codec.aggregateType ∧
      ∀ nal ∈ nals, codec.carries nal = true ∧ nal.length ≤ 65535))
  | fragmented nal pieces => inferInstanceAs (Decidable (codec.carries nal = true ∧
      2 ≤ pieces.length ∧ pieces.flatten = nal.drop codec.header))

/-- A fragmented NAL is within the bound of the fragment buffer. -/
def Fits : Packetized → Prop
  | fragmented nal _ => nal.length ≤ RtpNalDecryptor.maxFragmentBytes
  | _ => True

instance : DecidablePred Fits
  | single _ => .isTrue trivial
  | aggregate _ _ => .isTrue trivial
  | fragmented nal _ => inferInstanceAs (Decidable (nal.length ≤ _))

/-- The units of an aggregate: the length of each NAL in two bytes, and the NAL. -/
def aggregateUnits (nals : List Bytes) : Bytes :=
  nals.flatMap fun nal => u16ToBe (.ofNat nal.length) ++ nal

/-- The payload header of a fragment: that of the NAL, under the type of a fragment. -/
def fragmentHead (codec : VideoCodec) (nal : Bytes) : Bytes :=
  match codec with
  | .h264 => [(nal.getD 0 0 &&& 0xe0) ||| 28]
  | .hevc => [nal.getD 0 0 &&& (0x81 : UInt8) ||| (49 : UInt8) <<< 1, nal.getD 1 0]

/-- The FU header: the start bit, the end bit and the type of the NAL. -/
def fuHeader (codec : VideoCodec) (nal : Bytes) (start ended : Bool) : UInt8 :=
  (if start then 0x80 else 0) ||| (if ended then 0x40 else 0) ||| codec.nalType (nal.getD 0 0)

def fragment (codec : VideoCodec) (nal : Bytes) (start ended : Bool) (piece : Bytes) : Bytes :=
  fragmentHead codec nal ++ fuHeader codec nal start ended :: piece

/-- The fragments behind the first one; the last completes the NAL. -/
def laterFragments (codec : VideoCodec) (nal : Bytes) : List Bytes → List SentPayload
  | [] => []
  | [piece] => [⟨fragment codec nal false true piece, [nal], false⟩]
  | piece :: pieces => ⟨fragment codec nal false false piece, [], false⟩ ::
      laterFragments codec nal pieces

/-- What is sent for one choice. -/
def payloads (codec : VideoCodec) : Packetized → List SentPayload
  | single nal => [⟨nal, [nal], true⟩]
  | aggregate head nals => [⟨head ++ aggregateUnits nals, nals, true⟩]
  | fragmented _ [] => []
  | fragmented nal (piece :: pieces) => ⟨fragment codec nal true false piece, [], true⟩ ::
      laterFragments codec nal pieces

end Packetized

/-- What is sent for a stream. -/
def sentPayloads (codec : VideoCodec) (stream : List Packetized) : List SentPayload :=
  stream.flatMap (Packetized.payloads codec)

/-! ### The receiver, one payload at a time -/

section Payload

variable {codec : VideoCodec} {nal : Bytes} {fragment : Option Bytes}

/-- The start bit, the end bit and the type can be read off an FU header. -/
theorem fuHeader_bits (kind : UInt8) (start ended : Bool) (h : kind &&& 0xc0 = 0) :
    let fu := (if start then 0x80 else 0) ||| (if ended then 0x40 else 0) ||| kind
    (fu &&& 0x80 != 0) = start ∧ (fu &&& 0x40 != 0) = ended ∧ fu &&& 0x3f = kind := by
  revert kind
  cases start <;> cases ended <;> decide +kernel

theorem nalType_bits (codec : VideoCodec) (first : UInt8) : codec.nalType first &&& 0xc0 = 0 := by
  revert first
  cases codec <;> decide +kernel

/-- The header byte of an H.264 NAL, from the indicator and the FU header of its first fragment. -/
theorem h264Header_rebuilt (first : UInt8) :
    ((first &&& 0xe0 ||| 28) &&& 0xe0) ||| (first &&& 0x1f) = first ∧
      (first &&& 0xe0 ||| 28) &&& 0x1f = 28 := by
  revert first
  decide +kernel

/-- The first header byte of an HEVC NAL, from the payload header and the FU header. -/
theorem hevcHeader_rebuilt (first : UInt8) :
    let head := first &&& (0x81 : UInt8) ||| (49 : UInt8) <<< 1
    head &&& (0x81 : UInt8) ||| (first >>> 1 &&& (0x3f : UInt8)) <<< 1 = first ∧
      head >>> 1 &&& 0x3f = 49 := by
  revert first
  decide +kernel

/-- **A single NAL** is completed by its payload. -/
theorem depacketize_single (h : codec.carries nal) :
    depacketize codec fragment nal = some ([nal], fragment) := by
  unfold VideoCodec.carries at h
  cases codec with
  | h264 =>
    cases nal with
    | nil => simp [VideoCodec.complete, VideoCodec.header] at h
    | cons first rest =>
      have hle : first &&& 0x1f ≤ 23 := by
        simp only [VideoCodec.nalType, List.getD_cons_zero, Bool.and_eq_true,
          decide_eq_true_eq] at h
        exact h.2.2
      -- neither a fragment nor an aggregate
      have hfu : first &&& 0x1f ≠ 28 := fun heq => absurd (heq ▸ hle) (by decide)
      have hagg : first &&& 0x1f ≠ 24 := fun heq => absurd (heq ▸ hle) (by decide)
      simp only [depacketize, if_neg hfu, if_neg hagg]
  | hevc =>
    rcases nal with _ | ⟨first, _ | ⟨second, rest⟩⟩
    · simp [VideoCodec.complete, VideoCodec.header] at h
    · simp [VideoCodec.complete, VideoCodec.header] at h
    · have htype : first >>> 1 &&& 0x3f < 48 ∨ (50 : UInt8) < first >>> 1 &&& 0x3f := by
        simpa [VideoCodec.nalType, VideoCodec.complete, VideoCodec.header] using h
      have hfu : first >>> 1 &&& 0x3f ≠ 49 := fun heq => by
        rw [heq] at htype
        exact absurd htype (by decide)
      have hagg : first >>> 1 &&& 0x3f ≠ 48 := fun heq => by
        rw [heq] at htype
        exact absurd htype (by decide)
      simp only [depacketize, if_neg hfu, if_neg hagg]

/-- The units of an aggregate are split where they were put together. -/
theorem splitAggregate_units {nals : List Bytes}
    (h : ∀ nal ∈ nals, nal ≠ [] ∧ nal.length ≤ 65535) {fuel : ℕ}
    (hfuel : (Packetized.aggregateUnits nals).length ≤ fuel) :
    splitAggregate fuel (Packetized.aggregateUnits nals) = some nals := by
  induction nals generalizing fuel with
  | nil => cases fuel <;> rfl
  | cons nal nals ih =>
    obtain ⟨hne, hle⟩ := h nal List.mem_cons_self
    have hunits : Packetized.aggregateUnits (nal :: nals) =
        (UInt16.ofNat nal.length >>> 8).toUInt8 :: (UInt16.ofNat nal.length).toUInt8 ::
          (nal ++ Packetized.aggregateUnits nals) := rfl
    rw [hunits, List.length_cons, List.length_cons, List.length_append] at hfuel
    obtain ⟨fuel, rfl⟩ : ∃ n, fuel = n + 1 := ⟨fuel - 1, by omega⟩
    -- the length in front is that of the NAL
    have hsize : (u16FromBe (UInt16.ofNat nal.length >>> 8).toUInt8
        (UInt16.ofNat nal.length).toUInt8).toNat = nal.length := by
      rw [u16FromBe_toBe, UInt16.toNat_ofNat']
      exact Nat.mod_eq_of_lt (by omega)
    have hpos := List.length_pos_iff.mpr hne
    have hvalid :
        ¬ (nal.length = 0 ∨ nal.length > (nal ++ Packetized.aggregateUnits nals).length) := by
      rw [List.length_append]
      omega
    rw [hunits, splitAggregate, hsize, if_neg hvalid, List.drop_left, List.take_left,
      ih (fun nal hnal => h nal (List.mem_cons_of_mem _ hnal)) (by omega), Option.map_some]

theorem ne_nil_of_carries (h : codec.carries nal) : nal ≠ [] := by
  rintro rfl
  cases codec <;> simp [VideoCodec.carries, VideoCodec.complete, VideoCodec.header] at h

/-- **An aggregate** completes its NALs and leaves the fragment alone. -/
theorem depacketize_aggregate {head : Bytes} {nals : List Bytes} (hlen : head.length = codec.header)
    (htype : codec.nalType (head.getD 0 0) = codec.aggregateType)
    (h : ∀ nal ∈ nals, codec.carries nal ∧ nal.length ≤ 65535) :
    depacketize codec fragment (head ++ Packetized.aggregateUnits nals) =
      some (nals, fragment) := by
  have hsplit := @splitAggregate_units nals
    (fun nal hnal => ⟨ne_nil_of_carries (h nal hnal).1, (h nal hnal).2⟩) _ (Nat.le_refl _)
  cases codec with
  | h264 =>
    obtain ⟨first, rfl⟩ := List.length_eq_one_iff.mp hlen
    have hagg : first &&& 0x1f = 24 := htype
    have hfu : first &&& 0x1f ≠ 28 := by
      rw [hagg]
      decide
    simp only [List.singleton_append, depacketize, if_neg hfu, if_pos hagg, hsplit, Option.map_some]
  | hevc =>
    obtain ⟨first, second, rfl⟩ := List.length_eq_two.mp hlen
    have hagg : first >>> 1 &&& 0x3f = 48 := htype
    have hfu : first >>> 1 &&& 0x3f ≠ 49 := by
      rw [hagg]
      decide
    simp only [List.cons_append, List.nil_append, depacketize, if_neg hfu, if_pos hagg, hsplit,
      Option.map_some]

/-- A fragment goes to the fragment buffer with the NAL header that it carries. -/
theorem depacketize_fuHeader (h : codec.complete nal) (start ended : Bool) (piece : Bytes) :
    depacketize codec fragment (Packetized.fragment codec nal start ended piece) =
      joinFragment fragment (Packetized.fuHeader codec nal start ended) (nal.take codec.header)
        piece := by
  obtain ⟨-, -, hkind⟩ := fuHeader_bits _ start ended (nalType_bits codec (nal.getD 0 0))
  cases codec with
  | h264 =>
    match nal with
    | [] => simp [VideoCodec.complete, VideoCodec.header] at h
    | first :: rest =>
      -- the NAL header is split over two bytes
      obtain ⟨hheader, htype⟩ := h264Header_rebuilt first
      have hfu : Packetized.fuHeader .h264 (first :: rest) start ended &&& 0x1f =
          first &&& 0x1f := by
        have hmask : ∀ fu : UInt8, fu &&& 0x1f = fu &&& 0x3f &&& 0x1f := by decide +kernel
        have hsame : ∀ first : UInt8, first &&& 0x1f &&& 0x1f = first &&& 0x1f := by decide +kernel
        rw [hmask]
        exact (congrArg (· &&& (0x1f : UInt8)) hkind).trans (hsame first)
      simp only [Packetized.fragment, Packetized.fragmentHead, List.getD_cons_zero,
        List.singleton_append, depacketize, if_pos htype, hfu, hheader]
      rfl
  | hevc =>
    match nal with
    | [] => simp [VideoCodec.complete, VideoCodec.header] at h
    | [_] => simp [VideoCodec.complete, VideoCodec.header] at h
    | first :: second :: rest =>
      obtain ⟨hheader, htype⟩ := hevcHeader_rebuilt first
      have hfu : Packetized.fuHeader .hevc (first :: second :: rest) start ended &&&
          (0x3f : UInt8) =
          first >>> 1 &&& (0x3f : UInt8) := hkind
      simp only [Packetized.fragment, Packetized.fragmentHead, List.getD_cons_zero,
        List.getD_cons_succ, List.cons_append, List.nil_append, depacketize, if_pos htype, hfu,
        hheader]
      rfl

/-- **A fragment** is joined to the NAL header, if it is the first, or to what is there already. -/
theorem depacketize_fragment (h : codec.complete nal) (start ended : Bool) (piece : Bytes) :
    depacketize codec fragment (Packetized.fragment codec nal start ended piece) =
      match if start then some (nal.take codec.header) else fragment with
      | some front =>
        if (front ++ piece).length > RtpNalDecryptor.maxFragmentBytes then none
        else if ended then some ([front ++ piece], none)
        else some ([], some (front ++ piece))
      | none => if ended then none else some ([], none) := by
  obtain ⟨hstart, hended, -⟩ := fuHeader_bits _ start ended (nalType_bits codec (nal.getD 0 0))
  change (Packetized.fuHeader codec nal start ended &&& 0x80 != 0) = start at hstart
  change (Packetized.fuHeader codec nal start ended &&& 0x40 != 0) = ended at hended
  rw [depacketize_fuHeader h, joinFragment, hstart, hended]
  rfl

end Payload

/-! ### The receiver, along a stream -/

/-- The NALs that each payload of a sequence completes. -/
def completions (codec : VideoCodec) : Option Bytes → List Bytes → Option (List (List Bytes))
  | _, [] => some []
  | fragment, payload :: payloads =>
    match depacketize codec fragment payload with
    | none => none
    | some (nals, fragment) => (completions codec fragment payloads).map (nals :: ·)

/-- The NAL packets of a session are its packets with the completions of their payloads. -/
theorem nalPackets_eq (codec : VideoCodec) (fragment : Option Bytes) (rtps : List RtpPacket) :
    nalPackets codec fragment rtps =
      (completions codec fragment (rtps.map (·.payload))).map
        (List.zipWith (fun rtp nals => ⟨rtp.timestamp, rtp.marker, nals⟩) rtps) := by
  induction rtps generalizing fragment with
  | nil => rfl
  | cons rtp rtps ih =>
    rw [List.map_cons, nalPackets, completions]
    cases depacketize codec fragment rtp.payload with
    | none => rfl
    | some step =>
      dsimp only
      rw [ih, Option.map_map, Option.map_map]
      rfl

section Stream

variable {codec : VideoCodec}

theorem completions_cons {fragment fragment' : Option Bytes} {payload : Bytes} {nals : List Bytes}
    (h : depacketize codec fragment payload = some (nals, fragment')) (payloads : List Bytes) :
    completions codec fragment (payload :: payloads) =
      (completions codec fragment' payloads).map (nals :: ·) := by
  rw [completions, h]

/-- **The fragments behind the first one** complete the NAL if it is within the bound, and are
refused if it is not. -/
theorem completions_laterFragments {nal : Bytes} (hnal : codec.complete nal) {pieces : List Bytes}
    (hne : pieces ≠ []) {front : Bytes} (hfront : front ++ pieces.flatten = nal)
    (rest : List Bytes) :
    completions codec (some front)
        ((Packetized.laterFragments codec nal pieces).map (·.payload) ++ rest) =
      if nal.length ≤ RtpNalDecryptor.maxFragmentBytes then
        (completions codec none rest).map
          ((Packetized.laterFragments codec nal pieces).map (·.completes) ++ ·)
      else none := by
  induction pieces generalizing front with
  | nil => exact absurd rfl hne
  | cons piece pieces ih =>
    -- what has been joined so far is no longer than the NAL
    have hle : (front ++ piece).length ≤ nal.length := by
      rw [List.flatten_cons, ← List.append_assoc] at hfront
      exact (List.prefix_append _ _).length_le.trans_eq (congrArg List.length hfront)
    cases pieces with
    | nil =>
      rw [List.flatten_singleton] at hfront
      have hstep := @depacketize_fragment codec nal (some front) hnal false true piece
      simp only [Bool.false_eq_true, if_false, if_true, hfront] at hstep
      by_cases hfits : nal.length ≤ RtpNalDecryptor.maxFragmentBytes
      · rw [if_neg (Nat.not_lt.mpr hfits)] at hstep
        rw [if_pos hfits]
        exact completions_cons hstep rest
      · rw [if_pos (Nat.lt_of_not_le hfits)] at hstep
        rw [if_neg hfits]
        change completions codec (some front)
          (Packetized.fragment codec nal false true piece :: rest) = none
        rw [completions, hstep]
    | cons next pieces =>
      have hstep := @depacketize_fragment codec nal (some front) hnal false false piece
      simp only [Bool.false_eq_true, if_false] at hstep
      have hmore := ih (List.cons_ne_nil next pieces)
        (by rw [List.append_assoc, ← List.flatten_cons]; exact hfront)
      change completions codec (some front) (Packetized.fragment codec nal false false piece ::
        ((Packetized.laterFragments codec nal (next :: pieces)).map (·.payload) ++ rest)) = _
      by_cases hbound : (front ++ piece).length > RtpNalDecryptor.maxFragmentBytes
      · rw [if_pos hbound] at hstep
        rw [if_neg (by omega), completions, hstep]
      · rw [if_neg hbound] at hstep
        rw [completions_cons hstep, hmore]
        split
        · rw [Option.map_map]
          rfl
        · rfl

/-- **One choice of the sender**, between NALs. -/
theorem completions_payloads {choice : Packetized} (h : choice.WellFormed codec)
    (rest : List Bytes) :
    completions codec none ((choice.payloads codec).map (·.payload) ++ rest) =
      if choice.Fits then
        (completions codec none rest).map ((choice.payloads codec).map (·.completes) ++ ·)
      else none := by
  match choice, h with
  | .single nal, h =>
    rw [if_pos (show (Packetized.single nal).Fits from trivial)]
    exact completions_cons (depacketize_single h) rest
  | .aggregate head nals, ⟨hlen, htype, hnals⟩ =>
    rw [if_pos (show (Packetized.aggregate head nals).Fits from trivial)]
    exact completions_cons (depacketize_aggregate hlen htype hnals) rest
  | .fragmented nal (piece :: pieces), ⟨hnal, htwo, hflat⟩ =>
    have hcomplete : codec.complete nal := (Bool.and_eq_true_iff.mp hnal).1
    have hne : pieces ≠ [] := by
      rintro rfl
      simp at htwo
    have hfront : nal.take codec.header ++ piece ++ pieces.flatten = nal := by
      rw [List.append_assoc, ← List.flatten_cons, hflat, List.take_append_drop]
    have hstep := @depacketize_fragment codec nal none hcomplete true false piece
    simp only [if_true, Bool.false_eq_true, if_false] at hstep
    change completions codec none (Packetized.fragment codec nal true false piece ::
      ((Packetized.laterFragments codec nal pieces).map (·.payload) ++ rest)) =
        if nal.length ≤ RtpNalDecryptor.maxFragmentBytes then _ else _
    by_cases hbound : (nal.take codec.header ++ piece).length > RtpNalDecryptor.maxFragmentBytes
    · -- the first fragment is too long already, and the NAL is no shorter
      have hle : (nal.take codec.header ++ piece).length ≤ nal.length :=
        (List.prefix_append _ _).length_le.trans_eq (congrArg List.length hfront)
      rw [if_pos hbound] at hstep
      rw [if_neg (by omega), completions, hstep]
    -- the first fragment is kept, the later ones join it
    · rw [if_neg hbound] at hstep
      rw [completions_cons hstep, completions_laterFragments hcomplete hne hfront]
      split
      · rw [Option.map_map]
        rfl
      · rfl

/-- **A stream.** The depacketizer completes what the sender sent, unless a fragmented NAL is too
long. -/
theorem completions_sent {stream : List Packetized}
    (h : ∀ choice ∈ stream, choice.WellFormed codec) :
    completions codec none ((sentPayloads codec stream).map (·.payload)) =
      if ∀ choice ∈ stream, choice.Fits then
        some ((sentPayloads codec stream).map (·.completes))
      else none := by
  induction stream with
  | nil =>
    rw [if_pos fun _ hnil => nomatch hnil]
    rfl
  | cons choice stream ih =>
    have hrest := ih fun other hother => h other (List.mem_cons_of_mem _ hother)
    have hsent : sentPayloads codec (choice :: stream) =
        choice.payloads codec ++ sentPayloads codec stream := List.flatMap_cons
    rw [hsent, List.map_append, List.map_append,
      completions_payloads (h choice List.mem_cons_self), hrest]
    simp only [List.forall_mem_cons]
    -- one fragmented NAL too long fails the whole stream
    by_cases hfits : choice.Fits
    · by_cases hall : ∀ other ∈ stream, other.Fits
      · rw [if_pos hfits, if_pos hall, if_pos ⟨hfits, hall⟩, Option.map_some]
      · rw [if_pos hfits, if_neg hall, if_neg (fun hboth => hall hboth.2), Option.map_none]
    · rw [if_neg hfits, if_neg (fun hboth => hfits hboth.1)]

end Stream

end EzvizBridge
