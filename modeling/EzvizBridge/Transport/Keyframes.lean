import EzvizBridge.Transport.StartupSession
import Mathlib.Data.List.TakeWhile

/-!
# Key pictures, from NALs to closed access units

`is_keyframe` searches the bytes of an access unit. For a unit that is put together from NALs in
Annex-B form the search finds exactly what it finds in the NALs one by one, because no match can
begin before a start code and end behind it (`isKeyframe_flatMap`). Where the NALs have no start
code in them it finds the NALs of a key picture by their types (`isKeyframe_iff_exists_type`).

Whether a clear session starts, that is, closes a unit with a key picture, can therefore be read off
its packets (`closesKeyframe`, `closed_keyframe_iff`): some packet brings a key picture, and that
packet's marker or a later packet closes its unit.
-/

namespace EzvizBridge

/-! ### The search for a key picture -/

/-- The five bytes at the head are a start code and the header byte of a key picture. -/
def startsKeyPicture (codec : VideoCodec) (bytes : Bytes) : Bool :=
  bytes.take 4 == startCode && (bytes[4]?).any codec.isKeyPicture

/-- The search looks at every place of the unit. -/
theorem isKeyframe_cons (codec : VideoCodec) (byte : UInt8) (unit : Bytes) :
    isKeyframe codec (byte :: unit) =
      (startsKeyPicture codec (byte :: unit) || isKeyframe codec unit) := by
  rw [isKeyframe]
  congr 1
  -- the function of the source matches on the start code, so the first four bytes decide
  split
  · next first rest heq =>
    rw [heq]
    rfl
  · next hno =>
    rcases unit with _ | ⟨b, _ | ⟨c, _ | ⟨d, _ | ⟨e, rest⟩⟩⟩⟩
    · simp [startsKeyPicture]
    · simp [startsKeyPicture]
    · simp [startsKeyPicture]
    · simp [startsKeyPicture]
    -- five bytes are there: a start code and the type, or not
    · by_cases hcode : [byte, b, c, d] = startCode
      · simp only [startCode, List.cons.injEq, and_true] at hcode
        obtain ⟨rfl, rfl, rfl, rfl⟩ := hcode
        exact absurd rfl (hno e rest)
      · simp [startsKeyPicture, hcode]

theorem isKeyPicture_zero (codec : VideoCodec) : codec.isKeyPicture 0 = false := by
  cases codec <;> rfl

/-- No match begins before the start code of a NAL and ends behind it. -/
theorem startsKeyPicture_append (codec : VideoCodec) (byte : UInt8) (unit bytes : Bytes) :
    startsKeyPicture codec (byte :: unit ++ (startCode ++ bytes)) =
      startsKeyPicture codec (byte :: unit) := by
  unfold startsKeyPicture
  match unit with
  | [] | [_] | [_, _] => simp [startCode]
  | [_, _, _] => simp [startCode, isKeyPicture_zero]
  | b :: c :: d :: e :: rest => rfl

/-- A start code separates what is in front of it from what is behind. -/
theorem isKeyframe_append (codec : VideoCodec) (unit bytes : Bytes) :
    isKeyframe codec (unit ++ (startCode ++ bytes)) =
      (isKeyframe codec unit || isKeyframe codec (startCode ++ bytes)) := by
  induction unit with
  | nil => rfl
  | cons byte unit ih =>
    rw [List.cons_append, isKeyframe_cons, isKeyframe_cons, ih, Bool.or_assoc, ← List.cons_append,
      startsKeyPicture_append]

/-- **The search in a unit is the search in its NALs.** -/
theorem isKeyframe_flatMap (codec : VideoCodec) (unit : Bytes) (nals : List Bytes) :
    isKeyframe codec (unit ++ nals.flatMap annexB) =
      (isKeyframe codec unit || nals.any fun nal => isKeyframe codec (annexB nal)) := by
  induction nals generalizing unit with
  | nil => simp
  | cons nal nals ih =>
    rw [List.flatMap_cons, ← List.append_assoc, ih, annexB, isKeyframe_append, List.any_cons,
      Bool.or_assoc]
    rfl

/-- A match stays one whatever follows. -/
theorem isKeyframe_append_left {codec : VideoCodec} {unit : Bytes}
    (h : isKeyframe codec unit = true) (more : Bytes) : isKeyframe codec (unit ++ more) = true := by
  -- on the bytes in front
  induction unit with
  | nil => exact nomatch h
  | cons byte unit ih =>
    rw [isKeyframe_cons, Bool.or_eq_true] at h
    rw [List.cons_append, isKeyframe_cons, Bool.or_eq_true]
    rcases h with h | h
    · -- a match has five bytes, so none of `more` is among them
      match unit with
      | [] | [_] | [_, _] | [_, _, _] => simp [startsKeyPicture] at h
      | b :: c :: d :: e :: rest => exact Or.inl h
    · exact Or.inr (ih h)

/-! ### NALs with no start code in them -/

/-- The types of the NALs of a key picture: IDR for H.264, IRAP for HEVC. -/
def VideoCodec.keyTypes : VideoCodec → List ℕ
  | .h264 => [5]
  | .hevc => [16, 17, 18, 19, 20, 21]

/-- The test of the source is about the type of the NAL. -/
theorem isKeyPicture_iff (codec : VideoCodec) (first : UInt8) :
    codec.isKeyPicture first = true ↔ (codec.nalType first).toNat ∈ codec.keyTypes := by
  revert first
  cases codec <;> decide +kernel

/-- What the search finds begins with a start code. -/
theorem infix_of_isKeyframe {codec : VideoCodec} {unit : Bytes} (h : isKeyframe codec unit = true) :
    startCode <:+: unit := by
  induction unit with
  | nil => exact nomatch h
  | cons byte unit ih =>
    rw [isKeyframe_cons, Bool.or_eq_true] at h
    obtain h | h := h
    · rw [startsKeyPicture, Bool.and_eq_true, beq_iff_eq] at h
      apply List.IsPrefix.isInfix
      rw [← h.1]
      exact List.take_prefix 4 (byte :: unit)
    · exact List.infix_cons (ih h)

/-- The only match in a NAL with no start code in it is at the start code in front. -/
theorem isKeyframe_annexB (codec : VideoCodec) {first : UInt8} {rest : Bytes}
    (h : ¬startCode <:+: first :: rest) :
    isKeyframe codec (annexB (first :: rest)) = codec.isKeyPicture first := by
  have hnone : isKeyframe codec (first :: rest) = false := by
    rw [← Bool.not_eq_true]
    exact fun hkey => h (infix_of_isKeyframe hkey)
  show isKeyframe codec (0 :: 0 :: 0 :: 1 :: first :: rest) = _
  -- the windows that begin inside of the start code have its last byte too early
  rw [isKeyframe_cons, isKeyframe_cons, isKeyframe_cons, isKeyframe_cons, hnone]
  simp [startsKeyPicture, startCode]

/-- **A keyframe is recognized by the types of its NALs**, whatever they end with. -/
theorem isKeyframe_iff_exists_type (codec : VideoCodec) (nals : List Bytes)
    (hnonempty : ∀ nal ∈ nals, nal ≠ []) (hcode : ∀ nal ∈ nals, ¬startCode <:+: nal) :
    isKeyframe codec (nals.flatMap annexB) = true ↔
      ∃ nal ∈ nals, ∃ first rest, nal = first :: rest ∧
        (codec.nalType first).toNat ∈ codec.keyTypes := by
  -- the search finds a NAL whose first byte is of a key picture
  have hsearch := isKeyframe_flatMap codec [] nals
  rw [List.nil_append, isKeyframe, Bool.false_or] at hsearch
  rw [hsearch, List.any_eq_true]
  constructor
  · rintro ⟨nal, hnal, hkey⟩
    obtain ⟨first, rest, rfl⟩ := List.exists_cons_of_ne_nil (hnonempty nal hnal)
    rw [isKeyframe_annexB codec (hcode _ hnal), isKeyPicture_iff] at hkey
    exact ⟨_, hnal, first, rest, rfl, hkey⟩
  · rintro ⟨nal, hnal, first, rest, rfl, htype⟩
    refine ⟨_, hnal, ?_⟩
    rwa [isKeyframe_annexB codec (hcode _ hnal), isKeyPicture_iff]

/-- An IDR slice behind NALs that end with zeros. -/
theorem isKeyframe_iff_exists_type_sample :
    isKeyframe .h264 ([[0x67, 0, 0, 0], [0], [0x65]].flatMap annexB) = true :=
  (isKeyframe_iff_exists_type .h264 _ (by decide) (by decide)).mpr
    ⟨[0x65], by decide, 0x65, [], rfl, by decide⟩

/-! ### The packets that close a keyframe -/

/-- The packet brings a key picture. -/
def NalPacket.hasKeyPicture (codec : VideoCodec) (packet : NalPacket) : Bool :=
  (packet.nals.filter codec.complete).any fun nal => isKeyframe codec (annexB nal)

/-- Some packet brings a key picture, and its own marker, a later marker or a later packet of
another timestamp closes the access unit. -/
def closesKeyframe (codec : VideoCodec) : List NalPacket → Bool
  | [] => false
  | packet :: packets =>
    (packet.hasKeyPicture codec &&
      (packet.marker || packets.any fun later =>
        later.marker || later.timestamp != packet.timestamp)) ||
    closesKeyframe codec packets

/-- The item of a packet: its complete NALs in Annex-B form. -/
def NalPacket.item (codec : VideoCodec) (packet : NalPacket) : RtpOutput :=
  .video packet.timestamp packet.marker ((packet.nals.filter codec.complete).flatMap annexB)

/-- The unit has a key picture. -/
def AccessUnit.isKey (codec : VideoCodec) (unit : AccessUnit) : Bool := isKeyframe codec unit.2

theorem fromKeyframe_eq_nil {codec : VideoCodec} {units : List AccessUnit} :
    fromKeyframe codec units = [] ↔ units.any (AccessUnit.isKey codec) = false := by
  rw [fromKeyframe, List.dropWhile_eq_nil_iff, List.any_eq_false]
  simp [AccessUnit.isKey]

/-- The key picture of a packet, found in its bytes behind those of an open unit. -/
theorem isKeyframe_item (codec : VideoCodec) (packet : NalPacket) (unit : Bytes) :
    isKeyframe codec (unit ++ (packet.nals.filter codec.complete).flatMap annexB) =
      (isKeyframe codec unit || packet.hasKeyPicture codec) := isKeyframe_flatMap codec unit _

/-- **What a packet does to key pictures.** Those of the open unit are closed by a marker or by
another timestamp, those of the packet by its marker; what is left open has its timestamp. -/
theorem next_item_key (codec : VideoCodec) (state : CutState) (packet : NalPacket) :
    (state.next (packet.item codec)).1.any (AccessUnit.isKey codec) =
      (state.1.any (AccessUnit.isKey codec) ||
        (state.2.any fun unit => AccessUnit.isKey codec unit &&
          (packet.marker || packet.timestamp != unit.1)) ||
        (packet.hasKeyPicture codec && packet.marker)) ∧
    ∀ later : UInt32 → Bool,
      ((state.next (packet.item codec)).2.any fun unit =>
          AccessUnit.isKey codec unit && later unit.1) =
        (!packet.marker && later packet.timestamp && (packet.hasKeyPicture codec ||
          state.2.any fun unit => AccessUnit.isKey codec unit && packet.timestamp == unit.1)) := by
  obtain ⟨closed, current⟩ := state
  have hkey := isKeyframe_item codec packet
  unfold NalPacket.item
  generalize (packet.nals.filter codec.complete).flatMap annexB = data at hkey ⊢
  have hnew := hkey []
  -- what the data of the packet is by itself
  rw [List.nil_append, isKeyframe, Bool.false_or] at hnew
  by_cases hdata : data = []
  · -- nothing but the marker and the timestamp count
    subst hdata
    have hno : packet.hasKeyPicture codec = false := hnew.symm
    -- by the open unit: its timestamp is the one of the packet, or another one
    cases current with
    | none => cases packet.marker <;> simp [CutState.next, cutItem, hno]
    | some unit =>
      by_cases ht : unit.1 = packet.timestamp
      · cases packet.marker <;> simp [CutState.next, cutItem, hno, ht, Bool.and_comm]
      · have hne : (packet.timestamp != unit.1) = true := bne_iff_ne.2 (Ne.symm ht)
        have heq : (packet.timestamp == unit.1) = false := beq_false_of_ne (Ne.symm ht)
        cases packet.marker <;> simp [CutState.next, cutItem, hno, ht, hne, heq]
  · rcases cutItem_data current packet.timestamp packet.marker hdata with
      ⟨bytes, rfl, hcut⟩ | ⟨hother, hcut⟩
    · -- the open unit goes on
      simp only [CutState.next, hcut]
      cases packet.marker <;>
        simp [AccessUnit.isKey, hkey, Bool.and_comm, Bool.or_assoc, Bool.or_comm, Bool.or_left_comm]
    -- the open unit is closed, and the packet begins another one
    · simp only [CutState.next, hcut]
      cases current with
      | none => cases packet.marker <;> simp [AccessUnit.isKey, hnew, Bool.and_comm]
      | some unit =>
        have ht : packet.timestamp ≠ unit.1 := Ne.symm (hother unit rfl)
        have hne : (packet.timestamp != unit.1) = true := bne_iff_ne.2 ht
        have heq : (packet.timestamp == unit.1) = false := beq_false_of_ne ht
        cases packet.marker <;>
          simp [AccessUnit.isKey, hnew, hne, heq, Bool.and_comm, Bool.or_assoc]

/-- The units with a key picture that packets close: among those closed before, the open one if a
packet closes it, and those of the packets. -/
theorem foldl_closed_key (codec : VideoCodec) (packets : List NalPacket) (state : CutState) :
    ((packets.flatMap (promptItems codec)).foldl CutState.next state).1.any
        (AccessUnit.isKey codec) =
      (state.1.any (AccessUnit.isKey codec) ||
        (state.2.any fun unit => AccessUnit.isKey codec unit &&
          packets.any fun later => later.marker || later.timestamp != unit.1) ||
        closesKeyframe codec packets) := by
  -- on the packets, from any state of the cutter
  induction packets generalizing state with
  | nil => cases state.2 <;> simp [closesKeyframe]
  | cons packet packets ih =>
    -- what the first packet does
    obtain ⟨hclosed, hopen⟩ := next_item_key codec state packet
    rw [List.flatMap_cons, List.foldl_append, foldl_promptItems, ih]
    change ((state.next (packet.item codec)).1.any _ ||
      ((state.next (packet.item codec)).2.any fun unit => AccessUnit.isKey codec unit &&
        packets.any fun later => later.marker || later.timestamp != unit.1) || _) = _
    rw [hclosed, hopen fun t => packets.any fun later => later.marker || later.timestamp != t]
    simp only [closesKeyframe, List.any_cons]
    -- what is left is a matter of truth values, once it is known whether the open unit goes on
    cases state.2 with
    | none =>
      simp only [Option.any_none, Bool.or_false]
      cases packet.marker <;> simp [Bool.and_comm, Bool.or_assoc]
    -- the open unit goes on with this packet, or is closed by it
    | some unit =>
      simp only [Option.any_some]
      by_cases ht : packet.timestamp = unit.1
      · rw [ht]
        cases packet.marker <;> cases AccessUnit.isKey codec unit <;>
          cases packet.hasKeyPicture codec <;> simp [Bool.or_assoc]
      · have hne : (packet.timestamp != unit.1) = true := bne_iff_ne.2 ht
        have heq : (packet.timestamp == unit.1) = false := beq_false_of_ne ht
        rw [hne, heq]
        cases packet.marker <;> cases AccessUnit.isKey codec unit <;>
          cases packet.hasKeyPicture codec <;> simp [Bool.or_assoc]

/-- **Which sessions start.** The packets of a clear session close a unit with a key picture just
when `closesKeyframe` says so. -/
theorem closed_keyframe_iff (codec : VideoCodec) (packets : List NalPacket) :
    fromKeyframe codec (cut none (packets.flatMap (promptItems codec))).1 ≠ [] ↔
      closesKeyframe codec packets = true := by
  have hany := foldl_closed_key codec packets ([], none)
  rw [foldl_next] at hany
  have hclosed : (cut none (packets.flatMap (promptItems codec))).1.any (AccessUnit.isKey codec) =
      closesKeyframe codec packets := hany
  rw [ne_eq, fromKeyframe_eq_nil, hclosed, Bool.not_eq_false]

/-- The units with a key picture, closed or open: those there were, and those of the packets. -/
theorem foldl_key (codec : VideoCodec) (packets : List NalPacket) (state : CutState) :
    (let after := (packets.flatMap (promptItems codec)).foldl CutState.next state
    after.1.any (AccessUnit.isKey codec) || after.2.any (AccessUnit.isKey codec)) =
      (state.1.any (AccessUnit.isKey codec) || state.2.any (AccessUnit.isKey codec) ||
        packets.any (NalPacket.hasKeyPicture codec)) := by
  -- on the packets, likewise
  induction packets generalizing state with
  | nil => exact (Bool.or_false _).symm
  | cons packet packets ih =>
    obtain ⟨hclosed, hopen⟩ := next_item_key codec state packet
    have hopen := hopen fun _ => true
    simp only [Bool.and_true] at hopen
    rw [List.flatMap_cons, List.foldl_append, foldl_promptItems, ih]
    change ((state.next (packet.item codec)).1.any _ || (state.next (packet.item codec)).2.any
      (fun unit => AccessUnit.isKey codec unit) || _) = _
    rw [hclosed, hopen, List.any_cons]
    cases state.2 with
    | none =>
      simp only [Option.any_none, Bool.or_false]
      cases packet.marker <;> simp [Bool.or_assoc]
    -- the open unit is the one of the packet, or it is closed
    | some unit =>
      simp only [Option.any_some]
      by_cases ht : packet.timestamp = unit.1
      · rw [ht]
        cases packet.marker <;> cases AccessUnit.isKey codec unit <;> simp [Bool.or_assoc]
      · have hne : (packet.timestamp != unit.1) = true := bne_iff_ne.2 ht
        have heq : (packet.timestamp == unit.1) = false := beq_false_of_ne ht
        rw [hne, heq]
        cases packet.marker <;> cases AccessUnit.isKey codec unit <;> simp [Bool.or_assoc]

/-- The units of a clear session have a key picture just when its packets have one. -/
theorem fromKeyframe_unitsOf_eq_nil (codec : VideoCodec) (packets : List NalPacket) :
    fromKeyframe codec (unitsOf (packets.flatMap (promptItems codec))) = [] ↔
      ∀ packet ∈ packets, packet.hasKeyPicture codec = false := by
  have hany := foldl_key codec packets ([], none)
  have htotal : (unitsOf (packets.flatMap (promptItems codec))).any (AccessUnit.isKey codec) =
      packets.any (NalPacket.hasKeyPicture codec) := by
    rw [unitsOf_eq_foldl, List.any_append]
    refine Eq.trans ?_ hany
    congr 1
    cases ((packets.flatMap (promptItems codec)).foldl CutState.next ([], none)).2 <;> simp
  rw [fromKeyframe_eq_nil, htotal, List.any_eq_false]
  simp only [Bool.not_eq_true]

/-! ### What a release keeps -/

/-- A unit of the groups is part of the unit that its group becomes. -/
theorem mem_expandGroups {groups : List UnitGroup} {unit : AccessUnit}
    (h : unit ∈ expandGroups groups) : ∃ unit' ∈ mergeGroups groups, unit.2 <:+: unit'.2 := by
  obtain ⟨group, hgroup, hunit⟩ := List.mem_flatMap.1 h
  obtain ⟨data, hdata, rfl⟩ := List.mem_map.1 hunit
  exact ⟨(group.1, group.2.flatten), List.mem_map.2 ⟨group, hgroup, rfl⟩,
    List.infix_of_mem_flatten hdata⟩

/-- A key picture of a part is one of the whole. -/
theorem isKeyframe_flatten {codec : VideoCodec} {parts : List Bytes} {part : Bytes}
    (hpart : part ∈ parts) (hkey : isKeyframe codec part = true) :
    isKeyframe codec parts.flatten = true := by
  obtain ⟨front, back, hflatten⟩ := List.infix_of_mem_flatten hpart
  rw [← hflatten]
  exact isKeyframe_append_left (isKeyframe_append_right hkey front) back

/-- **Units put together keep what was in them**, from the first keyframe on. -/
theorem Merges.fromKeyframe_part {codec : VideoCodec} {prompt late : List AccessUnit}
    (h : Merges prompt late) {unit : AccessUnit} (hunit : unit ∈ fromKeyframe codec prompt) :
    ∃ unit' ∈ fromKeyframe codec late, unit.2 <:+: unit'.2 := by
  obtain ⟨groups, -, rfl, rfl⟩ := h
  -- on the groups that are put together
  induction groups with
  | nil => exact nomatch hunit
  | cons group groups ih =>
    obtain ⟨t, parts⟩ := group
    have hlate : mergeGroups ((t, parts) :: groups) =
        (t, parts.flatten) :: mergeGroups groups := rfl
    have hprompt : expandGroups ((t, parts) :: groups) =
        parts.map (fun d => (t, d)) ++ expandGroups groups := rfl
    cases hkey : isKeyframe codec parts.flatten with
    | true =>
      -- the merged stream starts here at the latest, so it has every unit of the prompt one
      have hall : fromKeyframe codec (mergeGroups ((t, parts) :: groups)) =
          mergeGroups ((t, parts) :: groups) := by
        rw [hlate, fromKeyframe, List.dropWhile_cons_of_neg (by simp [hkey])]
      rw [hall]
      exact mem_expandGroups ((List.dropWhile_sublist _).subset hunit)
    -- no part of this group is a keyframe either, so both sides skip it
    | false =>
      have hnone : ∀ part ∈ parts.map fun d => (t, d), (!isKeyframe codec part.2) = true := by
        intro part hpart
        obtain ⟨data, hdata, rfl⟩ := List.mem_map.1 hpart
        cases hdatakey : isKeyframe codec data with
        | false => rfl
        | true => exact nomatch hkey.symm.trans (isKeyframe_flatten hdata hdatakey)
      have hskip : fromKeyframe codec (expandGroups ((t, parts) :: groups)) =
          fromKeyframe codec (expandGroups groups) := by
        rw [hprompt, fromKeyframe, List.dropWhile_append_of_pos hnone]
        rfl
      have hskip' : fromKeyframe codec (mergeGroups ((t, parts) :: groups)) =
          fromKeyframe codec (mergeGroups groups) := by
        rw [hlate, fromKeyframe, List.dropWhile_cons_of_pos (by simp [hkey])]
        rfl
      rw [hskip] at hunit
      rw [hskip']
      exact ih hunit

end EzvizBridge
