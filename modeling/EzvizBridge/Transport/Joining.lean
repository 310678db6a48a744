import EzvizBridge.Transport.ClearSession

/-!
# Joining a stream at any packet

A relay session begins wherever the camera happens to be. What it sees of a stream is a suffix of
its packets: behind the cut first the remaining fragments of the NAL that was cut, if any, and then
the NALs all of whose packets are there (`joined`).

A session that begins between two NALs emits exactly these NALs. One that begins inside of a
fragmented NAL does not get that far: the fragments without a beginning are dropped, all but the
last, whose end bit is an error (`completions_orphans`). So the exact condition in `joins_iff` is
that the cut is between NALs. The rest of the condition belongs to other limits of a session, a
fragmented NAL beyond the bound of the buffer and a stream that is taken for one of the other codec.
-/

namespace EzvizBridge

/-! ### What is left of a stream -/

/-- A stream behind its first `k` packets: what remains of the NAL that was cut, and the choices all
of whose packets are there. -/
def joined (codec : VideoCodec) : ℕ → List Packetized → List SentPayload × List Packetized
  | _, [] => ([], [])
  | k, choice :: stream =>
    if k = 0 then ([], choice :: stream)
    else if k < (choice.payloads codec).length then ((choice.payloads codec).drop k, stream)
    else joined codec (k - (choice.payloads codec).length) stream

section Joined

variable {codec : VideoCodec}

/-- The remaining packets are these two parts. -/
theorem drop_sentPayloads (codec : VideoCodec) (k : ℕ) (stream : List Packetized) :
    (sentPayloads codec stream).drop k =
      (joined codec k stream).1 ++ sentPayloads codec (joined codec k stream).2 := by
  -- on the stream; the cut lies in front of the first choice, inside of it, or behind it
  induction stream generalizing k with
  | nil =>
    rw [joined]
    exact List.drop_nil
  | cons choice stream ih =>
    rw [joined]
    split_ifs with hzero hinside
    · rw [hzero]
      rfl
    · rw [sentPayloads, List.flatMap_cons, List.drop_append_of_le_length hinside.le]
      rfl
    · rw [← ih, sentPayloads, List.flatMap_cons, List.drop_append,
        List.drop_eq_nil_of_le (Nat.le_of_not_lt hinside), List.nil_append]
      rfl

/-- What is left whole was sent. -/
theorem mem_of_mem_joined {k : ℕ} {stream : List Packetized} {choice : Packetized}
    (h : choice ∈ (joined codec k stream).2) : choice ∈ stream := by
  induction stream generalizing k with
  | nil => exact h
  | cons first stream ih =>
    rw [joined] at h
    split_ifs at h with hzero hinside
    · exact h
    · exact List.mem_cons_of_mem _ h
    · exact List.mem_cons_of_mem _ (ih h)

/-- The later fragments behind a cut are those of the later pieces. -/
theorem laterFragments_drop (nal : Bytes) (pieces : List Bytes) (j : ℕ) :
    (Packetized.laterFragments codec nal pieces).drop j =
      Packetized.laterFragments codec nal (pieces.drop j) := by
  induction pieces generalizing j with
  | nil => simp [Packetized.laterFragments]
  | cons piece pieces ih =>
    cases j with
    | zero => rfl
    | succ j =>
      cases pieces with
      | nil => simp [Packetized.laterFragments]
      | cons next pieces => exact ih j

/-- There are as many later fragments as pieces. -/
theorem length_laterFragments (nal : Bytes) (pieces : List Bytes) :
    (Packetized.laterFragments codec nal pieces).length = pieces.length := by
  induction pieces with
  | nil => rfl
  | cons piece pieces ih =>
    cases pieces with
    | nil => rfl
    | cons next pieces => exact congrArg Nat.succ ih

/-- Behind a cut inside of a NAL come its later fragments, the last one included. -/
theorem joined_missed {k : ℕ} {stream : List Packetized}
    (h : ∀ choice ∈ stream, choice.WellFormed codec) :
    (joined codec k stream).1 = [] ∨
      ∃ nal pieces, codec.carries nal ∧ pieces ≠ [] ∧
        (joined codec k stream).1 = Packetized.laterFragments codec nal pieces := by
  induction stream generalizing k with
  | nil => exact Or.inl rfl
  | cons choice stream ih =>
    rw [joined]
    split_ifs with hzero hinside
    · exact Or.inl rfl
    · -- only a fragmented NAL has more than one packet
      right
      match choice, h choice List.mem_cons_self with
      | .single nal, _ => exact absurd (Nat.lt_one_iff.mp hinside) hzero
      | .aggregate head nals, _ => exact absurd (Nat.lt_one_iff.mp hinside) hzero
      | .fragmented nal (piece :: pieces), ⟨hnal, _, _⟩ =>
        obtain ⟨j, rfl⟩ := Nat.exists_eq_succ_of_ne_zero hzero
        rw [Packetized.payloads, List.length_cons, length_laterFragments] at hinside
        refine ⟨nal, pieces.drop j, hnal, ?_, laterFragments_drop nal pieces j⟩
        rw [ne_eq, List.drop_eq_nil_iff]
        omega
    -- the cut lies further behind
    · exact ih fun other hother => h other (List.mem_cons_of_mem _ hother)

/-- **Fragments without a beginning** end in an error. -/
theorem completions_orphans {nal : Bytes} (hnal : codec.complete nal) {pieces : List Bytes}
    (hne : pieces ≠ []) (rest : List Bytes) :
    completions codec none
      ((Packetized.laterFragments codec nal pieces).map (·.payload) ++ rest) = none := by
  induction pieces with
  | nil => exact absurd rfl hne
  | cons piece pieces ih =>
    -- the last fragment is the one that fails
    cases pieces with
    | nil =>
      have hstep := @depacketize_fragment codec nal none hnal false true piece
      change completions codec none (Packetized.fragment codec nal false true piece :: rest) = none
      rw [completions, hstep]
      rfl
    | cons next pieces =>
      -- a middle fragment is dropped
      have hstep : depacketize codec none (Packetized.fragment codec nal false false piece) =
          some ([], none) := depacketize_fragment hnal false false piece
      change completions codec none (Packetized.fragment codec nal false false piece ::
        ((Packetized.laterFragments codec nal (next :: pieces)).map (·.payload) ++ rest)) = none
      rw [completions_cons hstep, ih (List.cons_ne_nil next pieces)]
      rfl

/-- A fragment names its codec. -/
theorem detectCodec_fragment (nal : Bytes) (start ended : Bool) (piece : Bytes) :
    detectCodec (Packetized.fragment codec nal start ended piece).head? = some codec := by
  -- the type bits of a fragment are its own, and the table of the source has them
  cases codec with
  | h264 =>
    change detectCodec (some ((nal.getD 0 0 &&& 0xe0) ||| 28)) = some .h264
    generalize nal.getD 0 0 = first
    revert first
    decide +kernel
  | hevc =>
    change detectCodec (some (nal.getD 0 0 &&& (0x81 : UInt8) ||| (49 : UInt8) <<< 1)) = some .hevc
    generalize nal.getD 0 0 = first
    revert first
    decide +kernel

end Joined

/-! ### A stream read under the other codec -/

/-- What is left of a choice under another codec than its own: a NAL that is whole there as well, or
an aggregate of nothing that is too short for a header. -/
def Packetized.Survives (found : VideoCodec) : Packetized → Prop
  | single nal => found.complete nal ∧ found.nalType (nal.getD 0 0) ≠ found.aggregateType ∧
      found.nalType (nal.getD 0 0) ≠ found.fragmentType
  | aggregate head nals => ¬ found.complete (head ++ Packetized.aggregateUnits nals)
  | fragmented _ _ => False

section Foreign

variable {codec found : VideoCodec}

/-- A payload of a type that is not an aggregate or a fragment is passed on as it is. -/
theorem depacketize_whole {payload : Bytes} (fragment : Option Bytes)
    (hcomplete : found.complete payload)
    (hagg : found.nalType (payload.getD 0 0) ≠ found.aggregateType)
    (hfu : found.nalType (payload.getD 0 0) ≠ found.fragmentType) :
    depacketize found fragment payload = some ([payload], fragment) := by
  -- by the codec that was found; its header has one byte or two
  cases found with
  | h264 =>
    cases payload with
    | nil => simp [VideoCodec.complete, VideoCodec.header] at hcomplete
    | cons first rest =>
      have hagg : ¬ first &&& 0x1f = 24 := hagg
      have hfu : ¬ first &&& 0x1f = 28 := hfu
      simp only [depacketize, if_neg hfu, if_neg hagg]
  | hevc =>
    rcases payload with _ | ⟨first, _ | ⟨second, rest⟩⟩
    · simp [VideoCodec.complete, VideoCodec.header] at hcomplete
    · simp [VideoCodec.complete, VideoCodec.header] at hcomplete
    · have hagg : ¬ first >>> 1 &&& 0x3f = 48 := hagg
      have hfu : ¬ first >>> 1 &&& 0x3f = 49 := hfu
      simp only [depacketize, if_neg hfu, if_neg hagg]

/-- A payload without a header is ignored, or passed on as what the decryptor ignores. -/
theorem depacketize_incomplete {payload : Bytes} (fragment : Option Bytes)
    (h : ¬ found.complete payload) : depacketize found fragment payload = some ([], fragment) := by
  cases found with
  | h264 =>
    cases payload with
    | nil => rfl
    | cons => simp [VideoCodec.complete, VideoCodec.header] at h
  | hevc =>
    rcases payload with _ | ⟨first, _ | ⟨second, rest⟩⟩
    · rfl
    · rfl
    · simp [VideoCodec.complete, VideoCodec.header] at h

/-- The aggregates and fragments of one codec are neither for the other. -/
theorem foreign_whole (hne : found ≠ codec) {first : UInt8}
    (h : codec.nalType first = codec.aggregateType ∨ codec.nalType first = codec.fragmentType) :
    found.nalType first ≠ found.aggregateType ∧ found.nalType first ≠ found.fragmentType := by
  revert first
  cases found <;> cases codec
  · exact absurd rfl hne
  · decide +kernel
  · decide +kernel
  · exact absurd rfl hne

/-- A NAL is never of the type of an aggregate or a fragment. -/
theorem carries_type {nal : Bytes} (h : codec.carries nal) :
    codec.nalType (nal.getD 0 0) ≠ codec.aggregateType ∧
      codec.nalType (nal.getD 0 0) ≠ codec.fragmentType := by
  obtain ⟨-, htype⟩ := Bool.and_eq_true_iff.mp h
  -- the types of NALs end below those of aggregates and fragments
  cases codec with
  | h264 =>
    have hle := of_decide_eq_true (Bool.and_eq_true_iff.mp htype).2
    constructor
    · exact fun heq => absurd (heq ▸ hle) (by decide)
    · exact fun heq => absurd (heq ▸ hle) (by decide)
  | hevc =>
    simp only [Bool.or_eq_true, decide_eq_true_eq] at htype
    constructor
    · exact fun heq => absurd (heq ▸ htype) (by decide)
    · exact fun heq => absurd (heq ▸ htype) (by decide)

/-- An aggregate that is too short for a header has no NALs. -/
theorem nals_eq_nil {head : Bytes} {nals : List Bytes} (hlen : head.length = codec.header)
    (h : ¬ found.complete (head ++ Packetized.aggregateUnits nals)) : nals = [] := by
  cases nals with
  | nil => rfl
  -- one NAL is enough for a header
  | cons nal nals =>
    have hlong : (Packetized.aggregateUnits (nal :: nals)).length =
        2 + nal.length + (Packetized.aggregateUnits nals).length := by
      simp [Packetized.aggregateUnits, Nat.add_assoc]
    have hhead : found.header ≤ 2 := by cases found <;> decide
    have hcodec := codec.header_pos
    have hcomplete : found.complete (head ++ Packetized.aggregateUnits (nal :: nals)) := by
      rw [VideoCodec.complete, List.length_append, hlong]
      exact decide_eq_true (by omega)
    exact absurd hcomplete h

/-- **A stream that survives** is read as it was sent. -/
theorem completions_survives {whole : List Packetized}
    (h : ∀ choice ∈ whole, choice.WellFormed codec)
    (hsurvives : ∀ choice ∈ whole, choice.Survives found) :
    completions found none ((sentPayloads codec whole).map (·.payload)) =
      some ((sentPayloads codec whole).map (·.completes)) := by
  -- on the choices of the sender
  induction whole with
  | nil => rfl
  | cons choice whole ih =>
    have hrest := ih (fun other hother => h other (List.mem_cons_of_mem _ hother))
      fun other hother => hsurvives other (List.mem_cons_of_mem _ hother)
    match choice, h choice List.mem_cons_self, hsurvives choice List.mem_cons_self with
    -- a NAL that is sent alone is passed on
    | .single nal, _, ⟨hcomplete, hagg, hfu⟩ =>
      change completions found none (nal :: (sentPayloads codec whole).map (·.payload)) = _
      rw [completions_cons (depacketize_whole none hcomplete hagg hfu), hrest]
      rfl
    -- an aggregate can only survive without NALs
    | .aggregate head nals, ⟨hlen, _, _⟩, hincomplete =>
      have hnals : nals = [] := nals_eq_nil hlen hincomplete
      change completions found none ((head ++ Packetized.aggregateUnits nals) ::
        (sentPayloads codec whole).map (·.payload)) = _
      rw [completions_cons (depacketize_incomplete none hincomplete), hrest, hnals]
      rfl

/-- The number of bytes in a list of NALs. -/
def nalBytes (nals : List Bytes) : ℕ := (nals.map List.length).sum

theorem nalBytes_append (nals nals' : List Bytes) :
    nalBytes (nals ++ nals') = nalBytes nals + nalBytes nals' := by
  rw [nalBytes, List.map_append, List.sum_append, nalBytes, nalBytes]

/-- Dropping NALs drops bytes. -/
theorem nalBytes_filter_le (p : Bytes → Bool) (nals : List Bytes) :
    nalBytes (nals.filter p) ≤ nalBytes nals := by
  induction nals with
  | nil => exact Nat.le_refl _
  | cons nal nals ih =>
    have hsplit := nalBytes_append [nal] nals
    rw [List.singleton_append] at hsplit
    by_cases hp : p nal = true
    · rw [List.filter_cons_of_pos hp, ← List.singleton_append, nalBytes_append, hsplit]
      exact Nat.add_le_add_left ih _
    · rw [List.filter_cons_of_neg hp, hsplit]
      exact ih.trans (Nat.le_add_left _ _)

/-- The number of bytes in the fragment buffer. -/
def heldBytes (fragment : Option Bytes) : ℕ := (fragment.getD []).length

/-- The NALs of an aggregate are no longer than its payload. -/
theorem nalBytes_splitAggregate {fuel : ℕ} {payload : Bytes} {nals : List Bytes}
    (h : splitAggregate fuel payload = some nals) : nalBytes nals ≤ payload.length := by
  -- on the fuel of the split
  induction fuel generalizing payload nals with
  | zero =>
    cases h
    exact Nat.zero_le _
  | succ fuel ih =>
    match payload with
    | [] =>
      cases h
      exact Nat.zero_le _
    | [_] => cases h
    | hi :: lo :: payload =>
      rw [splitAggregate] at h
      -- the length is read, and the NAL taken
      split at h
      · cases h
      · obtain ⟨more, hmore, rfl⟩ := Option.map_eq_some_iff.mp h
        have hrest := ih hmore
        have hparts := congrArg List.length
          (List.take_append_drop (u16FromBe hi lo).toNat payload)
        rw [List.length_append] at hparts
        rw [← List.singleton_append, nalBytes_append, List.length_cons, List.length_cons]
        have hfirst : nalBytes [payload.take (u16FromBe hi lo).toNat] =
            (payload.take (u16FromBe hi lo).toNat).length := Nat.add_zero _
        omega

/-- A fragment brings its header and its data, and what was held may be lost. -/
theorem nalBytes_joinFragment {fragment fragment' : Option Bytes} {fu : UInt8} {start data : Bytes}
    {nals : List Bytes} (h : joinFragment fragment fu start data = some (nals, fragment')) :
    nalBytes nals + heldBytes fragment' ≤ heldBytes fragment + start.length + data.length := by
  unfold joinFragment at h
  -- a start replaces what was held, a later fragment goes on with it
  cases hcurrent : (if (fu &&& 0x80 != 0) = true then some start else fragment) with
  | none =>
    simp only [hcurrent] at h
    split at h
    · cases h
    · cases h
      exact Nat.zero_le _
  | some current =>
    have hle : current.length ≤ heldBytes fragment + start.length := by
      split at hcurrent
      · cases hcurrent
        exact Nat.le_add_left _ _
      · rw [hcurrent]
        exact Nat.le_add_right _ _
    simp only [hcurrent] at h
    split at h
    · cases h
    · -- the joined bytes are the NAL or wait for more
      have hjoined : (current ++ data).length ≤
          heldBytes fragment + start.length + data.length := by
        rw [List.length_append]
        exact Nat.add_le_add_right hle _
      split at h
      · cases h
        exact (Nat.add_zero _).le.trans ((Nat.add_zero _).le.trans hjoined)
      · cases h
        exact (Nat.zero_add _).le.trans hjoined

/-- An aggregate or a fragment loses its header. -/
theorem nalBytes_depacketize_lt {fragment fragment' : Option Bytes} {nal : Bytes}
    {nals : List Bytes} (hne : nal ≠ []) (hcomplete : found.complete nal)
    (hsplit : ¬ (found.nalType (nal.getD 0 0) ≠ found.aggregateType ∧
      found.nalType (nal.getD 0 0) ≠ found.fragmentType))
    (h : depacketize found fragment nal = some (nals, fragment')) :
    nalBytes nals + heldBytes fragment' < heldBytes fragment + nal.length := by
  cases found with
  | h264 =>
    cases nal with
    | nil => exact absurd rfl hne
    | cons first rest =>
      simp only [depacketize] at h
      split_ifs at h with hfu hagg
      · -- the FU header takes the place of the NAL header
        cases rest with
        | nil => cases h
        | cons fu data =>
          have hle := nalBytes_joinFragment h
          simp only [List.length_cons, List.length_nil] at hle ⊢
          omega
      -- the lengths in an aggregate are bytes that are lost
      · obtain ⟨split, hsplit, heq⟩ := Option.map_eq_some_iff.mp h
        cases heq
        have hle := nalBytes_splitAggregate hsplit
        rw [List.length_cons]
        omega
      · exact absurd ⟨hagg, hfu⟩ hsplit
  | hevc =>
    rcases nal with _ | ⟨first, _ | ⟨second, rest⟩⟩
    · exact absurd rfl hne
    · simp [VideoCodec.complete, VideoCodec.header] at hcomplete
    -- the same for a header of two bytes
    · simp only [depacketize] at h
      split_ifs at h with hfu hagg
      · cases rest with
        | nil => cases h
        | cons fu data =>
          have hle := nalBytes_joinFragment h
          simp only [List.length_cons, List.length_nil] at hle ⊢
          omega
      · obtain ⟨split, hsplit, heq⟩ := Option.map_eq_some_iff.mp h
        cases heq
        have hle := nalBytes_splitAggregate hsplit
        rw [List.length_cons, List.length_cons]
        omega
      · exact absurd ⟨hagg, hfu⟩ hsplit

/-- **Bytes are lost** where a NAL is not read as it is: no payload yields more than it has, and a
NAL that is taken for an aggregate or a fragment, or has no header, yields less. -/
theorem nalBytes_depacketize {fragment fragment' : Option Bytes} {nal : Bytes} {nals : List Bytes}
    (hne : nal ≠ []) (h : depacketize found fragment nal = some (nals, fragment')) :
    nalBytes (nals.filter found.complete) + heldBytes fragment' ≤ heldBytes fragment + nal.length ∧
      (nalBytes (nals.filter found.complete) + heldBytes fragment' =
        heldBytes fragment + nal.length → (Packetized.single nal).Survives found) := by
  -- with a header the type decides, without one the NAL is dropped
  by_cases hcomplete : found.complete nal
  · by_cases hwhole : found.nalType (nal.getD 0 0) ≠ found.aggregateType ∧
        found.nalType (nal.getD 0 0) ≠ found.fragmentType
    · rw [depacketize_whole fragment hcomplete hwhole.1 hwhole.2] at h
      cases h
      have hbytes : nalBytes ([nal].filter found.complete) = nal.length := by
        rw [List.filter_cons_of_pos hcomplete]
        exact Nat.add_zero _
      rw [hbytes, Nat.add_comm]
      exact ⟨Nat.le_refl _, fun _ => ⟨hcomplete, hwhole⟩⟩
    -- a NAL that is taken for something else loses bytes
    · have hlt : nalBytes (nals.filter found.complete) + heldBytes fragment' <
          heldBytes fragment + nal.length :=
        (Nat.add_le_add_right (nalBytes_filter_le found.complete nals) _).trans_lt
          (nalBytes_depacketize_lt hne hcomplete hwhole h)
      exact ⟨hlt.le, fun heq => absurd heq hlt.ne⟩
  · -- a NAL without a header is dropped
    rw [depacketize_incomplete fragment hcomplete] at h
    cases h
    have hpos := List.length_pos_iff.mpr hne
    rw [List.filter_nil]
    change 0 + heldBytes fragment ≤ _ ∧ (0 + heldBytes fragment = _ → _)
    exact ⟨by omega, fun heq => absurd heq (by omega)⟩

/-- **A whole stream.** It yields no more bytes than were sent, and fewer if a NAL does not
survive. -/
theorem nalBytes_completions {whole : List Packetized}
    (hwhole : ∀ choice ∈ whole, choice.WellFormed codec)
    (hkinds : ∀ choice ∈ whole, (∃ nal, choice = .single nal) ∨ choice.Survives found)
    {fragment : Option Bytes} {reading : List (List Bytes)}
    (h : completions found fragment ((sentPayloads codec whole).map (·.payload)) = some reading) :
    nalBytes (reading.flatten.filter found.complete) ≤
        heldBytes fragment + nalBytes (whole.flatMap Packetized.nals) ∧
      (nalBytes (reading.flatten.filter found.complete) =
        heldBytes fragment + nalBytes (whole.flatMap Packetized.nals) →
          ∀ choice ∈ whole, choice.Survives found) := by
  -- on the choices of the sender, with what is held from before
  induction whole generalizing fragment reading with
  | nil =>
    cases h
    refine ⟨Nat.zero_le _, fun _ => ?_⟩
    rintro choice ⟨⟩
  | cons choice whole ih =>
    have hrest := @ih (fun other hother => hwhole other (List.mem_cons_of_mem _ hother))
      fun other hother => hkinds other (List.mem_cons_of_mem _ hother)
    have hwell := hwhole choice List.mem_cons_self
    rw [List.flatMap_cons, nalBytes_append]
    have hkind := hkinds choice List.mem_cons_self
    -- a single NAL may survive or not, the other kinds survive by assumption
    cases choice with
    | single nal =>
      change completions found fragment (nal :: (sentPayloads codec whole).map (·.payload)) = _ at h
      rw [completions] at h
      split at h
      · cases h
      · next nals fragment' hstep =>
        obtain ⟨more, hmore, rfl⟩ := Option.map_eq_some_iff.mp h
        obtain ⟨hle, hall⟩ := hrest hmore
        obtain ⟨hfirst, hsurvives⟩ := nalBytes_depacketize (ne_nil_of_carries hwell) hstep
        have hnal : nalBytes (Packetized.single nal).nals = nal.length := Nat.add_zero _
        rw [List.flatten_cons, List.filter_append, nalBytes_append, hnal]
        refine ⟨by omega, fun heq => ?_⟩
        -- the two bounds add up, so each of them is met
        have hmet : nalBytes (nals.filter found.complete) + heldBytes fragment' =
            heldBytes fragment + nal.length := by omega
        have hmetRest : nalBytes (more.flatten.filter found.complete) =
            heldBytes fragment' + nalBytes (whole.flatMap Packetized.nals) := by omega
        exact List.forall_mem_cons.mpr ⟨hsurvives hmet, hall hmetRest⟩
    -- an aggregate that survives brings no bytes
    | aggregate head nals =>
      obtain ⟨hlen, -, -⟩ := hwell
      have hincomplete : (Packetized.aggregate head nals).Survives found := by
        refine hkind.resolve_left ?_
        rintro ⟨_, ⟨⟩⟩
      obtain rfl := nals_eq_nil hlen hincomplete
      change completions found fragment ((head ++ Packetized.aggregateUnits []) ::
        (sentPayloads codec whole).map (·.payload)) = _ at h
      rw [completions_cons (depacketize_incomplete fragment hincomplete)] at h
      obtain ⟨more, hmore, rfl⟩ := Option.map_eq_some_iff.mp h
      obtain ⟨hle, hall⟩ := hrest hmore
      have hnone : nalBytes (Packetized.aggregate head []).nals = 0 := rfl
      rw [List.flatten_cons, List.nil_append, hnone, Nat.zero_add]
      exact ⟨hle, fun heq => List.forall_mem_cons.mpr ⟨hincomplete, hall heq⟩⟩
    -- a fragmented NAL never survives
    | fragmented nal pieces =>
      refine absurd (hkind.resolve_left ?_) id
      rintro ⟨_, ⟨⟩⟩

/-- What is passed on as it is, is among what is read. -/
theorem mem_completions {payloads : List Bytes} {payload : Bytes} (hmem : payload ∈ payloads)
    (hwhole : ∀ fragment, depacketize found fragment payload = some ([payload], fragment))
    {fragment : Option Bytes} {reading : List (List Bytes)}
    (h : completions found fragment payloads = some reading) : [payload] ∈ reading := by
  -- on the payloads
  induction payloads generalizing fragment reading with
  | nil => cases hmem
  | cons first payloads ih =>
    rw [completions] at h
    split at h
    · cases h
    · next nals fragment' hstep =>
      obtain ⟨more, hmore, rfl⟩ := Option.map_eq_some_iff.mp h
      rcases List.mem_cons.mp hmem with rfl | hmem
      · cases hstep.symm.trans (hwhole fragment)
        exact List.mem_cons_self
      · exact List.mem_cons_of_mem _ (ih hmem hmore)

/-- **Only a stream that survives is read as it was sent** under the other codec. -/
theorem survives_of_completions (hne : found ≠ codec) {whole : List Packetized}
    (hwhole : ∀ choice ∈ whole, choice.WellFormed codec) {reading : List (List Bytes)}
    (h : completions found none ((sentPayloads codec whole).map (·.payload)) = some reading)
    (hsame : reading.flatten.filter found.complete = whole.flatMap Packetized.nals) :
    ∀ choice ∈ whole, choice.Survives found := by
  -- an aggregate or a fragment that is passed on as it is would be a NAL of its own type
  have hforeign : ∀ payload ∈ sentPayloads codec whole, found.complete payload.payload →
      ¬ (codec.nalType (payload.payload.getD 0 0) = codec.aggregateType ∨
        codec.nalType (payload.payload.getD 0 0) = codec.fragmentType) := by
    intro payload hpayload hcomplete htype
    obtain ⟨hagg, hfu⟩ := foreign_whole hne htype
    have hmem := mem_completions (List.mem_map_of_mem hpayload)
      (fun fragment => depacketize_whole fragment hcomplete hagg hfu) h
    have hnal : payload.payload ∈ whole.flatMap Packetized.nals := by
      rw [← hsame]
      exact List.mem_filter.mpr
        ⟨List.mem_flatten.mpr ⟨_, hmem, List.mem_singleton_self _⟩, hcomplete⟩
    obtain ⟨choice, hchoice, hin⟩ := List.mem_flatMap.mp hnal
    obtain ⟨hnotAgg, hnotFu⟩ := carries_type (carries_nals (hwhole choice hchoice) _ hin)
    exact htype.elim hnotAgg hnotFu
  -- so only single NALs are left to be counted
  have hkinds : ∀ choice ∈ whole, (∃ nal, choice = .single nal) ∨ choice.Survives found := by
    intro choice hchoice
    match choice, hchoice, hwhole choice hchoice with
    | .single nal, _, _ => exact Or.inl ⟨nal, rfl⟩
    -- an aggregate with NALs would be read as a NAL
    | .aggregate head nals, hchoice, ⟨hlen, htype, _⟩ =>
      right
      intro hcomplete
      have hfirst : (head ++ Packetized.aggregateUnits nals).getD 0 0 = head.getD 0 0 := by
        cases head with
        | nil =>
          have hzero : 0 = codec.header := hlen
          exact absurd codec.header_pos (hzero ▸ Nat.lt_irrefl 0)
        | cons byte head => rfl
      exact hforeign _ (List.mem_flatMap_of_mem hchoice List.mem_cons_self) hcomplete
        (Or.inl (hfirst ▸ htype))
    -- and so would the first fragment
    | .fragmented nal (piece :: pieces), hchoice, ⟨hnal, _, _⟩ =>
      have hcomplete : found.complete (Packetized.fragment codec nal true false piece) := by
        cases codec <;> cases found <;>
          simp [VideoCodec.complete, VideoCodec.header, Packetized.fragment,
            Packetized.fragmentHead]
      have htype : codec.nalType ((Packetized.fragment codec nal true false piece).getD 0 0) =
          codec.fragmentType := by
        cases codec with
        | h264 => exact (h264Header_rebuilt (nal.getD 0 0)).2
        | hevc => exact (hevcHeader_rebuilt (nal.getD 0 0)).2
      exact absurd (Or.inr htype)
        (hforeign _ (List.mem_flatMap_of_mem hchoice List.mem_cons_self) hcomplete)
  -- the bytes that were read are those that were sent
  apply (nalBytes_completions hwhole hkinds h).2
  rw [hsame]
  exact (Nat.zero_add _).symm

/-- Nothing of a stream is in the way of reading it as it was sent: it is within the bound of the
buffer, or it survives under the other codec. -/
def Readable (codec found : VideoCodec) (whole : List Packetized) : Prop :=
  if found = codec then ∀ choice ∈ whole, choice.Fits else ∀ choice ∈ whole, choice.Survives found

/-- A readable stream is read as it was sent, and every NAL of it has a header. -/
theorem reads_as_sent {whole : List Packetized} (hwhole : ∀ choice ∈ whole, choice.WellFormed codec)
    (h : Readable codec found whole) :
    completions found none ((sentPayloads codec whole).map (·.payload)) =
        some ((sentPayloads codec whole).map (·.completes)) ∧
      ∀ payload ∈ sentPayloads codec whole, ∀ nal ∈ payload.completes, found.complete nal := by
  have hsource : ∀ payload ∈ sentPayloads codec whole, ∀ nal ∈ payload.completes,
      ∃ choice ∈ whole, nal ∈ choice.nals := by
    intro payload hpayload nal hnal
    apply List.mem_flatMap.mp
    rw [← completes_sentPayloads hwhole]
    exact List.mem_flatMap_of_mem hpayload hnal
  unfold Readable at h
  -- its own codec reads it by the choices of the sender, another one if every choice survives
  split_ifs at h with hown
  · subst hown
    refine ⟨(completions_sent hwhole).trans (if_pos h), fun payload hpayload nal hnal => ?_⟩
    obtain ⟨choice, hchoice, hin⟩ := hsource payload hpayload nal hnal
    exact (Bool.and_eq_true_iff.mp (carries_nals (hwhole choice hchoice) nal hin)).1
  · refine ⟨completions_survives hwhole h, fun payload hpayload nal hnal => ?_⟩
    obtain ⟨choice, hchoice, hin⟩ := hsource payload hpayload nal hnal
    -- a NAL comes from a choice that survives
    match choice, hwhole choice hchoice, h choice hchoice, hin with
    | .single _, _, ⟨hsingle, _⟩, hin =>
      rw [List.mem_singleton.mp hin]
      exact hsingle
    | .aggregate head nals, ⟨hlen, _, _⟩, hincomplete, hin =>
      have hempty : (Packetized.aggregate head nals).nals = [] := nals_eq_nil hlen hincomplete
      exact absurd hin (hempty ▸ List.not_mem_nil)

/-- Every payload has its NALs. -/
theorem length_completions {fragment : Option Bytes} {payloads : List Bytes}
    {reading : List (List Bytes)} (h : completions found fragment payloads = some reading) :
    reading.length = payloads.length := by
  -- on the payloads
  induction payloads generalizing fragment reading with
  | nil =>
    cases h
    rfl
  | cons payload payloads ih =>
    rw [completions] at h
    split at h
    · cases h
    · obtain ⟨more, hmore, rfl⟩ := Option.map_eq_some_iff.mp h
      rw [List.length_cons, List.length_cons, ih hmore]

/-- The NALs behind the start codes that a session emits. -/
theorem promptChunks_nals {rtps : List RtpPacket} {reading : List (List Bytes)}
    (h : rtps.length = reading.length) :
    ((List.zipWith (fun rtp nals => (⟨rtp.timestamp, rtp.marker, nals⟩ : NalPacket)) rtps
      reading).flatMap (promptChunks found)).map Prod.snd =
        (reading.flatten.filter found.complete).map annexB := by
  -- on the packets and their NALs together
  induction rtps generalizing reading with
  | nil =>
    rw [List.eq_nil_of_length_eq_zero h.symm]
    rfl
  | cons rtp rtps ih =>
    cases reading with
    | nil => cases h
    | cons nals reading =>
      rw [List.zipWith_cons_cons, List.flatMap_cons, List.map_append, ih (Nat.succ.inj h),
        List.flatten_cons, List.filter_append, List.map_append, promptChunks, List.map_map]
      rfl

end Foreign

/-! ### The property -/

namespace RtpVideo

variable {codec : VideoCodec} {video : UInt8} {stream : List Packetized}
  {packets : List Bytes} {k : ℕ}

/-- A session over the packets of a stream behind the first `k` does not identify a codec within its
bound, or it does not fail, and emits the NALs all of whose packets it has seen. -/
def Joins (aes : Aes128) (codec : VideoCodec) (video : UInt8) (stream : List Packetized) (k : ℕ)
    (packets : List Bytes) : Prop :=
  let session := Transducer.run (feed aes) clear packets
  session.2.codec = none ∨
    ∃ items, session.1 = .ok items ∧
      emitted items = expected
        ((videoPackets video packets).drop (joined codec k stream).1.length)
        (sentPayloads codec (joined codec k stream).2)

/-- Where a codec is identified, the cut is between NALs; under the own codec every fragmented NAL
is within the bound, and under the other one everything survives. -/
def JoinsCleanly (codec : VideoCodec) (stream : List Packetized) (k : ℕ) (packets : List Bytes) :
    Prop :=
  ∀ found type, selection 0 0 packets = some (found, type) →
    (joined codec k stream).1 = [] ∧ Readable codec found (joined codec k stream).2

/-- The packets of one payload type are all packets of that type. -/
theorem selection_video {found : VideoCodec} {type : UInt8} {count bytes : ℕ}
    (h : ∀ packet ∈ packets, ∃ rtp, parseRtp packet = .ok rtp ∧ rtp.payloadType = video)
    (hsel : selection count bytes packets = some (found, type)) : type = video := by
  -- on the packets that the probe reads
  induction packets generalizing count bytes with
  | nil => cases hsel
  | cons packet packets ih =>
    obtain ⟨rtp, hrtp, hvideo⟩ := h packet List.mem_cons_self
    rw [selection, hrtp] at hsel
    dsimp only at hsel
    -- the probe gives up, decides, or goes on
    split at hsel
    · cases hsel
    · split at hsel
      · cases hsel
        exact hvideo
      · exact ih (fun other hother => h other (List.mem_cons_of_mem _ hother)) hsel

/-- The first fragment behind a cut inside of a NAL names the codec. -/
theorem detectCodec_laterFragments {nal payload : Bytes} {pieces payloads : List Bytes}
    {rest : List SentPayload} (hne : pieces ≠ [])
    (hsent : payload :: payloads =
      (Packetized.laterFragments codec nal pieces ++ rest).map (·.payload)) :
    detectCodec payload.head? = some codec := by
  -- the first of the fragments that are left
  match pieces with
  | [piece] =>
    have hfirst : payload = _ := (List.cons.inj hsent).1
    rw [hfirst]
    exact detectCodec_fragment nal false true piece
  | piece :: next :: pieces =>
    have hfirst : payload = _ := (List.cons.inj hsent).1
    rw [hfirst]
    exact detectCodec_fragment nal false false piece

/-- **A cut inside of a NAL** is fatal: the first fragment that is left names the codec, and the
last one is an error. -/
theorem fails_inside (aes : Aes128) {nal : Bytes} {pieces : List Bytes} {rest : List SentPayload}
    (h : ∀ packet ∈ packets, ∃ rtp, parseRtp packet = .ok rtp ∧ rtp.payloadType = video)
    (hsent : (videoPackets video packets).map (·.payload) =
      (Packetized.laterFragments codec nal pieces ++ rest).map (·.payload))
    (hnal : codec.complete nal) (hne : pieces ≠ []) {found : VideoCodec} {type : UInt8}
    (hsel : selection 0 0 packets = some (found, type)) :
    ∃ e, (Transducer.run (feed aes) clear packets).1 = .error e := by
  -- the probe reads every packet
  have hparse : ∀ packet ∈ packets, ∃ rtp, parseRtp packet = .ok rtp := by
    intro packet hmem
    obtain ⟨rtp, hrtp, -⟩ := h packet hmem
    exact ⟨rtp, hrtp⟩
  obtain rfl := selection_video h hsel
  have hfound : found = codec := by
    cases packets with
    | nil => cases hsel
    | cons packet packets =>
      obtain ⟨rtp, hrtp, htype⟩ := h packet List.mem_cons_self
      rw [← List.singleton_append, videoPackets_append, videoPackets_singleton hrtp, if_pos htype]
        at hsent
      -- the probe stops at this packet, or it is over its bound
      rw [selection, hrtp] at hsel
      dsimp only at hsel
      rw [detectCodec_laterFragments hne hsent] at hsel
      split at hsel
      · cases hsel
      · cases hsel
        rfl
  -- the session fails at the last fragment, which was not started
  subst hfound
  apply (clear_session aes hparse hsel).2
  rw [nalPackets_eq, hsent, List.map_append, completions_orphans hnal hne]
  rfl

/-- **A cut between NALs.** The session emits what was sent exactly when it is readable. -/
theorem emits_iff (aes : Aes128) {whole : List Packetized}
    (hwhole : ∀ choice ∈ whole, choice.WellFormed codec)
    (hparse : ∀ packet ∈ packets, ∃ rtp, parseRtp packet = .ok rtp)
    (hsent : (videoPackets video packets).map (·.payload) =
      (sentPayloads codec whole).map (·.payload))
    {found : VideoCodec} (hsel : selection 0 0 packets = some (found, video)) :
    (∃ items, (Transducer.run (feed aes) clear packets).1 = .ok items ∧
        emitted items = expected (videoPackets video packets) (sentPayloads codec whole)) ↔
      Readable codec found whole := by
  -- as many packets as payloads
  have hlength := congrArg List.length hsent
  rw [List.length_map, List.length_map] at hlength
  obtain ⟨haccepts, hrefuses⟩ := clear_session aes hparse hsel
  rw [nalPackets_eq, hsent] at haccepts hrefuses
  -- the session emits: then what it has read is what was sent
  constructor
  · rintro ⟨items, hitems, hemitted⟩
    cases hreading : completions found none ((sentPayloads codec whole).map (·.payload)) with
    | none =>
      -- the session would have failed
      rw [hreading] at hrefuses
      obtain ⟨e, he⟩ := hrefuses rfl
      cases hitems.symm.trans he
    | some reading =>
      unfold Readable
      split_ifs with hown
      -- its own codec reads everything, unless a NAL is too large
      · subst hown
        rw [completions_sent hwhole] at hreading
        by_contra hfits
        rw [if_neg hfits] at hreading
        cases hreading
      -- another codec reads only what survives
      · apply survives_of_completions hown hwhole hreading
        rw [hreading] at haccepts
        obtain ⟨items', hitems', hemitted'⟩ := haccepts _ rfl
        cases hitems.symm.trans hitems'
        have hbytes := congrArg (List.map Prod.snd) (hemitted'.symm.trans hemitted)
        have hcount := (length_completions hreading).trans (List.length_map _)
        rw [promptChunks_nals (hlength.trans hcount.symm), expected_nals hlength,
          completes_sentPayloads hwhole] at hbytes
        exact List.map_injective_iff.mpr (fun _ _ h => List.append_cancel_left h) hbytes
  -- the stream is readable: then the session emits it
  · intro hreadable
    obtain ⟨hread, hcomplete⟩ := reads_as_sent hwhole hreadable
    rw [hread] at haccepts
    obtain ⟨items, hitems, hemitted⟩ := haccepts _ rfl
    exact ⟨items, hitems, hemitted.trans (promptChunks_sent hcomplete)⟩

/-- **Exactly when a session may join.** Over the packets of a well-formed stream behind the first
`k`, a session that identifies a codec emits the NALs all of whose packets it has seen, without an
error, if and only if the cut is between NALs and the stream is within the other limits of a
session. -/
theorem joins_iff (aes : Aes128) (hstream : ∀ choice ∈ stream, choice.WellFormed codec)
    (hpackets : ∀ packet ∈ packets, ∃ rtp, parseRtp packet = .ok rtp ∧ rtp.payloadType = video)
    (hsent : (videoPackets video packets).map (·.payload) =
      ((sentPayloads codec stream).drop k).map (·.payload)) :
    Joins aes codec video stream k packets ↔ JoinsCleanly codec stream k packets := by
  -- every packet is an RTP packet
  have hparse : ∀ packet ∈ packets, ∃ rtp, parseRtp packet = .ok rtp := by
    intro packet hmem
    obtain ⟨rtp, hrtp, -⟩ := hpackets packet hmem
    exact ⟨rtp, hrtp⟩
  have hdecided : (Transducer.run (feed aes) clear packets).2.Decided (selection 0 0 packets) :=
    run_selection aes rfl rfl hparse
  have hwhole : ∀ choice ∈ (joined codec k stream).2, choice.WellFormed codec :=
    fun choice hchoice => hstream choice (mem_of_mem_joined hchoice)
  -- the payloads behind the cut
  rw [drop_sentPayloads] at hsent
  unfold Joins JoinsCleanly
  dsimp only
  -- no codec is identified, or one is
  cases hsel : selection 0 0 packets with
  | none =>
    rw [hsel] at hdecided
    exact ⟨fun _ _ _ hnone => (nomatch hnone), fun _ => Or.inl hdecided.1⟩
  | some decision =>
    obtain ⟨found, type⟩ := decision
    obtain rfl := selection_video hpackets hsel
    rw [hsel] at hdecided
    -- a codec is identified, so what counts is what the session emits
    have hcodec : (Transducer.run (feed aes) clear packets).2.codec ≠ none := by
      rw [hdecided.1]
      exact Option.some_ne_none found
    rw [or_iff_right hcodec]
    -- the cut lies between NALs, or inside of one
    rcases joined_missed hstream with hnone | ⟨nal, pieces, hnal, hne, hmissed⟩
    · rw [hnone, List.nil_append] at hsent
      rw [hnone, List.length_nil, List.drop_zero, emits_iff aes hwhole hparse hsent hsel]
      constructor
      · intro hreadable found' type' hdecision
        cases hdecision
        exact ⟨rfl, hreadable⟩
      · exact fun hclean => (hclean found type rfl).2
    -- inside of a NAL the session fails, and the condition does not hold
    · rw [hmissed] at hsent ⊢
      obtain ⟨e, he⟩ := fails_inside aes hpackets hsent (Bool.and_eq_true_iff.mp hnal).1 hne hsel
      constructor
      · rintro ⟨items, hitems, -⟩
        cases hitems.symm.trans he
      · intro hclean
        have hcount := congrArg List.length (hclean found type rfl).1
        rw [length_laterFragments] at hcount
        exact absurd (List.length_eq_zero_iff.mp hcount) hne

/-- A session that joins at the IDR slice of the stream. -/
theorem joins_at_slice : Joins noCipher .h264 0x60 mixedStream 2 (mixedPackets.drop 2) := by
  have hrtp : ∀ packet ∈ mixedPackets.drop 2, (parseRtp packet).toOption.map (·.payloadType) =
      some 0x60 := by decide
  -- the theorem, at the packets behind the second
  refine (joins_iff noCipher (by decide) ?_ (by decide)).2 ?_
  · intro packet hmem
    have hvideo := hrtp packet hmem
    cases hparse : parseRtp packet with
    | error e =>
      rw [hparse] at hvideo
      cases hvideo
    | ok rtp =>
      rw [hparse] at hvideo
      exact ⟨rtp, rfl, Option.some.inj hvideo⟩
  -- the probe finds the codec of the stream
  · intro found type hsel
    have hown : selection 0 0 (mixedPackets.drop 2) = some (.h264, 0x60) := by decide
    cases hsel.symm.trans hown
    refine ⟨by decide, ?_⟩
    rw [Readable, if_pos rfl]
    decide

/-- **One packet later** the same session fails at the last fragment of the slice. -/
theorem joining_inside_slice_fails :
    (Transducer.run (feed noCipher) clear (mixedPackets.drop 3)).1 =
        .error (.upstream "RTP fragment ended before it started") ∧
      (videoPackets 0x60 (mixedPackets.drop 3)).map (·.payload) =
        ((sentPayloads .h264 mixedStream).drop 3).map (·.payload) ∧
      (∀ choice ∈ mixedStream, choice.WellFormed .h264) ∧
      ¬ Joins noCipher .h264 0x60 mixedStream 3 (mixedPackets.drop 3) := by
  -- the session is evaluated
  have herror : (Transducer.run (feed noCipher) clear (mixedPackets.drop 3)).1 =
      .error (.upstream "RTP fragment ended before it started") := by decide
  refine ⟨herror, by decide, by decide, ?_⟩
  rintro (hunidentified | ⟨items, hitems, -⟩)
  · revert hunidentified
    decide
  · cases herror.symm.trans hitems

end RtpVideo

end EzvizBridge
