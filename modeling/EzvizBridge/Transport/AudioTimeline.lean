import EzvizBridge.Transport.AudioProbe
import EzvizBridge.Transport.RtpTsUnits

/-!
# The audio timeline

A packet that `frames` can read is stamped from a running sum of timestamp differences (`offset`)
and from an anchor that the first readable packet sets (`anchorOf`). Both are functions of the
packets passed so far: `Clocked` says that the track holds exactly these, and packets that cannot be
read have no part in them. The rounding is applied to the sum, so it cannot accumulate; with exact
arithmetic every time stamp would be within one tick of the rational time.

The arithmetic is that of `i64`, and the product with 90000 leaves its range long before the sum
does. `OnTimeline` is what the track is meant to satisfy, `WithinI64` says that no intermediate
result leaves the range, and `timeline_exact_iff` that one is the other: a packet whose product has
wrapped is never on the timeline by accident, because a step of the clock is too small to wrap it
twice.
-/

namespace EzvizBridge

namespace AudioTrack

open Aac

/-- A packet passed to `frames`: its timestamp, its payload and the video PTS at that time. -/
abbrev Arrival := UInt32 × Bytes × ℤ

/-- The tracks of which no frame has been asked yet: they have been through the probe alone. -/
inductive Fresh : AudioTrack → Prop
  | new : Fresh {}
  | detect {track : AudioTrack} (h : Fresh track) (payloadType : UInt8) (timestamp : UInt32)
      (payload : Bytes) (videoPts : ℤ) : Fresh (track.detect payloadType timestamp payload videoPts)
  | giveUp {track : AudioTrack} (h : Fresh track) : Fresh track.giveUp
  /-- `discard_pending`, and the first line of `drain_pending`. -/
  | cleared {track : AudioTrack} (h : Fresh track) : Fresh { track with pending := [] }

/-! ### What the timeline is made of -/

/-- The timestamps of the packets that can be read. -/
def stampsOf (packets : List Arrival) : List UInt32 :=
  packets.filterMap fun packet => (accessUnits packet.2.1).map fun _ => packet.1

/-- The anchor: the video PTS at the first packet that can be read, less the frames that had begun
before its last one. -/
def anchorOf (packets : List Arrival) : Option ℤ :=
  packets.findSome? fun packet =>
    (accessUnits packet.2.1).map fun units => packet.2.2 - 5760 * (units.length - 1)

/-- The sum of the signed differences of the timestamps that can be read, up to `packet`. -/
def offset (front : List Arrival) (packet : Arrival) : ℤ := elapsed (stampsOf (front ++ [packet]))

/-- The time of a sample in ticks of the 90 kHz clock, rounded towards zero, behind the anchor. -/
def exactPts (anchor samples : ℤ) : ℤ := anchor + (samples * 90000).tdiv 16000

/-- The track behind the packets `front`. -/
def after (type : UInt8) (track : AudioTrack) (front : List Arrival) : AudioTrack :=
  (framesOfAll type track front).2

/-- The time stamps of the frames of `packet`, passed behind the packets `front`. -/
def ptsAt (type : UInt8) (track : AudioTrack) (front : List Arrival) (packet : Arrival) : List ℤ :=
  ((after type track front).frames type packet.1 packet.2.1 packet.2.2).1.map Prod.fst

/-- The timeline does not drift over `packets`. -/
structure OnTimeline (type : UInt8) (track : AudioTrack) (packets : List Arrival) : Prop where
  /-- The anchor is that of the first packet that can be read. -/
  anchored : ∀ front back, packets = front ++ back →
    (after type track front).anchor = anchorOf front
  /-- Once set, it does not change. -/
  steady : ∀ front back anchor, packets = front ++ back →
    (after type track front).anchor = some anchor →
    (after type track packets).anchor = some anchor
  /-- Every unit has the time of its first sample. -/
  stamped : ∀ front packet back units anchor, packets = front ++ packet :: back →
    accessUnits packet.2.1 = some units → anchorOf packets = some anchor →
    ptsAt type track front packet =
      (List.range units.length).map fun j : ℕ =>
        exactPts anchor (offset front packet + 1024 * (j : ℤ))
  /-- It is less than one tick away from the exact time. -/
  near : ∀ front packet back anchor (j : ℕ) (pts : ℤ), packets = front ++ packet :: back →
    anchorOf packets = some anchor → (ptsAt type track front packet)[j]? = some pts →
    |(pts : ℚ) - (anchor + ((offset front packet + 1024 * j : ℤ) : ℚ) * 90000 / 16000)| < 1
  /-- Packets a whole number of frames apart are so many times 5760 ticks apart. -/
  spaced : ∀ front packet back front' packet' back' (k j : ℕ) (pts pts' : ℤ),
    packets = front ++ packet :: back → packets = front' ++ packet' :: back' →
    0 ≤ offset front packet → offset front' packet' = offset front packet + 1024 * k →
    (ptsAt type track front packet)[j]? = some pts →
    (ptsAt type track front' packet')[j]? = some pts' → pts' = pts + 5760 * k

/-- No intermediate result leaves the range of an `i64`. -/
def WithinI64 (packets : List Arrival) : Prop :=
  ∀ front packet back units anchor, packets = front ++ packet :: back →
    accessUnits packet.2.1 = some units → anchorOf packets = some anchor →
    FitsI64 anchor ∧ ∀ j < units.length,
      FitsI64 ((offset front packet + 1024 * j) * 90000) ∧
      FitsI64 (exactPts anchor (offset front packet + 1024 * j))

/-! ### The state behind some packets -/

variable {type : UInt8} {track : AudioTrack} {front back packets : List Arrival} {packet : Arrival}
  {units : List Bytes}

theorem giveUp_clock (self : AudioTrack) :
    self.giveUp.clock = self.clock ∧ self.giveUp.anchor = self.anchor := by
  unfold giveUp
  dsimp only
  split <;> exact ⟨rfl, rfl⟩

/-- The probe touches neither the clock nor the anchor. -/
theorem detect_clock (self : AudioTrack) (payloadType : UInt8) (timestamp : UInt32)
    (payload : Bytes) (videoPts : ℤ) :
    (self.detect payloadType timestamp payload videoPts).clock = self.clock ∧
    (self.detect payloadType timestamp payload videoPts).anchor = self.anchor := by
  unfold detect
  split
  · exact ⟨rfl, rfl⟩
  · dsimp only
    rw [consider_frame]
    split
    · split
      · exact ⟨rfl, rfl⟩
      · split
        · exact giveUp_clock _
        · exact ⟨rfl, rfl⟩
    · split
      · exact giveUp_clock _
      · exact ⟨rfl, rfl⟩

/-- The clock of a track that has made no frame is new, and there is no anchor. -/
theorem Fresh.clock_anchor (h : Fresh track) : track.clock = {} ∧ track.anchor = none := by
  induction h with
  | new => exact ⟨rfl, rfl⟩
  | cleared _ ih => exact ih
  | giveUp _ ih =>
    obtain ⟨hclock, hanchor⟩ := giveUp_clock _
    exact ⟨hclock.trans ih.1, hanchor.trans ih.2⟩
  | detect _ payloadType timestamp payload videoPts ih =>
    obtain ⟨hclock, hanchor⟩ := detect_clock _ payloadType timestamp payload videoPts
    exact ⟨hclock.trans ih.1, hanchor.trans ih.2⟩

theorem stampsOf_concat (h : accessUnits packet.2.1 = some units) :
    stampsOf (front ++ [packet]) = stampsOf front ++ [packet.1] := by
  rw [stampsOf, List.filterMap_append, List.filterMap_cons_some (by rw [h]; rfl)]
  rfl

theorem stampsOf_concat_of_none (h : accessUnits packet.2.1 = none) :
    stampsOf (front ++ [packet]) = stampsOf front := by
  rw [stampsOf, List.filterMap_append, List.filterMap_cons_none (by rw [h]; rfl)]
  exact List.append_nil _

theorem anchorOf_append (front back : List Arrival) :
    anchorOf (front ++ back) = (anchorOf front).or (anchorOf back) :=
  List.findSome?_append

theorem anchorOf_singleton (h : accessUnits packet.2.1 = some units) :
    anchorOf [packet] = some (packet.2.2 - 5760 * (units.length - 1)) := by
  rw [anchorOf, List.findSome?_singleton, h]
  rfl

/-- The anchor of a run is settled by its first packets. -/
theorem anchorOf_append_of_some {anchor : ℤ} (h : anchorOf front = some anchor)
    (back : List Arrival) : anchorOf (front ++ back) = some anchor := by
  rw [anchorOf_append, h, Option.some_or]

theorem anchorOf_concat_of_none (h : accessUnits packet.2.1 = none) :
    anchorOf (front ++ [packet]) = anchorOf front := by
  have hnone : anchorOf [packet] = none := by
    rw [anchorOf, List.findSome?_singleton, h]
    rfl
  rw [anchorOf_append, hnone, Option.or_none]

theorem framesOfAll_append (type : UInt8) (track : AudioTrack) (front back : List Arrival) :
    framesOfAll type track (front ++ back) =
      ((framesOfAll type track front).1 ++ (framesOfAll type (after type track front) back).1,
        (framesOfAll type (after type track front) back).2) := by
  induction front generalizing track with
  | nil => rfl
  | cons packet front ih =>
    simp only [List.cons_append, framesOfAll, ih, List.append_assoc]
    rfl

theorem after_concat (type : UInt8) (track : AudioTrack) (front : List Arrival) (packet : Arrival) :
    after type track (front ++ [packet]) =
      ((after type track front).frames type packet.1 packet.2.1 packet.2.2).2 := by
  rw [after, framesOfAll_append]
  rfl

/-- The track holds the clock and the anchor of the packets passed so far. -/
structure Clocked (type : UInt8) (front : List Arrival) (track : AudioTrack) : Prop where
  type_eq : track.payloadType = some type
  clock_eq : track.clock = clockOf (stampsOf front)
  anchor_eq : track.anchor = (anchorOf front).map wrapI64

/-- The time stamp as the code computes it. -/
def wrappedPts (anchor samples : ℤ) : ℤ :=
  wrapI64 (anchor + (wrapI64 (samples * 90000)).tdiv 16000)

theorem stampFrames_pts (anchor elapsed : ℤ) (units : List Bytes) (index : ℕ) (self : AudioTrack) :
    (stampFrames anchor elapsed index self units).1.map Prod.fst =
      (List.range units.length).map fun j =>
        wrappedPts anchor (elapsed + 1024 * (index + j : ℕ)) := by
  induction units generalizing index self with
  | nil => rfl
  | cons unit units ih =>
    rw [List.length_cons, List.range_succ_eq_map, List.map_cons, List.map_map]
    refine congrArg₂ List.cons ?_ ((ih (index + 1) _).trans ?_)
    · rw [wrappedPts, add_zero, mul_comm 1024]
      rfl
    · refine List.map_congr_left fun j _ => ?_
      rw [Function.comp_apply, Nat.succ_eq_add_one, add_assoc, add_comm 1 j]

/-- The loop of `frames` writes the channels alone. -/
theorem stampFrames_state (anchor elapsed : ℤ) (units : List Bytes) (index : ℕ)
    (self : AudioTrack) :
    (stampFrames anchor elapsed index self units).2 = { self with
      channels := (stampFrames anchor elapsed index self units).2.channels } := by
  induction units generalizing index self with
  | nil => rfl
  | cons unit units ih => exact ih (index + 1) _

/-- A packet that can be read, passed to a track that holds its clock and its anchor. -/
theorem Clocked.frames_readable (h : Clocked type front track)
    (hread : accessUnits packet.2.1 = some units) {anchor : ℤ}
    (hanchor : anchorOf (front ++ [packet]) = some anchor) :
    let result := track.frames type packet.1 packet.2.1 packet.2.2
    result.1.map Prod.fst = (List.range units.length).map (fun j =>
        wrappedPts (wrapI64 anchor) (offset front packet + 1024 * (j : ℕ))) ∧
      Clocked type (front ++ [packet]) result.2 := by
  intro result
  have hclock : track.clock.advance packet.1 =
      (offset front packet, clockOf (stampsOf (front ++ [packet]))) := by
    rw [h.clock_eq, clockOf_advance, offset, stampsOf_concat hread]
  have hcount : ((units.length - 1 : ℕ) : ℤ) = units.length - 1 := by
    have := List.length_pos_iff.mpr (accessUnits_ne_nil hread)
    omega
  -- the anchor is the one that is set, or this packet sets it
  have hset : track.anchor.getD (wrapI64 (packet.2.2 - (units.length - 1 : ℕ) * frameTicks)) =
      wrapI64 anchor := by
    rw [h.anchor_eq]
    rw [anchorOf_append] at hanchor
    cases hfront : anchorOf front with
    | some first =>
      rw [hfront, Option.some_or] at hanchor
      rw [Option.some.inj hanchor]
      rfl
    | none =>
      rw [hfront, Option.none_or, anchorOf_singleton hread] at hanchor
      rw [← Option.some.inj hanchor, hcount, mul_comm]
      rfl
  have hresult : result = stampFrames (wrapI64 anchor) (offset front packet) 0 { track with
      clock := clockOf (stampsOf (front ++ [packet]))
      anchor := some (wrapI64 anchor) } units := by
    simp only [result, frames, h.type_eq, ne_eq, not_true_eq_false, if_false, hread, hclock, hset]
  rw [hresult]
  refine ⟨?_, ?_⟩
  · rw [stampFrames_pts]
    simp only [Nat.zero_add]
  · rw [stampFrames_state]
    exact ⟨h.type_eq, rfl, by rw [hanchor]; rfl⟩

/-- A packet that cannot be read leaves the track as it is. -/
theorem Clocked.frames_unreadable (h : Clocked type front track)
    (hread : accessUnits packet.2.1 = none) :
    track.frames type packet.1 packet.2.1 packet.2.2 = ([], track) ∧
      Clocked type (front ++ [packet]) track := by
  refine ⟨?_, h.type_eq, ?_, ?_⟩
  · simp only [frames, h.type_eq, ne_eq, not_true_eq_false, if_false, hread]
  · rw [stampsOf_concat_of_none hread]
    exact h.clock_eq
  · rw [anchorOf_concat_of_none hread]
    exact h.anchor_eq

/-- There is an anchor as soon as a packet can be read. -/
theorem exists_anchor (hread : accessUnits packet.2.1 = some units) (front : List Arrival) :
    ∃ anchor, anchorOf (front ++ [packet]) = some anchor := by
  rw [anchorOf_append, anchorOf_singleton hread]
  cases anchorOf front with
  | none => exact ⟨_, rfl⟩
  | some anchor => exact ⟨anchor, rfl⟩

/-- It is that of the whole run. -/
theorem exists_anchor_of_split (hsplit : packets = front ++ packet :: back)
    (hread : accessUnits packet.2.1 = some units) :
    ∃ anchor, anchorOf packets = some anchor ∧ anchorOf (front ++ [packet]) = some anchor := by
  obtain ⟨anchor, hanchor⟩ := exists_anchor hread front
  refine ⟨anchor, ?_, hanchor⟩
  rw [hsplit, ← List.singleton_append, ← List.append_assoc]
  exact anchorOf_append_of_some hanchor back

/-- **Behind any packets**, readable or not. -/
theorem after_clocked (hfresh : Fresh track) (htype : track.payloadType = some type)
    (front : List Arrival) : Clocked type front (after type track front) := by
  induction front using List.reverseRecOn with
  | nil =>
    obtain ⟨hclock, hanchor⟩ := hfresh.clock_anchor
    exact ⟨htype, hclock, hanchor⟩
  | append_singleton front packet ih =>
    rw [after_concat]
    cases hread : accessUnits packet.2.1 with
    | none =>
      obtain ⟨hframes, hclocked⟩ := ih.frames_unreadable hread
      rw [hframes]
      exact hclocked
    | some units =>
      obtain ⟨anchor, hanchor⟩ := exists_anchor hread front
      exact (ih.frames_readable hread hanchor).2

/-- The time stamps of a packet, as the code computes them. -/
theorem ptsAt_eq (hfresh : Fresh track) (htype : track.payloadType = some type)
    (hsplit : packets = front ++ packet :: back) (hread : accessUnits packet.2.1 = some units)
    {anchor : ℤ} (hanchor : anchorOf packets = some anchor) :
    ptsAt type track front packet = (List.range units.length).map fun j =>
      wrappedPts (wrapI64 anchor) (offset front packet + 1024 * (j : ℕ)) := by
  obtain ⟨anchor', hsame, hanchor'⟩ := exists_anchor_of_split hsplit hread
  obtain rfl := Option.some.inj (hanchor.symm.trans hsame)
  exact ((after_clocked hfresh htype front).frames_readable hread hanchor').1

theorem ptsAt_of_unreadable (hfresh : Fresh track) (htype : track.payloadType = some type)
    (hread : accessUnits packet.2.1 = none) : ptsAt type track front packet = [] := by
  rw [ptsAt, ((after_clocked hfresh htype front).frames_unreadable hread).1]
  rfl

/-! ### Within the range -/

/-- Within the range, the code computes the exact time stamps. -/
theorem wrappedPts_eq {anchor samples : ℤ} (hanchor : FitsI64 anchor)
    (hproduct : FitsI64 (samples * 90000)) (hpts : FitsI64 (exactPts anchor samples)) :
    wrappedPts (wrapI64 anchor) samples = exactPts anchor samples := by
  rw [wrappedPts, wrapI64_eq_self_iff.mpr hanchor, wrapI64_eq_self_iff.mpr hproduct]
  exact wrapI64_eq_self_iff.mpr hpts

/-- The time of a sample is less than one tick away from the rational time. -/
theorem abs_exactPts_sub_lt (anchor samples : ℤ) :
    |(exactPts anchor samples : ℚ) - (anchor + (samples : ℚ) * 90000 / 16000)| < 1 := by
  have hround := abs_tdiv_sub_lt (samples * 90000) (show (0 : ℤ) < 16000 by decide)
  rw [exactPts]
  push_cast at hround ⊢
  rwa [add_sub_add_left_eq_sub]

/-- A frame of 1024 samples lasts 5760 ticks, from any sample on that is not before the anchor. -/
theorem exactPts_add_frames {samples : ℤ} (h : 0 ≤ samples) (anchor : ℤ) (k : ℕ) :
    exactPts anchor (samples + 1024 * k) = exactPts anchor samples + 5760 * k := by
  have hticks : (samples + 1024 * k) * 90000 = samples * 90000 + 5760 * k * 16000 := by ring
  rw [exactPts, exactPts, hticks, add_mul_tdiv (by omega) (by omega) (by decide), add_assoc]

/-- **On the timeline.** -/
theorem onTimeline_of_within (hfresh : Fresh track) (htype : track.payloadType = some type)
    (h : WithinI64 packets) : OnTimeline type track packets := by
  have hanchored : ∀ front back, packets = front ++ back →
      (after type track front).anchor = anchorOf front := by
    intro front back hsplit
    rw [(after_clocked hfresh htype front).anchor_eq]
    cases hanchor : anchorOf front with
    | none => rfl
    | some anchor =>
      -- some packet has set it, and that one is within the range
      obtain ⟨before, packet, rest, rfl, hpacket, -⟩ := List.findSome?_eq_some_iff.mp hanchor
      obtain ⟨units, hread, -⟩ := Option.map_eq_some_iff.mp hpacket
      have hfits := (h before packet (rest ++ back) units anchor (by simp [hsplit]) hread
        (hsplit ▸ anchorOf_append_of_some hanchor back)).1
      rw [Option.map_some, wrapI64_eq_self_iff.mpr hfits]
  have hstamped : ∀ front packet back units anchor, packets = front ++ packet :: back →
      accessUnits packet.2.1 = some units → anchorOf packets = some anchor →
      ptsAt type track front packet = (List.range units.length).map fun j =>
        exactPts anchor (offset front packet + 1024 * (j : ℕ)) := by
    intro front packet back units anchor hsplit hread hanchor
    obtain ⟨hfits, hunits⟩ := h front packet back units anchor hsplit hread hanchor
    rw [ptsAt_eq hfresh htype hsplit hread hanchor]
    refine List.map_congr_left fun j hj => ?_
    obtain ⟨hproduct, hpts⟩ := hunits j (List.mem_range.mp hj)
    exact wrappedPts_eq hfits hproduct hpts
  -- the frame of one unit
  have hframe : ∀ front packet back anchor (j : ℕ) (pts : ℤ), packets = front ++ packet :: back →
      anchorOf packets = some anchor → (ptsAt type track front packet)[j]? = some pts →
      pts = exactPts anchor (offset front packet + 1024 * (j : ℕ)) := by
    intro front packet back anchor j pts hsplit hanchor hpts
    cases hread : accessUnits packet.2.1 with
    | none =>
      rw [ptsAt_of_unreadable hfresh htype hread] at hpts
      cases hpts
    | some units =>
      rw [hstamped front packet back units anchor hsplit hread hanchor, List.getElem?_map,
        Option.map_eq_some_iff] at hpts
      obtain ⟨i, hi, rfl⟩ := hpts
      obtain ⟨hlt, rfl⟩ := List.getElem?_eq_some_iff.mp hi
      rw [List.getElem_range]
  refine ⟨hanchored, ?_, hstamped, ?_, ?_⟩
  · intro front back anchor hsplit hset
    rw [hanchored front back hsplit] at hset
    rw [hanchored packets [] (List.append_nil _).symm, hsplit]
    exact anchorOf_append_of_some hset back
  · intro front packet back anchor j pts hsplit hanchor hpts
    rw [hframe front packet back anchor j pts hsplit hanchor hpts]
    exact abs_exactPts_sub_lt _ _
  · intro front packet back front' packet' back' k j pts pts' hsplit hsplit' hpos hoffset hpts hpts'
    have hanchor : ∃ anchor, anchorOf packets = some anchor := by
      cases hread : accessUnits packet.2.1 with
      | none =>
        rw [ptsAt_of_unreadable hfresh htype hread] at hpts
        cases hpts
      | some units =>
        obtain ⟨anchor, hanchor, -⟩ := exists_anchor_of_split hsplit hread
        exact ⟨anchor, hanchor⟩
    obtain ⟨anchor, hanchor⟩ := hanchor
    rw [hframe front packet back anchor j pts hsplit hanchor hpts,
      hframe front' packet' back' anchor j pts' hsplit' hanchor hpts', hoffset, add_right_comm]
    exact exactPts_add_frames (by omega) anchor k

/-! ### Out of the range -/

/-- A packet that can be read moves the sum by one step of the clock. -/
theorem offset_step (front : List Arrival) (hread : accessUnits packet.2.1 = some units) :
    |offset front packet - elapsed (stampsOf front)| ≤ 2 ^ 31 := by
  rw [offset, stampsOf_concat hread]
  obtain hnil | ⟨stamps, last, hstamps⟩ := List.eq_nil_or_concat (stampsOf front)
  · rw [hnil]
    show |(0 : ℤ) - 0| ≤ 2 ^ 31
    decide
  · rw [hstamps, List.concat_eq_append, elapsed_concat, add_sub_cancel_left, signedStep, abs_le]
    exact ⟨Int32.le_toInt _, (Int32.toInt_lt _).le⟩

/-- A packet on the timeline has not wrapped if the sum before it has not: one step of the clock is
too small to wrap the product twice. -/
theorem OnTimeline.fits (hfresh : Fresh track) (htype : track.payloadType = some type)
    (h : OnTimeline type track packets) (hsplit : packets = front ++ packet :: back)
    (hread : accessUnits packet.2.1 = some units) {anchor : ℤ}
    (hanchor : anchorOf packets = some anchor)
    (hbefore : FitsI64 (elapsed (stampsOf front) * 90000)) :
    FitsI64 anchor ∧ ∀ j < units.length,
      FitsI64 ((offset front packet + 1024 * j) * 90000) ∧
      FitsI64 (exactPts anchor (offset front packet + 1024 * j)) := by
  have hfits : FitsI64 anchor := by
    have hset := h.anchored packets [] (List.append_nil _).symm
    rw [(after_clocked hfresh htype packets).anchor_eq, hanchor] at hset
    exact wrapI64_eq_self_iff.mp (Option.some.inj hset)
  refine ⟨hfits, fun j hj => ?_⟩
  have hcode := (ptsAt_eq hfresh htype hsplit hread hanchor).symm.trans
    (h.stamped front packet back units anchor hsplit hread hanchor)
  have hexact := List.map_inj_left.mp hcode j (List.mem_range.mpr hj)
  rw [wrappedPts, wrapI64_eq_self_iff.mpr hfits] at hexact
  refine (wrapI64_add_tdiv_iff (by decide) (by decide) ?_).mp hexact
  -- at most 4095 units, behind at most one step
  obtain ⟨tagged, -, rfl, -, hcount, -⟩ := (accessUnits_eq_some_iff packet.2.1 units).mp hread
  rw [List.length_map] at hj
  have hstep := offset_step front hread
  unfold FitsI64 at hbefore
  rw [abs_le] at hstep
  rw [abs_lt]
  omega

/-- The sum behind any packets of a run on the timeline has not wrapped. -/
theorem OnTimeline.sum_fits (hfresh : Fresh track) (htype : track.payloadType = some type)
    (h : OnTimeline type track packets) (hsplit : packets = front ++ back) :
    FitsI64 (elapsed (stampsOf front) * 90000) := by
  induction front using List.reverseRecOn generalizing back with
  | nil => decide
  | append_singleton front packet ih =>
    rw [List.append_assoc, List.singleton_append] at hsplit
    have hbefore := ih hsplit
    cases hread : accessUnits packet.2.1 with
    | none =>
      rw [stampsOf_concat_of_none hread]
      exact hbefore
    | some units =>
      obtain ⟨anchor, hsettled, -⟩ := exists_anchor_of_split hsplit hread
      have hfirst := (h.fits hfresh htype hsplit hread hsettled hbefore).2 0
        (List.length_pos_iff.mpr (accessUnits_ne_nil hread))
      simpa [offset] using hfirst.1

theorem OnTimeline.within (hfresh : Fresh track) (htype : track.payloadType = some type)
    (h : OnTimeline type track packets) : WithinI64 packets := by
  intro front packet back units anchor hsplit hread hanchor
  exact h.fits hfresh htype hsplit hread hanchor (h.sum_fits hfresh htype hsplit)

/-- **The audio timeline does not drift**, as long as no intermediate result leaves the range of an
`i64`, and only then. -/
theorem timeline_exact_iff {track : AudioTrack} (hfresh : Fresh track) {type : UInt8}
    (htype : track.payloadType = some type) (packets : List Arrival) :
    OnTimeline type track packets ↔ WithinI64 packets :=
  ⟨fun h => h.within hfresh htype, onTimeline_of_within hfresh htype⟩

def samplePayload (count : ℕ) : Bytes :=
  u16ToBe (UInt16.ofNat (count * 16)) ++ (List.replicate count [0x00, 0x20]).flatten ++
    (List.replicate count [0x01, 0x40, 0x20, 0x00]).flatten

def sampleTrack : AudioTrack := ({} : AudioTrack).detect 97 0 (samplePayload 8) 90000

theorem sampleTrack_fresh : Fresh sampleTrack := Fresh.new.detect _ _ _ _

/-- One packet. -/
theorem timeline_exact_sample : OnTimeline 97 sampleTrack [(5, samplePayload 1, 90000)] := by
  refine (timeline_exact_iff sampleTrack_fresh (by decide) _).mpr ?_
  intro front packet back units anchor hsplit hread hanchor
  cases front with
  | cons first front => simp at hsplit
  | nil =>
    obtain ⟨rfl, rfl⟩ := List.cons.inj hsplit
    obtain rfl := Option.some.inj ((by decide :
      accessUnits (samplePayload 1) = some [[0x01, 0x40, 0x20, 0x00]]).symm.trans hread)
    obtain rfl := Option.some.inj ((by decide :
      anchorOf [(5, samplePayload 1, 90000)] = some 90000).symm.trans hanchor)
    refine ⟨by decide, fun j hj => ?_⟩
    obtain rfl := Nat.lt_one_iff.mp hj
    decide

/-- Packets of one unit whose timestamps advance by the largest step of the clock. -/
def leaps (count : ℕ) : List Arrival :=
  (List.range count).map fun i => (UInt32.ofNat (i * 2147483647), samplePayload 1, 90000)

theorem stampsOf_leaps (count : ℕ) :
    stampsOf (leaps count) = (List.range count).map fun i => UInt32.ofNat (i * 2147483647) := by
  have hread : accessUnits (samplePayload 1) = some [[0x01, 0x40, 0x20, 0x00]] := by decide
  rw [stampsOf, leaps, List.filterMap_map]
  simp only [Function.comp_def, hread, Option.map_some]
  exact congrFun List.filterMap_eq_map' _

theorem elapsed_leaps (count : ℕ) :
    elapsed (stampsOf (leaps (count + 1))) = count * 2147483647 := by
  rw [stampsOf_leaps]
  induction count with
  | zero => rfl
  | succ count ih =>
    have hstep : signedStep (UInt32.ofNat (count * 2147483647))
        (UInt32.ofNat ((count + 1) * 2147483647)) = 2147483647 := by
      rw [signedStep, Nat.succ_mul, UInt32.ofNat_add, UInt32.add_comm, UInt32.add_sub_cancel]
      rfl
    rw [List.range_succ, List.map_append, List.map_singleton] at ih
    rw [List.range_succ, List.range_succ, List.map_append, List.map_append, List.map_singleton,
      List.map_singleton, elapsed_concat, hstep, ih]
    push_cast
    ring

/-- Behind 47723 of them the product has wrapped. -/
theorem timeline_leaves_range : ¬ OnTimeline 97 sampleTrack (leaps 47723) := by
  intro h
  have hfits := h.sum_fits sampleTrack_fresh (by decide) (List.append_nil _).symm
  rw [elapsed_leaps 47722] at hfits
  revert hfits
  decide

end AudioTrack

end EzvizBridge
