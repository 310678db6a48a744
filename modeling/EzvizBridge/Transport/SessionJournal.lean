import EzvizBridge.Lib.Journal
import EzvizBridge.Transport.AudioDetection
import EzvizBridge.Transport.AudioTimeline
import EzvizBridge.Transport.RtpTsStreams

/-!
# The time stamps of a session

Every time stamp that `RtpToTs` hands to the muxer goes through `non_negative`, and the transport
stream shows only what comes out of it. The journal of a session (`sessionJournal`) records what
goes in: which timestamps the video clock advances to, which packets are passed to `frames`, and
which time stamps reach `non_negative`. It covers every session, the packet that ends it with an
error included, and the units that `finish` writes.

`Journaled` ties the journal to the state. Behind any packets the time stamps passed are those of
the accepted units and of the frames of the packets, computed from the two lists alone
(`session_passed`).
-/

namespace EzvizBridge

namespace AudioTrack

open Aac

/-! ### The frames of some packets -/

/-- The time stamps of the frames of `packet`, passed behind the packets `front`. -/
def ticks (front : List Arrival) (packet : Arrival) : List ℤ :=
  match accessUnits packet.2.1, anchorOf (front ++ [packet]) with
  | some units, some anchor =>
    (List.range units.length).map fun j =>
      wrappedPts (wrapI64 anchor) (offset front packet + 1024 * (j : ℕ))
  | _, _ => []

/-- The time stamps of the frames of some packets, one after the other. -/
def allTicks (front : List Arrival) : List Arrival → List ℤ
  | [] => []
  | packet :: packets => ticks front packet ++ allTicks (front ++ [packet]) packets

/-- The time stamps of more packets follow those of the packets before them. -/
theorem allTicks_append (front packets more : List Arrival) :
    allTicks front (packets ++ more) =
      allTicks front packets ++ allTicks (front ++ packets) more := by
  induction packets generalizing front with
  | nil => rw [List.nil_append, allTicks, List.nil_append, List.append_nil]
  | cons packet packets ih =>
    rw [List.cons_append, allTicks, allTicks, ih, List.append_assoc, List.append_assoc,
      List.singleton_append]

variable {type : UInt8} {track : AudioTrack} {front : List Arrival}

/-- One packet: its frames have the time stamps of its ticks, and the track has counted it. -/
theorem Clocked.frames (h : Clocked type front track) (packet : Arrival) :
    let result := track.frames type packet.1 packet.2.1 packet.2.2
    result.1.map Prod.fst = ticks front packet ∧ Clocked type (front ++ [packet]) result.2 := by
  intro result
  cases hread : accessUnits packet.2.1 with
  | none =>
    obtain ⟨hframes, hclocked⟩ := h.frames_unreadable hread
    have hresult : result = ([], track) := hframes
    rw [hresult, ticks, hread]
    exact ⟨rfl, hclocked⟩
  | some units =>
    obtain ⟨anchor, hanchor⟩ := exists_anchor hread front
    rw [ticks, hread, hanchor]
    exact h.frames_readable hread hanchor

/-- Several packets, one after the other. -/
theorem Clocked.framesOfAll (h : Clocked type front track) (packets : List Arrival) :
    (AudioTrack.framesOfAll type track packets).1.map Prod.fst = allTicks front packets ∧
    Clocked type (front ++ packets) (AudioTrack.framesOfAll type track packets).2 := by
  -- on the packets; the track has counted those before
  induction packets generalizing front track with
  | nil =>
    rw [List.append_nil]
    exact ⟨rfl, h⟩
  | cons packet packets ih =>
    obtain ⟨hpts, hclocked⟩ := h.frames packet
    obtain ⟨hrest, hclocked'⟩ := ih hclocked
    rw [List.append_assoc, List.singleton_append] at hclocked'
    refine ⟨?_, hclocked'⟩
    rw [allTicks, ← hpts, ← hrest, ← List.map_append]
    rfl

/-! ### The pending packets -/

theorem mem_pending_giveUp {packet : Arrival} (h : packet ∈ track.giveUp.pending) : False := by
  unfold AudioTrack.giveUp at h
  dsimp only at h
  split at h <;> exact absurd h List.not_mem_nil

/-- A packet that waits after the consideration of one more has waited before, or is this packet. -/
theorem mem_pending_consider {packet : Arrival} {payloadType : UInt8} {timestamp : UInt32}
    {payload : Bytes} {videoPts : ℤ}
    (h : packet ∈ (track.consider payloadType timestamp payload videoPts).pending) :
    packet ∈ track.pending ∨ packet = (timestamp, payload, videoPts) := by
  -- the packet is kept only while the type is not decided
  unfold consider at h
  split at h
  · exact absurd h List.not_mem_nil
  · split at h
    · split at h
      · obtain hold | hnew := List.mem_append.mp h
        · exact Or.inl hold
        · exact Or.inr (List.mem_singleton.mp hnew)
      · exact Or.inr (List.mem_singleton.mp h)
    · exact Or.inr (List.mem_singleton.mp h)

/-- A packet that waits after one more packet of the probe has waited before, or is this packet. -/
theorem mem_pending_detect {packet : Arrival} {payloadType : UInt8} {timestamp : UInt32}
    {payload : Bytes} {videoPts : ℤ}
    (h : packet ∈ (track.detect payloadType timestamp payload videoPts).pending) :
    packet ∈ track.pending ∨ packet = (timestamp, payload, videoPts) := by
  -- the probe counts the packet first
  have hconsider : packet ∈ (({ track with probed := track.probed + 1 } : AudioTrack).consider
      payloadType timestamp payload videoPts).pending →
      packet ∈ track.pending ∨ packet = (timestamp, payload, videoPts) :=
    @mem_pending_consider { track with probed := track.probed + 1 } _ _ _ _ _
  unfold detect at h
  split at h
  · exact Or.inl h
  · dsimp only at h
    split at h
    · split at h
      · exact hconsider h
      · split at h
        · exact (mem_pending_giveUp h).elim
        · exact hconsider h
    · split at h
      · exact (mem_pending_giveUp h).elim
      · exact hconsider h

end AudioTrack

namespace RtpToTs

open AudioTrack

/-! ### The journal -/

/-- What is recorded of a session. -/
inductive Entry
  /-- The video clock has advanced to this timestamp. -/
  | shown (timestamp : UInt32)
  /-- The packet has been passed to `frames`, and its type is that of the track. -/
  | sounded (packet : Arrival)
  /-- The time stamp has been passed to `non_negative`. -/
  | passed (pts : ℤ)
  deriving DecidableEq

/-- The timestamps that the video clock has advanced to. -/
def shownIn (js : List Entry) : List UInt32 :=
  js.filterMap fun | .shown timestamp => some timestamp | _ => none

/-- The packets of the track. -/
def soundedIn (js : List Entry) : List Arrival :=
  js.filterMap fun | .sounded packet => some packet | _ => none

/-- The time stamps passed to `non_negative`. -/
def passedIn (js : List Entry) : List ℤ :=
  js.filterMap fun | .passed pts => some pts | _ => none

/-- The time stamps of a release, in the order of its calls: see `interleave`. -/
def releasedPts : List HeldUnit → List (ℤ × Bytes) → List ℤ
  | [], frames => frames.map Prod.fst
  | unit :: held, frames =>
    (frames.takeWhile fun frame => frame.1 < unit.pts).map Prod.fst ++
      unit.pts :: releasedPts held (frames.dropWhile fun frame => frame.1 < unit.pts)

/-- `release_held`. -/
def releaseJournal (s : RtpToTs) (frames : List (ℤ × Bytes)) : List Entry :=
  if s.video.codec = none ∨ s.audio.probe = .undecided ∨ s.started = false then []
  else (releasedPts s.held frames).map .passed

/-- The timestamps of two journals are those of the first and then those of the second. -/
@[simp] theorem shownIn_append (js ks : List Entry) :
    shownIn (js ++ ks) = shownIn js ++ shownIn ks :=
  List.filterMap_append

/-- The packets of two journals are those of the first and then those of the second. -/
@[simp] theorem soundedIn_append (js ks : List Entry) :
    soundedIn (js ++ ks) = soundedIn js ++ soundedIn ks :=
  List.filterMap_append

/-- What two journals have passed is what the first has and then what the second has. -/
@[simp] theorem passedIn_append (js ks : List Entry) :
    passedIn (js ++ ks) = passedIn js ++ passedIn ks :=
  List.filterMap_append

/-- A time stamp of the video: that of one of the timestamps shown. -/
def OnVideo (stamps : List UInt32) (pts : ℤ) : Prop :=
  ∃ front, front <+: stamps ∧ pts = ptsBase + elapsed front

/-- A time stamp of the video stays one when more units are accepted. -/
theorem OnVideo.append {stamps : List UInt32} {pts : ℤ} (h : OnVideo stamps pts)
    (more : List UInt32) : OnVideo (stamps ++ more) pts := by
  obtain ⟨front, hfront, hpts⟩ := h
  exact ⟨front, hfront.trans (List.prefix_append _ _), hpts⟩

/-- What has been passed to `non_negative`: time stamps of the video, and those of all frames. -/
structure Sound (js : List Entry) : Prop where
  sound : ∀ pts ∈ passedIn js, OnVideo (shownIn js) pts ∨ pts ∈ allTicks [] (soundedIn js)
  complete : ∀ pts ∈ allTicks [] (soundedIn js), pts ∈ passedIn js

/-- The clocks of the two halves hold what the journal says, and so do the units held back. -/
structure Ticking (js : List Entry) (s : RtpToTs) : Prop where
  clock_eq : s.started = true → s.clock = clockOf (shownIn js)
  idle : s.started = false → shownIn js = []
  lastPts_eq : s.lastPts = ptsBase + elapsed (shownIn js)
  audioClock_eq : s.audio.clock = clockOf (stampsOf (soundedIn js))
  anchor_eq : s.audio.anchor = (anchorOf (soundedIn js)).map wrapI64
  silent : s.audio.payloadType = none → soundedIn js = []
  held : ∀ unit ∈ s.held, OnVideo (shownIn js) unit.pts
  pending : ∀ packet ∈ s.audio.pending, OnVideo (shownIn js) packet.2.2
  arrived : ∀ packet ∈ soundedIn js, OnVideo (shownIn js) packet.2.2

/-- The journal tells what the state is made of. -/
structure Journaled (js : List Entry) (s : RtpToTs) : Prop where
  hold : Hold s
  ticking : Ticking js s
  sound : Sound js

variable {js : List Entry} {s : RtpToTs}

/-- The clocks and the queue are all that `Ticking` speaks of. -/
theorem Ticking.congr {s' : RtpToTs} (h : Ticking js s) (hstarted : s'.started = s.started)
    (hclock : s'.clock = s.clock) (hlast : s'.lastPts = s.lastPts)
    (haudio : s'.audio.clock = s.audio.clock ∧ s'.audio.anchor = s.audio.anchor)
    (htype : s'.audio.payloadType = none → s.audio.payloadType = none)
    (hheld : ∀ unit ∈ s'.held, unit ∈ s.held)
    (hpending : ∀ packet ∈ s'.audio.pending, packet ∈ s.audio.pending) : Ticking js s' where
  clock_eq hs := hclock.trans (h.clock_eq (hstarted ▸ hs))
  idle hs := h.idle (hstarted ▸ hs)
  lastPts_eq := hlast.trans h.lastPts_eq
  audioClock_eq := haudio.1.trans h.audioClock_eq
  anchor_eq := haudio.2.trans h.anchor_eq
  silent hnone := h.silent (htype hnone)
  held unit hunit := h.held unit (hheld unit hunit)
  pending packet hpacket := h.pending packet (hpending packet hpacket)
  arrived := h.arrived

/-! ### A release -/

/-- A release that only passes time stamps on. -/
theorem release_entries (s : RtpToTs) (frames : List (ℤ × Bytes)) :
    shownIn (s.releaseJournal frames) = [] ∧ soundedIn (s.releaseJournal frames) = [] := by
  unfold releaseJournal
  split
  · exact ⟨rfl, rfl⟩
  · rw [shownIn, soundedIn, List.filterMap_map, List.filterMap_map]
    exact ⟨List.filterMap_none _, List.filterMap_none _⟩

/-- The time stamp that a call shows. -/
def callPts : TsMuxer.Call → Option UInt64
  | .enableAudio => none
  | .video pts _ _ | .audio pts _ => some pts

/-- They are those of what is held and of the frames. -/
theorem mem_releasedPts {held : List HeldUnit} {frames : List (ℤ × Bytes)} {pts : ℤ} :
    pts ∈ releasedPts held frames ↔
      (∃ unit ∈ held, unit.pts = pts) ∨ ∃ frame ∈ frames, frame.1 = pts := by
  -- on the units that are held; each of them releases the frames before it
  induction held generalizing frames with
  | nil => simp [releasedPts]
  | cons unit held ih =>
    have hmem : ∀ frame, frame ∈ frames ↔
        frame ∈ frames.takeWhile (fun frame => frame.1 < unit.pts) ∨
        frame ∈ frames.dropWhile (fun frame => frame.1 < unit.pts) := by
      intro frame
      rw [← List.mem_append, List.takeWhile_append_dropWhile]
    rw [releasedPts, List.mem_append, List.mem_map, List.mem_cons, ih]
    simp only [hmem, List.mem_cons]
    grind

/-- It passes nothing but the time stamps of what is held and of the frames. -/
theorem mem_passed_release {frames : List (ℤ × Bytes)} {pts : ℤ}
    (h : pts ∈ passedIn (s.releaseJournal frames)) :
    (∃ unit ∈ s.held, unit.pts = pts) ∨ ∃ frame ∈ frames, frame.1 = pts := by
  unfold releaseJournal at h
  split at h
  · exact absurd h List.not_mem_nil
  · apply mem_releasedPts.mp
    rw [passedIn, List.filterMap_map] at h
    obtain ⟨pts', hmem, hpts⟩ := List.mem_filterMap.mp h
    exact Option.some.inj hpts ▸ hmem

/-- What a release leaves of the queue was in it. -/
theorem mem_held_release {frames : List (ℤ × Bytes)} {unit : HeldUnit}
    (h : unit ∈ (s.releaseHeld frames).2.held) : unit ∈ s.held := by
  unfold releaseHeld at h
  split at h
  · exact h
  · split at h
    · exact h
    · exact absurd h List.not_mem_nil

/-- A release leaves the clocks alone. -/
theorem Ticking.release (h : Ticking js s) (frames : List (ℤ × Bytes)) :
    Ticking (js ++ s.releaseJournal frames) (s.releaseHeld frames).2 := by
  obtain ⟨hshown, hsounded⟩ := s.release_entries frames
  have hframe := s.releaseHeld_frame frames
  have hsame : Ticking js (s.releaseHeld frames).2 := by
    refine h.congr ?_ ?_ ?_ ?_ ?_ (fun unit hunit => mem_held_release hunit) ?_
    all_goals rw [hframe]
    · exact ⟨rfl, rfl⟩
    · exact id
    · exact fun _ => id
  refine ⟨?_, ?_, ?_, ?_, ?_, ?_, ?_, ?_, ?_⟩
  -- the release shows no unit and sounds no packet
  all_goals simp only [shownIn_append, soundedIn_append, hshown, hsounded, List.append_nil]
  · exact hsame.clock_eq
  · exact hsame.idle
  · exact hsame.lastPts_eq
  · exact hsame.audioClock_eq
  · exact hsame.anchor_eq
  · exact hsame.silent
  · exact hsame.held
  · exact hsame.pending
  · exact hsame.arrived

/-- A release of the units held, without frames. -/
theorem Sound.release (h : Sound js) (hheld : ∀ unit ∈ s.held, OnVideo (shownIn js) unit.pts) :
    Sound (js ++ s.releaseJournal []) := by
  obtain ⟨hshown, hsounded⟩ := s.release_entries []
  refine ⟨fun pts hpts => ?_, fun pts hpts => ?_⟩
  · rw [passedIn_append, List.mem_append] at hpts
    rw [shownIn_append, soundedIn_append, hshown, hsounded, List.append_nil, List.append_nil]
    obtain hpts | hpts := hpts
    · exact h.sound pts hpts
    -- what is passed is a unit that was held
    · obtain ⟨unit, hunit, rfl⟩ | ⟨frame, hframe, -⟩ := mem_passed_release hpts
      · exact Or.inl (hheld unit hunit)
      · exact absurd hframe List.not_mem_nil
  · rw [soundedIn_append, hsounded, List.append_nil] at hpts
    rw [passedIn_append]
    exact List.mem_append_left _ (h.complete pts hpts)

/-! ### Closing a unit -/

theorem giveUp_type (track : AudioTrack) : track.giveUp.payloadType = track.payloadType := by
  unfold AudioTrack.giveUp
  dsimp only
  split <;> rfl

theorem Ticking.giveUp (h : Ticking js s) : Ticking js { s with audio := s.audio.giveUp } :=
  h.congr rfl rfl rfl (giveUp_clock s.audio) (fun hnone => (giveUp_type s.audio).symm.trans hnone)
    (fun _ hunit => hunit) fun _ hpacket => (mem_pending_giveUp hpacket).elim

/-- What is held against the bounds is held already. -/
theorem Ticking.boundHeld (h : Ticking js s) (pts : ℤ) : Ticking js (s.boundHeld pts) := by
  unfold RtpToTs.boundHeld
  dsimp only
  split
  · exact h.giveUp
  · exact h

/-- The clock that stamps a unit has advanced over the timestamps shown so far. -/
theorem Ticking.clock (h : Ticking js s) :
    (if s.started then s.clock else {}) = clockOf (shownIn js) := by
  cases hs : s.started with
  | true => exact h.clock_eq hs
  | false =>
    rw [h.idle hs]
    rfl

/-- A unit that is accepted is stamped with the timestamps up to its own. -/
theorem Ticking.accepted (h : Ticking js s) (codec : VideoCodec) (timestamp : UInt32)
    (data : Bytes) :
    Ticking (js ++ [.shown timestamp])
      (({ s with unitTimestamp := none, unit := [] } : RtpToTs).accepted codec
        (if s.started then s.clock else {}) timestamp data) := by
  have hshown : shownIn (js ++ [.shown timestamp]) = shownIn js ++ [timestamp] := shownIn_append _ _
  have hsounded : soundedIn (js ++ [.shown timestamp]) = soundedIn js :=
    (soundedIn_append _ _).trans (List.append_nil _)
  rw [h.clock, RtpToTs.accepted, clockOf_advance]
  refine ⟨fun _ => ?_, fun hs => Bool.noConfusion hs, ?_, ?_, ?_, fun hnone => ?_,
    fun unit hunit => ?_, fun packet hpacket => ?_, fun packet hpacket => ?_⟩
  · rw [hshown]
  · rw [hshown]
  · rw [hsounded]
    exact h.audioClock_eq
  · rw [hsounded]
    exact h.anchor_eq
  · rw [hsounded]
    exact h.silent hnone
  -- a unit that is held is an older one, or the one that was accepted
  · rw [hshown]
    obtain hheld | hnew := List.mem_append.mp hunit
    · exact (h.held unit hheld).append _
    · rw [List.mem_singleton.mp hnew]
      exact ⟨_, List.prefix_rfl, rfl⟩
  · rw [hshown]
    exact (h.pending packet hpacket).append _
  · rw [hsounded] at hpacket
    rw [hshown]
    exact (h.arrived packet hpacket).append _

/-- A unit that is accepted has passed nothing yet. -/
theorem Sound.shown (h : Sound js) (timestamp : UInt32) : Sound (js ++ [.shown timestamp]) := by
  have hsounded : soundedIn (js ++ [.shown timestamp]) = soundedIn js :=
    (soundedIn_append _ _).trans (List.append_nil _)
  have hpassed : passedIn (js ++ [.shown timestamp]) = passedIn js :=
    (passedIn_append _ _).trans (List.append_nil _)
  refine ⟨fun pts hpts => ?_, fun pts hpts => ?_⟩
  · rw [hpassed] at hpts
    rw [hsounded, shownIn_append]
    exact (h.sound pts hpts).imp_left fun hvideo => hvideo.append _
  · rw [hsounded] at hpts
    rw [hpassed]
    exact h.complete pts hpts

/-- The last time stamp of the video is one of the video. -/
theorem Ticking.onVideo (h : Ticking js s) : OnVideo (shownIn js) s.lastPts :=
  ⟨_, List.prefix_rfl, h.lastPts_eq⟩

/-- The probe of a packet leaves the clocks alone. -/
theorem Ticking.detecting (h : Ticking js s) (packet : OtherPacket) :
    Ticking js (s.detecting packet) where
  clock_eq := h.clock_eq
  idle := h.idle
  lastPts_eq := h.lastPts_eq
  audioClock_eq := (detect_clock _ _ _ _ _).1.trans h.audioClock_eq
  anchor_eq := (detect_clock _ _ _ _ _).2.trans h.anchor_eq
  silent := by
    -- a track that has its type was decided before
    intro hnone
    refine h.silent ?_
    by_contra hsome
    have hdecided : s.audio.probe ≠ .undecided := by
      obtain ⟨type, htype⟩ := Option.ne_none_iff_exists'.mp hsome
      rw [probe_of_type htype]
      decide
    rw [RtpToTs.detecting, detect_of_decided hdecided] at hnone
    exact hsome hnone
  held := h.held
  pending := by
    -- the packet itself may now wait, with the time stamp of the last unit
    intro waiting hwaiting
    obtain hold | rfl := mem_pending_detect hwaiting
    · exact h.pending waiting hold
    · exact h.onVideo
  arrived := h.arrived

theorem soundedIn_map (packets : List Arrival) : soundedIn (packets.map .sounded) = packets := by
  rw [soundedIn, List.filterMap_map]
  exact List.filterMap_some

theorem shownIn_map_sounded (packets : List Arrival) : shownIn (packets.map .sounded) = [] := by
  rw [shownIn, List.filterMap_map]
  exact List.filterMap_none _

theorem passedIn_map_sounded (packets : List Arrival) : passedIn (packets.map .sounded) = [] := by
  rw [passedIn, List.filterMap_map]
  exact List.filterMap_none _

/-- The frames of some packets behind those of the journal: once they are released, the journal has
them all. -/
theorem Sound.frames (h : Sound js) (packets : List Arrival) {frames : List (ℤ × Bytes)}
    (hframes : frames.map Prod.fst = allTicks (soundedIn js) packets) {ks : List Entry}
    (hks : shownIn ks = [] ∧ soundedIn ks = [])
    (hsound : ∀ pts ∈ passedIn ks, OnVideo (shownIn js) pts ∨ ∃ frame ∈ frames, frame.1 = pts)
    (hcomplete : ∀ frame ∈ frames, frame.1 ∈ passedIn ks) :
    Sound (js ++ packets.map .sounded ++ ks) := by
  have hshown : shownIn (js ++ packets.map .sounded ++ ks) = shownIn js := by
    rw [shownIn_append, shownIn_append, shownIn_map_sounded, hks.1, List.append_nil,
      List.append_nil]
  have hsounded : soundedIn (js ++ packets.map .sounded ++ ks) = soundedIn js ++ packets := by
    rw [soundedIn_append, soundedIn_append, soundedIn_map, hks.2, List.append_nil]
  have hpassed : passedIn (js ++ packets.map .sounded ++ ks) = passedIn js ++ passedIn ks := by
    rw [passedIn_append, passedIn_append, passedIn_map_sounded, List.append_nil]
  -- the time stamps of all packets are those of before and those of the frames
  have hmem : ∀ pts, pts ∈ allTicks [] (soundedIn js ++ packets) ↔
      pts ∈ allTicks [] (soundedIn js) ∨ ∃ frame ∈ frames, frame.1 = pts := by
    intro pts
    rw [allTicks_append, List.mem_append, List.nil_append, ← hframes, List.mem_map]
  refine ⟨fun pts hpts => ?_, fun pts hpts => ?_⟩
  · rw [hshown, hsounded, hmem]
    rw [hpassed, List.mem_append] at hpts
    obtain hold | hnew := hpts
    · exact (h.sound pts hold).imp_right Or.inl
    · exact (hsound pts hnew).imp_right Or.inr
  · rw [hsounded, hmem] at hpts
    rw [hpassed, List.mem_append]
    obtain hold | ⟨frame, hframe, rfl⟩ := hpts
    · exact Or.inl (h.complete pts hold)
    · exact Or.inr (hcomplete frame hframe)

/-- The track behind the packets whose frames it has made. -/
theorem Ticking.sounded (h : Ticking js s) {packets : List Arrival} {type : UInt8}
    {track : AudioTrack} (hclocked : Clocked type (soundedIn js ++ packets) track)
    (hpending : ∀ packet ∈ track.pending, packet ∈ s.audio.pending)
    (harrived : ∀ packet ∈ packets, OnVideo (shownIn js) packet.2.2) :
    Ticking (js ++ packets.map .sounded) { s with audio := track } := by
  have hshown : shownIn (js ++ packets.map .sounded) = shownIn js := by
    rw [shownIn_append, shownIn_map_sounded, List.append_nil]
  have hsounded : soundedIn (js ++ packets.map .sounded) = soundedIn js ++ packets := by
    rw [soundedIn_append, soundedIn_map]
  refine ⟨?_, ?_, ?_, ?_, ?_, fun hnone => ?_, ?_, ?_, fun packet hpacket => ?_⟩
  all_goals simp only [hshown, hsounded]
  · exact h.clock_eq
  · exact h.idle
  · exact h.lastPts_eq
  · exact hclocked.clock_eq
  · exact hclocked.anchor_eq
  · have hsome := hclocked.type_eq
    rw [show track.payloadType = none from hnone] at hsome
    cases hsome
  · exact h.held
  · exact fun packet hpacket => h.pending packet (hpending packet hpacket)
  -- a packet has arrived before, or is one of these
  · rw [hsounded] at hpacket
    obtain hold | hnew := List.mem_append.mp hpacket
    · exact h.arrived packet hold
    · exact harrived packet hnew

theorem Journaled.buffered (h : Journaled js s) (timestamp : UInt32) (unit : Bytes) :
    Journaled js { s with unitTimestamp := some timestamp, unit := unit } :=
  ⟨⟨h.hold.idle, h.hold.known, h.hold.drained⟩,
    h.ticking.congr rfl rfl rfl ⟨rfl, rfl⟩ id (fun _ hunit => hunit) fun _ => id, h.sound⟩

end RtpToTs

end EzvizBridge
